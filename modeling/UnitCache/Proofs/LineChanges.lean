import UnitCache.Proofs.CommentRegions

/-! What a change to one line does to the directives of a text. The line's own directive aside, all
that it can change is whether the next line starts inside a block comment. So a comment put before
a line costs only that line's directive, and the characters of a string literal matter to the lines
below just as those of code would: a mark in a literal opens a comment. -/

namespace UnitCache.Directive
open Region Text

theorem ofLines_line {line rest : List Char} (clean : '\n' ∉ line) (ends : StartsAtEnd rest)
    (inside : Bool) (number : Nat) :
    ofLines inside number (lines (line ++ rest)) = (onLine inside number line).toList ++
      ofLines (leavesOpen inside line) (number + 1) (lines rest.tail) := by
  rcases ends with rfl | ends
  · rw [List.append_nil]
    by_cases empty : line = []
    · subst empty
      cases inside <;> rfl
    · rw [lines_last empty clean, ofLines_cons]
      rfl
  · obtain ⟨rest, rfl⟩ := List.head?_eq_some_iff.mp ends
    rw [lines_ended clean, ofLines_cons, onLine_dropReturn, leavesOpen_dropReturn clean]
    rfl

/-- A line of a text that starts outside of block comments, with what stands before and after it. -/
structure CodeLine (before line rest : String) : Prop where
  starts : EndsLine before.toList
  clean : '\n' ∉ line.toList
  ends : StartsAtEnd rest.toList
  outside : code.after before.toList ≠ .blockComment

def numberAfter (before : String) : Nat := before.toList.count '\n' + 1

/-- The directives of a text that stand on other lines than the given one. -/
def elsewhere (before line rest : String) : List Directive :=
  (ofText (before ++ line ++ rest)).filter (·.line ≠ numberAfter before)

private theorem ofText_append {before : String} (starts : EndsLine before.toList) (rest : String) :
    ofText (before ++ rest) = ofText before ++
      ofLines (decide (code.after before.toList = .blockComment)) (numberAfter before)
        (lines rest.toList) := by
  rw [ofText, String.toList_append, lines_append starts, ofLines_append, foldl_leavesOpen,
    length_lines starts, Nat.add_comm 1]
  rfl

namespace CodeLine

variable {before line rest : String}

private theorem ofText_eq (whole : CodeLine before line rest) :
    ofText (before ++ line ++ rest) = ofText before ++
      ((onLine false (numberAfter before) line.toList).toList ++
        ofLines (leavesOpen false line.toList) (numberAfter before + 1)
          (lines rest.toList.tail)) := by
  rw [String.append_assoc, ofText_append whole.starts, decide_eq_false whole.outside,
    String.toList_append, ofLines_line whole.clean whole.ends]

theorem elsewhere_eq (whole : CodeLine before line rest) :
    elsewhere before line rest = ofText before ++
      ofLines (leavesOpen false line.toList) (numberAfter before + 1) (lines rest.toList.tail) := by
  rw [elsewhere, whole.ofText_eq, List.filter_append, List.filter_append]
  have above : (ofText before).filter (·.line ≠ numberAfter before) = ofText before := by
    refine List.filter_eq_self.mpr fun directive member => decide_eq_true ?_
    have bound := (bounds_of_mem_ofLines member).2
    rw [length_lines whole.starts] at bound
    unfold numberAfter
    omega
  have own : (onLine false (numberAfter before) line.toList).toList.filter
      (·.line ≠ numberAfter before) = [] := by
    refine List.filter_eq_nil_iff.mpr fun directive member => ?_
    simp [line_of_onLine (Option.mem_toList.mp member)]
  have below : ∀ inside, (ofLines inside (numberAfter before + 1) (lines rest.toList.tail)).filter
      (·.line ≠ numberAfter before) =
        ofLines inside (numberAfter before + 1) (lines rest.toList.tail) := by
    refine fun inside => List.filter_eq_self.mpr fun directive member => decide_eq_true ?_
    have bound := (bounds_of_mem_ofLines member).1
    omega
  rw [above, own, below, List.nil_append]

/-- A line takes nothing from its text if and only if it is no include directive. -/
theorem elsewhere_eq_ofText_iff (whole : CodeLine before line rest) :
    elsewhere before line rest = ofText (before ++ line ++ rest) ↔ ofLine? line.toList = none := by
  have own : onLine false (numberAfter before) line.toList =
      (ofLine? line.toList).map fun inclusion => ⟨inclusion, numberAfter before⟩ := rfl
  rw [whole.elsewhere_eq, whole.ofText_eq, List.append_cancel_left_eq, List.self_eq_append_left,
    own, Option.toList_eq_nil_iff, Option.map_eq_none_iff]

end CodeLine

def withComment (comment line : String) : String := "/*" ++ comment ++ "*/" ++ line

private theorem toList_withComment (comment line : String) : (withComment comment line).toList =
    '/' :: '*' :: (comment.toList ++ '*' :: '/' :: line.toList) := by
  simp [withComment, String.toList_append]

theorem onLine_withComment (number : Nat) (comment line : String) :
    onLine false number (withComment comment line).toList = none := by
  rw [toList_withComment]
  rfl

section Comments

variable {before line rest comment : String} (oneLine : '\n' ∉ comment.toList)
  (body : ¬['*', '/'] <:+: comment.toList)

include oneLine

private theorem CodeLine.withComment (whole : CodeLine before line rest) :
    CodeLine before (withComment comment line) rest where
  starts := whole.starts
  clean := by simp [toList_withComment, oneLine, whole.clean]
  ends := whole.ends
  outside := whole.outside

include body

theorem leavesOpen_withComment (whole : CodeLine before line rest) :
    leavesOpen false (Directive.withComment comment line).toList =
      leavesOpen false line.toList := by
  rw [leavesOpen_eq (whole.withComment oneLine).clean, leavesOpen_eq whole.clean,
    toList_withComment, show (ofInside false).after
      ('/' :: '*' :: (comment.toList ++ '*' :: '/' :: line.toList)) =
      blockComment.after (comment.toList ++ '*' :: '/' :: line.toList) from rfl,
    blockComment_after, afterComment?_append body]
  rfl

end Comments

/-- A block comment put before a line that starts outside of block comments keeps the directives of
all other lines, and costs the line its own. What follows the end of a comment from a line above is
read as a directive. -/
theorem leading_comment_costs_own_directive {before line rest comment : String}
    (whole : CodeLine before line rest) (oneLine : '\n' ∉ comment.toList)
    (body : ¬['*', '/'] <:+: comment.toList) :
    let plain := ofText (before ++ line ++ rest)
    let commented := ofText (before ++ withComment comment line ++ rest)
    commented = elsewhere before line rest ∧
    (commented = plain ↔ ofLine? line.toList = none) ∧
    (∀ opened : String, EndsLine opened.toList → code.after opened.toList = .blockComment →
      ∀ inclusion, ofLine? line.toList = some inclusion →
        ⟨inclusion, numberAfter opened⟩ ∈
          ofText (opened ++ (comment ++ "*/" ++ line) ++ rest)) := by
  intro plain commented
  have kept : commented = elsewhere before line rest := by
    rw [whole.elsewhere_eq, ← leavesOpen_withComment oneLine body whole]
    exact (whole.withComment oneLine).ofText_eq.trans (by rw [onLine_withComment]; rfl)
  refine ⟨kept, kept ▸ whole.elsewhere_eq_ofText_iff, ?_⟩
  intro opened starts inside inclusion read
  have spelled : (comment ++ "*/" ++ line).toList =
      comment.toList ++ '*' :: '/' :: line.toList := by simp [String.toList_append]
  have found : onLine true (numberAfter opened) (comment ++ "*/" ++ line).toList =
      some ⟨inclusion, numberAfter opened⟩ := by
    rw [onLine, code?, if_pos rfl, spelled, afterComment?_append body, Option.bind_some, read]
    rfl
  have clean : '\n' ∉ (comment ++ "*/" ++ line).toList := by
    simp [spelled, oneLine, whole.clean]
  rw [String.append_assoc, ofText_append starts, inside, String.toList_append,
    ofLines_line clean whole.ends, decide_eq_true rfl, found]
  simp

theorem comment_before_other_code :
    let before := "#include <a.h>\n"
    let line := "int x; // /*"
    let rest := "\n#include <b.h>"
    CodeLine before line rest ∧ '\n' ∉ " x ".toList ∧ ¬['*', '/'] <:+: " x ".toList ∧
    (ofText (before ++ line ++ rest)).length = 2 ∧
    ofText (before ++ withComment " x " line ++ rest) = ofText (before ++ line ++ rest) := by
  intro before line rest
  have whole : CodeLine before line rest :=
    ⟨.inr (by decide), by decide, .inr (by decide), by decide⟩
  have body : ¬['*', '/'] <:+: " x ".toList := by decide
  have kept := (leading_comment_costs_own_directive whole (by decide) body).2.1
  exact ⟨whole, by decide, body, by decide +kernel, kept.mpr (by decide +kernel)⟩

theorem comment_before_directive_hides_it :
    CodeLine "" "#include \"a.h\"" "\n" ∧ '\n' ∉ " c ".toList ∧ ¬['*', '/'] <:+: " c ".toList ∧
    ofText ("" ++ "#include \"a.h\"" ++ "\n") = [⟨⟨"a.h", .quoted⟩, 1⟩] ∧
    ofText ("" ++ withComment " c " "#include \"a.h\"" ++ "\n") = [] := by
  refine ⟨⟨.inl rfl, by decide, .inr (by decide), by decide⟩, by decide, by decide, ?_⟩
  decide +kernel

def Opens (text : List Char) : Prop := ['/', '*'] <:+: text ∨ ['/', '/'] <:+: text

instance : DecidablePred Opens := fun text =>
  inferInstanceAs (Decidable (['/', '*'] <:+: text ∨ ['/', '/'] <:+: text))

private theorem code_after_of_not_opens {text : List Char} (plain : ¬Opens text) :
    code.after text = .code := by
  induction text with
  | nil => rfl
  | cons char rest ih =>
    rw [Opens, List.infix_cons_iff, List.infix_cons_iff, not_or, not_or, not_or] at plain
    obtain ⟨⟨block, blockLater⟩, line, lineLater⟩ := plain
    rw [after_cons]
    · exact ih fun opens => opens.elim blockLater lineLater
    · rintro - rfl
      simp only [ne_eq, List.head?_eq_some_iff, not_exists]
      refine ⟨?_, ?_⟩
      · rintro more rfl
        exact block (List.prefix_append ['/', '*'] more)
      · rintro more rfl
        exact line (List.prefix_append ['/', '/'] more)
    · exact nofun

private theorem not_opens_of_no_slash {text : List Char} (slash : '/' ∉ text) : ¬Opens text := by
  rintro (opens | opens) <;> exact slash (opens.subset List.mem_cons_self)

def withLiteral (front literal back : String) : String :=
  front ++ "\"" ++ literal ++ "\"" ++ back

private theorem toList_withLiteral (front literal back : String) :
    (withLiteral front literal back).toList =
    front.toList ++ '"' :: (literal.toList ++ '"' :: back.toList) := by
  simp [withLiteral, String.toList_append]

theorem leavesOpen_withLiteral {front literal back : String}
    (clean : '\n' ∉ (withLiteral front literal back).toList) (slash : '/' ∉ front.toList) :
    leavesOpen false (withLiteral front literal back).toList =
      decide ((code.after literal.toList).after back.toList = .blockComment) := by
  rw [leavesOpen_eq clean, toList_withLiteral, show ofInside false = code from rfl,
    after_append_cons (by decide) (by decide),
    code_after_of_not_opens (not_opens_of_no_slash slash), pass_of_open fun _ => by decide,
    after_append_cons (by decide) (by decide), pass_of_open fun _ => by decide]

/-- Readers who stand apart come to lines of which one starts inside a block comment. -/
theorem exists_told_apart {first second : Region} (apart : first ≠ second) :
    ∃ back : String, '\n' ∉ back.toList ∧
      (first.after back.toList = .blockComment ↔ ¬second.after back.toList = .blockComment) := by
  have told : (first = .blockComment ↔ ¬second = .blockComment) ∨
      (first.after ['/', '*'] = .blockComment ↔ ¬second.after ['/', '*'] = .blockComment) := by
    revert apart
    cases first <;> cases second <;> decide
  rcases told with told | told
  · exact ⟨"", by decide, by simpa using told⟩
  · exact ⟨"/*", by decide, told⟩

theorem length_ofLines_include (inside : Bool) (number : Nat) :
    (ofLines inside number ["#include <a>".toList]).length = if inside then 0 else 1 := by
  rw [ofLines_cons]
  cases inside with
  | true => rfl
  | false =>
    have read : ofLine? "#include <a>".toList = some ⟨"a", .angled⟩ := by decide
    rw [onLine, code?, if_neg Bool.false_ne_true, Option.bind_some, read]
    rfl

section Literals

variable {before front literal back rest : String} (starts : EndsLine before.toList)
  (outside : code.after before.toList ≠ .blockComment) (clean : '\n' ∉ front.toList)
  (slash : '/' ∉ front.toList)

include starts outside clean slash

theorem elsewhere_withLiteral (cleanLiteral : '\n' ∉ literal.toList)
    (cleanBack : '\n' ∉ back.toList) (ends : StartsAtEnd rest.toList) :
    elsewhere before (withLiteral front literal back) rest = ofText before ++
      ofLines (decide ((code.after literal.toList).after back.toList = .blockComment))
        (numberAfter before + 1) (lines rest.toList.tail) := by
  have whole : CodeLine before (withLiteral front literal back) rest := by
    refine ⟨starts, ?_, ends, outside⟩
    simp [toList_withLiteral, clean, cleanLiteral, cleanBack]
  rw [whole.elsewhere_eq, leavesOpen_withLiteral whole.clean slash]

/-- The contents of a literal can be exchanged without a change to the directives of other lines if
and only if they lead a reader who takes them for code to one place. They do if no mark in them
opens a comment. -/
theorem literal_contents_count_as_code {first second : String} (cleanFirst : '\n' ∉ first.toList)
    (cleanSecond : '\n' ∉ second.toList) :
    ((∀ back rest, '\n' ∉ back.toList → StartsAtEnd rest.toList →
        elsewhere before (withLiteral front first back) rest =
          elsewhere before (withLiteral front second back) rest) ↔
      code.after first.toList = code.after second.toList) ∧
    (¬Opens first.toList → ¬Opens second.toList →
      ∀ back rest, '\n' ∉ back.toList → StartsAtEnd rest.toList →
        elsewhere before (withLiteral front first back) rest =
          elsewhere before (withLiteral front second back) rest) := by
  have exchanged (same : code.after first.toList = code.after second.toList) (back rest : String)
      (cleanBack : '\n' ∉ back.toList) (ends : StartsAtEnd rest.toList) :
      elsewhere before (withLiteral front first back) rest =
        elsewhere before (withLiteral front second back) rest := by
    rw [elsewhere_withLiteral starts outside clean slash cleanFirst cleanBack ends, same,
      elsewhere_withLiteral starts outside clean slash cleanSecond cleanBack ends]
  refine ⟨⟨fun alike => ?_, exchanged⟩, fun plainFirst plainSecond => exchanged ?_⟩
  · by_contra apart
    obtain ⟨back, cleanBack, told⟩ := exists_told_apart apart
    -- A directive on the next line is found after one of the literals only.
    let rest := "\n#include <a>"
    have ends : StartsAtEnd rest.toList := .inr (by decide)
    have one : lines rest.toList.tail = ["#include <a>".toList] := by decide
    have same := congrArg List.length (alike back rest cleanBack ends)
    rw [elsewhere_withLiteral starts outside clean slash cleanFirst cleanBack ends,
      elsewhere_withLiteral starts outside clean slash cleanSecond cleanBack ends,
      List.length_append, List.length_append, one, length_ofLines_include,
      length_ofLines_include] at same
    by_cases block : (code.after second.toList).after back.toList = .blockComment
    · simp [block, told] at same
    · simp [block, told.mpr block] at same
  · rw [code_after_of_not_opens plainFirst, code_after_of_not_opens plainSecond]

end Literals

theorem apostrophe_in_literal_changes_nothing :
    let before := "/* a\n*/\n"
    let front := "const char *s = "
    let rest := "\n#include <b.h>"
    EndsLine before.toList ∧ code.after before.toList ≠ .blockComment ∧ '\n' ∉ front.toList ∧
    '/' ∉ front.toList ∧ ¬Opens "*/ don't #".toList ∧ ¬Opens "a / b".toList ∧
    ofText (before ++ withLiteral front "*/ don't #" ";" ++ rest) =
      [⟨⟨"b.h", .angled⟩, 4⟩] ∧
    elsewhere before (withLiteral front "*/ don't #" ";") rest =
      elsewhere before (withLiteral front "a / b" ";") rest := by
  intro before front rest
  have starts : EndsLine before.toList := .inr (by decide)
  have outside : code.after before.toList ≠ .blockComment := by decide
  have clean : '\n' ∉ front.toList := by decide
  have slash : '/' ∉ front.toList := by decide
  have plain : ¬Opens "*/ don't #".toList ∧ ¬Opens "a / b".toList := by decide
  have exchanged := (literal_contents_count_as_code starts outside clean slash
    (by decide) (by decide)).2 plain.1 plain.2 ";" rest (by decide) (.inr (by decide))
  exact ⟨starts, outside, clean, slash, plain.1, plain.2, by decide +kernel, exchanged⟩

theorem mark_in_literal_opens_comment :
    let front := "const char *s = "
    let rest := "\n#include \"a.h\"\n"
    ['"', '\'', '/', '#', '\n'].all (· ∉ front.toList) ∧
    ['"', '\\', '\n'].all (fun c => c ∉ "/*".toList ∧ c ∉ "".toList) ∧
    CodeLine "" (withLiteral front "/*" ";") rest ∧ CodeLine "" (withLiteral front "" ";") rest ∧
    elsewhere "" (withLiteral front "/*" ";") rest = [] ∧
    elsewhere "" (withLiteral front "" ";") rest = [⟨⟨"a.h", .quoted⟩, 2⟩] := by
  intro front rest
  have whole (literal : String) (clean : '\n' ∉ (withLiteral front literal ";").toList) :
      CodeLine "" (withLiteral front literal ";") rest :=
    ⟨.inl rfl, clean, .inr (by decide), by decide⟩
  refine ⟨by decide, by decide, whole _ (by decide), whole _ (by decide), ?_, ?_⟩ <;>
    decide +kernel

end UnitCache.Directive
