import Mathlib.Data.List.Infix
import UnitCache.Proofs.DirectiveLines

/-! Where comments are, as a reader finds them who goes through a text character by character. The
scan for directives goes line by line and remembers of the lines above only whether a block comment
is open. That is all it needs: a line comment never outlives its line, and the two characters of an
opening or closing mark are never on two lines. -/

namespace UnitCache

namespace Text

@[elab_as_elim]
private theorem lineInduction {motive : List Char → Prop} (nil : motive [])
    (last : ∀ line, line ≠ [] → '\n' ∉ line → motive line)
    (ended : ∀ line rest, '\n' ∉ line → motive rest → motive (line ++ '\n' :: rest))
    (text : List Char) : motive text := by
  by_cases feed : '\n' ∈ text
  · obtain ⟨line, rest, shape, clean⟩ := List.eq_append_cons_of_mem feed
    have : rest.length < text.length := by
      rw [shape, List.length_append, List.length_cons]
      omega
    rw [shape]
    exact ended line rest clean (lineInduction nil last ended rest)
  · by_cases empty : text = []
    · exact empty ▸ nil
    · exact last text empty feed
termination_by text.length

@[simp] theorem lines_nil : lines [] = [] := by simp [lines]

theorem lines_last {line : List Char} (nonempty : line ≠ []) (clean : '\n' ∉ line) :
    lines line = [line] := by
  simp [lines, List.splitOn_eq_singleton clean, nonempty]

theorem lines_ended {line : List Char} (clean : '\n' ∉ line) (rest : List Char) :
    lines (line ++ '\n' :: rest) = dropReturn line :: lines rest := by
  unfold lines
  rw [List.splitOn_append_cons_self, List.splitOn_eq_singleton clean, List.singleton_append,
    List.reverse_cons]
  cases pieces : (rest.splitOn '\n').reverse with
  | nil => exact absurd (List.reverse_eq_nil_iff.mp pieces) (List.splitOn_ne_nil _ _)
  | cons last ended => simp

theorem dropReturn_cases (line : List Char) :
    dropReturn line = line ∨ line = dropReturn line ++ ['\r'] := by
  unfold dropReturn
  split
  · rename_i returned
    obtain ⟨front, rfl⟩ := List.getLast?_eq_some_iff.mp returned
    exact .inr (by rw [List.dropLast_concat])
  · exact .inl rfl

/-- What stands before a line, where lines are counted from zero. -/
def beforeLine : Nat → List Char → List Char
  | 0, _ => []
  | _ + 1, [] => []
  | count + 1, '\n' :: rest => '\n' :: beforeLine count rest
  | count + 1, char :: rest => char :: beforeLine (count + 1) rest

private theorem beforeLine_last {line : List Char} (clean : '\n' ∉ line) (count : Nat) :
    beforeLine (count + 1) line = line := by
  induction line with
  | nil => rfl
  | cons char rest ih =>
    rw [List.mem_cons, not_or] at clean
    obtain ⟨other, clean⟩ := clean
    rw [beforeLine.eq_4 _ _ _ fun same => other same.symm, ih clean]

private theorem beforeLine_ended {line : List Char} (clean : '\n' ∉ line) (rest : List Char)
    (count : Nat) : beforeLine (count + 1) (line ++ '\n' :: rest) =
      line ++ '\n' :: beforeLine count rest := by
  induction line with
  | nil => rfl
  | cons char front ih =>
    rw [List.mem_cons, not_or] at clean
    obtain ⟨other, clean⟩ := clean
    rw [List.cons_append, beforeLine.eq_4 _ _ _ fun same => other same.symm, ih clean]
    rfl

theorem lines_beforeLine (text : List Char) (count : Nat) :
    lines (beforeLine count text) = (lines text).take count := by
  induction text using lineInduction generalizing count with
  | nil => cases count <;> simp [beforeLine]
  | last line nonempty clean =>
    cases count with
    | zero => simp [beforeLine]
    | succ count => simp [beforeLine_last clean, lines_last nonempty clean]
  | ended line rest clean ih =>
    cases count with
    | zero => simp [beforeLine]
    | succ count =>
      rw [beforeLine_ended clean, lines_ended clean, lines_ended clean, ih, List.take_succ_cons]

/-- A text that a line may follow: it is empty or its last line is ended. -/
def EndsLine (text : List Char) : Prop := text = [] ∨ text.getLast? = some '\n'

/-- A text that may follow a line: it is empty or begins with the end of that line. -/
def StartsAtEnd (text : List Char) : Prop := text = [] ∨ text.head? = some '\n'

private theorem EndsLine.of_append {line rest : List Char}
    (ends : EndsLine (line ++ '\n' :: rest)) :
    EndsLine rest := by
  rcases ends with empty | ends
  · simp at empty
  · by_cases empty : rest = []
    · exact .inl empty
    · rw [List.getLast?_append_of_ne_nil _ (List.cons_ne_nil _ _),
        List.getLast?_cons_of_ne_nil empty] at ends
      exact .inr ends

private theorem not_endsLine_last {line : List Char} (nonempty : line ≠ []) (clean : '\n' ∉ line) :
    ¬EndsLine line := by
  rintro (empty | ends)
  · exact nonempty empty
  · exact clean (List.mem_of_getLast? ends)

theorem lines_append {text : List Char} (ends : EndsLine text) (rest : List Char) :
    lines (text ++ rest) = lines text ++ lines rest := by
  induction text using lineInduction with
  | nil => simp
  | last line nonempty clean => exact absurd ends (not_endsLine_last nonempty clean)
  | ended line more clean ih =>
    rw [List.append_assoc, List.cons_append, lines_ended clean, lines_ended clean,
      ih ends.of_append, List.cons_append]

theorem length_lines {text : List Char} (ends : EndsLine text) :
    (lines text).length = text.count '\n' := by
  induction text using lineInduction with
  | nil => simp
  | last line nonempty clean => exact absurd ends (not_endsLine_last nonempty clean)
  | ended line rest clean ih =>
    rw [lines_ended clean, List.length_cons, ih ends.of_append, List.count_append,
      List.count_cons_self, List.count_eq_zero.mpr clean, Nat.zero_add]

end Text

/-- Where a reader of a text stands. -/
inductive Region where
  | code
  | lineComment
  | blockComment
deriving DecidableEq

namespace Region

/-- Where a reader stands after a text. The two characters of a mark are read at once: `/*` and `//`
open a comment in code only, `*/` closes a block comment, and a line comment ends with its line. -/
def after : Region → List Char → Region
  | .code, '/' :: '*' :: rest => after .blockComment rest
  | .code, '/' :: '/' :: rest => after .lineComment rest
  | .blockComment, '*' :: '/' :: rest => after .code rest
  | .lineComment, '\n' :: rest => after .code rest
  | region, _ :: rest => after region rest
  | region, [] => region

def pass (char : Char) : Region → Region
  | .lineComment => if char = '\n' then .code else .lineComment
  | region => region

def ofInside (inside : Bool) : Region := if inside then .blockComment else .code

variable {region : Region} {char : Char} {line : List Char}

@[simp] theorem after_nil (region : Region) : region.after [] = region := by cases region <;> rfl

theorem pass_of_open (feed : region = .lineComment → char ≠ '\n') : region.pass char = region := by
  cases region with
  | lineComment => exact if_neg (feed rfl)
  | _ => rfl

/-- A character that begins no mark is passed over. -/
theorem after_cons {rest : List Char} (opens : region = .code → char = '/' →
      rest.head? ≠ some '*' ∧ rest.head? ≠ some '/')
    (closes : region = .blockComment → char = '*' → rest.head? ≠ some '/') :
    region.after (char :: rest) = (region.pass char).after rest := by
  by_cases ends : region = .lineComment ∧ char = '\n'
  · obtain ⟨rfl, rfl⟩ := ends
    rfl
  · have feed : region = .lineComment → char ≠ '\n' := fun line feed => ends ⟨line, feed⟩
    rw [pass_of_open feed, after.eq_5 _ _ _ ?_ ?_ ?_ feed]
    · rintro more rfl rfl rfl
      exact (opens rfl rfl).1 rfl
    · rintro more rfl rfl rfl
      exact (opens rfl rfl).2 rfl
    · rintro more rfl rfl rfl
      exact closes rfl rfl rfl

/-- A character that is in no mark parts what was read before it from what is read after it. -/
theorem after_append_cons (slash : char ≠ '/') (star : char ≠ '*') (region : Region)
    (front rest : List Char) :
    region.after (front ++ char :: rest) = ((region.after front).pass char).after rest := by
  fun_induction after region front with
  | case1 front ih => exact ih
  | case2 front ih => exact ih
  | case3 front ih => exact ih
  | case4 front ih => exact ih
  | case5 region other front block line close feed ih =>
    -- No mark begins here: the next character is one of `front` or, if that is all, `char`.
    rw [← ih, List.cons_append, after_cons, pass_of_open feed]
    · rintro rfl rfl
      cases front with
      | nil => exact ⟨by simpa using star, by simpa using slash⟩
      | cons next front =>
        simp only [List.cons_append, List.head?_cons, ne_eq, Option.some.injEq]
        exact ⟨fun same => block front rfl rfl (same ▸ rfl),
          fun same => line front rfl rfl (same ▸ rfl)⟩
    · rintro rfl rfl
      cases front with
      | nil => simpa using slash
      | cons next front =>
        simp only [List.cons_append, List.head?_cons, ne_eq, Option.some.injEq]
        exact fun same => close front rfl rfl (same ▸ rfl)
  | case6 region =>
    exact after_cons (fun _ same => absurd same slash) fun _ same => absurd same star

private theorem lineComment_after (clean : '\n' ∉ line) :
    lineComment.after line = .lineComment := by
  induction line with
  | nil => rfl
  | cons char rest ih =>
    rw [List.mem_cons, not_or] at clean
    rw [after_cons, pass_of_open fun _ => Ne.symm clean.1, ih clean.2] <;> exact nofun

/-- The part of a line that is code, if it is reached: all of the line, or what follows the first
end of a comment. -/
def Shows (region : Region) (line code : List Char) : Prop :=
  match region with
  | .blockComment =>
    ∃ comment, line = comment ++ '*' :: '/' :: code ∧ ¬['*', '/'] <:+: comment
  | _ => code = line

/-- All that a reader has to know where a line starts is whether that is in a block comment. -/
theorem shows_ofInside (region : Region) (line code : List Char) :
    (ofInside (decide (region = .blockComment))).Shows line code ↔ region.Shows line code := by
  cases region <;> exact Iff.rfl

end Region

namespace Directive
open Region

/-- The mark that ends a comment is not hidden by what stands in the comment. -/
theorem afterComment?_append {comment : List Char} (whole : ¬['*', '/'] <:+: comment)
    (code : List Char) : afterComment? (comment ++ '*' :: '/' :: code) = some code := by
  induction comment with
  | nil => rfl
  | cons char rest ih =>
    rw [List.infix_cons_iff, not_or] at whole
    rw [List.cons_append, afterComment?.eq_2, ih whole.2]
    rintro more rfl same
    cases rest with
    | nil => cases same
    | cons next rest =>
      obtain ⟨rfl, -⟩ := List.cons.inj same
      exact whole.1 (List.prefix_append ['*', '/'] rest)

private theorem afterComment?_eq_some {line code : List Char}
    (ends : afterComment? line = some code) :
    ∃ comment, line = comment ++ '*' :: '/' :: code ∧ ¬['*', '/'] <:+: comment := by
  fun_induction afterComment? line with
  | case1 rest =>
    obtain rfl := Option.some.inj ends
    exact ⟨[], rfl, by simp⟩
  | case2 char rest apart ih =>
    obtain ⟨comment, rfl, whole⟩ := ih ends
    refine ⟨char :: comment, rfl, ?_⟩
    rw [List.infix_cons_iff, not_or]
    refine ⟨?_, whole⟩
    rintro ⟨more, same⟩
    obtain ⟨rfl, rfl⟩ := List.cons.inj same
    exact apart (more ++ '*' :: '/' :: code) rfl rfl
  | case3 => cases ends

theorem blockComment_after (line : List Char) :
    blockComment.after line = (afterComment? line).elim .blockComment code.after := by
  fun_induction afterComment? line with
  | case1 rest => rfl
  | case2 char rest apart ih =>
    rw [after_cons, ← ih]
    · rfl
    · exact nofun
    · rintro - rfl same
      obtain ⟨more, rfl⟩ := List.head?_eq_some_iff.mp same
      exact apart more rfl rfl
  | case3 => rfl

private theorem endsInComment_eq {line : List Char} (clean : '\n' ∉ line) (inside : Bool) :
    endsInComment inside line = decide ((ofInside inside).after line = .blockComment) := by
  fun_induction endsInComment inside line with
  | case1 inside => cases inside <;> rfl
  | case2 rest ih => exact ih fun member => clean (by simp [member])
  | case3 rest =>
    have quiet : lineComment.after rest = .lineComment :=
      lineComment_after fun member => clean (by simp [member])
    rw [show (ofInside false).after ('/' :: '/' :: rest) = lineComment.after rest from rfl, quiet]
    rfl
  | case4 rest ih => exact ih fun member => clean (by simp [member])
  | case5 inside char rest block line close ih =>
    rw [ih fun member => clean (by simp [member]), after_cons]
    · cases inside <;> rfl
    · intro outside slash
      have outside : inside = false := by cases inside <;> first | rfl | cases outside
      simp only [ne_eq, List.head?_eq_some_iff, not_exists]
      exact ⟨fun more => block more outside slash, fun more => line more outside slash⟩
    · intro within star
      have within : inside = true := by cases inside <;> first | rfl | cases within
      simp only [ne_eq, List.head?_eq_some_iff, not_exists]
      exact fun more => close more within star

/-- What of a line the scan takes for code. -/
def code? (inside : Bool) (line : List Char) : Option (List Char) :=
  if inside then afterComment? line else some line

def leavesOpen (inside : Bool) (line : List Char) : Bool :=
  (code? inside line).elim true (endsInComment false)

private theorem code?_eq_some_iff {inside : Bool} {line code : List Char} :
    code? inside line = some code ↔ (ofInside inside).Shows line code := by
  cases inside with
  | false => exact ⟨fun same => (Option.some.inj same).symm, fun same => congrArg some same.symm⟩
  | true =>
    refine ⟨afterComment?_eq_some, ?_⟩
    rintro ⟨comment, rfl, whole⟩
    exact afterComment?_append whole code

theorem leavesOpen_eq {line : List Char} (clean : '\n' ∉ line) (inside : Bool) :
    leavesOpen inside line = decide ((ofInside inside).after line = .blockComment) := by
  cases inside with
  | false => exact endsInComment_eq clean false
  | true =>
    show (afterComment? line).elim true (endsInComment false) =
      decide (blockComment.after line = .blockComment)
    rw [blockComment_after]
    cases ends : afterComment? line with
    | none => rfl
    | some code =>
      obtain ⟨comment, rfl, _⟩ := afterComment?_eq_some ends
      exact endsInComment_eq (fun member => clean (by simp [member])) false

theorem after_line {line : List Char} (clean : '\n' ∉ line) (inside : Bool) (rest : List Char) :
    (ofInside inside).after (line ++ '\n' :: rest) =
      (ofInside (leavesOpen inside line)).after rest := by
  rw [after_append_cons (by decide) (by decide), leavesOpen_eq clean]
  cases (ofInside inside).after line <;> rfl

private theorem afterComment?_concat {char : Char} (slash : char ≠ '/') (line : List Char) :
    afterComment? (line ++ [char]) = (afterComment? line).map (· ++ [char]) := by
  fun_induction afterComment? line with
  | case1 rest => rfl
  | case2 other rest apart ih =>
    rw [List.cons_append, afterComment?.eq_2, ih]
    intro more star same
    cases rest with
    | nil => exact slash (List.cons.inj same).1
    | cons next rest =>
      obtain ⟨rfl, rfl⟩ := List.cons.inj same
      exact apart rest star rfl
  | case3 => simp [afterComment?]

/-- The directive that the scan finds on a line. -/
def onLine (inside : Bool) (number : Nat) (line : List Char) : Option Directive :=
  ((code? inside line).bind ofLine?).map fun inclusion => ⟨inclusion, number⟩

/-- A carriage return before the end of a line changes neither what is found on it nor what it
leaves open. -/
theorem onLine_dropReturn (inside : Bool) (number : Nat) (line : List Char) :
    onLine inside number (Text.dropReturn line) = onLine inside number line := by
  rcases Text.dropReturn_cases line with same | returned
  · rw [same]
  · have plain : ∀ style : IncludeStyle, '\r' ≠ style.closing := by rintro (_ | _) <;> decide
    have read : (code? inside (Text.dropReturn line ++ ['\r'])).bind ofLine? =
        (code? inside (Text.dropReturn line)).bind ofLine? := by
      cases inside with
      | false => exact ofLine?_concat plain _
      | true =>
        show (afterComment? _).bind ofLine? = (afterComment? _).bind ofLine?
        rw [afterComment?_concat (by decide), Option.bind_map]
        exact Option.bind_congr fun code _ => ofLine?_concat plain code
    conv_rhs => rw [onLine, returned, read]
    rfl

theorem leavesOpen_dropReturn {line : List Char} (clean : '\n' ∉ line) (inside : Bool) :
    leavesOpen inside (Text.dropReturn line) = leavesOpen inside line := by
  rcases Text.dropReturn_cases line with same | returned
  · rw [same]
  · have cleanFront : '\n' ∉ Text.dropReturn line := fun member =>
      clean (returned ▸ List.mem_append_left _ member)
    rw [leavesOpen_eq clean, leavesOpen_eq cleanFront]
    conv_rhs => rw [returned, after_append_cons (by decide) (by decide),
      pass_of_open fun _ => by decide, after_nil]

theorem ofLines_cons (inside : Bool) (number : Nat) (line : List Char) (rest : List (List Char)) :
    ofLines inside number (line :: rest) = (onLine inside number line).toList ++
      ofLines (leavesOpen inside line) (number + 1) rest := by
  rw [onLine, leavesOpen, ofLines,
    show (if inside then afterComment? line else some line) = code? inside line from rfl]
  cases code? inside line with
  | none => rfl
  | some code => cases read : ofLine? code <;> simp [read]

theorem ofLines_append (inside : Bool) (number : Nat) (front rest : List (List Char)) :
    ofLines inside number (front ++ rest) = ofLines inside number front ++
      ofLines (front.foldl leavesOpen inside) (number + front.length) rest := by
  induction front generalizing inside number with
  | nil => rfl
  | cons line front ih =>
    rw [List.cons_append, ofLines_cons, ofLines_cons, ih, List.append_assoc, List.foldl_cons,
      List.length_cons, Nat.add_right_comm, Nat.add_assoc]

/-- What the lines of a text leave open is what a reader of the text has come to. -/
theorem foldl_leavesOpen (inside : Bool) (text : List Char) :
    (Text.lines text).foldl leavesOpen inside =
      decide ((ofInside inside).after text = .blockComment) := by
  induction text using Text.lineInduction generalizing inside with
  | nil => cases inside <;> rfl
  | last line nonempty clean =>
    rw [Text.lines_last nonempty clean, List.foldl_cons, List.foldl_nil, leavesOpen_eq clean]
  | ended line rest clean ih =>
    rw [Text.lines_ended clean, List.foldl_cons, ih, after_line clean, leavesOpen_dropReturn clean]

theorem onLine_eq_some_iff {inside : Bool} {number : Nat} {line : List Char}
    {directive : Directive} : onLine inside number line = some directive ↔
      ∃ code, (ofInside inside).Shows line code ∧ ofLine? code = some directive.toInclusion ∧
        directive.line = number := by
  simp only [onLine, Option.map_eq_some_iff, Option.bind_eq_some_iff, code?_eq_some_iff]
  constructor
  · rintro ⟨inclusion, ⟨code, shown, read⟩, rfl⟩
    exact ⟨code, shown, read, rfl⟩
  · rintro ⟨code, shown, read, rfl⟩
    exact ⟨directive.toInclusion, ⟨code, shown, read⟩, rfl⟩

theorem line_of_onLine {inside : Bool} {number : Nat} {line : List Char} {directive : Directive}
    (found : onLine inside number line = some directive) : directive.line = number := by
  obtain ⟨_, _, _, same⟩ := onLine_eq_some_iff.mp found
  exact same

theorem mem_ofLines_iff {inside : Bool} {number : Nat} {lines : List (List Char)}
    {directive : Directive} : directive ∈ ofLines inside number lines ↔
      ∃ count line, lines[count]? = some line ∧
        onLine ((lines.take count).foldl leavesOpen inside) (number + count) line =
          some directive := by
  induction lines generalizing inside number with
  | nil => simp [ofLines]
  | cons first rest ih =>
    rw [ofLines_cons, List.mem_append, Option.mem_toList, ih]
    constructor
    · rintro (here | ⟨count, line, listed, below⟩)
      · exact ⟨0, first, rfl, here⟩
      · exact ⟨count + 1, line, listed, by rwa [List.take_succ_cons, List.foldl_cons, ← Nat.add_assoc,
          Nat.add_right_comm]⟩
    · rintro ⟨_ | count, line, listed, found⟩
      · obtain rfl := Option.some.inj listed
        exact .inl found
      · rw [List.take_succ_cons, List.foldl_cons, ← Nat.add_assoc, Nat.add_right_comm] at found
        exact .inr ⟨count, line, listed, found⟩

theorem bounds_of_mem_ofLines {inside : Bool} {number : Nat} {lines : List (List Char)}
    {directive : Directive} (member : directive ∈ ofLines inside number lines) :
    number ≤ directive.line ∧ directive.line < number + lines.length := by
  obtain ⟨count, line, listed, found⟩ := mem_ofLines_iff.mp member
  have inRange := (List.getElem?_eq_some_iff.mp listed).1
  rw [line_of_onLine found]
  omega

/-- No line has two directives, and they are found from the first line to the last. -/
theorem pairwise_ofLines (inside : Bool) (number : Nat) (lines : List (List Char)) :
    (ofLines inside number lines).Pairwise (·.line < ·.line) := by
  induction lines generalizing inside number with
  | nil => exact .nil
  | cons line rest ih =>
    rw [ofLines_cons, List.pairwise_append]
    refine ⟨by cases onLine inside number line <;> simp, ih _ _, ?_⟩
    intro first here second below
    rw [line_of_onLine (Option.mem_toList.mp here)]
    exact (bounds_of_mem_ofLines below).1

end Directive

end UnitCache
