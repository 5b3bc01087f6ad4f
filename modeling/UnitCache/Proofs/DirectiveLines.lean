import Mathlib.Data.List.Basic
import Mathlib.Data.List.TakeWhile
import UnitCache.Include.Directive

/-! The form of a line that is an include directive. Blanks may stand before and after the hash and
before the name, and anything after it. Neither the hash, the keywords nor the delimiters are blank,
no keyword goes on where another ends with what could open a name, and a name ends at the first
closing delimiter; so a line has that form in one way at most, and to read a line is to find it. -/

namespace UnitCache

/-- Two runs of characters of a class, each followed by a character outside of it, are equal if the
texts are. -/
private theorem run_inj {inClass : Char → Bool} {first last : List Char} {char other : Char}
    {rest tail : List Char} (within : ∀ c ∈ first, inClass c = true)
    (withinLast : ∀ c ∈ last, inClass c = true) (outside : inClass char = false)
    (outsideLast : inClass other = false) (same : first ++ char :: rest = last ++ other :: tail) :
    first = last ∧ char = other ∧ rest = tail := by
  have left := congrArg (List.takeWhile inClass) same
  rw [List.takeWhile_append_of_pos within, List.takeWhile_append_of_pos withinLast,
    List.takeWhile_cons_of_neg (by simp [outside]),
    List.takeWhile_cons_of_neg (by simp [outsideLast]), List.append_nil, List.append_nil] at left
  subst left
  exact ⟨rfl, List.cons.inj (List.append_cancel_left same)⟩

namespace Text

private theorem trimStart_append {blanks : List Char} (blank : ∀ c ∈ blanks, isBlank c = true)
    (rest : List Char) : trimStart (blanks ++ rest) = trimStart rest :=
  List.dropWhile_append_of_pos blank

private theorem trimStart_of_not_blank {char : Char} (ink : isBlank char = false)
    (rest : List Char) :
    trimStart (char :: rest) = char :: rest :=
  List.dropWhile_cons_of_neg (by simp [ink])

private theorem exists_blanks (chars : List Char) :
    ∃ blanks, (∀ c ∈ blanks, isBlank c = true) ∧ chars = blanks ++ trimStart chars :=
  ⟨chars.takeWhile isBlank, fun _ member => List.mem_takeWhile_imp member,
    List.takeWhile_append_dropWhile.symm⟩

end Text

namespace IncludeStyle

def opening : IncludeStyle → Char
  | .quoted => '"'
  | .angled => '<'

theorem ofOpening?_eq_some_iff {char : Char} {style : IncludeStyle} :
    ofOpening? char = some style ↔ char = style.opening := by
  unfold ofOpening?
  split <;> cases style <;> simp_all [opening]

private theorem opening_not_blank (style : IncludeStyle) : Text.isBlank style.opening = false := by
  cases style <;> decide

end IncludeStyle

namespace Directive

private theorem keyword_not_blank {keyword : String} (known : keyword ∈ keywords) :
    ∃ char rest, keyword.toList = char :: rest ∧ Text.isBlank char = false := by
  simp only [keywords, List.mem_cons, List.not_mem_nil, or_false] at known
  rcases known with rfl | rfl | rfl <;> exact ⟨_, _, rfl, by decide⟩

private theorem afterKeyword?_eq_some {chars rest : List Char}
    (read : afterKeyword? chars = some rest) :
    ∃ keyword ∈ keywords, chars = keyword.toList ++ rest := by
  obtain ⟨keyword, known, found⟩ := List.exists_of_findSome?_eq_some read
  exact ⟨keyword, known, (List.append_eq_of_isPrefixOf?_eq_some found).symm⟩

/-- The keyword that is found first is the one that is there, unless it goes on as the longest
keyword does where a shorter one ends. -/
theorem afterKeyword?_append {keyword : String} (known : keyword ∈ keywords) {rest : List Char}
    (apart : rest.head? ≠ some '_') : afterKeyword? (keyword.toList ++ rest) = some rest := by
  simp only [keywords, List.mem_cons, List.not_mem_nil, or_false] at known
  rcases known with rfl | rfl | rfl
  · simp [afterKeyword?, keywords, List.isPrefixOf?]
  · cases rest with
    | nil => simp [afterKeyword?, keywords, List.isPrefixOf?]
    | cons char rest =>
      have other : char ≠ '_' := by simpa using apart
      simp [afterKeyword?, keywords, List.isPrefixOf?, other.symm]
  · simp [afterKeyword?, keywords, List.isPrefixOf?]

private theorem delimited?_eq_some {chars : List Char} {inclusion : Inclusion}
    (read : delimited? chars = some inclusion) :
    inclusion.name ≠ "" ∧ inclusion.style.closing ∉ inclusion.name.toList ∧
    ∃ tail, chars = inclusion.style.opening :: (inclusion.name.toList ++
      inclusion.style.closing :: tail) := by
  cases chars with
  | nil => cases read
  | cons opening rest =>
    simp only [delimited?] at read
    split at read
    · cases read
    · rename_i style opens
      obtain rfl := IncludeStyle.ofOpening?_eq_some_iff.mp opens
      split at read
      · cases read
      · rename_i proper
        obtain rfl := Option.some.inj read
        simp only [Bool.or_eq_true, List.isEmpty_iff, not_or, decide_eq_true_eq] at proper
        refine ⟨by simpa using proper.1, ?_, ?_⟩
        · intro member
          have inside := List.mem_takeWhile_imp (String.toList_ofList ▸ member)
          simp at inside
        · have whole := List.takeWhile_append_dropWhile (p := (· ≠ style.closing)) (l := rest)
          cases left : rest.dropWhile (· ≠ style.closing) with
          | nil =>
            rw [left, List.append_nil] at whole
            exact absurd (congrArg List.length whole) proper.2
          | cons char tail =>
            have stops := List.head?_dropWhile_not (· ≠ style.closing) rest
            rw [left] at stops
            obtain rfl : char = style.closing := by simpa using stops
            exact ⟨tail, by rw [String.toList_ofList, ← left, whole]⟩

private theorem delimited?_append {inclusion : Inclusion} (named : inclusion.name ≠ "")
    (closed : inclusion.style.closing ∉ inclusion.name.toList) (tail : List Char) :
    delimited? (inclusion.style.opening :: (inclusion.name.toList ++
      inclusion.style.closing :: tail)) = some inclusion := by
  have name : (inclusion.name.toList ++ inclusion.style.closing :: tail).takeWhile
      (· ≠ inclusion.style.closing) = inclusion.name.toList := by
    rw [List.takeWhile_append_of_pos, List.takeWhile_cons_of_neg (by simp), List.append_nil]
    intro char member
    have other : char ≠ inclusion.style.closing := by
      rintro rfl
      exact closed member
    simpa using other
  simp only [delimited?, IncludeStyle.ofOpening?_eq_some_iff.mpr rfl, name, String.ofList_toList]
  simp [named]

/-- A line with an include directive on it, in its parts. -/
@[ext]
structure Layout extends Inclusion where
  indent : List Char
  gap : List Char
  keyword : String
  space : List Char
  tail : List Char
  blank : ∀ c ∈ indent ++ gap ++ space, Text.isBlank c = true
  known : keyword ∈ keywords
  named : name ≠ ""
  closed : style.closing ∉ name.toList

namespace Layout

/-- What stands behind the keyword. -/
def operand (layout : Layout) : List Char :=
  layout.space ++ layout.style.opening ::
    (layout.name.toList ++ layout.style.closing :: layout.tail)

def render (layout : Layout) : List Char :=
  layout.indent ++ '#' :: (layout.gap ++ (layout.keyword.toList ++ layout.operand))

variable (layout : Layout)

private theorem head?_operand : layout.operand.head? ≠ some '_' := by
  unfold operand
  cases shape : layout.space with
  | nil => cases layout.style <;> simp [IncludeStyle.opening]
  | cons char rest =>
    have blank := layout.blank char (by simp [shape])
    rintro same
    obtain rfl : char = '_' := by simpa using same
    exact absurd blank (by decide)

private theorem ofLine?_render : ofLine? layout.render = some layout.toInclusion := by
  obtain ⟨first, rest, starts, ink⟩ := keyword_not_blank layout.known
  have blanks : ∀ run, run = layout.indent ∨ run = layout.gap ∨ run = layout.space →
      ∀ c ∈ run, Text.isBlank c = true := by
    rintro run cases c member
    exact layout.blank c (by rcases cases with rfl | rfl | rfl <;> simp [member])
  have hash : Text.trimStart layout.render =
      '#' :: (layout.gap ++ (layout.keyword.toList ++ layout.operand)) := by
    rw [render, Text.trimStart_append (blanks _ (.inl rfl)),
      Text.trimStart_of_not_blank (by decide)]
  have word : Text.trimStart (layout.gap ++ (layout.keyword.toList ++ layout.operand)) =
      layout.keyword.toList ++ layout.operand := by
    rw [Text.trimStart_append (blanks _ (.inr (.inl rfl))), starts, List.cons_append,
      Text.trimStart_of_not_blank ink]
  have name : Text.trimStart layout.operand = layout.style.opening ::
      (layout.name.toList ++ layout.style.closing :: layout.tail) := by
    rw [operand, Text.trimStart_append (blanks _ (.inr (.inr rfl))),
      Text.trimStart_of_not_blank layout.style.opening_not_blank]
  unfold ofLine?
  rw [hash]
  simp only [word, afterKeyword?_append layout.known layout.head?_operand, Option.bind_some, name]
  exact delimited?_append layout.named layout.closed layout.tail

end Layout

private theorem exists_layout {line : List Char} {inclusion : Inclusion}
    (read : ofLine? line = some inclusion) :
    ∃ layout : Layout, layout.render = line ∧ layout.toInclusion = inclusion := by
  unfold ofLine? at read
  split at read
  · rename_i rest hash
    obtain ⟨operand, worded, delimited⟩ := Option.bind_eq_some_iff.mp read
    obtain ⟨keyword, known, word⟩ := afterKeyword?_eq_some worded
    obtain ⟨named, closed, tail, shape⟩ := delimited?_eq_some delimited
    obtain ⟨indent, indented, front⟩ := Text.exists_blanks line
    obtain ⟨gap, gapped, middle⟩ := Text.exists_blanks rest
    obtain ⟨space, spaced, back⟩ := Text.exists_blanks operand
    refine ⟨{ inclusion with indent, gap, keyword, space, tail, known, named, closed, blank := ?_ },
      ?_, rfl⟩
    · intro c member
      rcases List.mem_append.mp member with member | member
      · exact (List.mem_append.mp member).elim (indented c) (gapped c)
      · exact spaced c member
    · rw [Layout.render, Layout.operand, ← shape, ← back, ← word, ← middle, ← hash, ← front]
  · cases read

private theorem Layout.render_concat (layout : Layout) (char : Char) :
    ({ layout with tail := layout.tail ++ [char] } : Layout).render = layout.render ++ [char] := by
  simp [render, operand]

/-- What is added to a line adds no directive unless it closes a name. -/
theorem ofLine?_concat {char : Char} (plain : ∀ style : IncludeStyle, char ≠ style.closing)
    (line : List Char) : ofLine? (line ++ [char]) = ofLine? line := by
  refine Option.ext fun inclusion => ⟨fun read => ?_, fun read => ?_⟩
  · obtain ⟨layout, shape, rfl⟩ := exists_layout read
    rcases List.eq_nil_or_concat layout.tail with empty | ⟨front, last, more⟩
    · have ends := congrArg List.getLast? shape
      simp [Layout.render, Layout.operand, empty, List.getLast?_append, List.getLast?_cons] at ends
      exact absurd ends.symm (plain _)
    · let shorter : Layout := { layout with tail := front }
      have longer : ({ shorter with tail := front ++ [last] } : Layout) = layout := by
        rw [← List.concat_eq_append, ← more]
      rw [← longer, shorter.render_concat] at shape
      rw [← (List.append_inj' shape rfl).1, shorter.ofLine?_render]
  · obtain ⟨layout, rfl, rfl⟩ := exists_layout read
    rw [← layout.render_concat, Layout.ofLine?_render]

/-- No two layouts give one line. -/
theorem Layout.render_injective : Function.Injective Layout.render := by
  intro first last same
  have inclusion : first.toInclusion = last.toInclusion := by
    have read := first.ofLine?_render
    rw [same, last.ofLine?_render] at read
    exact (Option.some.inj read).symm
  obtain ⟨char, rest, starts, ink⟩ := keyword_not_blank first.known
  obtain ⟨other, others, startsLast, inkLast⟩ := keyword_not_blank last.known
  have blank := first.blank
  have blankLast := last.blank
  simp only [List.forall_mem_append] at blank blankLast
  obtain ⟨indent, _, middle⟩ := run_inj blank.1.1 blankLast.1.1 (by decide) (by decide) same
  obtain ⟨gap, word⟩ : first.gap = last.gap ∧
      first.keyword.toList ++ first.operand = last.keyword.toList ++ last.operand := by
    rw [starts, startsLast, List.cons_append, List.cons_append] at middle ⊢
    obtain ⟨gap, begins, ends⟩ := run_inj blank.1.2 blankLast.1.2 ink inkLast middle
    exact ⟨gap, by rw [begins, ends]⟩
  have operand : first.operand = last.operand := by
    have read := afterKeyword?_append first.known first.head?_operand
    rw [word, afterKeyword?_append last.known last.head?_operand] at read
    exact (Option.some.inj read).symm
  have keyword : first.keyword = last.keyword :=
    String.toList_injective (List.append_cancel_right (operand ▸ word))
  obtain ⟨space, _, back⟩ := run_inj blank.2 blankLast.2 first.style.opening_not_blank
    last.style.opening_not_blank operand
  have tail : first.tail = last.tail := by
    rw [inclusion] at back
    exact (List.cons.inj (List.append_cancel_left back)).2
  exact Layout.ext (congrArg Inclusion.name inclusion) (congrArg Inclusion.style inclusion) indent
    gap keyword space tail

/-- A line is read as an include directive if and only if it is laid out as one. It is laid out in
one way only, and what is read is the name and the delimiters of that layout. -/
theorem line_is_read_as_laid_out :
    (∀ (line : List Char) (inclusion : Inclusion), ofLine? line = some inclusion ↔
      ∃ layout : Layout, layout.render = line ∧ layout.toInclusion = inclusion) ∧
    (∀ layout : Layout, ofLine? layout.render = some layout.toInclusion) ∧
    Function.Injective Layout.render := by
  refine ⟨fun line inclusion => ⟨exists_layout, ?_⟩, Layout.ofLine?_render, Layout.render_injective⟩
  rintro ⟨layout, rfl, rfl⟩
  exact layout.ofLine?_render

end Directive

end UnitCache
