import UnitCache.Proofs.CommentRegions

/-! The scan for directives by substring searches. A search gives the byte offset of a mark, and the
text is cut there or behind the mark; a cut fails if it is out of range or inside a character. No
cut does, and the searches come to the same as a reader who goes from character to character: of two
marks the first counts, what it opens hides the marks up to its end, and the rest is code again. -/

namespace UnitCache

namespace Text

/-- The byte offset of the first place where a pattern stands. -/
def offsetOf? (pattern : List Char) : List Char → Option Nat
  | [] => if pattern.isEmpty then some 0 else none
  | char :: rest =>
    if pattern.isPrefixOf (char :: rest) then some 0
    else (offsetOf? pattern rest).map (char.utf8Size + ·)

/-- The text from a byte offset on. -/
def sliceFrom? : Nat → List Char → Option (List Char)
  | 0, text => some text
  | _ + 1, [] => none
  | offset + 1, char :: rest =>
    if char.utf8Size ≤ offset + 1 then sliceFrom? (offset + 1 - char.utf8Size) rest else none

def sliceTo? : Nat → List Char → Option (List Char)
  | 0, _ => some []
  | _ + 1, [] => none
  | offset + 1, char :: rest =>
    if char.utf8Size ≤ offset + 1 then
      (sliceTo? (offset + 1 - char.utf8Size) rest).map (char :: ·)
    else none

private theorem utf8ByteSize_ofList_cons (char : Char) (rest : List Char) :
    (String.ofList (char :: rest)).utf8ByteSize =
      char.utf8Size + (String.ofList rest).utf8ByteSize := by
  rw [← List.singleton_append, String.ofList_append, String.utf8ByteSize_append,
    ← String.singleton_eq_ofList, String.utf8ByteSize_singleton]

private theorem sliceFrom?_size (char : Char) (offset : Nat) (rest : List Char) :
    sliceFrom? (char.utf8Size + offset) (char :: rest) = sliceFrom? offset rest := by
  obtain ⟨size, same⟩ := Nat.exists_eq_succ_of_ne_zero char.utf8Size_pos.ne'
  rw [same, show size.succ + offset = (size + offset) + 1 by omega, sliceFrom?, if_pos (by omega)]
  congr 1
  omega

private theorem sliceTo?_size (char : Char) (offset : Nat) (rest : List Char) :
    sliceTo? (char.utf8Size + offset) (char :: rest) =
      (sliceTo? offset rest).map (char :: ·) := by
  obtain ⟨size, same⟩ := Nat.exists_eq_succ_of_ne_zero char.utf8Size_pos.ne'
  rw [same, show size.succ + offset = (size + offset) + 1 by omega, sliceTo?, if_pos (by omega)]
  congr 2
  omega

theorem sliceFrom?_eq_some_iff {offset : Nat} {text rest : List Char} :
    sliceFrom? offset text = some rest ↔
      ∃ front, text = front ++ rest ∧ (String.ofList front).utf8ByteSize = offset := by
  constructor
  · intro cut
    fun_induction sliceFrom? offset text with
    | case1 text => exact ⟨[], Option.some.inj cut, by simp⟩
    | case2 => cases cut
    | case3 offset char text fits ih =>
      obtain ⟨front, rfl, size⟩ := ih cut
      refine ⟨char :: front, rfl, ?_⟩
      rw [utf8ByteSize_ofList_cons, size]
      omega
    | case4 => cases cut
  · rintro ⟨front, rfl, rfl⟩
    induction front with
    | nil => simp [sliceFrom?]
    | cons char front ih => rw [utf8ByteSize_ofList_cons, List.cons_append, sliceFrom?_size, ih]

theorem sliceFrom?_add {offset more : Nat} {text rest : List Char}
    (cut : sliceFrom? offset text = some rest) :
    sliceFrom? (offset + more) text = sliceFrom? more rest := by
  obtain ⟨front, rfl, rfl⟩ := sliceFrom?_eq_some_iff.mp cut
  clear cut
  induction front with
  | nil => simp
  | cons char front ih =>
    rw [utf8ByteSize_ofList_cons, List.cons_append, Nat.add_assoc, sliceFrom?_size, ih]

private theorem length_of_sliceFrom? {offset : Nat} {text rest : List Char}
    (cut : sliceFrom? (offset + 1) text = some rest) : rest.length < text.length := by
  obtain ⟨front, rfl, size⟩ := sliceFrom?_eq_some_iff.mp cut
  cases front with
  | nil => simp at size
  | cons char front =>
    rw [List.length_append, List.length_cons]
    omega

private theorem offsetOf?_later {pattern : List Char} {char : Char} {rest : List Char}
    (apart : ¬pattern <+: char :: rest) :
    offsetOf? pattern (char :: rest) = (offsetOf? pattern rest).map (char.utf8Size + ·) := by
  rw [offsetOf?, if_neg fun here => apart (List.isPrefixOf_iff_prefix.mp here)]

private theorem offsetOf?_here {pattern : List Char} {char : Char} {rest : List Char}
    (here : pattern <+: char :: rest) : offsetOf? pattern (char :: rest) = some 0 := by
  rw [offsetOf?, if_pos (List.isPrefixOf_iff_prefix.mpr here)]

end Text

namespace Directive
open Text

/-- Where a block comment opens on a line of code. -/
def opening? (line : List Char) : Option Nat :=
  (offsetOf? ['/', '*'] line).filter fun start => !(offsetOf? ['/', '/'] line).any (· < start)

/-- The search for what a line of code leaves open: from one comment on it to the next. -/
def leavesOpen? (line : List Char) : Option Bool :=
  match opening? line with
  | none => some false
  | some start =>
    match sliceFrom? (start + 2) line with
    | none => none
    | some body =>
      match offsetOf? ['*', '/'] body with
      | none => some true
      | some stop =>
        match _cut : sliceFrom? (start + 2 + stop + 2) line with
        | none => none
        | some rest => leavesOpen? rest
termination_by line.length
decreasing_by exact length_of_sliceFrom? _cut

/-- The search for the code of a line; the inner option is empty if no code is left. -/
def codeOf? (inside : Bool) (line : List Char) : Option (Option (List Char)) :=
  if inside then
    match offsetOf? ['*', '/'] line with
    | none => some none
    | some stop => (sliceFrom? (stop + 2) line).map some
  else some (some line)

def nameIn? (style : IncludeStyle) (chars : List Char) : Option (Option Inclusion) := do
  let body ← sliceFrom? 1 chars
  match offsetOf? [style.closing] body with
  | none => some none
  | some stop =>
    let name ← sliceTo? stop body
    some (if name.isEmpty then none else some ⟨String.ofList name, style⟩)

def inclusionOf? (line : List Char) : Option (Option Inclusion) :=
  match trimStart line with
  | '#' :: rest =>
    match afterKeyword? (trimStart rest) with
    | none => some none
    | some rest =>
      match (trimStart rest).head?.bind IncludeStyle.ofOpening? with
      | none => some none
      | some style => nameIn? style (trimStart rest)
  | _ => some none

/-- How the scan takes a line: whether as one that starts inside a block comment, and what it finds
there. -/
structure Pass where
  inside : Bool
  found : Option Inclusion
deriving DecidableEq

/-- The passes over lines, of which the first starts inside a block comment or not. -/
def passes? (inside : Bool) : List (List Char) → Option (List Pass)
  | [] => some []
  | line :: rest => do
    match ← codeOf? inside line with
    | none => return ⟨inside, none⟩ :: (← passes? true rest)
    | some code =>
      let found ← inclusionOf? code
      let below ← passes? (← leavesOpen? code) rest
      return ⟨inside, found⟩ :: below

def numbered (first : Nat) (passes : List Pass) : List Directive :=
  (passes.zipIdx first).filterMap fun (pass, number) => pass.found.map (⟨·, number⟩)

private theorem sliceFrom?_mark {first second : Char} (size : first.utf8Size = 1)
    (size' : second.utf8Size = 1) (rest : List Char) :
    sliceFrom? 2 (first :: second :: rest) = some rest := by
  rw [show 2 = first.utf8Size + (second.utf8Size + 0) by omega, sliceFrom?_size, sliceFrom?_size,
    sliceFrom?]

private theorem opening?_cons {char : Char} {rest : List Char}
    (block : ¬['/', '*'] <+: char :: rest) (line : ¬['/', '/'] <+: char :: rest) :
    opening? (char :: rest) = (opening? rest).map (char.utf8Size + ·) := by
  unfold opening?
  rw [offsetOf?_later block, offsetOf?_later line]
  cases offsetOf? ['/', '*'] rest with
  | none => rfl
  | some start => cases offsetOf? ['/', '/'] rest <;> simp [Option.filter]

private theorem endsInComment_cons {inside : Bool} {char : Char} {rest : List Char}
    (opens : inside = false → ¬['/', '*'] <+: char :: rest ∧ ¬['/', '/'] <+: char :: rest)
    (closes : inside = true → ¬['*', '/'] <+: char :: rest) :
    endsInComment inside (char :: rest) = endsInComment inside rest := by
  rw [endsInComment.eq_5]
  · rintro more outside rfl rfl
    exact (opens outside).1 (List.prefix_append ['/', '*'] more)
  · rintro more outside rfl rfl
    exact (opens outside).2 (List.prefix_append ['/', '/'] more)
  · rintro more within rfl rfl
    exact closes within (List.prefix_append ['*', '/'] more)

/-- Of the marks on a line of code the first counts. -/
theorem endsInComment_opening (line : List Char) :
    (opening? line).elim (endsInComment false line = false) fun start =>
      ∃ body, sliceFrom? (start + 2) line = some body ∧
        endsInComment false line = endsInComment true body := by
  induction line with
  | nil => rfl
  | cons char rest ih =>
    by_cases block : ['/', '*'] <+: char :: rest
    · have first : opening? (char :: rest) = some 0 := by
        rw [opening?, offsetOf?_here block]
        simp [Option.filter]
      obtain ⟨body, same⟩ := block
      rw [first, ← same]
      exact ⟨body, sliceFrom?_mark (by decide) (by decide) body, rfl⟩
    · by_cases line : ['/', '/'] <+: char :: rest
      · have nothing : opening? (char :: rest) = none := by
          rw [opening?, offsetOf?_here line, offsetOf?_later block]
          cases offsetOf? ['/', '*'] rest with
          | none => rfl
          | some start =>
            have later : 0 < char.utf8Size + start := Nat.add_pos_left char.utf8Size_pos _
            simp [Option.filter, later]
        obtain ⟨body, same⟩ := line
        rw [nothing, ← same]
        rfl
      · have skipped : endsInComment false (char :: rest) = endsInComment false rest :=
          endsInComment_cons (fun _ => ⟨block, line⟩) nofun
        rw [opening?_cons block line, skipped]
        cases found : opening? rest with
        | none =>
          rw [found] at ih
          exact ih
        | some start =>
          rw [found] at ih
          obtain ⟨body, cut, same⟩ := ih
          refine ⟨body, ?_, same⟩
          rw [Nat.add_assoc, sliceFrom?_size, cut]

private theorem not_mark_of_apart {char : Char} {rest : List Char}
    (apart : ∀ more, char = '*' → rest = '/' :: more → False) : ¬['*', '/'] <+: char :: rest := by
  rintro ⟨more, same⟩
  obtain ⟨rfl, rfl⟩ := List.cons.inj same
  exact apart more rfl rfl

private theorem afterComment?_search (line : List Char) :
    (offsetOf? ['*', '/'] line).elim (afterComment? line = none) fun stop =>
      ∃ rest, sliceFrom? (stop + 2) line = some rest ∧ afterComment? line = some rest := by
  fun_induction afterComment? line with
  | case1 rest =>
    rw [offsetOf?_here (show ['*', '/'] <+: '*' :: '/' :: rest from ⟨rest, rfl⟩)]
    exact ⟨rest, sliceFrom?_mark (by decide) (by decide) rest, rfl⟩
  | case2 char rest apart ih =>
    rw [offsetOf?_later (not_mark_of_apart apart)]
    cases found : offsetOf? ['*', '/'] rest with
    | none =>
      rw [found] at ih
      exact ih
    | some stop =>
      rw [found] at ih
      obtain ⟨code, cut, same⟩ := ih
      refine ⟨code, ?_, same⟩
      rw [Nat.add_assoc, sliceFrom?_size, cut]
  | case3 => rfl

private theorem endsInComment_true (line : List Char) :
    endsInComment true line = (afterComment? line).elim true (endsInComment false) := by
  fun_induction afterComment? line with
  | case1 rest => rfl
  | case2 char rest apart ih =>
    rw [endsInComment_cons, ih]
    · exact fun same => absurd same (by decide)
    · exact fun _ => not_mark_of_apart apart
  | case3 => rfl

private theorem codeOf?_eq (inside : Bool) (line : List Char) :
    codeOf? inside line = some (code? inside line) := by
  cases inside with
  | false => rfl
  | true =>
    have search := afterComment?_search line
    rw [codeOf?, if_pos rfl, code?, if_pos rfl]
    cases found : offsetOf? ['*', '/'] line with
    | none =>
      rw [found] at search
      exact congrArg some search.symm
    | some stop =>
      rw [found] at search
      obtain ⟨code, cut, same⟩ := search
      simp only [cut, same, Option.map_some]

theorem leavesOpen?_eq (line : List Char) : leavesOpen? line = some (endsInComment false line) := by
  have opens := endsInComment_opening line
  rw [leavesOpen?]
  cases opened : opening? line with
  | none =>
    rw [opened] at opens
    exact congrArg some opens.symm
  | some start =>
    rw [opened] at opens
    obtain ⟨body, cut, same⟩ := opens
    have closes := afterComment?_search body
    rw [same, endsInComment_true]
    simp only [cut]
    cases closed : offsetOf? ['*', '/'] body with
    | none =>
      rw [closed] at closes
      rw [show afterComment? body = none from closes]
      rfl
    | some stop =>
      rw [closed] at closes
      obtain ⟨rest, cutAgain, ends⟩ := closes
      have whole : sliceFrom? (start + 2 + stop + 2) line = some rest := by
        rw [Nat.add_assoc (start + 2), sliceFrom?_add cut, cutAgain]
      have shorter := length_of_sliceFrom? whole
      rw [ends]
      dsimp only
      split
      · rename_i failed
        exact absurd (failed.symm.trans whole) nofun
      · rename_i found
        obtain rfl := Option.some.inj (found.symm.trans whole)
        exact leavesOpen?_eq _
termination_by line.length

theorem takeWhile_search (char : Char) (chars : List Char) :
    (offsetOf? [char] chars).elim ((chars.takeWhile (· ≠ char)).length = chars.length) fun stop =>
      sliceTo? stop chars = some (chars.takeWhile (· ≠ char)) ∧
        (chars.takeWhile (· ≠ char)).length ≠ chars.length := by
  induction chars with
  | nil => rfl
  | cons first rest ih =>
    by_cases here : first = char
    · subst here
      rw [offsetOf?_here ⟨rest, rfl⟩, List.takeWhile_cons_of_neg (by simp)]
      exact ⟨by simp [sliceTo?], by simp⟩
    · have notHere : ¬[char] <+: first :: rest := by
        rintro ⟨more, same⟩
        exact here (List.cons.inj same).1.symm
      rw [offsetOf?_later notHere, List.takeWhile_cons_of_pos (by simpa using here)]
      cases found : offsetOf? [char] rest with
      | none =>
        rw [found] at ih
        exact congrArg (· + 1) ih
      | some stop =>
        rw [found] at ih
        refine ⟨?_, fun same => ih.2 (Nat.succ.inj same)⟩
        rw [sliceTo?_size, ih.1]
        rfl

private theorem nameIn?_eq (style : IncludeStyle) (rest : List Char) :
    nameIn? style (style.opening :: rest) = some (delimited? (style.opening :: rest)) := by
  have size : style.opening.utf8Size = 1 := by cases style <;> decide
  have cut : sliceFrom? 1 (style.opening :: rest) = some rest := by
    rw [show 1 = style.opening.utf8Size + 0 by omega, sliceFrom?_size, sliceFrom?]
  have search := takeWhile_search style.closing rest
  simp only [nameIn?, delimited?, IncludeStyle.ofOpening?_eq_some_iff.mpr rfl, cut,
    Option.bind_eq_bind, Option.bind_some]
  generalize rest.takeWhile (· ≠ style.closing) = name at search ⊢
  cases found : offsetOf? [style.closing] rest with
  | none =>
    rw [found] at search
    have unclosed : name.length = rest.length := search
    simp [unclosed]
  | some stop =>
    rw [found] at search
    obtain ⟨upTo, shorter⟩ := search
    simp [upTo, shorter]

private theorem inclusionOf?_eq (line : List Char) : inclusionOf? line = some (ofLine? line) := by
  unfold inclusionOf? ofLine?
  generalize trimStart line = start
  split
  · rename_i rest
    show _ = some ((afterKeyword? (trimStart rest)).bind fun rest => delimited? (trimStart rest))
    cases afterKeyword? (trimStart rest) with
    | none => rfl
    | some operand =>
      dsimp only [Option.bind_some]
      cases trimStart operand with
      | nil => rfl
      | cons opening name =>
        dsimp only [List.head?_cons, Option.bind_some]
        cases opens : IncludeStyle.ofOpening? opening with
        | none => simp [opens, delimited?]
        | some style =>
          obtain rfl := IncludeStyle.ofOpening?_eq_some_iff.mp opens
          exact nameIn?_eq style name
  · simp

/-- The passes of a scan in which no cut fails. -/
def passes (inside : Bool) : List (List Char) → List Pass
  | [] => []
  | line :: rest =>
    ⟨inside, (code? inside line).bind ofLine?⟩ :: passes (leavesOpen inside line) rest

private theorem passes?_eq (inside : Bool) (lines : List (List Char)) :
    passes? inside lines = some (passes inside lines) := by
  induction lines generalizing inside with
  | nil => rfl
  | cons line rest ih =>
    simp only [passes?, codeOf?_eq, passes, leavesOpen, Option.bind_eq_bind, Option.bind_some]
    cases code? inside line with
    | none => simp [ih]
    | some code => simp [inclusionOf?_eq, leavesOpen?_eq, ih]

private theorem numbered_passes (inside : Bool) (number : Nat) (lines : List (List Char)) :
    numbered number (passes inside lines) = ofLines inside number lines := by
  induction lines generalizing inside number with
  | nil => rfl
  | cons line rest ih =>
    rw [ofLines_cons, ← ih, numbered, passes, List.zipIdx_cons, List.filterMap_cons]
    unfold onLine
    cases (code? inside line).bind ofLine? <;> rfl

private theorem getElem?_passes (inside : Bool) (lines : List (List Char)) (count : Nat) :
    (passes inside lines)[count]?.map Pass.inside =
      lines[count]?.map fun _ => (lines.take count).foldl leavesOpen inside := by
  induction lines generalizing inside count with
  | nil => rfl
  | cons line rest ih =>
    cases count with
    | zero => rfl
    | succ count => exact ih (leavesOpen inside line) count

/-- Before a line the scan has an open block comment if and only if a reader is in one who has gone
through the text up to there character by character. -/
theorem foldl_take_lines (text : List Char) (count : Nat) :
    ((lines text).take count).foldl leavesOpen false =
      decide (Region.code.after (beforeLine count text) = .blockComment) := by
  rw [← lines_beforeLine, foldl_leavesOpen]
  rfl

/-- The scan by substring searches comes to its end on every text without a cut out of range or
inside a character. It takes a line as one that starts inside a block comment if and only if a
reader is in one there who goes through the text character by character. It finds the directives,
one a line at most and in the order of the lines, of what such a reader sees of each line as
code. -/
theorem scan_follows_reader (text : String) :
    let chars := text.toList
    let region := fun count => Region.code.after (beforeLine count chars)
    (∃ passes, passes? false (lines chars) = some passes ∧ numbered 1 passes = ofText text ∧
      ∀ count, passes[count]?.map Pass.inside =
        (lines chars)[count]?.map fun _ => decide (region count = .blockComment)) ∧
    (∀ directive, directive ∈ ofText text ↔ ∃ count line code,
      (lines chars)[count]? = some line ∧ (region count).Shows line code ∧
      ofLine? code = some directive.toInclusion ∧ directive.line = count + 1) ∧
    (ofText text).Pairwise (·.line < ·.line) := by
  intro chars region
  refine ⟨⟨_, passes?_eq false _, numbered_passes false 1 _, fun count => ?_⟩, fun directive => ?_,
    pairwise_ofLines false 1 _⟩
  · rw [getElem?_passes, foldl_take_lines]
  · rw [ofText, mem_ofLines_iff]
    refine exists_congr fun count => exists_congr fun line => ?_
    rw [onLine_eq_some_iff, foldl_take_lines, ← exists_and_left, Nat.add_comm]
    exact exists_congr fun code => by rw [Region.shows_ofInside]

end Directive

end UnitCache
