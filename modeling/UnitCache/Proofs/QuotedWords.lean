import Mathlib.Algebra.GroupWithZero.Nat
import Mathlib.Data.List.Forall2
import UnitCache.CommandLine.Report

/-! Words that are written for a shell and read back. A word is written run by run, each run in one
of three styles, and whatever the style, reading a run adds its characters to the word that is being
read. So a command line is read back as the words it was written from. A list of sources writes the
arguments of a file so, but the path of the file as it is, and a path is read back as it was only if
it is a word as it stands. -/

namespace UnitCache

section Options
variable {α β : Type} {find? : α → Option β} {items : List α} {found : List β}

private theorem mapM_eq_some_iff :
    items.mapM find? = some found ↔
      List.Forall₂ (fun item result => find? item = some result) items found := by
  induction items generalizing found with
  | nil => simp [eq_comm]
  | cons item items ih =>
    rw [List.mapM_cons, List.forall₂_cons_left_iff]
    cases first : find? item with
    | none => simp
    | some result =>
      cases others : items.mapM find? with
      | none => simp [← ih, others]
      | some rest => simp [← ih, others, eq_comm]

private theorem isSome_mapM_iff :
    (items.mapM find?).isSome = true ↔ ∀ item ∈ items, (find? item).isSome = true := by
  induction items with
  | nil => simp
  | cons item items ih =>
    rw [List.mapM_cons, List.forall_mem_cons, ← ih]
    cases find? item <;> cases items.mapM find? <;> simp

end Options

namespace ShellWords

variable {place : Place} {read run rest chars : List Char} {char : Char} {styles : Styles}
  {word text line : String} {words : List String}

/-- A character that stands for itself in a word without quotes. -/
def IsLiteral (char : Char) : Prop :=
  isSeparator char = false ∧ char ≠ '\\' ∧ char ≠ '"' ∧ char ≠ '\''

instance (char : Char) : Decidable (IsLiteral char) :=
  inferInstanceAs (Decidable (_ ∧ _ ∧ _ ∧ _))

/-- Outside of quotes and comments. -/
inductive Place.Bare : Place → Prop
  | between : Bare .between
  | word (read : List Char) : Bare (.word read)

@[simp] theorem Place.read_between : Place.between.read = [] := rfl

@[simp] theorem Place.read_word : (Place.word read).read = read := rfl

/-- A word that is being read ends here. -/
def EndsWord (rest : List Char) : Prop := ∀ char ∈ rest.head?, isSeparator char = true

private theorem endsWord_cons (ends : isSeparator char = true) : EndsWord (char :: rest) := by
  simpa [EndsWord] using ends

private theorem splitFrom_between_separator (ends : isSeparator char = true) :
    splitFrom .between (char :: rest) = splitFrom .between rest := by
  have kinds : char = ' ' ∨ char = '\t' ∨ char = '\n' := by simpa [isSeparator, or_assoc] using ends
  rcases kinds with rfl | rfl | rfl <;> simp [splitFrom, isSeparator]

private theorem splitFrom_word_end (ends : EndsWord rest) :
    splitFrom (.word read) rest =
      (splitFrom .between rest).map (String.ofList read.reverse :: ·) := by
  cases rest with
  | nil => simp [splitFrom]
  | cons char rest =>
    have separator : isSeparator char = true := ends char rfl
    rw [splitFrom_between_separator separator]
    have kinds : char = ' ' ∨ char = '\t' ∨ char = '\n' := by
      simpa [isSeparator, or_assoc] using separator
    rcases kinds with rfl | rfl | rfl <;> simp [splitFrom, isSeparator]

private theorem splitFrom_literals (literal : ∀ char ∈ run, IsLiteral char) :
    splitFrom (.word read) (run ++ rest) = splitFrom (.word (run.reverse ++ read)) rest := by
  induction run generalizing read with
  | nil => rfl
  | cons char run ih =>
    obtain ⟨first, others⟩ := List.forall_mem_cons.mp literal
    have step : splitFrom (.word read) (char :: (run ++ rest)) =
        splitFrom (.word (char :: read)) (run ++ rest) := by
      obtain ⟨inner, noEscape, noDouble, noSingle⟩ := first
      simp [splitFrom, inner, noEscape, noDouble, noSingle]
    rw [List.cons_append, step, ih others, List.reverse_cons, List.append_assoc,
      List.singleton_append]

/-- A run of literals starts a word unless it looks like a comment. -/
theorem splitFrom_plainRun (bare : place.Bare) (nonempty : run ≠ [])
    (literal : ∀ char ∈ run, IsLiteral char) (noComment : run.head? ≠ some '#') :
    splitFrom place (run ++ rest) = splitFrom (.word (run.reverse ++ place.read)) rest := by
  cases bare with
  | word read => exact splitFrom_literals literal
  | between =>
    obtain ⟨first, run, rfl⟩ := List.exists_cons_of_ne_nil nonempty
    obtain ⟨⟨inner, noEscape, noDouble, noSingle⟩, others⟩ := List.forall_mem_cons.mp literal
    have plain : first ≠ '#' := fun mark => noComment (congrArg some mark)
    have step : splitFrom .between (first :: (run ++ rest)) =
        splitFrom (.word [first]) (run ++ rest) := by
      simp [splitFrom, inner, noEscape, noDouble, noSingle, plain]
    rw [List.cons_append, step, splitFrom_literals others, List.reverse_cons]
    simp

private theorem splitFrom_singleRun (bare : place.Bare) (closed : '\'' ∉ run) :
    splitFrom place ('\'' :: (run ++ '\'' :: rest)) =
      splitFrom (.word (run.reverse ++ place.read)) rest := by
  have opened : ∀ line, splitFrom place ('\'' :: line) = splitFrom (.single place.read) line := by
    intro line
    cases bare <;> simp [splitFrom]
  have inner : ∀ read, splitFrom (.single read) (run ++ '\'' :: rest) =
      splitFrom (.word (run.reverse ++ read)) rest := by
    clear opened
    induction run with
    | nil => simp [splitFrom]
    | cons char run ih =>
      intro read
      obtain ⟨apart, others⟩ := not_or.mp (mt List.mem_cons.mpr closed)
      rw [List.cons_append, splitFrom, if_neg (Ne.symm apart), ih others, List.reverse_cons,
        List.append_assoc, List.singleton_append]
  rw [opened, inner]

/-- A character as it is written between double quotes. -/
def escaped (char : Char) : List Char :=
  if isEscapedInDouble char then ['\\', char] else [char]

private theorem splitFrom_escaped :
    splitFrom (.double read) (escaped char ++ rest) = splitFrom (.double (char :: read)) rest := by
  unfold escaped
  split
  · rename_i special
    have inner : char ≠ '\n' := by
      rintro rfl
      cases special
    simp [splitFrom, inner, special]
  · rename_i plain
    have noEscape : char ≠ '\\' := fun same => plain (by simp [same, isEscapedInDouble])
    have noQuote : char ≠ '"' := fun same => plain (by simp [same, isEscapedInDouble])
    simp [splitFrom, noEscape, noQuote]

private theorem splitFrom_doubleRun (bare : place.Bare) :
    splitFrom place ('"' :: (run.flatMap escaped ++ '"' :: rest)) =
      splitFrom (.word (run.reverse ++ place.read)) rest := by
  have opened : ∀ line, splitFrom place ('"' :: line) = splitFrom (.double place.read) line := by
    intro line
    cases bare <;> simp [splitFrom]
  have inner : ∀ read, splitFrom (.double read) (run.flatMap escaped ++ '"' :: rest) =
      splitFrom (.word (run.reverse ++ read)) rest := by
    clear opened
    induction run with
    | nil => simp [splitFrom]
    | cons char run ih =>
      intro read
      rw [List.flatMap_cons, List.append_assoc, splitFrom_escaped, ih, List.reverse_cons,
        List.append_assoc, List.singleton_append]
  rw [opened, inner]

private theorem isLiteral_of_plain (plain : (Styles.ofChar char).plain = true) :
    IsLiteral char ∧ char ≠ '#' := by
  have apart : ∀ other, (Styles.ofChar other).plain = false → char ≠ other := by
    rintro other special rfl
    cases plain.symm.trans special
  refine ⟨⟨?_, apart _ (by decide), apart _ (by decide), apart _ (by decide)⟩, apart _ (by decide)⟩
  simp [isSeparator, apart ' ' (by decide), apart '\t' (by decide), apart '\n' (by decide)]

/-- Every style that is left for a run is open to each of its characters. -/
def Styles.Fits (styles : Styles) (run : List Char) : Prop :=
  ∀ char ∈ run, (styles.plain = true → (ofChar char).plain = true) ∧
    (styles.single = true → char ≠ '\'')

private theorem Styles.fits_ofFirst (char : Char) : (ofFirst char).Fits [char] := by
  intro other member
  obtain rfl := List.mem_singleton.mp member
  unfold ofFirst
  split
  · rename_i caret
    exact ⟨nofun, fun _ => by rw [caret]; decide⟩
  · exact ⟨id, by simp +contextual [ofChar]⟩

private theorem Styles.Fits.cons (fits : styles.Fits run) (char : Char) :
    (styles.both (ofChar char)).Fits (char :: run) := by
  intro other member
  rcases List.mem_cons.mp member with rfl | old
  · exact ⟨by simp +contextual [both], by simp +contextual [both, ofChar]⟩
  · obtain ⟨plain, single⟩ := fits other old
    exact ⟨fun chosen => plain (by simp_all [both]), fun chosen => single (by simp_all [both])⟩

private theorem Styles.Fits.reverse (fits : styles.Fits run) :
    styles.Fits run.reverse := fun char member =>
  fits char (List.mem_reverse.mp member)

private theorem splitFrom_writeRun (bare : place.Bare) (nonempty : run ≠ [])
    (fits : styles.Fits run) :
    splitFrom place (writeRun styles run ++ rest) =
      splitFrom (.word (run.reverse ++ place.read)) rest := by
  unfold writeRun
  split
  · rename_i plain
    have literal : ∀ char ∈ run, IsLiteral char ∧ char ≠ '#' := fun char member =>
      isLiteral_of_plain ((fits char member).1 plain)
    refine splitFrom_plainRun bare nonempty (fun char member => (literal char member).1) ?_
    intro first
    exact (literal '#' (List.mem_of_head? first)).2 rfl
  split
  · rename_i single
    have closed : '\'' ∉ run := fun member => (fits '\'' member).2 single rfl
    rw [List.cons_append, List.cons_append, List.append_assoc]
    exact splitFrom_singleRun bare closed
  · rw [List.cons_append, List.cons_append, List.append_assoc]
    exact splitFrom_doubleRun bare

/-- Whatever the runs are, reading what was written adds all the characters to the word. -/
theorem splitFrom_writeRuns (bare : place.Bare) (nonempty : run ≠ []) (fits : styles.Fits run) :
    splitFrom place (writeRuns styles run chars ++ rest) =
      splitFrom (.word (chars.reverse ++ run ++ place.read)) rest := by
  induction chars generalizing place styles run with
  | nil =>
    rw [writeRuns, splitFrom_writeRun bare (by simpa using nonempty) fits.reverse,
      List.reverse_reverse]
    rfl
  | cons char chars ih =>
    rw [writeRuns]
    split
    · rw [List.append_assoc, splitFrom_writeRun bare (by simpa using nonempty) fits.reverse,
        ih (.word _) (by simp) (Styles.fits_ofFirst char)]
      simp
    · rw [ih bare (by simp) (fits.cons char)]
      simp

private theorem splitFrom_quote? (quoted : quote? word = some text) :
    splitFrom .between (text.toList ++ rest) = splitFrom (.word word.toList.reverse) rest := by
  unfold quote? at quoted
  split at quoted
  · cases quoted
  split at quoted
  · rename_i empty
    obtain rfl := Option.some.inj quoted
    rw [empty]
    simp [splitFrom, Place.read]
  · rename_i first others shape
    obtain rfl := Option.some.inj quoted
    rw [String.toList_ofList, splitFrom_writeRuns .between (by simp) (Styles.fits_ofFirst first),
      shape, List.reverse_cons, Place.read_between, List.append_nil]

private theorem isSome_quote?_iff : (quote? word).isSome = true ↔ '\x00' ∉ word.toList := by
  unfold quote?
  split
  · simpa using ‹_›
  · split <;> simpa using ‹_›

/-- A command line that is written word by word is read as these words, whatever comes after it. -/
theorem splitFrom_join? (joined : join? words = some line) (ends : EndsWord rest) :
    splitFrom .between (line.toList ++ rest) = (splitFrom .between rest).map (words ++ ·) := by
  obtain ⟨texts, quoted, rfl⟩ := Option.map_eq_some_iff.mp joined
  have written := mapM_eq_some_iff.mp quoted
  clear joined quoted
  induction written with
  | nil => simp
  | @cons word text words texts first others ih =>
    cases others with
    | nil =>
      rw [String.intercalate_singleton, splitFrom_quote? first, splitFrom_word_end ends]
      simp
    | @cons next _ words texts second others =>
      rw [String.intercalate_cons_cons, String.toList_append, String.toList_append,
        List.append_assoc, List.append_assoc, splitFrom_quote? first]
      rw [show " ".toList = [' '] from rfl, List.singleton_append,
        splitFrom_word_end (endsWord_cons rfl), splitFrom_between_separator rfl, ih, Option.map_map]
      simp [Function.comp_def]

private theorem isSome_join?_iff :
    (join? words).isSome = true ↔ ∀ word ∈ words, '\x00' ∉ word.toList := by
  rw [join?, Option.isSome_map, isSome_mapM_iff]
  exact forall₂_congr fun _ _ => isSome_quote?_iff

private theorem split_join? (joined : join? words = some line) : split line = some words := by
  have ended : EndsWord [] := nofun
  simpa [split, splitFrom] using splitFrom_join? joined ended

/-- How many line ends the text ends in: none or one. -/
def lineEnd (chars : List Char) : Nat := if chars.getLast? = some '\n' then 1 else 0

private theorem lineEnd_le (chars : List Char) : lineEnd chars ≤ 1 := by
  unfold lineEnd
  split <;> decide

private theorem lineEnd_cons (char : Char) (nonempty : rest ≠ []) :
    lineEnd (char :: rest) = lineEnd rest := by
  rw [lineEnd, lineEnd, List.getLast?_cons_of_ne_nil nonempty]

private theorem lineEnd_cons_of_inner (inner : ¬isSeparator char = true) :
    lineEnd (char :: rest) = lineEnd rest := by
  cases rest with
  | nil =>
    have : char ≠ '\n' := fun same => inner (by simp [same, isSeparator])
    simp [lineEnd, this]
  | cons => exact lineEnd_cons char (by simp)

/-- The words are no longer than what they were read from, and the end of a line is in none. -/
theorem length_words_le (told : splitFrom place chars = some words) :
    (words.map String.length).sum + lineEnd chars ≤ place.read.length + chars.length := by
  -- Quotes and backslashes are read and not kept, which leaves room for a line end. Only a literal
  -- is kept as the last character, and that is no line end.
  fun_induction splitFrom place chars generalizing words with
  | case3 read =>
    obtain rfl := Option.some.inj told
    simp [lineEnd]
  | case17 char rest _ _ _ _ read separator _ _ _ _ ih =>
    obtain ⟨others, later, rfl⟩ := Option.map_eq_some_iff.mp told
    have room := lineEnd_le (char :: rest)
    have bound := ih later
    simp only [Place.read_between, Place.read_word, List.map_cons, List.sum_cons,
      String.length_ofList, List.length_reverse, List.length_nil, List.length_cons] at bound ⊢
    omega
  | case18 char rest _ _ _ _ read inner _ _ _ _ ih =>
    have bound := ih told
    rw [lineEnd_cons_of_inner inner]
    simp only [Place.read_word, List.length_cons] at bound ⊢
    omega
  | case21 place char rest _ _ _ _ _ _ _ _ inner _ _ ih =>
    have bound := ih told
    rw [lineEnd_cons_of_inner inner]
    simp only [Place.read_word, List.length_cons, List.length_nil] at bound ⊢
    omega
  | _ => grind [lineEnd_le, lineEnd_cons, lineEnd, Place.read, splitFrom]

private theorem lineEnd_ended (chars : List Char) : lineEnd (chars ++ ['\n']) = 1 := by
  simp [lineEnd]

/-- A text that a shell reads as one word, just as it stands. -/
def IsBareWord (text : String) : Prop :=
  text ≠ "" ∧ text.toList.head? ≠ some '#' ∧ ∀ char ∈ text.toList, IsLiteral char

instance (text : String) : Decidable (∀ char ∈ text.toList, IsLiteral char) :=
  List.decidableBAll ..

instance (text : String) : Decidable (IsBareWord text) :=
  inferInstanceAs (Decidable (_ ∧ _ ∧ ∀ char ∈ text.toList, IsLiteral char))

private theorem splitFrom_bareWord (bare : IsBareWord text) (ends : EndsWord rest) :
    splitFrom .between (text.toList ++ rest) = (splitFrom .between rest).map (text :: ·) := by
  obtain ⟨nonempty, noComment, literal⟩ := bare
  have started : text.toList ≠ [] := fun empty => nonempty (String.toList_eq_nil_iff.mp empty)
  rw [splitFrom_plainRun .between started literal noComment, splitFrom_word_end ends]
  simp

/-- Outside of quotes, a character that is no literal is read and not kept. -/
theorem length_words_le_of_special (bare : place.Bare) (special : ¬IsLiteral char)
    (told : splitFrom place (char :: (rest ++ ['\n'])) = some words) :
    (words.map String.length).sum ≤ place.read.length + rest.length := by
  have ended := lineEnd_ended rest
  by_cases separator : isSeparator char = true
  · cases bare with
    | between =>
      rw [splitFrom_between_separator separator] at told
      have bound := length_words_le told
      simp only [Place.read_between, List.length_append, List.length_cons, List.length_nil]
        at bound ⊢
      omega
    | word read =>
      rw [splitFrom_word_end (endsWord_cons separator),
        splitFrom_between_separator separator] at told
      obtain ⟨others, later, rfl⟩ := Option.map_eq_some_iff.mp told
      have bound := length_words_le later
      simp only [Place.read_between, Place.read_word, List.map_cons, List.sum_cons,
        String.length_ofList, List.length_reverse, List.length_append, List.length_cons,
        List.length_nil] at bound ⊢
      omega
  by_cases quote : char = '\'' ∨ char = '"'
  · have opened : ∃ inner : Place, inner.read = place.read ∧
        splitFrom inner (rest ++ ['\n']) = some words := by
      rcases quote with rfl | rfl
      · exact ⟨.single place.read, rfl, by cases bare <;> simpa [splitFrom] using told⟩
      · exact ⟨.double place.read, rfl, by cases bare <;> simpa [splitFrom] using told⟩
    obtain ⟨inner, same, inside⟩ := opened
    have bound := length_words_le inside
    simp only [same, List.length_append, List.length_cons, List.length_nil] at bound
    omega
  · obtain rfl : char = '\\' := by
      by_contra plain
      exact special ⟨by simpa using separator, plain, fun same => quote (.inr same),
        fun same => quote (.inl same)⟩
    -- The next character is kept, but not if it is the end of the line.
    cases rest with
    | nil =>
      obtain rfl : [String.ofList place.read.reverse] = words := by
        cases bare <;> simpa [splitFrom] using told
      simp
    | cons next rest =>
      have escaped : splitFrom (.word (if next = '\n' then place.read else next :: place.read))
          (rest ++ ['\n']) = some words := by
        cases bare <;> simpa [splitFrom] using told
      have bound := length_words_le escaped
      have ended := lineEnd_ended rest
      have kept : (if next = '\n' then place.read else next :: place.read).length ≤
          place.read.length + 1 := by
        split <;> simp
      simp only [Place.read_word, List.length_append, List.length_cons, List.length_nil] at bound ⊢
      omega

/-- Where the reader is after a run of literals that starts no comment. -/
theorem exists_place_after (literal : ∀ char ∈ run, IsLiteral char)
    (noComment : run.head? ≠ some '#') :
    ∃ place : Place, place.Bare ∧ place.read.length = run.length ∧
      ∀ rest, splitFrom .between (run ++ rest) = splitFrom place rest := by
  by_cases empty : run = []
  · exact ⟨.between, .between, by simp [empty], fun rest => by rw [empty, List.nil_append]⟩
  · refine ⟨.word run.reverse, .word _, by simp, fun rest => ?_⟩
    rw [splitFrom_plainRun .between empty literal noComment]
    simp

/-- A line whose words are as long as the line is made of literals. -/
theorem literal_of_length_words (told : splitFrom .between (run ++ rest ++ ['\n']) = some words)
    (long : run.length + rest.length ≤ (words.map String.length).sum)
    (literal : ∀ char ∈ run, IsLiteral char) (noComment : (run ++ rest).head? ≠ some '#') :
    ∀ char ∈ rest, IsLiteral char := by
  induction rest generalizing run with
  | nil => simp
  | cons char rest ih =>
    have first : IsLiteral char := by
      by_contra special
      obtain ⟨place, bare, length, reads⟩ := exists_place_after literal fun first => noComment (by
        rw [List.head?_append, first, Option.some_or])
      rw [List.append_assoc, reads] at told
      have bound := length_words_le_of_special bare special told
      simp at long
      omega
    have extended : ∀ other ∈ run ++ [char], IsLiteral other := by
      simpa [or_imp, forall_and] using ⟨literal, first⟩
    refine List.forall_mem_cons.mpr ⟨first, ih ?_ ?_ extended ?_⟩
    · simpa using told
    · simp at long ⊢
      omega
    · simpa using noComment

private theorem isBareWord_of_split (told : split (text ++ "\n") = some [text]) :
    IsBareWord text := by
  have read : splitFrom .between (text.toList ++ ['\n']) = some [text] := by
    simpa [split] using told
  have noComment : text.toList.head? ≠ some '#' := by
    intro first
    obtain ⟨rest, shape⟩ := List.head?_eq_some_iff.mp first
    have skipped : splitFrom .comment (rest ++ ['\n']) = some [text] := by
      simpa [shape, splitFrom, isSeparator] using read
    have bound := length_words_le skipped
    have ended := lineEnd_ended rest
    have length : text.length = rest.length + 1 := by
      rw [← String.length_toList, shape, List.length_cons]
    simp only [Place.read, List.map_cons, List.map_nil, List.sum_cons, List.sum_nil,
      List.length_append, List.length_cons, List.length_nil] at bound
    omega
  refine ⟨?_, noComment, ?_⟩
  · rintro rfl
    simp [splitFrom, isSeparator] at read
  · have long : ([] : List Char).length + text.toList.length ≤ ([text].map String.length).sum := by
      simp [String.length_toList]
    exact literal_of_length_words read long nofun noComment

end ShellWords

namespace CommandLine.SourceReport
open ShellWords

variable {entry : SourceReport} {entries : List SourceReport} {line output : String}

/-- A file and its arguments as the words of one command line. -/
def words (entry : SourceReport) : List String := entry.file.text :: entry.arguments

/-- What a JSON report says of one file. -/
def ofJson? : Json → Option SourceReport
  | .object [(some "file", file), (some "arguments", arguments)] => do
    return ⟨⟨← file.string?⟩, ← arguments.strings?⟩
  | _ => none

private theorem ofJson?_json (entry : SourceReport) : ofJson? entry.json = some entry := by
  have arguments : (entry.arguments.map fun argument => Json.string (some argument)).mapM
      Json.string? = some entry.arguments := by
    rw [mapM_eq_some_iff, List.forall₂_map_left_iff, List.forall₂_same]
    exact fun _ _ => rfl
  simp [ofJson?, json, Json.strings?, arguments, Json.string?]

private theorem isSome_text?_iff :
    entry.text?.isSome = true ↔ ∀ argument ∈ entry.arguments, '\x00' ∉ argument.toList := by
  rw [text?, Option.isSome_map, isSome_join?_iff]

private theorem splitFrom_text? {rest : List Char} (written : entry.text? = some line)
    (bare : IsBareWord entry.file.text) :
    splitFrom .between (line.toList ++ rest) =
      (splitFrom .between rest).map (entry.words ++ ·) := by
  obtain ⟨arguments, joined, rfl⟩ := Option.map_eq_some_iff.mp written
  have ended : EndsWord ('\n' :: rest) := endsWord_cons rfl
  by_cases empty : arguments = ""
  · obtain rfl : arguments = "" := empty
    have none : entry.arguments = [] := by
      simpa [split, splitFrom, eq_comm] using split_join? joined
    have shape : (entry.file.text ++ "\n").toList ++ rest =
        entry.file.text.toList ++ '\n' :: rest := by
      simp
    rw [if_pos rfl, shape, splitFrom_bareWord bare ended, splitFrom_between_separator rfl, words,
      none]
    rfl
  · have blank : EndsWord (' ' :: (arguments.toList ++ '\n' :: rest)) := endsWord_cons rfl
    have shape : (entry.file.text ++ " " ++ arguments ++ "\n").toList ++ rest =
        entry.file.text.toList ++ ' ' :: (arguments.toList ++ '\n' :: rest) := by
      simp
    rw [if_neg empty, shape, splitFrom_bareWord bare blank, splitFrom_between_separator rfl,
      splitFrom_join? joined ended, splitFrom_between_separator rfl, Option.map_map]
    rfl

private theorem split_render (rendered : render entries .text = some output)
    (bare : ∀ entry ∈ entries, IsBareWord entry.file.text) :
    split output = some (entries.flatMap words) := by
  obtain ⟨texts, listed, rfl⟩ := Option.map_eq_some_iff.mp rendered
  have written := mapM_eq_some_iff.mp listed
  clear rendered listed
  unfold split
  induction written with
  | nil => simp [splitFrom]
  | cons first _ ih =>
    obtain ⟨bareFirst, others⟩ := List.forall_mem_cons.mp bare
    rw [String.join_cons, String.toList_append, splitFrom_text? first bareFirst, ih others,
      List.flatMap_cons, Option.map_some]

/-- A list of sources can be written as text if no argument holds a NUL. It is read back as the
paths and the arguments of the files, which are those in the JSON report, if every path is a word as
it stands. A path that is not is not even read back on its own. -/
theorem bare_listing_is_read_back (entries : List SourceReport) :
    ((render entries .text).isSome = true ↔
      ∀ entry ∈ entries, ∀ argument ∈ entry.arguments, '\x00' ∉ argument.toList) ∧
    (∀ output, render entries .text = some output →
      (∀ entry ∈ entries, IsBareWord entry.file.text) →
        split output = some (entries.flatMap words)) ∧
    (∃ values, render entries .json = some ((Json.array values).pretty ++ "\n") ∧
      values.mapM ofJson? = some entries) ∧
    ∀ file, (∃ output, render [⟨file, []⟩] .text = some output ∧
      split output = some (words ⟨file, []⟩)) ↔ IsBareWord file.text := by
  refine ⟨?_, fun _ => split_render, ⟨entries.map json, rfl, ?_⟩, ?_⟩
  · rw [render, Option.isSome_map, isSome_mapM_iff]
    exact forall₂_congr fun _ _ => isSome_text?_iff
  · rw [mapM_eq_some_iff, List.forall₂_map_left_iff, List.forall₂_same]
    exact fun entry _ => ofJson?_json entry
  · intro file
    have alone : render [⟨file, []⟩] .text = some (file.text ++ "\n") := by
      simp [render, text?, join?]
    constructor
    · rintro ⟨output, rendered, read⟩
      obtain rfl := Option.some.inj (rendered.symm.trans alone)
      exact isBareWord_of_split read
    · intro bare
      exact ⟨_, alone, split_render alone (List.forall_mem_singleton.mpr bare)⟩

theorem odd_words_are_read_back :
    let entries : List SourceReport := [
      ⟨⟨"/p/a#1~.c"⟩, ["-DNAME=\"x y\"", "", "it's", "a\\b"]⟩, ⟨⟨"/p/b.c"⟩, []⟩,
      ⟨⟨"/p/c+.c"⟩, ["#", "two\nlines", "^!^"]⟩]
    ∃ output, render entries .text = some output ∧
      (∀ entry ∈ entries, IsBareWord entry.file.text) ∧
      split output = some (entries.flatMap words) := by
  intro entries
  have quotable : ∀ entry ∈ entries, ∀ argument ∈ entry.arguments, '\x00' ∉ argument.toList := by
    decide +kernel
  have bare : ∀ entry ∈ entries, IsBareWord entry.file.text := by decide +kernel
  obtain ⟨renders, reads, _⟩ := bare_listing_is_read_back entries
  obtain ⟨output, rendered⟩ := Option.isSome_iff_exists.mp (renders.mpr quotable)
  exact ⟨output, rendered, bare, reads output rendered bare⟩

theorem path_with_blank_is_two_words :
    let entry : SourceReport := ⟨⟨"/p/a b.c"⟩, ["-DX"]⟩
    (∀ word ∈ entry.words, '\x00' ∉ word.toList) ∧
    render [entry] .text = some "/p/a b.c -DX\n" ∧
    split "/p/a b.c -DX\n" = some ["/p/a", "b.c", "-DX"] ∧
    split "/p/a b.c -DX\n" ≠ some ([entry].flatMap words) := by
  decide +kernel

end CommandLine.SourceReport

end UnitCache
