import UnitCache.Proofs.HiddenContents

/-! Which spellings of a file an unsaved buffer is found under. Buffers are looked up by the steps
of their paths, and a scan asks for normalized paths only. A buffer whose path takes no step back
has the steps of its normal form and stands in for its file under every such spelling. One whose
path goes through `..` is never found. -/

namespace UnitCache

namespace Path
open Proofs.CanonicalPath

/-- The spelling has the steps of its normal form: none of them is taken back. -/
def IsDirect (path : Path) : Prop := path.normalize.components = path.components

theorem same_iff {spelling path : Path} (normal : path.normalize = path) :
    spelling.Same path ↔ spelling.IsDirect ∧ spelling.normalize = path := by
  constructor
  · intro same
    have formed : spelling.normalize = path := (normalize_of_same same).trans normal
    exact ⟨(congrArg components formed).trans same.symm, formed⟩
  · rintro ⟨direct, rfl⟩
    exact direct.symm

private theorem same_of_isDirect {first second : Path} (direct : first.IsDirect)
    (other : second.IsDirect) (same : first.normalize = second.normalize) : first.Same second :=
  direct.symm.trans ((congrArg components same).trans other)

/-- An absolute path is direct if it nowhere goes to the directory above. -/
theorem isDirect_iff {path : Path} (absolute : path.isAbsolute = true) :
    path.IsDirect ↔ .parent ∉ path.components := by
  obtain ⟨rest, shape, body⟩ := components_head_root absolute
  constructor
  · intro direct climbs
    obtain ⟨names, base, split, named, bottom⟩ := path.isReduced_reducedSteps
    have steps : path.components.reverse = names ++ base := by
      rw [← split, ← components_normalize, show path.normalize.components = _ from direct]
    -- Both the root and the step back are in the base, which is a lone root or steps back only.
    have member : ∀ step ∈ path.components, step ∈ names ∨ step ∈ base := by
      intro step inside
      rw [← List.mem_append, ← steps]
      exact List.mem_reverse.mpr inside
    have low : Component.parent ∈ base :=
      (member _ climbs).resolve_left fun inside => (named _ inside).2 rfl
    have root : Component.root ∈ base :=
      (member _ (shape ▸ List.mem_cons_self)).resolve_left fun inside => (named _ inside).1
    rcases bottom with rfl | parents
    · cases List.mem_singleton.mp low
    · cases parents _ root
  · intro level
    have reduced : IsReduced path.components.reverse := by
      refine ⟨rest.reverse, [.root], by rw [shape, List.reverse_cons], ?_, .inl rfl⟩
      intro step member
      have inside : step ∈ rest := List.mem_reverse.mp member
      refine ⟨body step inside, ?_⟩
      rintro rfl
      exact level (shape ▸ List.mem_cons_of_mem _ inside)
    rw [IsDirect, components_normalize, reducedSteps, foldl_push_of_isReduced reduced,
      List.reverse_reverse]

end Path

namespace Buffer

theorem find?_map (buffers : List Buffer) (path : Path) {rewrite : Buffer → Buffer}
    (kept : ∀ buffer, (rewrite buffer).path = buffer.path) :
    find? (buffers.map rewrite) path = (find? buffers path).map rewrite := by
  unfold find?
  rw [List.find?_map]
  congr 2
  funext buffer
  rw [Function.comp_apply, kept]

theorem filter_same {buffers : List Buffer}
    (distinct : buffers.Pairwise fun buffer other => ¬buffer.path.Same other.path) (path : Path) :
    (buffers.filter fun buffer => buffer.path.Same path) = (find? buffers path).toList := by
  induction distinct with
  | nil => rfl
  | @cons buffer rest apart _ ih =>
    rw [find?_cons, List.filter_cons, ih]
    by_cases same : buffer.path.Same path
    · have alone : find? rest path = none := by
        refine List.find?_eq_none.mpr fun other member => ?_
        intro again
        exact apart other member (same.trans (of_decide_eq_true again).symm)
      simp [same, alone]
    · simp [same]

end Buffer

/-- The same is on both disks at every normalized path but one. -/
def Disk.SameBeside (file : Path) (disk other : Disk) : Prop :=
  ∀ path : Path, path.normalize = path → path ≠ file →
    disk.readText path = other.readText path ∧ disk.isFile path = other.isFile path

namespace VisibleFiles

/-- What a search sees at normalized paths is the same: the texts and which files exist. -/
structure Agree (one two : VisibleFiles) : Prop where
  text : ∀ path : Path, path.normalize = path → one.text? path = two.text? path
  presence : ∀ path : Path, path.normalize = path → one.has path = two.has path

section Buffers
variable {disk : Disk} {first second hidden : Path} (before after : List Buffer) (text : String)

theorem agree_of_find? {one two : List Buffer}
    (found : ∀ path : Path, path.normalize = path →
      (Buffer.find? one path).map Buffer.text = (Buffer.find? two path).map Buffer.text) :
    Agree ⟨disk, one⟩ ⟨disk, two⟩ where
  text path normal := by
    have same := found path normal
    unfold text?
    cases seen : Buffer.find? one path <;> cases other : Buffer.find? two path <;> simp_all
  presence path normal := by
    have same := congrArg Option.isSome (found path normal)
    rw [Option.isSome_map, Option.isSome_map] at same
    rw [has, has, same]

private theorem agree_of_same (same : first.Same second) :
    Agree ⟨disk, before ++ ⟨first, text⟩ :: after⟩ ⟨disk, before ++ ⟨second, text⟩ :: after⟩ := by
  refine agree_of_find? fun path _ => ?_
  have alike : first.Same path ↔ second.Same path := ⟨same.symm.trans, same.trans⟩
  rw [Buffer.find?_append, Buffer.find?_append, Buffer.find?_cons, Buffer.find?_cons]
  cases Buffer.find? before path with
  | some buffer => rfl
  | none => by_cases here : second.Same path <;> simp [alike, here]

/-- A buffer under a spelling with steps back is never found at a normalized path. -/
theorem agree_of_not_isDirect (climbs : ¬hidden.IsDirect) :
    Agree ⟨disk, before ++ ⟨hidden, text⟩ :: after⟩ ⟨disk, before ++ after⟩ := by
  refine agree_of_find? fun path normal => ?_
  have missed : ¬hidden.Same path := fun same => climbs ((Path.same_iff normal).mp same).1
  rw [Buffer.find?_append, Buffer.find?_append, Buffer.find?_cons, if_neg missed]

theorem agree_of_sameBeside {file : Path} {disk other : Disk} (beside : disk.SameBeside file other)
    {buffers : List Buffer} (covered : (Buffer.find? buffers file).isSome = true) :
    Agree ⟨disk, buffers⟩ ⟨other, buffers⟩ := by
  constructor
  · intro path normal
    by_cases here : path = file
    · obtain ⟨buffer, found⟩ := Option.isSome_iff_exists.mp covered
      rw [here, text?, text?, found]
    · rw [text?, text?, (beside path normal here).1]
  · intro path normal
    by_cases here : path = file
    · rw [here, has, has, covered, Bool.true_or, Bool.true_or]
    · rw [has, has, (beside path normal here).2]

end Buffers

private theorem Agree.agreeFor {one two : VisibleFiles} (agree : Agree one two) {main : Path}
    (normal : main.normalize = main) : AgreeFor main one two := by
  have normalized : ∀ path, MayAsk main path → path.normalize = path := by
    rintro path ⟨rfl | here, _⟩
    · exact normal
    · exact here
  exact ⟨fun path asked => agree.text path (normalized path asked),
    fun path asked => agree.presence path (normalized path asked)⟩

private theorem Agree.closureOf {one two : VisibleFiles} (agree : Agree one two) {main : Path}
    (normal : main.normalize = main) (arguments : List String) :
    IncludeEngine.closureOf one main arguments = IncludeEngine.closureOf two main arguments :=
  (agree.agreeFor normal).closureOf arguments

end VisibleFiles

inductive BufferChange where
  | update (path : Path) (text : String)
  | remove (path : Path)
  | clear

namespace Buffers

def change (opened : Buffers) : BufferChange → Buffers
  | .update path text => opened.update path text
  | .remove path => opened.remove path
  | .clear => empty

def ofHistory (history : List BufferChange) : Buffers := history.foldl change empty

theorem get?_update (opened : Buffers) (path : Path) (text : String) (other : Path) :
    (opened.update path text).get? other =
      if path.Same other then some text else opened.get? other := by
  unfold update contains get?
  split
  · rename_i present
    rw [Buffer.find?_map _ _ fun buffer => by split <;> rfl]
    by_cases same : path.Same other
    · rw [Buffer.find?_congr _ same] at present
      obtain ⟨buffer, found⟩ := Option.isSome_iff_exists.mp present
      have here : buffer.path.Same path := (Buffer.same_of_find? found).trans same.symm
      simp [found, here, same]
    · cases found : Buffer.find? opened.toList other with
      | none => simp [same]
      | some buffer =>
        have apart : ¬buffer.path.Same path := fun here =>
          same (here.symm.trans (Buffer.same_of_find? found))
        simp [apart, same]
  · rename_i absent
    rw [Buffer.find?_append, Buffer.find?_cons]
    by_cases same : path.Same other
    · rw [Buffer.find?_congr _ same, Bool.not_eq_true, Option.isSome_eq_false_iff,
        Option.isNone_iff_eq_none] at absent
      simp [absent, same]
    · simp [same, Buffer.find?]

def Distinct (opened : Buffers) : Prop :=
  opened.toList.Pairwise fun buffer other => ¬buffer.path.Same other.path

def OpenedBy (history : List BufferChange) (opened : Buffers) : Prop :=
  ∀ buffer ∈ opened.toList, ∃ text, .update buffer.path text ∈ history

private theorem Distinct.update {opened : Buffers} (distinct : opened.Distinct) (path : Path)
    (text : String) : (opened.update path text).Distinct := by
  unfold Buffers.update
  split
  · refine List.pairwise_map.mpr (distinct.imp ?_)
    intro buffer other apart
    split <;> split <;> exact apart
  · rename_i absent
    refine List.pairwise_append.mpr ⟨distinct, List.pairwise_singleton .., ?_⟩
    intro buffer member last here same
    rw [List.mem_singleton.mp here] at same
    exact absent (List.find?_isSome.mpr ⟨buffer, member, decide_eq_true same⟩)

private theorem Distinct.remove {opened : Buffers} (distinct : opened.Distinct) (path : Path) :
    (opened.remove path).Distinct :=
  List.Pairwise.filter _ distinct

theorem distinct_ofHistory (history : List BufferChange) : (ofHistory history).Distinct := by
  unfold ofHistory
  apply List.foldlRecOn (motive := Distinct) history change List.Pairwise.nil
  intro opened distinct step _
  cases step with
  | update path text => exact distinct.update path text
  | remove path => exact distinct.remove path
  | clear => exact List.Pairwise.nil

private theorem path_of_mem_update {opened : Buffers} {path : Path} {text : String}
    {buffer : Buffer} (member : buffer ∈ (opened.update path text).toList) :
    buffer.path = path ∨ ∃ old ∈ opened.toList, old.path = buffer.path := by
  unfold update at member
  split at member
  · obtain ⟨old, inside, rfl⟩ := List.mem_map.mp member
    exact .inr ⟨old, inside, by split <;> rfl⟩
  · rcases List.mem_append.mp member with inside | last
    · exact .inr ⟨buffer, inside, rfl⟩
    · exact .inl (congrArg Buffer.path (List.mem_singleton.mp last))

private theorem openedBy_ofHistory (history : List BufferChange) :
    OpenedBy history (ofHistory history) := by
  unfold ofHistory
  apply List.foldlRecOn (motive := OpenedBy history) history change (by simp [OpenedBy, empty])
  intro opened known step listed buffer member
  cases step with
  | update path text =>
    rcases path_of_mem_update member with rfl | ⟨old, inside, same⟩
    · exact ⟨text, listed⟩
    · exact same ▸ known old inside
  | remove path => exact known buffer (List.mem_filter.mp member).1
  | clear => cases member

theorem isDirect_ofHistory {history : List BufferChange}
    (level : ∀ path text, .update path text ∈ history →
      path.isAbsolute = true ∧ .parent ∉ path.components) :
    ∀ buffer ∈ (ofHistory history).toList, buffer.path.IsDirect := by
  intro buffer member
  obtain ⟨text, listed⟩ := openedBy_ofHistory history buffer member
  obtain ⟨absolute, flat⟩ := level buffer.path text listed
  exact (Path.isDirect_iff absolute).mpr flat

theorem Distinct.one_buffer {opened : Buffers} (distinct : opened.Distinct) {first second : Path}
    (same : first.Same second) (one two : String) :
    let updated := ((opened.update first one).update second two).toList
    ∃ buffer, buffer.text = two ∧ Buffer.find? updated first = some buffer ∧
      (updated.filter fun opened => opened.path.Same first) = [buffer] := by
  intro updated
  have latest : ((opened.update first one).update second two).get? first = some two := by
    rw [get?_update, if_pos (show second.Same first from same.symm)]
  obtain ⟨buffer, found, held⟩ := Option.map_eq_some_iff.mp latest
  have alone := Buffer.filter_same ((distinct.update first one).update second two) first
  rw [found, Option.toList_some] at alone
  exact ⟨buffer, held, found, alone⟩

theorem filter_normalize {opened : Buffers} {path : Path} (direct : path.IsDirect)
    (level : ∀ buffer ∈ opened.toList, buffer.path.IsDirect) :
    (opened.toList.filter fun buffer => buffer.path.normalize = path.normalize) =
      opened.toList.filter fun buffer => buffer.path.Same path := by
  refine List.filter_congr fun buffer member => decide_eq_decide.mpr ?_
  exact ⟨Path.same_of_isDirect (level buffer member) direct, Path.normalize_of_same⟩

end Buffers

namespace IncludeEngine

/-- The buffers give a file its text, and no scan sees what is on disk there. -/
structure StandIn (buffers : List Buffer) (file : Path) (text : String) : Prop where
  present (disk : Disk) : VisibleFiles.has ⟨disk, buffers⟩ file = true
  read (disk : Disk) : VisibleFiles.text? ⟨disk, buffers⟩ file = some text
  hidden (disk other : Disk) (beside : disk.SameBeside file other) (main : Path)
    (normal : main.normalize = main) (arguments : List String) :
    closureOf ⟨disk, buffers⟩ main arguments = closureOf ⟨other, buffers⟩ main arguments

private theorem standIn_of_find? {buffers : List Buffer} {file : Path} {buffer : Buffer}
    (found : Buffer.find? buffers file = some buffer) : StandIn buffers file buffer.text := by
  have covered : (Buffer.find? buffers file).isSome = true :=
    Option.isSome_iff_exists.mpr ⟨_, found⟩
  constructor
  · intro disk
    rw [VisibleFiles.has, covered, Bool.true_or]
  · intro disk
    rw [VisibleFiles.text?, found]
  · intro disk other beside main normal arguments
    exact (VisibleFiles.agree_of_sameBeside beside covered).closureOf normal arguments

private theorem standIn_of_isDirect {path : Path} (direct : path.IsDirect) {before : List Buffer}
    (free : ∀ buffer ∈ before, ¬buffer.path.Same path) (after : List Buffer) (text : String) :
    StandIn (before ++ ⟨path, text⟩ :: after) path.normalize text := by
  have here : path.Same path.normalize := direct.symm
  have passed : Buffer.find? before path.normalize = none := by
    rw [← Buffer.find?_congr before here]
    exact List.find?_eq_none.mpr fun buffer member => by simpa using free buffer member
  have found : Buffer.find? (before ++ ⟨path, text⟩ :: after) path.normalize =
      some ⟨path, text⟩ := by
    rw [Buffer.find?_append, passed, Option.none_or, Buffer.find?_cons, if_pos here]
  exact standIn_of_find? found

/-- Two absolute spellings of one file are as good as each other for a buffer if neither goes
through `..`: a scan finds the same with either, the buffer stands in for the file, and a store
keeps one buffer for both, with the later text. A buffer whose path goes through `..` changes
nothing about a scan, and a store takes it for one of another file. -/
theorem buffers_apply_under_direct_spellings {main first second : Path}
    (normal : main.normalize = main) (absolute : first.isAbsolute = true)
    (absoluteOther : second.isAbsolute = true) (oneFile : first.normalize = second.normalize)
    (disk : Disk) (arguments : List String) (before after : List Buffer) (text : String)
    (history : List BufferChange) (one two : String) :
    let scan := fun unsaved => closureOf ⟨disk, unsaved⟩ main arguments
    let updated := ((Buffers.ofHistory history).update first one).update second two
    (.parent ∉ first.components → .parent ∉ second.components →
      scan (before ++ ⟨first, text⟩ :: after) = scan (before ++ ⟨second, text⟩ :: after)) ∧
    (.parent ∉ first.components → (∀ buffer ∈ before, ¬buffer.path.Same first) →
      StandIn (before ++ ⟨first, text⟩ :: after) first.normalize text) ∧
    (.parent ∈ first.components →
      scan (before ++ ⟨first, text⟩ :: after) = scan (before ++ after)) ∧
    (.parent ∉ first.components → .parent ∉ second.components →
      StandIn updated.toList first.normalize two ∧
      ∃ buffer, buffer.text = two ∧
        (updated.toList.filter fun opened => opened.path.Same first) = [buffer] ∧
        ((∀ path text, .update path text ∈ history →
            path.isAbsolute = true ∧ .parent ∉ path.components) →
          (updated.toList.filter fun opened => opened.path.normalize = first.normalize) =
            [buffer])) ∧
    (¬second.Same first → updated.get? first = some one ∧ updated.get? second = some two) := by
  have direct := Path.isDirect_iff absolute
  have directOther := Path.isDirect_iff absoluteOther
  intro scan updated
  refine ⟨?_, ?_, ?_, ?_, ?_⟩
  · intro level levelOther
    have same := Path.same_of_isDirect (direct.mpr level) (directOther.mpr levelOther) oneFile
    exact (VisibleFiles.agree_of_same before after text same).closureOf normal arguments
  · intro level free
    exact standIn_of_isDirect (direct.mpr level) free after text
  · intro climbs
    have hidden : ¬first.IsDirect := fun level => direct.mp level climbs
    exact (VisibleFiles.agree_of_not_isDirect before after text hidden).closureOf normal arguments
  · intro level levelOther
    have same := Path.same_of_isDirect (direct.mpr level) (directOther.mpr levelOther) oneFile
    obtain ⟨buffer, rfl, found, alone⟩ :=
      (Buffers.distinct_ofHistory history).one_buffer same one two
    have here : first.Same first.normalize := (direct.mpr level).symm
    refine ⟨standIn_of_find? (Buffer.find?_congr _ here ▸ found), buffer, rfl, alone, ?_⟩
    intro levelHistory
    -- The two updates are the last of a longer history.
    have whole : updated =
        Buffers.ofHistory (history ++ [.update first one, .update second buffer.text]) := by
      simp [updated, Buffers.ofHistory, Buffers.change]
    have levelAll : ∀ opened ∈ updated.toList, opened.path.IsDirect := by
      rw [whole]
      refine Buffers.isDirect_ofHistory fun path text listed => ?_
      rcases List.mem_append.mp listed with old | new
      · exact levelHistory path text old
      · simp only [List.mem_cons, BufferChange.update.injEq, List.not_mem_nil, or_false] at new
        rcases new with ⟨rfl, _⟩ | ⟨rfl, _⟩
        · exact ⟨absolute, level⟩
        · exact ⟨absoluteOther, levelOther⟩
    exact (Buffers.filter_normalize (direct.mpr level) levelAll).trans alone
  · intro apart
    constructor
    · rw [Buffers.get?_update, if_neg apart, Buffers.get?_update,
        if_pos (show first.Same first from rfl)]
    · rw [Buffers.get?_update, if_pos (show second.Same second from rfl)]

theorem dotted_spelling_is_as_good :
    let main : Buffer := ⟨⟨"/p/a.c"⟩, "#include \"b.h\"\n"⟩
    let plain : Path := ⟨"/p/b.h"⟩
    let dotted : Path := ⟨"//p/./b.h/"⟩
    main.path.normalize = main.path ∧ plain.isAbsolute = true ∧ dotted.isAbsolute = true ∧
    plain.normalize = dotted.normalize ∧
    (closureOf ⟨.empty, [main, ⟨plain, "int b;"⟩]⟩ main.path []).1.toOption =
      some ⟨[⟨"/p/b.h"⟩], []⟩ ∧
    closureOf ⟨.empty, [main, ⟨plain, "int b;"⟩]⟩ main.path [] =
      closureOf ⟨.empty, [main, ⟨dotted, "int b;"⟩]⟩ main.path [] ∧
    StandIn [main, ⟨plain, "int b;"⟩] plain.normalize "int b;" ∧
    StandIn ((Buffers.empty.update plain "int b;").update dotted "long b;").toList plain.normalize
      "long b;" := by
  intro main plain dotted
  have normal : main.path.normalize = main.path := by decide +kernel
  have oneFile : plain.normalize = dotted.normalize := by decide +kernel
  have level : .parent ∉ plain.components ∧ .parent ∉ dotted.components := by decide +kernel
  have absolute : plain.isAbsolute = true ∧ dotted.isAbsolute = true := by decide
  obtain ⟨alike, stands, _, kept, _⟩ := buffers_apply_under_direct_spellings normal absolute.1
    absolute.2 oneFile .empty [] [main] [] "int b;" [] "int b;" "long b;"
  exact ⟨normal, absolute.1, absolute.2, oneFile, by decide +kernel, alike level.1 level.2,
    stands level.1 (by decide +kernel), (kept level.1 level.2).1⟩

theorem buffer_behind_parent_step_is_lost :
    let plain : Path := ⟨"/p/a.c"⟩
    let climbing : Path := ⟨"/p/../p/a.c"⟩
    plain.normalize = plain ∧ plain.isAbsolute = true ∧ climbing.isAbsolute = true ∧
    climbing.normalize = plain.normalize ∧
    (closureOf ⟨.empty, [⟨plain, ""⟩]⟩ plain []).1.toOption = some ⟨[], []⟩ ∧
    (closureOf ⟨.empty, [⟨climbing, ""⟩]⟩ plain []).1.toOption = none ∧
    ((Buffers.empty.update plain "one").update climbing "two").toList =
      [⟨plain, "one"⟩, ⟨climbing, "two"⟩] := by
  decide +kernel

end IncludeEngine

end UnitCache
