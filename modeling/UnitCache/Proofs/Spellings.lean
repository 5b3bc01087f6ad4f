import Mathlib.Data.List.Nodup
import UnitCache.Engine.Scripted
import UnitCache.Proofs.Provenance

/-! One file under all its spellings. An operation sees a path only in its absolute form, and making
a path absolute twice does no more than once, so an operation on any spelling is the operation on
the key itself. Each live unit was parsed for the key of the entry that holds it, and no two entries
share a key. -/

namespace UnitCache

def Operation.absolute {E : Engine} (disk : Disk) : Operation E → Operation E
  | .request path => .request (disk.absolute path)
  | .ensure path => .ensure (disk.absolute path)
  | .renew path => .renew (disk.absolute path)
  | .remove path => .remove (disk.absolute path)
  | operation => operation

/-- The steps of a run with every path made absolute where it is used. -/
def absoluteSteps {E : Engine} (steps : List (World × Operation E)) : List (World × Operation E) :=
  steps.map fun (world, operation) => (world, operation.absolute world.disk)

namespace Cache
open Proofs Journal CanonicalPath

variable {E : Engine} {world : World} {path first second : Path} {cache final : Cache E}
  {answer : Except CacheError (Option (Entry E))}

structure SameFor (cache : Cache E) (world : World) (first second : Path) : Prop where
  request : cache.request world first = cache.request world second
  ensure : cache.ensure world first = cache.ensure world second
  renew : cache.renew world first = cache.renew world second
  remove : cache.remove world first = cache.remove world second
  contains : cache.contains world.disk first = cache.contains world.disk second
  get? : cache.get? world.disk first = cache.get? world.disk second

private theorem sameFor (cache : Cache E)
    (same : world.disk.absolute first = world.disk.absolute second) :
    cache.SameFor world first second := by
  have request : cache.request world first = cache.request world second := by
    simp only [Cache.request, same]
  have contains : cache.contains world.disk first = cache.contains world.disk second := by
    simp only [Cache.contains, Cache.get?, same]
  refine ⟨request, ?_, ?_, ?_, contains, ?_⟩
  · simp only [ensure, contains, request]
  · simp only [renew, contains, request]
  · simp only [remove, same]
  · simp only [get?, same]

private theorem perform_absolute (cache : Cache E) (world : World) (operation : Operation E) :
    cache.perform world (operation.absolute world.disk) = cache.perform world operation := by
  have same := fun path => cache.sameFor (absolute_absolute world.disk path)
  cases operation with
  | request path => exact congrArg Prod.snd (same path).request
  | ensure path => exact congrArg Prod.snd (same path).ensure
  | renew path => exact congrArg Prod.snd (same path).renew
  | remove path => exact congrArg Prod.snd (same path).remove
  | _ => rfl

private theorem reply_absolute (cache : Cache E) (world : World) (operation : Operation E) :
    cache.reply world (operation.absolute world.disk) = cache.reply world operation := by
  have same := fun path => cache.sameFor (absolute_absolute world.disk path)
  cases operation with
  | request path => exact congrArg (Reply.served ·.1) (same path).request
  | ensure path => exact congrArg (Reply.done ·.1) (same path).ensure
  | renew path => exact congrArg (Reply.done ·.1) (same path).renew
  | remove path => exact congrArg (Reply.removed ·.1) (same path).remove
  | _ => rfl

private theorem run_absoluteSteps (cache : Cache E) (steps : List (World × Operation E)) :
    cache.run (absoluteSteps steps) = cache.run steps ∧
    cache.replies (absoluteSteps steps) = cache.replies steps := by
  induction steps generalizing cache with
  | nil => exact ⟨rfl, rfl⟩
  | cons step rest ih =>
    obtain ⟨world, operation⟩ := step
    obtain ⟨state, told⟩ := ih (cache.perform world operation)
    have here := cache.perform_absolute world operation
    refine ⟨?_, ?_⟩
    · change (cache.perform world (operation.absolute world.disk)).run (absoluteSteps rest) = _
      rw [here, state, run]
    · change cache.reply world (operation.absolute world.disk) ::
        (cache.perform world (operation.absolute world.disk)).replies (absoluteSteps rest) = _
      rw [here, told, reply_absolute, replies]

/-- Each entry holds a unit that was parsed for its own path. -/
def Keyed (cache : Cache E) (entries : List (Entry E)) : Prop :=
  ∀ entry ∈ entries, ∃ request, .parse request (.ok entry.serial) ∈ cache.journal ∧
    request.path = entry.path

private theorem Keyed.later {entries kept : List (Entry E)} (keyed : Keyed cache entries)
    (among : ∀ entry ∈ kept, entry ∈ entries)
    (grown : ∃ events, final.journal = cache.journal ++ events) : Keyed final kept := by
  intro entry member
  obtain ⟨request, parsed, key⟩ := keyed entry (among entry member)
  obtain ⟨events, journal⟩ := grown
  exact ⟨request, journal ▸ List.mem_append_left events parsed, key⟩

private theorem FullParse.keyed {arguments : List String} {modified : Option Timestamp}
    (full : FullParse world path arguments modified cache answer final)
    (keyed : Keyed cache cache.entries) : Keyed final final.entries := by
  cases full with
  | unavailable => exact keyed.later (fun _ member => member) ⟨_, rfl⟩
  | indexClosed => exact keyed.later (fun _ member => member) ⟨_, rfl⟩
  | failed => exact keyed.later (fun _ member => member) ⟨_, rfl⟩
  | @parsed unsaved =>
    intro entry member
    rcases List.mem_append.mp member with old | new
    · obtain ⟨request, parsed, key⟩ := keyed entry old
      exact ⟨request, List.mem_append_left _ parsed, key⟩
    · obtain rfl := List.mem_singleton.mp new
      exact ⟨cache.requestFor path arguments unsaved, by simp, rfl⟩

private theorem Refresh.keyed (refresh : Refresh world path cache answer final)
    (keyed : Keyed cache cache.entries) : Keyed final final.entries := by
  cases refresh with
  | unavailable => exact keyed.later (fun _ member => member) ⟨_, rfl⟩
  | reused => exact keyed.later (fun _ member => member) ⟨_, rfl⟩
  | noBuffers => exact keyed.later (fun _ member => member) ⟨_, List.append_assoc ..⟩
  | absent _ _ full => exact full.keyed (keyed.later (fun _ member => member) ⟨_, rfl⟩)
  | @reparsed _ _ left entry right _ _ _ _ held =>
    intro other member
    have old : ∃ before ∈ cache.entries,
        before.serial = other.serial ∧ before.path = other.path := by
      rw [held]
      rcases mem_around.mp member with rfl | beside
      · exact ⟨entry, by simp, rfl, rfl⟩
      · exact ⟨other, mem_split beside, rfl, rfl⟩
    obtain ⟨before, inside, serial, key⟩ := old
    obtain ⟨request, parsed, same⟩ := keyed before inside
    rw [serial] at parsed
    exact ⟨request, by simp [parsed], same.trans key⟩
  | reparseFailed _ held _ _ _ _ _ _ _ full =>
    exact full.keyed (keyed.later (fun _ member => held ▸ mem_split member)
      ⟨_, (List.append_assoc ..).trans (List.append_assoc ..)⟩)
  | rebuilt _ held _ _ full =>
    exact full.keyed (keyed.later (fun _ member => held ▸ mem_split member)
      ⟨_, List.append_assoc ..⟩)

private theorem run_keyed (engine : E.State) (verbosity : Verbosity)
    (steps : List (World × Operation E)) :
    Keyed ((create engine verbosity : Cache E).run steps).unlogged
      ((create engine verbosity : Cache E).run steps).entries :=
  @run_keeps E (fun cache => Keyed cache cache.entries) (fun _ => True)
    (fun quiet keyed => keyed.later quiet.entries (quiet.journal.imp fun _ grown => grown.1))
    (fun _ _ refresh keyed => refresh.keyed keyed) engine verbosity [] steps nofun
    fun _ _ => trivial

theorem request_of_serial {journal : List Event} {one two : ParseRequest} {serial : Nat}
    (distinct : (created journal).Nodup) (here : .parse one (.ok serial) ∈ journal)
    (there : .parse two (.ok serial) ∈ journal) : one = two := by
  obtain ⟨before, after, rfl⟩ := List.append_of_mem here
  have apart : serial ∉ created before ∧ serial ∉ created after := by
    have split : created (before ++ .parse one (.ok serial) :: after) =
        created before ++ serial :: created after := created_append ..
    rw [split, List.nodup_append, List.nodup_cons] at distinct
    exact ⟨fun member => distinct.2.2 serial member serial List.mem_cons_self rfl, distinct.2.1.1⟩
  have unmade : ∀ events, serial ∉ created events → .parse two (.ok serial) ∉ events :=
    fun events absent member => absent (List.mem_filterMap.mpr ⟨_, member, rfl⟩)
  rcases List.mem_append.mp there with member | member
  · exact absurd member (unmade before apart.1)
  · rcases List.mem_cons.mp member with same | member
    · cases same
      rfl
    · exact absurd member (unmade after apart.2)

/-- No two entries, and no two units that have not been given back, are of the same file. -/
structure Unmixed (same : Path → Path → Prop) (cache : Cache E) : Prop where
  entries : ∀ entry ∈ cache.entries, ∀ other ∈ cache.entries, same entry.path other.path →
    entry = other
  units : ∀ one two serial other, .parse one (.ok serial) ∈ cache.journal →
    .parse two (.ok other) ∈ cache.journal → serial ∈ undisposed cache.journal →
    other ∈ undisposed cache.journal → same one.path two.path → serial = other

/-- A live unit is of the file of its entry, so it is enough that keys are told apart. -/
theorem run_unmixed (engine : E.State) (verbosity : Verbosity) (steps : List (World × Operation E))
    {same : Path → Path → Prop}
    (told : ∀ entry ∈ ((create engine verbosity : Cache E).run steps).entries,
      ∀ other ∈ ((create engine verbosity : Cache E).run steps).entries,
      same entry.path other.path → entry.path = other.path) :
    Unmixed same ((create engine verbosity : Cache E).run steps) := by
  have distinct := run_distinct engine verbosity steps
  have keyed := run_keyed engine verbosity steps
  have balanced := (run_accounts engine verbosity steps).balanced
  generalize (create engine verbosity : Cache E).run steps = cache at *
  have apart : ∀ entry ∈ cache.entries, ∀ other ∈ cache.entries, same entry.path other.path →
      entry = other :=
    fun entry inside other member equal =>
      List.inj_on_of_nodup_map distinct inside member (told entry inside other member equal)
  have owner : ∀ request serial, .parse request (.ok serial) ∈ cache.journal →
      serial ∈ undisposed cache.journal →
      ∃ entry ∈ cache.entries, entry.serial = serial ∧ entry.path = request.path := by
    intro request serial parsed live
    have holds : cache.entries.map Entry.serial = undisposed cache.journal := by
      simpa using balanced.holds
    rw [← holds] at live
    obtain ⟨entry, inside, rfl⟩ := List.mem_map.mp live
    obtain ⟨own, made, key⟩ := keyed entry inside
    have unique : (created cache.journal).Nodup := by simpa using balanced.nodup_created
    obtain rfl := request_of_serial unique (List.mem_filter.mp made).1 parsed
    exact ⟨entry, inside, rfl, key.symm⟩
  refine ⟨apart, ?_⟩
  intro one two serial other first second live still equal
  obtain ⟨entry, inside, rfl, key⟩ := owner one serial first live
  obtain ⟨last, member, rfl, lastKey⟩ := owner two other second still
  rw [apart entry inside last member (by rwa [key, lastKey])]

/-- Runs that differ only in how they spell paths are the same run, and so are the next operations
on two spellings of one path. A key is found again under its own absolute form, so a file never has
two entries or two live units; where there has always been a working directory, this holds for
all spellings from all directories. -/
theorem spellings_name_one_file (engine : E.State) (verbosity : Verbosity)
    (steps others : List (World × Operation E))
    (same : absoluteSteps steps = absoluteSteps others) :
    let start : Cache E := create engine verbosity
    let cache := start.run steps
    start.run others = cache ∧ start.replies others = start.replies steps ∧
    (∀ (world : World) (first second : Path),
      world.disk.absolute first = world.disk.absolute second → cache.SameFor world first second) ∧
    (∀ (world : World) (path : Path),
      let key := world.disk.absolute path
      world.disk.absolute key = key ∧ (cache.remove world key).1 = (cache.entry? key).isSome ∧
        Cache.entry? (cache.remove world key).2 key = none) ∧
    cache.Unmixed (· = ·) ∧
    ((∀ step ∈ steps, step.1.disk.workingDirectory.isSome = true) → ∀ disk : Disk,
      cache.Unmixed fun first second => disk.absolute first = disk.absolute second) := by
  intro start cache
  obtain ⟨state, told⟩ := start.run_absoluteSteps steps
  obtain ⟨otherState, otherTold⟩ := start.run_absoluteSteps others
  rw [← same] at otherState otherTold
  refine ⟨otherState.symm.trans state, otherTold.symm.trans told, fun _ _ _ => cache.sameFor, ?_,
    run_unmixed engine verbosity steps fun _ _ _ _ => id, ?_⟩
  · intro world path key
    refine ⟨absolute_absolute .., ?_, ?_⟩
    · rw [remove, absolute_absolute, removeAt_found]
    · rw [remove, absolute_absolute, entry?_removeAt]
  · intro placed disk
    have stable := (run_represents engine verbosity steps placed).stable
    refine run_unmixed engine verbosity steps fun entry inside other member equal => ?_
    rwa [stable entry inside, stable other member] at equal

theorem four_spellings_share_entry :
    let home := World.steady ["-O2"] [] 7 .empty
    let work := World.steady ["-O2"] [] 7 { Disk.empty with workingDirectory := some ["p"] }
    let steps : List (World × Operation Scripted.engine) :=
      [(home, .request ⟨"a.c"⟩), (work, .request ⟨"../a.c"⟩)]
    let others : List (World × Operation Scripted.engine) :=
      [(home, .request ⟨"/x/..//a.c"⟩), (work, .request ⟨"/a.c/."⟩)]
    let start : Cache Scripted.engine := create Scripted.Script.empty .quiet
    absoluteSteps steps = absoluteSteps others ∧ start.run others = start.run steps ∧
    (start.run steps).paths = [⟨"/a.c"⟩] ∧
    (start.run steps).Unmixed fun first second =>
      work.disk.absolute first = work.disk.absolute second := by
  intro home work steps others start
  have same : absoluteSteps steps = absoluteSteps others := by
    have first : home.disk.absolute ⟨"a.c"⟩ = home.disk.absolute ⟨"/x/..//a.c"⟩ := by
      decide +kernel
    have second : work.disk.absolute ⟨"../a.c"⟩ = work.disk.absolute ⟨"/a.c/."⟩ := by
      decide +kernel
    simp only [steps, others, absoluteSteps, List.map_cons, List.map_nil, Operation.absolute, first,
      second]
  have placed : ∀ step ∈ steps, step.1.disk.workingDirectory.isSome = true := by
    intro step member
    simp only [steps, List.mem_cons, List.not_mem_nil, or_false] at member
    rcases member with rfl | rfl <;> rfl
  obtain ⟨run, _, _, _, _, unmixed⟩ := spellings_name_one_file (E := Scripted.engine)
    Scripted.Script.empty .quiet steps others same
  exact ⟨same, run, by decide +kernel, unmixed placed work.disk⟩

end Cache

end UnitCache
