import UnitCache.Engine.Scripted
import UnitCache.Proofs.Representation
import UnitCache.Proofs.SearchFootprint

/-! What ensuring a file and renewing one leave alone. Both are requests behind a look at the cache:
ensuring asks only for a file without an entry, renewing only for one with an entry. A request for a
header may parse and give back any listed file, and renewing never gets that far, because headers
have no entries: that is kept by every run. -/

namespace UnitCache.Cache
open Proofs Journal

variable {E : Engine} {world : World} {path header : Path} {sources : List Path}
  {cache final : Cache E} {answer : Except CacheError (Option (Entry E))}

/-- Only source files have entries. -/
def Sourced (cache : Cache E) : Prop :=
  ∀ path ∈ cache.paths, (FileRole.ofPath path).isSource = true

private theorem Refresh.sourced (refresh : Refresh world path cache answer final)
    (role : (FileRole.ofPath path).isSource = true) (sourced : Sourced cache) : Sourced final := by
  intro key member
  obtain ⟨entry, present, rfl⟩ := List.mem_map.mp member
  rcases refresh.replaced.origin present with old | answered
  · exact sourced _ (List.mem_map_of_mem old)
  · rw [(refresh.replaced.answered answered).2]
    exact role

private theorem Passed.sourced (passed : Passed world header sources cache final)
    (sourced : Sourced cache) : Sourced final :=
  fun key member => sourced key (passed.keys key member)

private theorem Search.sourced (search : Search world header sources cache answer final)
    (sourced : Sourced cache) : Sourced final := by
  cases search with
  | exhausted passed => exact passed.sourced sourced
  | unavailable _ passed role refresh => exact refresh.sourced role (passed.sourced sourced)
  | found _ passed role refresh => exact refresh.sourced role (passed.sourced sourced)

private theorem Serve.sourced (serve : Serve world path cache answer final)
    (sourced : Sourced cache) : Sourced final := by
  cases serve with
  | source role refresh => exact refresh.sourced role sourced
  | header _ resolve =>
    cases resolve with
    | cached => exact sourced
    | unavailable => exact sourced
    | searched _ _ search => exact search.sourced sourced

private theorem Move.sourced (move : Move world cache final) (sourced : Sourced cache) :
    Sourced final := by
  cases move with
  | idle => exact sourced
  | served serve => exact serve.sourced sourced
  | removed removal =>
    cases removal with
    | absent => exact sourced
    | @removed left entry right held _ =>
      intro key member
      obtain ⟨other, present, rfl⟩ := List.mem_map.mp member
      exact sourced _ (List.mem_map_of_mem (held ▸ mem_split present))
  | cleared => simp [Sourced, paths]
  | readFlags => exact sourced
  | setFlags => exact sourced
  | closed => simp [Sourced, paths]
  | disturbed => exact sourced

private theorem run_sourced (engine : E.State) (verbosity : Verbosity)
    (steps : List (World × Operation E)) :
    Sourced ((create engine verbosity : Cache E).run steps) :=
  (@run_invariant E Sourced (fun _ => True) (create engine verbosity)
    (fun _ _ move sourced => move.sourced sourced) List.nodup_nil nofun steps
    fun _ _ => trivial).2

private theorem contains_iff (cache : Cache E) (disk : Disk) (path : Path) :
    cache.contains disk path = true ↔ disk.absolute path ∈ cache.paths := by
  simp [contains, get?, entry?, paths]

/-- All entries stay as they are and where they are, and their units are not called. One entry of the
path may come after them. -/
structure Added (path : Path) (cache final : Cache E) (events : List Event) : Prop where
  journal : final.journal = cache.journal ++ events
  entries : final.entries = cache.entries ∨
    ∃ entry, entry.path = path ∧ final.entries = cache.entries ++ [entry]
  unused : ∀ event ∈ events, event.used? = none

/-- No path has an entry that had none, and what happens concerns the path's own entry. All others
stay as they are, in their order. -/
structure Renewed (path : Path) (cache final : Cache E) (events : List Event) : Prop where
  journal : final.journal = cache.journal ++ events
  keys : ∀ key ∈ final.paths, key ∈ cache.paths
  others : final.entries.filter (fun entry => entry.path ≠ path) =
    cache.entries.filter (fun entry => entry.path ≠ path)
  concerns : ∀ event ∈ events, event.Concerns cache.entries path

private theorem Added.silent (cache : Cache E) (path : Path) : Added path cache cache [] :=
  ⟨(List.append_nil _).symm, .inl rfl, nofun⟩

private theorem Renewed.silent (cache : Cache E) (path : Path) : Renewed path cache cache [] :=
  ⟨(List.append_nil _).symm, fun _ member => member, rfl, nofun⟩

private theorem Replaced.extends {before after : List (Entry E)}
    (replaced : Replaced path answer before after) (absent : ∀ entry ∈ before, entry.path ≠ path) :
    after = before ∨ ∃ entry, entry.path = path ∧ after = before ++ [entry] := by
  cases replaced with
  | kept => exact .inl rfl
  | inPlace old => exact absurd old (absent _ (by simp))
  | dropped old => exact absurd old (absent _ (by simp))
  | moved old => exact absurd old (absent _ (by simp))
  | added _ new => exact .inr ⟨_, new, rfl⟩

private theorem Refresh.added (refresh : Refresh world path cache answer final)
    (missing : path ∉ cache.paths) : ∃ events, Added path cache final events := by
  obtain ⟨events, journal, stretch⟩ := refresh.stretch
  have absent : ∀ entry ∈ cache.entries, entry.path ≠ path := fun entry member same =>
    missing (same ▸ List.mem_map_of_mem member)
  refine ⟨events, journal, refresh.replaced.extends absent, ?_⟩
  intro event member
  cases used : event.used? with
  | none => rfl
  | some serial =>
    obtain ⟨entry, inside, key, _⟩ := (stretch.concerns event member).uses serial used
    exact absurd key (absent entry inside)

private theorem Refresh.renewed (refresh : Refresh world path cache answer final)
    (present : path ∈ cache.paths) : ∃ events, Renewed path cache final events := by
  obtain ⟨events, journal, stretch⟩ := refresh.stretch
  refine ⟨events, journal, ?_, refresh.replaced.filter (by simp), stretch.concerns⟩
  intro key member
  obtain ⟨entry, inside, rfl⟩ := List.mem_map.mp member
  rcases refresh.replaced.origin inside with old | answered
  · exact List.mem_map_of_mem old
  · rw [(refresh.replaced.answered answered).2]
    exact present

private theorem request_refresh (cache : Cache E) (distinct : cache.paths.Nodup)
    (source : (FileRole.ofPath (world.disk.absolute path)).isSource = true) :
    ∃ answer, Refresh world (world.disk.absolute path) cache.unlogged answer
      (cache.request world path).2.unlogged := by
  obtain ⟨answer, serve, _⟩ := request_serve cache world path distinct
  cases serve with
  | source _ refresh => exact ⟨answer, refresh⟩
  | header role => cases source.symm.trans role

section Demands

variable (world path) (cache : Cache E)

private theorem ensure_of_mem (present : world.disk.absolute path ∈ cache.paths) :
    cache.ensure world path = (.ok (), cache) :=
  if_pos ((contains_iff ..).mpr present)

private theorem ensure_of_not_mem (missing : world.disk.absolute path ∉ cache.paths) :
    cache.ensure world path =
      ((cache.request world path).1.map fun _ => (), (cache.request world path).2) :=
  if_neg (mt (contains_iff ..).mp missing)

private theorem renew_of_mem (present : world.disk.absolute path ∈ cache.paths) :
    cache.renew world path =
      ((cache.request world path).1.map fun _ => (), (cache.request world path).2) :=
  if_pos ((contains_iff ..).mpr present)

private theorem renew_of_not_mem (missing : world.disk.absolute path ∉ cache.paths) :
    cache.renew world path = (.ok (), cache) :=
  if_neg (mt (contains_iff ..).mp missing)

end Demands

/-- Whatever has happened and whatever fails, ensuring a cached file does nothing, and ensuring any
source file leaves all entries there are and makes at most its own. Renewing never makes an entry
and changes no other, and for a file that is not cached, as no header is, it does nothing. -/
theorem ensure_only_adds_and_renew_never_adds (engine : E.State) (verbosity : Verbosity)
    (steps : List (World × Operation E)) (world : World) (path : Path) :
    let cache : Cache E := (create engine verbosity).run steps
    let key := world.disk.absolute path
    let ensured := cache.ensure world path
    let renewed := cache.renew world path
    (key ∈ cache.paths → ensured = (.ok (), cache)) ∧
    ((FileRole.ofPath key).isSource = true →
      ∃ events, Added key cache.unlogged ensured.2.unlogged events) ∧
    (∃ events, Renewed key cache.unlogged renewed.2.unlogged events) ∧
    (key ∉ cache.paths ∨ (FileRole.ofPath key).isSource = false → renewed = (.ok (), cache)) := by
  intro cache key ensured renewed
  have distinct : cache.paths.Nodup := run_distinct engine verbosity steps
  have sourced : Sourced cache := run_sourced engine verbosity steps
  refine ⟨ensure_of_mem world path cache, ?_, ?_, ?_⟩
  · intro source
    by_cases present : key ∈ cache.paths
    · rw [show ensured = _ from ensure_of_mem world path cache present]
      exact ⟨[], .silent cache.unlogged key⟩
    · rw [show ensured = _ from ensure_of_not_mem world path cache present]
      obtain ⟨answer, refresh⟩ := request_refresh cache distinct source
      exact refresh.added present
  · by_cases present : key ∈ cache.paths
    · rw [show renewed = _ from renew_of_mem world path cache present]
      obtain ⟨answer, refresh⟩ := request_refresh cache distinct (sourced key present)
      exact refresh.renewed present
    · rw [show renewed = _ from renew_of_not_mem world path cache present]
      exact ⟨[], .silent cache.unlogged key⟩
  · intro unasked
    refine renew_of_not_mem world path cache fun present => ?_
    rcases unasked with missing | header
    · exact missing present
    · cases (sourced key present).symm.trans header

/-- A stale file is left as it is by the one and given up by the other while no buffers are to be
had; a file that is missing is brought in by the one only. -/
theorem stale_and_missing_files_are_told_apart :
    let first := World.steady ["-O0"] [] 7 .empty
    let second := { World.steady ["-O2"] [] 7 .empty with buffers := fun _ => .error "offline" }
    let cache : Cache Scripted.engine := (create Scripted.Script.empty .quiet).run
      [(first, .request ⟨"a.c"⟩), (first, .request ⟨"b.c"⟩)]
    cache.paths = [⟨"/a.c"⟩, ⟨"/b.c"⟩] ∧
    cache.ensure second ⟨"a.c"⟩ = (.ok (), cache) ∧
    (cache.renew second ⟨"a.c"⟩).2.paths = [⟨"/b.c"⟩] ∧
    (cache.ensure first ⟨"c.c"⟩).2.paths = [⟨"/a.c"⟩, ⟨"/b.c"⟩, ⟨"/c.c"⟩] ∧
    cache.renew first ⟨"c.c"⟩ = (.ok (), cache) := by
  intro first second cache
  have before : cache.paths = [⟨"/a.c"⟩, ⟨"/b.c"⟩] := by decide +kernel
  have stale : second.disk.absolute ⟨"a.c"⟩ ∈ cache.paths := by rw [before]; decide +kernel
  have missing : first.disk.absolute ⟨"c.c"⟩ ∉ cache.paths := by rw [before]; decide +kernel
  obtain ⟨ensured, _⟩ := ensure_only_adds_and_renew_never_adds (E := Scripted.engine)
    Scripted.Script.empty .quiet [(first, .request ⟨"a.c"⟩), (first, .request ⟨"b.c"⟩)] second ⟨"a.c"⟩
  obtain ⟨_, _, _, renewed⟩ := ensure_only_adds_and_renew_never_adds (E := Scripted.engine)
    Scripted.Script.empty .quiet [(first, .request ⟨"a.c"⟩), (first, .request ⟨"b.c"⟩)] first ⟨"c.c"⟩
  exact ⟨before, ensured stale, by decide +kernel, by decide +kernel, renewed (.inl missing)⟩

end UnitCache.Cache
