import Mathlib.Data.List.Nodup
import UnitCache.Engine.Scripted
import UnitCache.Proofs.RefreshJournal
import UnitCache.Proofs.Runs

/-! What a request for a source file leaves behind when a collaborator cannot answer it. All
questions but one come before anything is touched. The buffers for a rebuild are asked for when the
old unit has been given back, and an outage then costs the entry. -/

namespace UnitCache

inductive Demand where
  | request
  | ensure
  | renew
deriving DecidableEq

namespace Cache
open Proofs

variable {E : Engine} {world : World} {path : Path} {cache final : Cache E} {error : CacheError}

def demand (cache : Cache E) (world : World) (path : Path) :
    Demand → Except CacheError Unit × Cache E
  | .request =>
    let (answer, cache) := cache.request world path
    (answer.map fun _ => (), cache)
  | .ensure => cache.ensure world path
  | .renew => cache.renew world path

instance : DecidableEq (Except CacheError Unit)
  | .error first, .error last => decidable_of_iff (first = last) ⟨congrArg _, Except.error.inj⟩
  | .ok (), .ok () => isTrue rfl
  | .error _, .ok _ => isFalse nofun
  | .ok _, .error _ => isFalse nofun

theorem demand_request (cache : Cache E) (world : World) (path : Path) (demand : Demand) :
    cache.demand world path demand = (.ok (), cache) ∨
    cache.demand world path demand =
      ((cache.request world path).1.map fun _ => (), (cache.request world path).2) := by
  cases demand with
  | request => exact .inr rfl
  | ensure =>
    simp only [Cache.demand, ensure]
    split
    · exact .inl rfl
    · exact .inr rfl
  | renew =>
    simp only [Cache.demand, renew]
    split
    · exact .inr rfl
    · exact .inl rfl

theorem request_of_refused {demand : Demand}
    (refused : (cache.demand world path demand).1 = .error error) :
    (cache.request world path).1 = .error error ∧
    (cache.demand world path demand).2 = (cache.request world path).2 := by
  rcases cache.demand_request world path demand with idle | requested
  · rw [idle] at refused
    cases refused
  · rw [requested] at refused ⊢
    cases answered : (cache.request world path).1 with
    | error other =>
      rw [answered] at refused
      exact ⟨congrArg _ (Except.error.inj refused), rfl⟩
    | ok found =>
      rw [answered] at refused
      cases refused

/-- Questions were put and nothing else was done. If it was the buffers that were unavailable, the
path's entry, if there is one, has the arguments that the database gives now. -/
structure Spared (path : Path) (cache : Cache E) (error : CacheError) (events : List Event)
    (final : Cache E) : Prop where
  questions : events.all Event.isQuestion = true
  state : final = { cache with journal := cache.journal ++ events }
  current : ∀ reason, error = .unavailable .buffers reason →
    ∀ entry ∈ cache.entries, entry.path = path → .askArguments path (.ok entry.arguments) ∈ events

/-- The path's entry had other arguments than the database gives now. Its unit was given back, and
then the buffers were unavailable. -/
structure Dropped (path : Path) (cache : Cache E) (error : CacheError) (events : List Event)
    (final : Cache E) : Prop where
  calls : events.filterMap Event.unitCall? = [.dispose]
  outage : ∃ reason, error = .unavailable .buffers reason ∧
    events.getLast? = some (.askBuffers (.error reason))
  stale : ∃ left entry right arguments, cache.entries = left ++ entry :: right ∧
    entry.path = path ∧ .askArguments path (.ok arguments) ∈ events ∧
    entry.arguments ≠ arguments ∧ final.entries = left ++ right

/-- A full parse is refused for its buffers alone, and before the engine is asked. -/
theorem FullParse.refused {arguments : List String} {modified : Option Timestamp}
    (full : FullParse world path arguments modified cache (.error error) final) :
    ∃ reason, error = .unavailable .buffers reason ∧
      final = { cache with journal := cache.journal ++ [.askBuffers (.error reason)] } := by
  cases full with
  | unavailable => exact ⟨_, rfl, rfl⟩

private theorem Refresh.outage (refresh : Refresh world path cache (.error error) final)
    (distinct : cache.paths.Nodup) :
    ∃ events, final.journal = cache.journal ++ events ∧
      (.reparse ∈ events.filterMap Event.unitCall? ∨ Spared path cache error events final ∨
        Dropped path cache error events final) := by
  cases refresh with
  | unavailable => exact ⟨_, rfl, .inr (.inl ⟨rfl, rfl, nofun⟩)⟩
  | @absent arguments time _ _ _ missing full =>
    obtain ⟨reason, rfl, rfl⟩ := full.refused
    refine ⟨_, List.append_assoc .., .inr (.inl ⟨rfl, ?_, ?_⟩)⟩
    · simp [afterQueries]
    · intro _ _ entry member key
      exact absurd key (missing entry member)
  | @noBuffers arguments time left entry right reason _ held key same =>
    refine ⟨_, List.append_assoc .., .inr (.inl ⟨rfl, ?_, ?_⟩)⟩
    · simp [note, afterQueries]
    · intro _ _ other member otherKey
      have inside : entry ∈ cache.entries := by simp [held]
      obtain rfl : other = entry :=
        List.inj_on_of_nodup_map distinct member inside (otherKey.trans key.symm)
      subst same
      exact List.mem_cons_self
  | @reparseFailed arguments time left entry right unsaved flags reply cause _ _ _ held _ _ _ _ _ _ _
      full =>
    obtain ⟨reason, rfl, rfl⟩ := full.refused
    refine ⟨[.askArguments path (.ok arguments), .askModified path time, .askBuffers (.ok unsaved),
      .readReparseFlags entry.serial, .reparse entry.serial unsaved flags (some cause),
      .dispose entry.serial (E.dispose reply.state reply.unit).1, .askBuffers (.error reason)],
      ?_, .inl ?_⟩
    · simp [giveBack]
    · simp [Event.unitCall?]
  | @rebuilt arguments time left entry right _ _ _ held key other full =>
    obtain ⟨reason, rfl, rfl⟩ := full.refused
    refine ⟨[.askArguments path (.ok arguments), .askModified path time,
      .dispose entry.serial (E.dispose cache.engine entry.unit).1, .askBuffers (.error reason)],
      ?_, .inr (.inr ⟨rfl, ⟨reason, rfl, rfl⟩, ?_⟩)⟩
    · simp [giveBack]
    · exact ⟨left, entry, right, arguments, held, key, by simp, other, rfl⟩

/-- A refused request for a source file that tried no reparse only asked, unless its entry was
cached with other arguments and the buffers were unavailable: then the entry is gone. -/
theorem outage_spares_current_entries (engine : E.State) (verbosity : Verbosity)
    (steps : List (World × Operation E)) (world : World) (path : Path) (demand : Demand)
    (error : CacheError) (source : (FileRole.ofPath (world.disk.absolute path)).isSource = true)
    (refused : (((create engine verbosity : Cache E).run steps).demand world path demand).1 =
      .error error) :
    let cache : Cache E := (create engine verbosity).run steps
    let key := world.disk.absolute path
    let after := (cache.demand world path demand).2
    ∃ events, after.unlogged.journal = cache.unlogged.journal ++ events ∧
      (∃ event ∈ events, event.refusal? = some error) ∧
      (.reparse ∉ events.filterMap Event.unitCall? →
        Spared key cache.unlogged error events after.unlogged ∨
        Dropped key cache.unlogged error events after.unlogged) := by
  intro cache key after
  have distinct := run_distinct engine verbosity steps
  obtain ⟨answered, state⟩ := request_of_refused refused
  obtain ⟨result, serve, told⟩ := request_serve cache world path distinct
  obtain rfl : result = .error error := by
    rw [show (cache.request world path).1 = .error error from answered] at told
    cases result with
    | error other => exact congrArg _ (Except.error.inj told).symm
    | ok found => cases told
  cases serve with
  | header role => cases source.symm.trans role
  | source _ refresh =>
    rw [← show after = (cache.request world path).2 from state] at refresh
    obtain ⟨events, journal, outcome⟩ := refresh.outage distinct
    obtain ⟨others, same, stretch⟩ := refresh.stretch
    obtain rfl : others = events := List.append_cancel_left (same.symm.trans journal)
    exact ⟨others, journal, stretch.refused error rfl, outcome.resolve_left⟩

theorem changed_file_is_spared :
    let first := World.steady ["-O0"] [] 7 .empty
    let second := { World.steady ["-O0"] [] 8 .empty with buffers := fun _ => .error "offline" }
    let cache : Cache Scripted.engine :=
      (create Scripted.Script.empty .quiet).run [(first, .request ⟨"a.c"⟩)]
    let error := CacheError.unavailable .buffers "offline"
    let after := (cache.demand second ⟨"a.c"⟩ .renew).2
    (FileRole.ofPath (second.disk.absolute ⟨"a.c"⟩)).isSource = true ∧
    (cache.demand second ⟨"a.c"⟩ .renew).1 = .error error ∧ cache.paths = [⟨"/a.c"⟩] ∧
    ∃ events, Spared ⟨"/a.c"⟩ cache.unlogged error events after.unlogged := by
  intro first second cache error after
  have source : (FileRole.ofPath (second.disk.absolute ⟨"a.c"⟩)).isSource = true := by
    decide +kernel
  have refused : (cache.demand second ⟨"a.c"⟩ .renew).1 = .error error := by decide +kernel
  have key : second.disk.absolute ⟨"a.c"⟩ = ⟨"/a.c"⟩ := by decide +kernel
  obtain ⟨events, journal, _, outcome⟩ :=
    outage_spares_current_entries (E := Scripted.engine) Scripted.Script.empty .quiet
      [(first, .request ⟨"a.c"⟩)] second ⟨"a.c"⟩ .renew error source refused
  have before : cache.unlogged.journal.filterMap Event.unitCall? = [.parse] := by decide +kernel
  have both : after.unlogged.journal.filterMap Event.unitCall? = [.parse] := by decide +kernel
  have calls : events.filterMap Event.unitCall? = [] := by
    rw [show after.unlogged.journal = _ from journal, List.filterMap_append] at both
    rw [show ((create _ _).run _).unlogged.journal.filterMap _ = _ from before] at both
    exact List.append_cancel_left both
  refine ⟨source, refused, by decide +kernel, events, ?_⟩
  rw [key] at outcome
  rcases outcome (by simp [calls]) with spared | dropped
  · exact spared
  · cases calls.symm.trans dropped.calls

/-- A refused request that tries no reparse can still cost the entry: with other arguments the old
unit is given back before the buffers are asked for. -/
theorem outage_costs_stale_entry :
    let first := World.steady ["-O0"] [] 7 .empty
    let second := { World.steady ["-O2"] [] 7 .empty with buffers := fun _ => .error "offline" }
    let cache : Cache Scripted.engine :=
      (create Scripted.Script.empty .quiet).run [(first, .request ⟨"a.c"⟩)]
    let after := (cache.request second ⟨"a.c"⟩).2
    (FileRole.ofPath (second.disk.absolute ⟨"a.c"⟩)).isSource = true ∧
    (cache.demand second ⟨"a.c"⟩ .request).1 = .error (.unavailable .buffers "offline") ∧
    cache.paths = [⟨"/a.c"⟩] ∧ after.paths = [] ∧
    cache.journal.filterMap Event.unitCall? = [.parse] ∧
    after.journal.filterMap Event.unitCall? = [.parse, .dispose] := by
  decide +kernel

end Cache
end UnitCache
