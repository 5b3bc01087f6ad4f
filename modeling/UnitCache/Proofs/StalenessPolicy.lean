import UnitCache.Engine.Scripted
import UnitCache.Proofs.RefreshJournal
import UnitCache.Proofs.Runs

/-! The staleness policy from outside. A request for a source file follows the policy in every
state that can be reached. Whatever answers and failures it meets, it reparses, disposes and
parses at most once each, in this order, and only the unit of that file. -/

namespace UnitCache.Cache

variable {E : Engine}

/-- Every request for a source file follows the policy, whatever has happened before. -/
theorem source_request_follows_policy (engine : E.State) (verbosity : Verbosity)
    (steps : List (World × Operation E)) (world : World) (path : Path)
    (source : (FileRole.ofPath (world.disk.absolute path)).isSource = true) :
    let cache : Cache E := (create engine verbosity).run steps
    let key := world.disk.absolute path
    let after := (cache.request world path).2
    ∃ result events,
      Refresh world key cache.unlogged result after.unlogged ∧
      (cache.request world path).1 = result.map (Option.map unitOf) ∧
      after.unlogged.journal = cache.unlogged.journal ++ events ∧
      (∀ event ∈ events, event.Concerns cache.entries key) ∧
      (events.filterMap Event.unitCall?).Sublist [.reparse, .dispose, .parse] := by
  intro cache key after
  have distinct := run_distinct engine verbosity steps
  obtain ⟨result, serve, answered⟩ := request_serve cache world path distinct
  cases serve with
  | header role => cases source.symm.trans role
  | source _ refresh =>
    obtain ⟨events, journal, stretch⟩ := refresh.stretch
    exact ⟨result, events, refresh, answered, journal, stretch.concerns, stretch.calls⟩

theorem second_request_reparses :
    let first := World.steady ["-O2"] [] 7 .empty
    let second := World.steady ["-O2"] [] 8 .empty
    let cache : Cache Scripted.engine :=
      (create Scripted.Script.empty .quiet).run [(first, .request ⟨"a.c"⟩)]
    let after := (cache.request second ⟨"a.c"⟩).2
    (FileRole.ofPath (second.disk.absolute ⟨"a.c"⟩)).isSource = true ∧
    ∃ result, ∃ events : List Event,
      Refresh second ⟨"/a.c"⟩ cache.unlogged result after.unlogged ∧
      events.filterMap Event.unitCall? = [.reparse] := by
  intro first second cache after
  have source : (FileRole.ofPath (second.disk.absolute ⟨"a.c"⟩)).isSource = true := by
    decide +kernel
  obtain ⟨result, events, refresh, _, journal, _, _⟩ :=
    source_request_follows_policy (E := Scripted.engine) Scripted.Script.empty .quiet
      [(first, .request ⟨"a.c"⟩)] second ⟨"a.c"⟩ source
  have key : second.disk.absolute ⟨"a.c"⟩ = ⟨"/a.c"⟩ := by decide +kernel
  rw [key] at refresh
  refine ⟨source, result, events, refresh, ?_⟩
  have before : cache.unlogged.journal.filterMap Event.unitCall? = [.parse] := by decide +kernel
  have both : after.unlogged.journal.filterMap Event.unitCall? = [.parse, .reparse] := by
    decide +kernel
  change after.unlogged.journal = _ at journal
  rw [journal, List.filterMap_append, before] at both
  exact List.append_cancel_left both

end UnitCache.Cache
