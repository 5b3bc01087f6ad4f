import UnitCache.Proofs.Outages

/-! Why a request fails. A collaborator that cannot answer ends a request on the spot: the question
is the last thing the journal tells of it, and its error is what the caller gets. Nothing else that
can go wrong is told to the caller, whatever the engine and the file system do. -/

namespace UnitCache
open Proofs

/-- A question is answered as its collaborator answers it after the events of the past. -/
def Event.Truthful (world : World) (past : List Event) : Event → Prop
  | .askArguments path answer =>
    ∃ history, Journal.trace history = past ∧ world.compileArguments history path = answer
  | .askSources answer =>
    ∃ history, Journal.trace history = past ∧ world.listedSources history = answer
  | .askBuffers answer => ∃ history, Journal.trace history = past ∧ world.buffers history = answer
  | .askModified path answer =>
    ∃ history, Journal.trace history = past ∧ world.modified history path = answer
  | _ => True

/-- Every question of a stretch that follows the past is answered as its collaborator answers it. -/
def Witnessed (world : World) (past : List Event) : List Event → Prop
  | [] => True
  | event :: rest => event.Truthful world past ∧ Witnessed world (past ++ [event]) rest

/-- How an answer comes of a stretch of events: a failed question ends it and is the answer, and
there is no other. -/
inductive Reported {α : Type} (world : World) (past : List Event) :
    Except CacheError α → List Event → Prop where
  | answered {value events} (witnessed : Witnessed world past events)
      (unrefused : events.filterMap Event.refusal? = []) : Reported world past (.ok value) events
  | refused {error before last} (witnessed : Witnessed world past (before ++ [last]))
      (unrefused : before.filterMap Event.refusal? = []) (refusal : last.refusal? = some error) :
      Reported world past (.error error) (before ++ [last])

section
variable {α β : Type} {world : World} {past first last events : List Event} {value : α}
  {answer : Except CacheError β}

private theorem Witnessed.append (start : Witnessed world past first)
    (rest : Witnessed world (past ++ first) last) : Witnessed world past (first ++ last) := by
  induction first generalizing past with
  | nil => simpa using rest
  | cons event others ih => exact ⟨start.1, ih start.2 (by simpa using rest)⟩

private theorem Witnessed.checks {E : Engine} (entries : List (Entry E)) (past : List Event)
    (header : Path) : Witnessed world past (Cache.checks header entries) := by
  induction entries generalizing past with
  | nil => trivial
  | cons entry rest ih => exact ⟨trivial, ih _⟩

namespace Reported

/-- An answer that has come in is no end: what follows gives the answer of the whole. -/
theorem append (start : Reported world past (.ok value) first)
    (rest : Reported world (past ++ first) answer last) :
    Reported world past answer (first ++ last) := by
  cases start with
  | answered witnessed unrefused =>
    cases rest with
    | answered later silent =>
      refine .answered (witnessed.append later) ?_
      rw [List.filterMap_append, unrefused, silent, List.append_nil]
    | refused later silent refusal =>
      rw [← List.append_assoc]
      refine .refused ?_ ?_ refusal
      · rw [List.append_assoc]
        exact witnessed.append later
      · rw [List.filterMap_append, unrefused, silent, List.append_nil]

private theorem nil (value : α) : Reported world past (.ok value) [] := .answered trivial rfl

/-- One event that is no failed question. -/
theorem single (event : Event) (truthful : event.Truthful world past)
    (answers : event.refusal? = none) (value : α) : Reported world past (.ok value) [event] :=
  .answered ⟨truthful, trivial⟩ (List.filterMap_cons_none answers)

private theorem disposal (serial : Nat) (failure : Option EngineFailure) (value : α) :
    Reported world past (.ok value) [.dispose serial failure] :=
  .single (.dispose serial failure) trivial rfl value

private theorem check (serial : Nat) (header : Path) (value : α) :
    Reported world past (.ok value) [.checkIncludes serial header] :=
  .single (.checkIncludes serial header) trivial rfl value

/-- A question that fails, put right away. -/
theorem refusal {event : Event} {error : CacheError} (truthful : event.Truthful world past)
    (refuses : event.refusal? = some error) :
    Reported (α := α) world past (.error error) [event] :=
  @Reported.refused α world past error [] event ⟨truthful, trivial⟩ rfl refuses

private theorem map (reported : Reported world past answer events) (read : β → α) :
    Reported world past (answer.map read) events := by
  cases reported with
  | answered witnessed unrefused => exact .answered witnessed unrefused
  | refused witnessed unrefused refuses => exact .refused witnessed unrefused refuses

private theorem witnessed (reported : Reported world past answer events) :
    Witnessed world past events := by
  cases reported with
  | answered witnessed => exact witnessed
  | refused witnessed => exact witnessed

private theorem error_iff (reported : Reported world past answer events) :
    (∃ error, answer = .error error) ↔ ∃ event ∈ events, event.refusal?.isSome = true := by
  cases reported with
  | answered _ unrefused =>
    refine ⟨nofun, ?_⟩
    rintro ⟨event, member, refuses⟩
    rw [List.filterMap_eq_nil_iff.mp unrefused event member] at refuses
    cases refuses
  | refused _ _ refuses =>
    exact ⟨fun _ => ⟨_, List.mem_append_right _ List.mem_cons_self, by rw [refuses]; rfl⟩,
      fun _ => ⟨_, rfl⟩⟩

private theorem split_of_error {error : CacheError} (reported : Reported world past answer events)
    (same : answer = .error error) :
    ∃ before last, events = before ++ [last] ∧ (∀ event ∈ before, event.refusal? = none) ∧
      last.refusal? = some error := by
  cases reported with
  | answered => cases same
  | refused _ unrefused refuses =>
    cases same
    exact ⟨_, _, rfl, List.filterMap_eq_nil_iff.mp unrefused, refuses⟩

end Reported
end

namespace Cache

variable {E : Engine} {world : World} {path header listed : Path} {sources : List Path}
  {cache final : Cache E} {answer : Except CacheError (Option (Entry E))}

private theorem FullParse.reported {arguments : List String} {modified : Option Timestamp}
    (full : FullParse world path arguments modified cache answer final) :
    ∃ events, final.journal = cache.journal ++ events ∧
      Reported world cache.journal answer events := by
  cases full with
  | unavailable buffers => exact ⟨_, rfl, .refusal buffers rfl⟩
  | indexClosed buffers => exact ⟨_, rfl, .single (.askBuffers _) buffers rfl none⟩
  | failed buffers => exact ⟨_, rfl, .answered ⟨buffers, trivial, trivial, trivial⟩ rfl⟩
  | parsed buffers => exact ⟨_, rfl, .answered ⟨buffers, trivial, trivial, trivial⟩ rfl⟩

private theorem Queried.reported {arguments : List String} {time : Except FileError Timestamp}
    (queries : Queried world path cache arguments time) (found : Option (Entry E)) :
    Reported world cache.journal (.ok found)
      [.askArguments path (.ok arguments), .askModified path time] :=
  .answered ⟨queries.database, queries.file, trivial⟩ rfl

/-- The failures of a reparse and of a disposal are no answer. -/
theorem Refresh.reported (refresh : Refresh world path cache answer final) :
    ∃ events, final.journal = cache.journal ++ events ∧
      Reported world cache.journal answer events := by
  cases refresh with
  | unavailable database => exact ⟨_, rfl, .refusal database rfl⟩
  | absent queries _ full =>
    obtain ⟨events, journal, reported⟩ := full.reported
    exact ⟨_, journal.trans (List.append_assoc ..), (queries.reported none).append reported⟩
  | reused queries => exact ⟨_, rfl, queries.reported _⟩
  | noBuffers queries _ _ _ _ buffers =>
    exact ⟨_, List.append_assoc .., (queries.reported none).append (.refusal buffers rfl)⟩
  | @reparsed arguments time left entry right unsaved flags reply queries _ _ _ _ buffers =>
    refine ⟨_, List.append_assoc .., (queries.reported none).append ?_⟩
    exact .answered ⟨buffers, trivial, trivial, trivial⟩ rfl
  | @reparseFailed arguments time left entry right unsaved flags reply cause _ _ queries _ _ _ _
      buffers _ _ _ full =>
    obtain ⟨events, journal, reported⟩ := full.reported
    have called : Reported world (cache.afterQueries path arguments time).journal (.ok ())
        [.askBuffers (.ok unsaved), .readReparseFlags entry.serial,
          .reparse entry.serial unsaved flags (some cause)] :=
      .answered ⟨buffers, trivial, trivial, trivial⟩ rfl
    refine ⟨_, journal.trans ((List.append_assoc ..).trans
      ((List.append_assoc ..).trans (List.append_assoc ..))), (queries.reported none).append ?_⟩
    refine called.append ((Reported.disposal _ _ ()).append ?_)
    simpa [giveBack] using reported
  | @rebuilt arguments time left entry right _ _ queries _ _ _ full =>
    obtain ⟨events, journal, reported⟩ := full.reported
    refine ⟨_, journal.trans ((List.append_assoc ..).trans (List.append_assoc ..)),
      (queries.reported none).append ((Reported.disposal _ _ ()).append ?_)⟩
    simpa [giveBack] using reported

private theorem Pass.reported (pass : Pass world header listed cache final) :
    ∃ events, final.journal = cache.journal ++ events ∧
      Reported world cache.journal (.ok ()) events := by
  cases pass with
  | skipped => exact ⟨[], (List.append_nil _).symm, .nil ()⟩
  | failed _ refresh =>
    obtain ⟨events, journal, reported⟩ := refresh.reported
    exact ⟨events, journal, reported.map fun _ => ()⟩
  | @kept middle entry _ refresh =>
    obtain ⟨events, journal, reported⟩ := refresh.reported
    refine ⟨events ++ [.checkIncludes entry.serial header], ?_,
      reported.append (.check _ _ ())⟩
    rw [note_journal, journal, List.append_assoc]
  | @evicted middle entry _ refresh =>
    obtain ⟨events, journal, reported⟩ := refresh.reported
    refine ⟨events ++ ([.checkIncludes entry.serial header] ++
      [.dispose entry.serial (E.dispose middle.engine entry.unit).1]), ?_,
      reported.append ((Reported.check _ _ ()).append (.disposal _ _ ()))⟩
    simp [giveBack, journal]

private theorem Passed.reported (passed : Passed world header sources cache final) :
    ∃ events, final.journal = cache.journal ++ events ∧
      Reported world cache.journal (.ok ()) events := by
  induction passed with
  | nil => exact ⟨[], (List.append_nil _).symm, .nil ()⟩
  | cons pass _ ih =>
    obtain ⟨first, journal, reported⟩ := pass.reported
    obtain ⟨last, later, rest⟩ := ih
    rw [journal] at later rest
    exact ⟨first ++ last, later.trans (List.append_assoc ..), reported.append rest⟩

private theorem Search.reported (search : Search world header sources cache answer final) :
    ∃ events, final.journal = cache.journal ++ events ∧
      Reported world cache.journal answer events := by
  cases search with
  | exhausted passed =>
    obtain ⟨events, journal, reported⟩ := passed.reported
    exact ⟨events, journal, reported.map fun _ => none⟩
  | unavailable _ passed _ refresh =>
    obtain ⟨first, journal, reported⟩ := passed.reported
    obtain ⟨last, later, rest⟩ := refresh.reported
    rw [journal] at later rest
    exact ⟨first ++ last, later.trans (List.append_assoc ..), reported.append rest⟩
  | @found _ _ _ _ entry _ _ passed _ refresh =>
    obtain ⟨first, journal, reported⟩ := passed.reported
    obtain ⟨last, later, rest⟩ := refresh.reported
    rw [journal] at later rest
    refine ⟨first ++ (last ++ [.checkIncludes entry.serial header]), ?_,
      reported.append (rest.append (.check _ _ _))⟩
    rw [note_journal, later]
    simp

private theorem Resolve.reported (resolve : Resolve world header cache answer final) :
    ∃ events, final.journal = cache.journal ++ events ∧
      Reported world cache.journal answer events := by
  have checked : ∀ (entries : List (Entry E)) (found : Option (Entry E)),
      Reported world cache.journal (.ok found) (checks header entries) :=
    fun entries _ => .answered (.checks entries _ header)
      (filterMap_checks _ (fun _ _ => rfl) header entries)
  cases resolve with
  | cached => exact ⟨_, rfl, checked _ _⟩
  | unavailable _ listing =>
    exact ⟨_, List.append_assoc .., (checked _ none).append (.refusal listing rfl)⟩
  | @searched sources _ _ _ listing search =>
    obtain ⟨events, journal, reported⟩ := search.reported
    have told : Reported world (cache.journal ++ checks header cache.entries) (.ok ())
        [.askSources (.ok sources)] := .single (.askSources _) listing rfl ()
    refine ⟨_, journal.trans ((List.append_assoc ..).trans (List.append_assoc ..)),
      (checked _ none).append (told.append reported)⟩

theorem Serve.reported (serve : Serve world path cache answer final) :
    ∃ events, final.journal = cache.journal ++ events ∧
      Reported world cache.journal answer events := by
  cases serve with
  | source _ refresh => exact refresh.reported
  | header _ resolve => exact resolve.reported

/-- A request fails exactly if a collaborator that it asked could not answer. It then ends with this
question and tells its error. A removal tells whether there was an entry, also if the engine fails
to dispose its unit. -/
theorem only_outages_reach_caller (engine : E.State) (verbosity : Verbosity)
    (steps : List (World × Operation E)) (world : World) (path : Path) (demand : Demand) :
    let cache : Cache E := (create engine verbosity).run steps
    let outcome := (cache.demand world path demand).1
    let after := (cache.demand world path demand).2
    (∃ events, after.unlogged.journal = cache.unlogged.journal ++ events ∧
      Witnessed world cache.unlogged.journal events ∧
      ((∃ error, outcome = .error error) ↔ ∃ event ∈ events, event.refusal?.isSome = true) ∧
      ∀ error, outcome = .error error →
        ∃ before last, events = before ++ [last] ∧ (∀ event ∈ before, event.refusal? = none) ∧
          last.refusal? = some error) ∧
    (cache.remove world path).1 = cache.contains world.disk path := by
  intro cache outcome after
  refine ⟨?_, removeAt_found cache (world.disk.absolute path)⟩
  have reported : ∃ events, after.unlogged.journal = cache.unlogged.journal ++ events ∧
      Reported world cache.unlogged.journal outcome events := by
    rcases demand_request cache world path demand with idle | requested
    · simp only [after, outcome, idle]
      exact ⟨[], (List.append_nil _).symm, .nil ()⟩
    · obtain ⟨result, serve, told⟩ :=
        request_serve cache world path (run_distinct engine verbosity steps)
      obtain ⟨events, journal, reported⟩ := serve.reported
      simp only [after, outcome, requested, told]
      exact ⟨events, journal, (reported.map _).map _⟩
  obtain ⟨events, journal, reported⟩ := reported
  exact ⟨events, journal, reported.witnessed, reported.error_iff, fun _ => reported.split_of_error⟩

end Cache

end UnitCache
