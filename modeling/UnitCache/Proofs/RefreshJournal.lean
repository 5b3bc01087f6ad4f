import UnitCache.Proofs.RefreshEntries

/-! What one refresh adds to the journal: the questions it asks, and calls on one unit only. The
parts of a refresh are stretches of the journal, and a refresh is the sum of its parts. -/

namespace UnitCache

/-- The calls of an engine that make, renew or return a unit. -/
inductive UnitCall where
  | reparse
  | dispose
  | parse
deriving DecidableEq

namespace Event

def unitCall? : Event → Option UnitCall
  | .reparse .. => some .reparse
  | .dispose .. => some .dispose
  | .parse .. => some .parse
  | _ => none

/-- Questions to collaborators and to the engine as a whole. -/
def isQuestion : Event → Bool
  | .askArguments .. | .askModified .. | .askBuffers _ | .askSources _ | .readEditingFlags => true
  | _ => false

def refreshed? : Event → Option Path
  | .askArguments path _ => some path
  | _ => none

/-- The error that comes of a collaborator out of order. -/
def refusal? : Event → Option CacheError
  | .askSources (.error reason) => some (.unavailable .database reason)
  | .askArguments _ (.error reason) => some (.unavailable .database reason)
  | .askBuffers (.error reason) => some (.unavailable .buffers reason)
  | _ => none

/-- Parses nothing but a path, and uses no unit but that of the path's entry. -/
structure Concerns {E : Engine} (entries : List (Entry E)) (path : Path) (event : Event) : Prop where
  parses : ∀ request outcome, event = .parse request outcome → request.path = path
  uses : ∀ serial, event.used? = some serial →
    ∃ entry ∈ entries, entry.path = path ∧ entry.serial = serial

end Event

namespace Cache
open Proofs

variable {E : Engine} {world : World} {path : Path} {cache final : Cache E}
  {answer : Except CacheError (Option (Entry E))} {entries : List (Entry E)}

theorem calls_of_questions {events : List Event} (asks : events.all Event.isQuestion = true) :
    events.filterMap Event.unitCall? = [] := by
  refine List.filterMap_eq_nil_iff.mpr fun event member => ?_
  have question := List.all_eq_true.mp asks event member
  cases event <;> first | rfl | cases question

private theorem concerns_question {event : Event} (question : event.isQuestion = true) :
    event.Concerns entries path := by
  refine ⟨?_, ?_⟩
  · rintro request outcome rfl
    cases question
  · intro serial uses
    have unused : event.used? = none := by
      cases event <;> first | rfl | cases question
    cases unused.symm.trans uses

private theorem concerns_use {entry : Entry E} {event : Event} (member : entry ∈ entries)
    (key : entry.path = path) (uses : event.used? = some entry.serial) :
    event.Concerns entries path := by
  refine ⟨?_, ?_⟩
  · rintro request outcome rfl
    cases uses
  · intro serial same
    obtain rfl : entry.serial = serial := Option.some.inj (uses.symm.trans same)
    exact ⟨entry, member, key, rfl⟩

private theorem concerns_parse {request : ParseRequest} {outcome : Except EngineFailure Nat}
    (key : request.path = path) : (Event.parse request outcome).Concerns entries path := by
  refine ⟨?_, nofun⟩
  intro other _ same
  cases same
  exact key

/-- A stretch of a journal that concerns one path. It makes some of the given calls in their order,
begins the refresh of the given files, and tells why its answer is an error. -/
structure Stretch (entries : List (Entry E)) (path : Path)
    (answer : Except CacheError (Option (Entry E))) (calls : List UnitCall) (files : List Path)
    (events : List Event) : Prop where
  concerns : ∀ event ∈ events, event.Concerns entries path
  calls : (events.filterMap Event.unitCall?).Sublist calls
  refreshes : events.filterMap Event.refreshed? = files
  refused : ∀ error, answer = .error error → ∃ event ∈ events, event.refusal? = some error

namespace Stretch
variable {other : Except CacheError (Option (Entry E))} {calls laterCalls : List UnitCall}
  {files laterFiles : List Path} {events laterEvents : List Event}

private theorem append (first : Stretch entries path other calls files events)
    (last : Stretch entries path answer laterCalls laterFiles laterEvents) :
    Stretch entries path answer (calls ++ laterCalls) (files ++ laterFiles)
      (events ++ laterEvents) := by
  refine ⟨?_, ?_, ?_, ?_⟩
  · intro event member
    rcases List.mem_append.mp member with member | member
    · exact first.concerns event member
    · exact last.concerns event member
  · rw [List.filterMap_append]
    exact first.calls.append last.calls
  · rw [List.filterMap_append, first.refreshes, last.refreshes]
  · intro error same
    obtain ⟨event, member, refusal⟩ := last.refused error same
    exact ⟨event, List.mem_append_right events member, refusal⟩

private theorem mono (stretch : Stretch entries path answer calls files events)
    (more : calls.Sublist laterCalls) : Stretch entries path answer laterCalls files events :=
  ⟨stretch.concerns, stretch.calls.trans more, stretch.refreshes, stretch.refused⟩

private theorem questions {found : Option (Entry E)} (asks : events.all Event.isQuestion = true)
    (refreshes : events.filterMap Event.refreshed? = files) :
    Stretch entries path (.ok found) calls files events := by
  refine ⟨?_, by simp [calls_of_questions asks], refreshes, nofun⟩
  intro event member
  exact concerns_question (List.all_eq_true.mp asks event member)

private theorem refusal {event : Event} {error : CacheError} (question : event.isQuestion = true)
    (refuses : event.refusal? = some error) (refreshes : [event].filterMap Event.refreshed? = files) :
    Stretch entries path (.error error) calls files [event] := by
  have asked : Stretch entries path (.ok none) calls files [event] :=
    .questions (by simpa using question) refreshes
  refine ⟨asked.concerns, asked.calls, refreshes, ?_⟩
  intro other same
  cases same
  exact ⟨event, List.mem_singleton.mpr rfl, refuses⟩

private theorem called {found : Option (Entry E)} {event : Event}
    (concerns : event.Concerns entries path)
    (made : event.unitCall?.toList = calls) (silent : event.refreshed? = none) :
    Stretch entries path (.ok found) calls [] [event] := by
  refine ⟨by simpa using concerns, ?_, List.filterMap_cons_none silent, nofun⟩
  subst made
  cases call : event.unitCall? with
  | none => simp [call]
  | some call => simp [call]

private theorem reparse {entry : Entry E} (member : entry ∈ entries) (key : entry.path = path)
    (unsaved : List Buffer) (flags : ReparseFlags) (failure : Option EngineFailure)
    (found : Option (Entry E)) :
    Stretch entries path (.ok found) [.reparse] [] [.askBuffers (.ok unsaved),
      .readReparseFlags entry.serial, .reparse entry.serial unsaved flags failure] := by
  have asked : Stretch entries path (.ok none) [] [] [.askBuffers (.ok unsaved)] :=
    .questions rfl rfl
  have preferred : Stretch entries path (.ok none) [] [] [.readReparseFlags entry.serial] :=
    .called (concerns_use member key rfl) rfl rfl
  have called : Stretch entries path (.ok found) [.reparse] []
      [.reparse entry.serial unsaved flags failure] :=
    .called (concerns_use member key rfl) rfl rfl
  exact asked.append (preferred.append called)

end Stretch

theorem FullParse.stretch {arguments : List String} {modified : Option Timestamp}
    (full : FullParse world path arguments modified cache answer final) (entries : List (Entry E)) :
    ∃ events, final.journal = cache.journal ++ events ∧
      Stretch entries path answer [.parse] [] events := by
  have parse : ∀ unsaved request outcome found, request.path = path →
      Stretch entries path (.ok found) [.parse] []
        [.askBuffers (.ok unsaved), .readEditingFlags, .parse request outcome] := by
    intro unsaved request outcome found key
    have asked : Stretch entries path (.ok none) [] []
        [.askBuffers (.ok unsaved), .readEditingFlags] := .questions rfl rfl
    have parsed : Stretch entries path (.ok found) [.parse] [] [.parse request outcome] :=
      .called (concerns_parse key) rfl rfl
    exact asked.append parsed
  cases full with
  | unavailable => exact ⟨_, rfl, .refusal rfl rfl rfl⟩
  | indexClosed => exact ⟨_, rfl, .questions rfl rfl⟩
  | failed => exact ⟨_, rfl, parse _ _ _ _ rfl⟩
  | parsed => exact ⟨_, rfl, parse _ _ _ _ rfl⟩

/-- A refresh calls the engine at most once in each way, and only on what concerns its file. -/
theorem Refresh.stretch (refresh : Refresh world path cache answer final) :
    ∃ events, final.journal = cache.journal ++ events ∧
      Stretch cache.entries path answer [.reparse, .dispose, .parse] [path] events := by
  have queried : ∀ arguments time, Stretch cache.entries path (.ok none) [] [path]
      [.askArguments path (.ok arguments), .askModified path time] := fun _ _ => .questions rfl rfl
  cases refresh with
  | unavailable => exact ⟨_, rfl, .refusal rfl rfl rfl⟩
  | @absent arguments time _ _ _ _ full =>
    obtain ⟨events, journal, stretch⟩ := full.stretch cache.entries
    refine ⟨_, journal.trans (List.append_assoc ..), ?_⟩
    exact ((queried arguments time).append stretch).mono (by decide)
  | reused => exact ⟨_, rfl, .questions rfl rfl⟩
  | @noBuffers arguments time _ _ _ reason =>
    have refused : Stretch cache.entries path (.error (.unavailable .buffers reason)) [] []
        [.askBuffers (.error reason)] := .refusal rfl rfl rfl
    refine ⟨_, List.append_assoc .., ?_⟩
    exact ((queried arguments time).append refused).mono (by simp)
  | @reparsed arguments time left entry right unsaved flags reply _ held key =>
    have member : entry ∈ cache.entries := by simp [held]
    have called := Stretch.reparse member key unsaved flags none (some { entry with
      unit := reply.unit
      modified := time.toOption })
    exact ⟨_, List.append_assoc .., ((queried arguments time).append called).mono (by decide)⟩
  | @reparseFailed arguments time left entry right unsaved flags reply cause _ _ _ held key _ _ _ _ _ _
      full =>
    have member : entry ∈ cache.entries := by simp [held]
    have called := Stretch.reparse member key unsaved flags (some cause) none
    have disposed : Stretch cache.entries path (.ok none) [.dispose] []
        [.dispose entry.serial (E.dispose reply.state reply.unit).1] :=
      .called (concerns_use member key rfl) rfl rfl
    obtain ⟨events, journal, stretch⟩ := full.stretch cache.entries
    refine ⟨_, journal.trans ((List.append_assoc ..).trans
      ((List.append_assoc ..).trans (List.append_assoc ..))), ?_⟩
    exact (queried arguments time).append (called.append (disposed.append stretch))
  | @rebuilt arguments time left entry right _ _ _ held key _ full =>
    have member : entry ∈ cache.entries := by simp [held]
    have disposed : Stretch cache.entries path (.ok none) [.dispose] []
        [.dispose entry.serial (E.dispose cache.engine entry.unit).1] :=
      .called (concerns_use member key rfl) rfl rfl
    obtain ⟨events, journal, stretch⟩ := full.stretch cache.entries
    refine ⟨_, journal.trans ((List.append_assoc ..).trans (List.append_assoc ..)), ?_⟩
    exact ((queried arguments time).append (disposed.append stretch)).mono (by decide)

end Cache

end UnitCache
