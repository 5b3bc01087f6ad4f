import UnitCache.Proofs.History
import UnitCache.Proofs.Noninterference
import UnitCache.Proofs.Transparency

/-! What stays of a unit while the files under it change. Its number, path, arguments and index
setting are those of the parse that made it, and its closure is that of the last scan that could
read its main file: a reparse first scans and then replaces the closure as a whole. -/

namespace UnitCache.IncludeEngine
open History

def refusal (path : Path) : EngineFailure := ⟨unreadableStatus, "cannot read " ++ path.text⟩

variable {files : VisibleFiles} {path : Path} {arguments : List String} {disk : Disk} {parsed : Nat}
  {index : Index} {request : ParseRequest} {unit : IncludeUnit} {unsaved : List Buffer}

private theorem closureOf_of_unreadable (unread : files.text? path = none)
    (arguments : List String) :
    (closureOf files path arguments).1 = .error (refusal path) := by
  simp only [closureOf, unread, refusal]

private theorem exists_closureOf_of_readable (read : (files.text? path).isSome = true)
    (arguments : List String) :
    ∃ closure, (closureOf files path arguments).1 = .ok closure := by
  obtain ⟨text, told⟩ := Option.isSome_iff_exists.mp read
  simp only [closureOf, told]
  exact ⟨_, rfl⟩

/-- A parse makes a unit with the next number, or it fails for want of the main file and leaves the
count alone. -/
structure Parsed (disk : Disk) (parsed : Nat) (index : Index) (request : ParseRequest)
    (reply : ParseReply Nat IncludeUnit) : Prop where
  made : (VisibleFiles.text? ⟨disk, request.unsaved⟩ request.path).isSome = true →
    reply.state = parsed + 1 ∧ ∃ closure, reply.outcome =
      .ok ⟨parsed + 1, request.path, request.arguments, closure, index.diagnostics⟩
  refused : VisibleFiles.text? ⟨disk, request.unsaved⟩ request.path = none →
    reply.state = parsed ∧ reply.outcome = .error (refusal request.path)

/-- A reparse changes nothing but the closure, to that which any parse of the unit's path and
arguments would find. It fails for want of the main file only, and then changes nothing. -/
structure Reparsed (disk : Disk) (parsed : Nat) (unit : IncludeUnit) (unsaved : List Buffer)
    (reply : ReparseReply Nat IncludeUnit) : Prop where
  uncounted : reply.state = parsed
  identity : reply.unit = { unit with closure := reply.unit.closure }
  failure : ∀ cause, reply.failure = some cause ↔
    VisibleFiles.text? ⟨disk, unsaved⟩ unit.path = none ∧ cause = refusal unit.path
  atomic : reply.failure.isSome = true → reply.unit = unit
  rescanned : reply.failure = none → ∀ count index flags,
    (parse disk count index ⟨unit.path, unit.arguments, unsaved, flags⟩).outcome =
      .ok ⟨count + 1, unit.path, unit.arguments, reply.unit.closure, index.diagnostics⟩

private theorem parsed_parse (disk : Disk) (parsed : Nat) (index : Index) (request : ParseRequest) :
    Parsed disk parsed index request (parse disk parsed index request) := by
  obtain ⟨outcome, state⟩ := @parse_eq disk parsed index request
  constructor
  · intro read
    obtain ⟨closure, scan⟩ := exists_closureOf_of_readable read request.arguments
    rw [scan] at outcome state
    exact ⟨state, closure, outcome⟩
  · intro unread
    rw [closureOf_of_unreadable unread] at outcome state
    exact ⟨state, outcome⟩

private theorem reparse_of_unreadable
    (unread : VisibleFiles.text? ⟨disk, unsaved⟩ unit.path = none) :
    reparse disk parsed unit unsaved = ⟨some (refusal unit.path), unit, parsed, []⟩ := by
  simp only [reparse, closureOf, unread, refusal]

private theorem reparse_of_readable
    (read : (VisibleFiles.text? ⟨disk, unsaved⟩ unit.path).isSome = true) :
    ∃ closure logs, (closureOf ⟨disk, unsaved⟩ unit.path unit.arguments).1 = .ok closure ∧
      reparse disk parsed unit unsaved = ⟨none, { unit with closure }, parsed, logs⟩ := by
  obtain ⟨closure, scan⟩ := exists_closureOf_of_readable read unit.arguments
  cases told : closureOf ⟨disk, unsaved⟩ unit.path unit.arguments with
  | mk result logs =>
    rw [told] at scan
    subst scan
    simp only [reparse, told]
    exact ⟨closure, _, rfl, rfl⟩

private theorem reparsed_reparse (disk : Disk) (parsed : Nat) (unit : IncludeUnit)
    (unsaved : List Buffer) :
    Reparsed disk parsed unit unsaved (reparse disk parsed unit unsaved) := by
  cases read : VisibleFiles.text? ⟨disk, unsaved⟩ unit.path with
  | none =>
    rw [reparse_of_unreadable read]
    exact ⟨rfl, rfl, by simp [read, eq_comm], fun _ => rfl, nofun⟩
  | some text =>
    obtain ⟨closure, logs, scan, replied⟩ :=
      @reparse_of_readable disk parsed unit unsaved (by rw [read]; rfl)
    rw [replied]
    refine ⟨rfl, rfl, by simp [read], nofun, fun _ count index flags => ?_⟩
    rw [(parse_eq index _).1, scan]
    rfl

private theorem matches_of_parse
    (made : (parse disk parsed index request).outcome.toOption = some unit) :
    unit.Matches ⟨disk, request.unsaved⟩ := by
  cases outcome : (parse disk parsed index request).outcome with
  | error => simp [outcome, Except.toOption] at made
  | ok other =>
    obtain rfl : other = unit := by simpa [outcome, Except.toOption] using made
    obtain ⟨closure, rfl, scan⟩ := parse_ok outcome
    exact scan

theorem numbers_of_parse (disk : Disk) (parsed : Nat) (index : Index) (request : ParseRequest) :
    let reply := parse disk parsed index request
    List.range' 1 parsed ++ reply.outcome.toOption.toList.map IncludeUnit.id =
      List.range' 1 reply.state := by
  intro reply
  have known : Parsed disk parsed index request reply := parsed_parse disk parsed index request
  cases read : VisibleFiles.text? ⟨disk, request.unsaved⟩ request.path with
  | none =>
    obtain ⟨state, outcome⟩ := known.refused read
    simp [state, outcome, Except.toOption]
  | some text =>
    obtain ⟨state, closure, outcome⟩ := known.made (by rw [read]; rfl)
    simp [state, outcome, Except.toOption, List.range'_1_concat, Nat.add_comm]

/-- A call to the engine. Each may find another disk, and parse in another index. -/
inductive ScanCall where
  | parse (disk : Disk) (index : Index) (request : ParseRequest)
  | reparse (slot : Nat) (disk : Disk) (unsaved : List Buffer)
  | dispose (slot : Nat)

namespace ScanCall

def isParse : ScanCall → Bool
  | .parse .. => true
  | _ => false

/-- A scan for a slot, which the parses before it number, and the files it saw. -/
inductive Scans (before : List ScanCall) (slot : Nat) : ScanCall → VisibleFiles → Prop where
  | parse {disk : Disk} {index : Index} {request : ParseRequest}
      (numbered : before.countP isParse = slot) :
      Scans before slot (.parse disk index request) ⟨disk, request.unsaved⟩
  | reparse {disk : Disk} {unsaved : List Buffer} :
      Scans before slot (.reparse slot disk unsaved) ⟨disk, unsaved⟩

def Rescans (slot : Nat) (main : Path) (call : ScanCall) : Prop :=
  ∃ disk unsaved, call = .reparse slot disk unsaved ∧
    (VisibleFiles.text? ⟨disk, unsaved⟩ main).isSome = true

/-- The unit has the closure that some scan for its slot gave, and no later one could. -/
def ScannedLast (calls : List ScanCall) (slot : Nat) (unit : IncludeUnit) : Prop :=
  Since (fun before call => ∃ files, Scans before slot call files ∧ unit.Matches files)
    (Rescans slot unit.path) calls

end ScanCall

/-- The engine between calls, with a slot for each parse: what it gave, and what has become of the
unit unless it was disposed of. -/
structure Scanning where
  parsed : Nat
  made : List (Option IncludeUnit)
  units : List (Option IncludeUnit)

namespace Scanning
open ScanCall

def start : Scanning := ⟨0, [], []⟩

def unit? (state : Scanning) (slot : Nat) : Option IncludeUnit := state.units[slot]?.join

/-- One call. A slot without a unit cannot be called on. -/
def step (state : Scanning) : ScanCall → Scanning
  | .parse disk index request =>
    let reply := IncludeEngine.parse disk state.parsed index request
    let unit := reply.outcome.toOption
    ⟨reply.state, state.made ++ [unit], state.units ++ [unit]⟩
  | .reparse slot disk unsaved =>
    match state.unit? slot with
    | none => state
    | some unit =>
      let reply := IncludeEngine.reparse disk state.parsed unit unsaved
      { state with parsed := reply.state, units := state.units.set slot (some reply.unit) }
  | .dispose slot =>
    match state.unit? slot with
    | none => state
    | some unit =>
      { state with
        parsed := (engine.dispose state.parsed unit).2, units := state.units.set slot none }

def after (calls : List ScanCall) : Scanning := calls.foldl step start

private theorem after_concat (calls : List ScanCall) (last : ScanCall) :
    after (calls ++ [last]) = (after calls).step last := by
  simp [after]

/-- The units made are numbered from one without a gap. A unit is the one its slot was made with,
but for the closure, which is from the last scan for the slot that gave one. -/
structure Sound (calls : List ScanCall) (state : Scanning) : Prop where
  numbers : (state.made.filterMap id).map IncludeUnit.id = List.range' 1 state.parsed
  slots : state.made.length = calls.countP isParse ∧ state.units.length = calls.countP isParse
  identity : ∀ slot unit, state.unit? slot = some unit → ∃ first,
    state.made[slot]? = some (some first) ∧ unit = { first with closure := unit.closure }
  scanned : ∀ slot unit, state.unit? slot = some unit → ScannedLast calls slot unit

variable {calls : List ScanCall} {state : Scanning} {slot other : Nat} {new : Option IncludeUnit}

private theorem unit?_append (held : (state.units ++ [new])[slot]?.join = some unit) :
    state.unit? slot = some unit ∨ (slot = state.units.length ∧ new = some unit) := by
  rw [List.getElem?_append] at held
  split at held
  · exact .inl held
  · rename_i beyond
    cases place : slot - state.units.length with
    | zero => exact .inr ⟨by omega, by simpa [place] using held⟩
    | succ later => simp [place] at held

private theorem unit?_set (held : (state.units.set slot new)[other]?.join = some unit) :
    (other ≠ slot ∧ state.unit? other = some unit) ∨ (other = slot ∧ new = some unit) := by
  by_cases same : other = slot
  · subst same
    rw [List.getElem?_set_self'] at held
    cases place : state.units[other]? <;> simp_all
  · exact .inl ⟨same, by rwa [List.getElem?_set_ne (Ne.symm same)] at held⟩

private theorem Sound.parse (sound : Sound calls state) (disk : Disk) (index : Index)
    (request : ParseRequest) :
    Sound (calls ++ [.parse disk index request]) (state.step (.parse disk index request)) := by
  obtain ⟨madeSlots, unitSlots⟩ := sound.slots
  constructor
  · have next := numbers_of_parse disk state.parsed index request
    simp only [step, List.filterMap_append, List.map_append, sound.numbers, ← next]
    cases (IncludeEngine.parse disk state.parsed index request).outcome.toOption <;> rfl
  · simp [step, madeSlots, unitSlots, isParse]
  · intro slot unit held
    rcases unit?_append held with old | ⟨rfl, new⟩
    · obtain ⟨first, made, same⟩ := sound.identity slot unit old
      refine ⟨first, ?_, same⟩
      exact (List.getElem?_append_left (List.getElem?_eq_some_iff.mp made).1).trans made
    · refine ⟨unit, ?_, rfl⟩
      rw [unitSlots, ← madeSlots, ← new]
      exact List.getElem?_concat_length
  · intro slot unit held
    rcases unit?_append held with old | ⟨rfl, new⟩
    · refine since_concat.mpr (.inr ⟨sound.scanned slot unit old, ?_⟩)
      rintro ⟨_, _, ⟨⟩, _⟩
    · exact since_concat.mpr (.inl ⟨_, .parse unitSlots.symm, matches_of_parse new⟩)

/-- A call that makes no unit keeps what holds of the units, if each is as it was and not scanned
again, or was just scanned. -/
theorem Sound.concat (sound : Sound calls state) {call : ScanCall} {next : Scanning}
    (parseless : call.isParse = false) (parsed : next.parsed = state.parsed)
    (made : next.made = state.made) (size : next.units.length = state.units.length)
    (units : ∀ slot unit, next.unit? slot = some unit →
      (state.unit? slot = some unit ∧ ¬Rescans slot unit.path call) ∨
      ∃ old files, state.unit? slot = some old ∧ unit = { old with closure := unit.closure } ∧
        Scans calls slot call files ∧ unit.Matches files) :
    Sound (calls ++ [call]) next := by
  constructor
  · rw [made, parsed]
    exact sound.numbers
  · simp [made, size, parseless, sound.slots]
  · intro slot unit held
    rw [made]
    rcases units slot unit held with ⟨same, _⟩ | ⟨old, files, before, refreshed, _⟩
    · exact sound.identity slot unit same
    · obtain ⟨first, place, same⟩ := sound.identity slot old before
      refine ⟨first, place, refreshed.trans ?_⟩
      rw [same]
  · intro slot unit held
    rcases units slot unit held with ⟨same, still⟩ | ⟨old, files, _, _, scan, fits⟩
    · exact since_concat.mpr (.inr ⟨sound.scanned slot unit same, still⟩)
    · exact since_concat.mpr (.inl ⟨files, scan, fits⟩)

private theorem Sound.reparse (sound : Sound calls state) (slot : Nat) (disk : Disk)
    (unsaved : List Buffer) :
    Sound (calls ++ [.reparse slot disk unsaved]) (state.step (.reparse slot disk unsaved)) := by
  have elsewhere : ∀ {other main}, other ≠ slot →
      ¬Rescans other main (.reparse slot disk unsaved) := by
    rintro other main apart ⟨_, _, same, _⟩
    cases same
    exact apart rfl
  cases held : state.unit? slot with
  | none =>
    simp only [step, held]
    refine sound.concat rfl rfl rfl rfl fun other unit here => .inl ⟨here, elsewhere ?_⟩
    rintro rfl
    rw [held] at here
    cases here
  | some old =>
    simp only [step, held]
    cases read : VisibleFiles.text? ⟨disk, unsaved⟩ old.path with
    | none =>
      rw [reparse_of_unreadable read]
      refine sound.concat rfl rfl rfl (List.length_set ..) fun other unit here => ?_
      rcases unit?_set here with ⟨apart, before⟩ | ⟨rfl, same⟩
      · exact .inl ⟨before, elsewhere apart⟩
      · cases same
        -- The unit's own reparse, but not one that could read its main file.
        refine .inl ⟨held, ?_⟩
        rintro ⟨_, _, ⟨⟩, found⟩
        rw [read] at found
        cases found
    | some text =>
      obtain ⟨closure, logs, scan, replied⟩ :=
        @reparse_of_readable disk state.parsed old unsaved (by rw [read]; rfl)
      rw [replied]
      refine sound.concat rfl rfl rfl (List.length_set ..) fun other unit here => ?_
      rcases unit?_set here with ⟨apart, before⟩ | ⟨rfl, same⟩
      · exact .inl ⟨before, elsewhere apart⟩
      · cases same
        exact .inr ⟨old, _, held, rfl, .reparse, scan⟩

private theorem Sound.dispose (sound : Sound calls state) (slot : Nat) :
    Sound (calls ++ [.dispose slot]) (state.step (.dispose slot)) := by
  have quiet : ∀ {other main}, ¬Rescans other main (.dispose slot) := by
    rintro other main ⟨_, _, ⟨⟩, _⟩
  cases held : state.unit? slot with
  | none =>
    simp only [step, held]
    exact sound.concat rfl rfl rfl rfl fun other unit here => .inl ⟨here, quiet⟩
  | some old =>
    simp only [step, held]
    refine sound.concat rfl rfl rfl (List.length_set ..) fun other unit here => ?_
    rcases unit?_set here with ⟨_, before⟩ | ⟨rfl, gone⟩
    · exact .inl ⟨before, quiet⟩
    · cases gone

private theorem sound_after (calls : List ScanCall) : (after calls).Sound calls := by
  -- From the right: the slot of a parse is the number of parses before it.
  induction calls using List.reverseRecOn with
  | nil => exact ⟨rfl, ⟨rfl, rfl⟩, by simp [after, start, unit?], by simp [after, start, unit?]⟩
  | append_singleton calls last ih =>
    rw [after_concat]
    cases last with
    | parse disk index request => exact ih.parse disk index request
    | reparse slot disk unsaved => exact ih.reparse slot disk unsaved
    | dispose slot => exact ih.dispose slot

/-- A unit has no number above that of the parses, so 64 bits hold the numbers of 2 ^ 64 parses. -/
theorem id_le_of_made {unit : IncludeUnit} (made : some unit ∈ (after calls).made) :
    unit.id ≤ calls.countP isParse := by
  have sound := sound_after calls
  have counted : (after calls).parsed ≤ calls.countP isParse := by
    have lengths := congrArg List.length sound.numbers
    rw [List.length_map, List.length_range'] at lengths
    rw [← lengths, ← sound.slots.1]
    exact List.length_filterMap_le ..
  have numbered : unit.id ∈ List.range' 1 (after calls).parsed := by
    rw [← sound.numbers]
    exact List.mem_map_of_mem (List.mem_filterMap.mpr ⟨some unit, made, rfl⟩)
  rw [List.mem_range'_1] at numbered
  omega

end Scanning

/-- Whatever is called on an engine while the files change, the units it makes are numbered from one
without a gap, and a unit stays what it was made as but for its closure. A parse fails only for want
of the main file, and then takes no number. So does a reparse, which otherwise leaves the unit with
the closure that a parse would find, and changes nothing if it fails. -/
theorem units_keep_identity (calls : List ScanCall) :
    let state := Scanning.after calls
    state.Sound calls ∧
    (∀ disk index request,
      Parsed disk state.parsed index request (parse disk state.parsed index request)) ∧
    ∀ unit disk unsaved,
      Reparsed disk state.parsed unit unsaved (reparse disk state.parsed unit unsaved) := by
  intro state
  exact ⟨Scanning.sound_after calls, fun _ _ _ => parsed_parse .., fun _ _ _ => reparsed_reparse ..⟩

example :
    let opened : String → List Buffer := fun text => [⟨⟨"/a.c"⟩, text⟩, ⟨⟨"/b.h"⟩, ""⟩]
    let request : List Buffer → ParseRequest := fun unsaved => ⟨⟨"/a.c"⟩, [], unsaved, .none⟩
    let state := Scanning.after [.parse .empty ⟨.none, true⟩ (request (opened "#include <c.h>\n")),
      .parse .empty ⟨.none, true⟩ (request []), .parse .empty ⟨.none, false⟩ (request (opened "")),
      .reparse 0 .empty (opened "#include \"b.h\"\n"), .reparse 0 .empty [], .dispose 2]
    state.made = [some ⟨1, ⟨"/a.c"⟩, [], ⟨[], ["c.h"]⟩, true⟩, none,
      some ⟨2, ⟨"/a.c"⟩, [], ⟨[], []⟩, false⟩] ∧
    state.units = [some ⟨1, ⟨"/a.c"⟩, [], ⟨[⟨"/b.h"⟩], []⟩, true⟩, none, none] := by
  decide +kernel

end UnitCache.IncludeEngine
