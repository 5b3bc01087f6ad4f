import UnitCache.Cache.Basic

/-! What a journal tells of the units and the index. Every call of the engine must be
allowed by the calls before it; the log lines between them do not count. -/

namespace UnitCache

namespace Event

/-- The unit that a successful parse made. -/
def created? : Event → Option Nat
  | .parse _ (.ok serial) => some serial
  | _ => none

def disposed? : Event → Option Nat
  | .dispose serial _ => some serial
  | _ => none

/-- The unit that an engine call was made on. -/
def used? : Event → Option Nat
  | .readReparseFlags serial => some serial
  | .reparse serial _ _ _ => some serial
  | .checkIncludes serial _ => some serial
  | .dispose serial _ => some serial
  | _ => none

/-- What the engine was asked to parse, if the event is a parse. -/
def request? : Event → Option ParseRequest
  | .parse request _ => some request
  | _ => none

def isParse : Event → Bool
  | .parse .. => true
  | _ => false

def isClosing : Event → Bool
  | .closeIndex .. => true
  | _ => false

def isLog : Event → Bool
  | .log _ => true
  | _ => false

end Event

namespace Proofs.Journal

def created (journal : List Event) : List Nat := journal.filterMap Event.created?

def disposed (journal : List Event) : List Nat := journal.filterMap Event.disposed?

def requests (journal : List Event) : List ParseRequest := journal.filterMap Event.request?

/-- The units that were made and not given back, in the order they were made. -/
def undisposed (journal : List Event) : List Nat :=
  (created journal).filter fun serial => !decide (serial ∈ disposed journal)

def closings (journal : List Event) : Nat := journal.countP Event.isClosing

def trace (journal : List Event) : List Event := journal.filter fun event => !event.isLog

/-- What an event may be after the events of the past. A unit is made anew and used while it has
not been given back, the index is closed once and after all units, and nothing is parsed later. -/
structure Allowed (past : List Event) (event : Event) : Prop where
  fresh : ∀ serial, event.created? = some serial → serial ∉ created past
  alive : ∀ serial, event.used? = some serial → serial ∈ created past ∧ serial ∉ disposed past
  settled : event.isClosing = true →
    closings past = 0 ∧ ∀ serial ∈ created past, serial ∈ disposed past
  unclosed : event.isParse = true → closings past = 0

def Lawful (journal : List Event) : Prop :=
  ∀ past event future, journal = past ++ event :: future → Allowed past event

@[simp] theorem created_append (first last : List Event) :
    created (first ++ last) = created first ++ created last := List.filterMap_append

@[simp] theorem disposed_append (first last : List Event) :
    disposed (first ++ last) = disposed first ++ disposed last := List.filterMap_append

@[simp] theorem requests_append (first last : List Event) :
    requests (first ++ last) = requests first ++ requests last := List.filterMap_append

@[simp] theorem closings_append (first last : List Event) :
    closings (first ++ last) = closings first + closings last := List.countP_append

@[simp] theorem trace_append (first last : List Event) :
    trace (first ++ last) = trace first ++ trace last := List.filter_append ..

theorem mem_requests {journal : List Event} {request : ParseRequest} :
    request ∈ requests journal ↔ ∃ outcome, .parse request outcome ∈ journal := by
  refine List.mem_filterMap.trans ⟨?_, ?_⟩
  · rintro ⟨event, member, asked⟩
    cases event with
    | parse made outcome =>
      obtain rfl := Option.some.inj asked
      exact ⟨outcome, member⟩
    | _ => cases asked
  · rintro ⟨outcome, member⟩
    exact ⟨_, member, rfl⟩

private theorem mem_undisposed {journal : List Event} {serial : Nat} :
    serial ∈ undisposed journal ↔ serial ∈ created journal ∧ serial ∉ disposed journal := by
  simp [undisposed]

theorem filterMap_trace {α : Type} (read : Event → Option α)
    (silent : ∀ entry, read (.log entry) = none) (journal : List Event) :
    (trace journal).filterMap read = journal.filterMap read := by
  induction journal with
  | nil => rfl
  | cons event rest ih =>
    cases event with
    | log entry => rw [List.filterMap_cons_none (silent entry), ← ih]; rfl
    | _ =>
      change (_ :: trace rest).filterMap read = _
      simp only [List.filterMap_cons, ih]

@[simp] theorem created_trace (journal : List Event) : created (trace journal) = created journal :=
  filterMap_trace _ (fun _ => rfl) journal

@[simp] theorem disposed_trace (journal : List Event) :
    disposed (trace journal) = disposed journal :=
  filterMap_trace _ (fun _ => rfl) journal

@[simp] theorem closings_trace (journal : List Event) :
    closings (trace journal) = closings journal := by
  rw [closings, trace, List.countP_filter]
  apply List.countP_congr
  intro event _
  cases event <;> simp [Event.isLog, Event.isClosing]

@[simp] theorem undisposed_trace (journal : List Event) :
    undisposed (trace journal) = undisposed journal := by
  simp [undisposed]

private theorem lawful_nil : Lawful [] := by
  intro past event future shape
  simp at shape

private theorem lawful_concat {journal : List Event} {event : Event} (lawful : Lawful journal)
    (allowed : Allowed journal event) : Lawful (journal ++ [event]) := by
  intro past other future shape
  rcases List.eq_nil_or_concat future with rfl | ⟨rest, last, rfl⟩
  · obtain ⟨rfl, same⟩ := List.append_inj' shape rfl
    obtain rfl : event = other := by simpa using same
    exact allowed
  · rw [List.concat_eq_append, ← List.cons_append, ← List.append_assoc] at shape
    exact lawful past other rest (List.append_inj' shape rfl).1

/-- Log lines neither break the law nor mend it. -/
theorem lawful_of_trace {journal : List Event} (lawful : Lawful (trace journal)) :
    Lawful journal := by
  rintro past event future rfl
  by_cases logged : event.isLog = true
  · cases event with
    | log entry => exact ⟨nofun, nofun, nofun, nofun⟩
    | _ => cases logged
  · have allowed := lawful (trace past) event (trace future) (by simp [trace, logged])
    exact ⟨by simpa using allowed.fresh, by simpa using allowed.alive,
      by simpa using allowed.settled, by simpa using allowed.unclosed⟩

/-- The journals that come of using an engine as it must be used, with what they lead to: whether
the index is open, how many units were made, and which are held, in the order they were made. -/
inductive Accounted : List Event → Bool → Nat → List Nat → Prop where
  | opened (diagnostics : Bool) : Accounted [.openIndex diagnostics] true 0 []
  | aside {journal isOpen count held event} (kept : Accounted journal isOpen count held)
      (uncreated : event.created? = none) (unused : event.used? = none)
      (parses : event.isParse = true → isOpen = true) (stays : event.isClosing = false) :
      Accounted (journal ++ [event]) isOpen count held
  | used {journal isOpen count held event serial} (kept : Accounted journal isOpen count held)
      (member : serial ∈ held) (uses : event.used? = some serial) (returned : event.disposed? = none) :
      Accounted (journal ++ [event]) isOpen count held
  | parsed {journal count held} (request : ParseRequest) (kept : Accounted journal true count held) :
      Accounted (journal ++ [.parse request (.ok (count + 1))]) true (count + 1)
        (held ++ [count + 1])
  | disposed {journal isOpen count before serial after} (failure : Option EngineFailure)
      (kept : Accounted journal isOpen count (before ++ serial :: after)) :
      Accounted (journal ++ [.dispose serial failure]) isOpen count (before ++ after)
  | closed {journal count} (flags : IndexFlags) (failure : Option EngineFailure)
      (kept : Accounted journal true count []) :
      Accounted (journal ++ [.closeIndex flags failure]) false count []

/-- What an account says in plain terms. -/
structure Balanced (journal : List Event) (isOpen : Bool) (count : Nat) (held : List Nat) :
    Prop where
  lawful : Lawful journal
  numbered : created journal = List.range' 1 count
  known : ∀ serial ∈ disposed journal, serial ∈ created journal
  once : (disposed journal).Nodup
  holds : held = undisposed journal
  index : closings journal = if isOpen then 0 else 1

namespace Balanced
variable {journal : List Event} {isOpen : Bool} {count : Nat} {held : List Nat}

theorem nodup_created (balanced : Balanced journal isOpen count held) : (created journal).Nodup := by
  rw [balanced.numbered]
  exact List.nodup_range'

theorem nodup_held (balanced : Balanced journal isOpen count held) : held.Nodup := by
  rw [balanced.holds]
  exact balanced.nodup_created.filter _

theorem mem_held (balanced : Balanced journal isOpen count held) {serial : Nat} :
    serial ∈ held ↔ serial ∈ created journal ∧ serial ∉ disposed journal := by
  rw [balanced.holds, mem_undisposed]

theorem mem_created (balanced : Balanced journal isOpen count held) {serial : Nat} :
    serial ∈ created journal ↔ 1 ≤ serial ∧ serial ≤ count := by
  rw [balanced.numbered, List.mem_range'_1]
  omega

theorem owned (balanced : Balanced journal isOpen count held) {serial : Nat}
    (made : serial ∈ created journal) :
    (held.count serial = 1 ∧ (disposed journal).count serial = 0) ∨
      (held.count serial = 0 ∧ (disposed journal).count serial = 1) := by
  by_cases returned : serial ∈ disposed journal
  · have left : serial ∉ held := fun member => (balanced.mem_held.mp member).2 returned
    exact .inr ⟨List.count_eq_zero.mpr left, by rw [balanced.once.count, if_pos returned]⟩
  · have member : serial ∈ held := balanced.mem_held.mpr ⟨made, returned⟩
    exact .inl ⟨by rw [balanced.nodup_held.count, if_pos member], List.count_eq_zero.mpr returned⟩

/-- An event that neither makes nor returns anything changes no account. -/
private theorem extend (balanced : Balanced journal isOpen count held) {event : Event}
    (uncreated : event.created? = none) (returned : event.disposed? = none)
    (stays : event.isClosing = false) (allowed : Allowed journal event) :
    Balanced (journal ++ [event]) isOpen count held := by
  have made : created (journal ++ [event]) = created journal := by simp [created, uncreated]
  have gone : disposed (journal ++ [event]) = disposed journal := by simp [disposed, returned]
  refine ⟨lawful_concat balanced.lawful allowed, ?_, ?_, ?_, ?_, ?_⟩
  · rw [made, balanced.numbered]
  · rw [made, gone]; exact balanced.known
  · rw [gone]; exact balanced.once
  · rw [balanced.holds, undisposed, undisposed, made, gone]
  · rw [closings_append, balanced.index]
    simp [closings, stays]

private theorem parse (balanced : Balanced journal true count held) (request : ParseRequest) :
    Balanced (journal ++ [.parse request (.ok (count + 1))]) true (count + 1)
      (held ++ [count + 1]) := by
  have made : created (journal ++ [.parse request (.ok (count + 1))]) =
      created journal ++ [count + 1] := created_append ..
  have gone : disposed (journal ++ [.parse request (.ok (count + 1))]) = disposed journal := by
    rw [disposed_append]; exact List.append_nil _
  have fresh : count + 1 ∉ created journal := by rw [balanced.mem_created]; omega
  have kept : count + 1 ∉ disposed journal := fun returned => fresh (balanced.known _ returned)
  have unclosed : closings journal = 0 := balanced.index
  refine ⟨lawful_concat balanced.lawful ⟨?_, nofun, nofun, fun _ => unclosed⟩, ?_, ?_, ?_, ?_, ?_⟩
  · intro serial same
    cases same
    exact fresh
  · rw [made, balanced.numbered, List.range'_concat]
    simp [Nat.add_comm]
  · intro serial returned
    rw [gone] at returned
    exact made ▸ List.mem_append_left _ (balanced.known serial returned)
  · rw [gone]; exact balanced.once
  · rw [balanced.holds, undisposed, undisposed, made, gone, List.filter_append]
    simp [kept]
  · rw [closings_append, balanced.index]; rfl

private theorem dispose {before after : List Nat} {serial : Nat}
    (balanced : Balanced journal isOpen count (before ++ serial :: after))
    (failure : Option EngineFailure) :
    Balanced (journal ++ [.dispose serial failure]) isOpen count (before ++ after) := by
  have made : created (journal ++ [.dispose serial failure]) = created journal := by
    rw [created_append]; exact List.append_nil _
  have gone : disposed (journal ++ [.dispose serial failure]) = disposed journal ++ [serial] :=
    disposed_append ..
  have alive := balanced.mem_held.mp (List.mem_append_right before List.mem_cons_self)
  obtain ⟨_, last, apart⟩ := List.nodup_append.mp balanced.nodup_held
  have rest : (before ++ serial :: after).filter (fun other => !decide (other = serial)) =
      before ++ after := by
    rw [List.filter_append, List.filter_cons_of_neg (by simp)]
    congr 1
    · refine List.filter_eq_self.mpr fun other member => ?_
      simpa using apart other member serial List.mem_cons_self
    · refine List.filter_eq_self.mpr fun other member => ?_
      have different : other ≠ serial := fun same => (List.nodup_cons.mp last).1 (same ▸ member)
      simpa using different
  refine ⟨lawful_concat balanced.lawful ⟨nofun, ?_, nofun, nofun⟩, ?_, ?_, ?_, ?_, ?_⟩
  · intro other same
    cases same
    exact alive
  · rw [made, balanced.numbered]
  · intro other returned
    rw [made]
    rw [gone] at returned
    rcases List.mem_append.mp returned with earlier | last
    · exact balanced.known other earlier
    · exact List.mem_singleton.mp last ▸ alive.1
  · rw [gone]
    refine List.nodup_append.mpr ⟨balanced.once, by simp, ?_⟩
    intro other earlier last member same
    exact alive.2 (List.mem_singleton.mp member ▸ same ▸ earlier)
  · rw [← rest, balanced.holds, undisposed, undisposed, made, gone, List.filter_filter]
    apply List.filter_congr
    intro other _
    simp [Bool.and_comm]
  · rw [closings_append, balanced.index]; rfl

private theorem close (balanced : Balanced journal true count []) (flags : IndexFlags)
    (failure : Option EngineFailure) :
    Balanced (journal ++ [.closeIndex flags failure]) false count [] := by
  have made : created (journal ++ [.closeIndex flags failure]) = created journal := by
    rw [created_append]; exact List.append_nil _
  have gone : disposed (journal ++ [.closeIndex flags failure]) = disposed journal := by
    rw [disposed_append]; exact List.append_nil _
  have unclosed : closings journal = 0 := balanced.index
  have returned : ∀ serial ∈ created journal, serial ∈ disposed journal := by
    intro serial member
    apply Decidable.byContradiction
    intro kept
    cases balanced.mem_held.mpr ⟨member, kept⟩
  refine ⟨lawful_concat balanced.lawful ⟨nofun, nofun, fun _ => ⟨unclosed, returned⟩, nofun⟩,
    ?_, ?_, ?_, ?_, ?_⟩
  · rw [made, balanced.numbered]
  · rw [made, gone]; exact balanced.known
  · rw [gone]; exact balanced.once
  · rw [balanced.holds, undisposed, undisposed, made, gone]
  · rw [closings_append, unclosed]; rfl

end Balanced

theorem Accounted.balanced {journal : List Event} {isOpen : Bool} {count : Nat} {held : List Nat}
    (accounted : Accounted journal isOpen count held) : Balanced journal isOpen count held := by
  induction accounted with
  | opened diagnostics =>
    have allowed : Allowed [] (.openIndex diagnostics) := ⟨nofun, nofun, nofun, nofun⟩
    exact ⟨lawful_concat lawful_nil allowed, rfl, nofun, List.nodup_nil, rfl, rfl⟩
  | @aside journal isOpen count held event kept uncreated unused parses stays ih =>
    have returned : event.disposed? = none := by
      cases event <;> first | rfl | cases unused
    refine ih.extend uncreated returned stays ⟨?_, ?_, ?_, ?_⟩
    · rw [uncreated]; exact nofun
    · rw [unused]; exact nofun
    · rw [stays]; exact nofun
    · intro parse
      rw [ih.index, parses parse]; rfl
  | @used journal isOpen count held event serial kept member uses returned ih =>
    have alive := ih.mem_held.mp member
    have neither : event.created? = none ∧ event.isClosing = false ∧ event.isParse = false := by
      cases event <;> first | exact ⟨rfl, rfl, rfl⟩ | cases uses
    refine ih.extend neither.1 returned neither.2.1 ⟨?_, ?_, ?_, ?_⟩
    · rw [neither.1]; exact nofun
    · rw [uses]
      intro other same
      cases same
      exact alive
    · rw [neither.2.1]; exact nofun
    · rw [neither.2.2]; exact nofun
  | parsed request kept ih => exact ih.parse request
  | disposed failure kept ih => exact ih.dispose failure
  | closed flags failure kept ih => exact ih.close flags failure

/-- Once the index is closed nothing is held. -/
theorem Accounted.held_of_closed {journal : List Event} {isOpen : Bool} {count : Nat}
    {held : List Nat} (accounted : Accounted journal isOpen count held) (shut : isOpen = false) :
    held = [] := by
  induction accounted with
  | opened => cases shut
  | aside _ _ _ _ _ ih => exact ih shut
  | used _ _ _ _ ih => exact ih shut
  | parsed => cases shut
  | disposed _ _ ih => simpa using ih shut
  | closed => rfl

end Proofs.Journal

end UnitCache
