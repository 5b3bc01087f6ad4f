import UnitCache.Engine.Scripted
import UnitCache.Proofs.RefreshJournal
import UnitCache.Proofs.UnitLifecycle

/-! What a search for a header leaves behind. Files that nobody asked for are parsed on the way, but
none of them stays unless it serves the header; what was asked for before stays, unless it can no
longer be parsed. -/

namespace UnitCache

/-- The files that the database lists. -/
def Event.listed : Event → List Path
  | .askSources (.ok sources) => sources
  | _ => []

namespace Cache
open Proofs Journal

variable {E : Engine} {world : World} {path header : Path} {sources : List Path}
  {cache middle final : Cache E} {answer : Except CacheError (Option (Entry E))}
  {listed moreListed : List Path} {events moreEvents : List Event}
  {α β : Type} {reply : Except CacheError α}

/-- Why a path has lost its entry: it could not be parsed, or the buffers were unavailable after its
old unit had been given back, which ends the request. -/
def Lost (reply : Except CacheError α) (path : Path) (events : List Event) : Prop :=
  (∃ request cause, .parse request (.error cause) ∈ events ∧ request.path = path) ∨
  ∃ reason earlier serial failure,
    reply = .error (.unavailable .buffers reason) ∧
    events = earlier ++ [.dispose serial failure, .askBuffers (.error reason)] ∧
    (events.filterMap Event.refreshed?).getLast? = some path

private theorem Lost.before {found : β} (lost : Lost (.ok found) path events) (later : List Event) :
    Lost reply path (events ++ later) := by
  rcases lost with ⟨request, cause, member, key⟩ | ⟨_, _, _, _, refused, _⟩
  · exact .inl ⟨request, cause, List.mem_append_left _ member, key⟩
  · cases refused

private theorem Lost.after (lost : Lost reply path events) (past : List Event) :
    Lost reply path (past ++ events) := by
  rcases lost with ⟨request, cause, member, key⟩ | ⟨reason, earlier, serial, failure, refused, rfl, last⟩
  · exact .inl ⟨request, cause, List.mem_append_right _ member, key⟩
  · refine .inr ⟨reason, past ++ earlier, serial, failure, refused, (List.append_assoc ..).symm, ?_⟩
    rw [List.filterMap_append, List.getLast?_append, last]
    rfl

private theorem Lost.map (lost : Lost reply path events) (read : α → β) :
    Lost (reply.map read) path events := by
  rcases lost with failed | ⟨reason, earlier, serial, failure, rfl, rest⟩
  · exact .inl failed
  · exact .inr ⟨reason, earlier, serial, failure, rfl, rest⟩

/-- What happens to the entries of a cache while listed files are refreshed. -/
structure Footprint (listed : List Path) (reply : Except CacheError α) (cache final : Cache E)
    (events : List Event) : Prop where
  journal : final.journal = cache.journal ++ events
  /-- Entries of other files stay as they are, in their order. -/
  spared : ∀ keep : Entry E → Bool, (∀ entry, entry.path ∈ listed → keep entry = false) →
    final.entries.filter keep = cache.entries.filter keep
  /-- Their units are not called. -/
  uncalled : ∀ entry ∈ cache.entries, entry.path ∉ listed →
    ∀ event ∈ events, event.unitCall?.isSome = true → event.used? ≠ some entry.serial
  lost : ∀ entry ∈ cache.entries, entry.path ∈ final.paths ∨ Lost reply entry.path events

namespace Footprint

private theorem kept (footprint : Footprint listed reply cache final events) {entry : Entry E}
    (member : entry ∈ cache.entries) (unlisted : entry.path ∉ listed) : entry ∈ final.entries := by
  let keep : Entry E → Bool := fun other => !decide (other.path ∈ listed)
  have same := footprint.spared keep fun other inside => by simp [keep, inside]
  have chosen : entry ∈ cache.entries.filter keep := by simp [keep, member, unlisted]
  rw [← same] at chosen
  exact (List.mem_filter.mp chosen).1

private theorem trans {found : β} (first : Footprint listed (.ok found) cache middle events)
    (last : Footprint moreListed reply middle final moreEvents) :
    Footprint (listed ++ moreListed) reply cache final (events ++ moreEvents) := by
  refine ⟨?_, ?_, ?_, ?_⟩
  · rw [last.journal, first.journal, List.append_assoc]
  · intro keep unlisted
    rw [last.spared keep fun entry inside => unlisted entry (List.mem_append_right _ inside)]
    exact first.spared keep fun entry inside => unlisted entry (List.mem_append_left _ inside)
  · intro entry member unlisted event inside call
    have apart : entry.path ∉ listed ∧ entry.path ∉ moreListed := by simpa using unlisted
    rcases List.mem_append.mp inside with inside | inside
    · exact first.uncalled entry member apart.1 event inside call
    · exact last.uncalled entry (first.kept member apart.1) apart.2 event inside call
  · intro entry member
    rcases first.lost entry member with present | lost
    · obtain ⟨other, still, key⟩ := List.mem_map.mp present
      rcases last.lost other still with present | lost
      · exact .inl (key ▸ present)
      · exact .inr (key ▸ lost.after events)
    · exact .inr (lost.before moreEvents)

/-- Questions touch no entry. -/
theorem silent (journal : final.journal = cache.journal ++ events)
    (entries : final.entries = cache.entries)
    (calls : ∀ event ∈ events, event.unitCall? = none) :
    Footprint listed reply cache final events := by
  refine ⟨journal, fun keep _ => by rw [entries], ?_, ?_⟩
  · intro entry _ _ event member call
    rw [calls event member] at call
    cases call
  · intro entry member
    exact .inl (List.mem_map_of_mem (entries ▸ member))

private theorem checked (cache : Cache E) (serial : Nat) (header : Path) :
    Footprint [] reply cache (cache.note (.checkIncludes serial header))
      [.checkIncludes serial header] :=
  .silent rfl rfl (by simp [Event.unitCall?])

private theorem more (footprint : Footprint listed reply cache final events)
    (among : ∀ path ∈ listed, path ∈ moreListed) :
    Footprint moreListed reply cache final events :=
  ⟨footprint.journal,
    fun keep unlisted =>
      footprint.spared keep fun entry member => unlisted entry (among _ member),
    fun entry member unlisted =>
      footprint.uncalled entry member fun inside => unlisted (among _ inside),
    footprint.lost⟩

private theorem map (footprint : Footprint listed reply cache final events) (read : α → β) :
    Footprint listed (reply.map read) cache final events :=
  ⟨footprint.journal, footprint.spared, footprint.uncalled,
    fun entry member => (footprint.lost entry member).imp_right fun lost => lost.map read⟩

end Footprint

theorem Replaced.filter {before after : List (Entry E)} (replaced : Replaced path answer before after)
    {keep : Entry E → Bool} (own : ∀ entry, entry.path = path → keep entry = false) :
    after.filter keep = before.filter keep := by
  cases replaced with
  | kept => rfl
  | inPlace old new => simp [own _ old, own _ new]
  | dropped old => simp [own _ old]
  | moved old new => simp [own _ old, own _ new]
  | added _ new => simp [own _ new]

/-- A full parse answers with an entry unless the parse fails or the buffers are unavailable. -/
theorem FullParse.lost {arguments : List String} {modified : Option Timestamp}
    (full : FullParse world path arguments modified cache answer final)
    (opened : cache.index.isSome = true) :
    (∃ entry, answer = .ok (some entry)) ∨
    ∃ events, final.journal = cache.journal ++ events ∧
      ((∃ request cause, .parse request (.error cause) ∈ events ∧ request.path = path) ∨
        ∃ reason, answer = .error (.unavailable .buffers reason) ∧
          events = [.askBuffers (.error reason)]) := by
  cases full with
  | @unavailable reason => exact .inr ⟨_, rfl, .inr ⟨reason, rfl, rfl⟩⟩
  | indexClosed _ closed => simp [closed] at opened
  | @failed unsaved _ cause =>
    exact .inr ⟨_, rfl, .inl ⟨cache.requestFor path arguments unsaved, cause, by simp, rfl⟩⟩
  | parsed => exact .inl ⟨_, rfl⟩

/-- A refresh that replaces an entry answers with the new one, or tells why there is none. -/
private theorem replaced_or_lost {before : Cache E} {entry : Entry E} {arguments : List String}
    {modified : Option Timestamp} {past : List Event}
    (full : FullParse world path arguments modified (giveBack before entry) answer final)
    (opened : before.index.isSome = true) (journal : before.journal = cache.journal ++ past)
    (refreshes : past.filterMap Event.refreshed? = [path]) :
    (∃ fresh, answer = .ok (some fresh)) ∨
    ∃ events, final.journal = cache.journal ++ events ∧ Lost answer path events := by
  have given : (giveBack before entry).journal = before.journal ++
      [.dispose entry.serial (E.dispose before.engine entry.unit).1] := rfl
  generalize (E.dispose before.engine entry.unit).1 = failure at given
  rcases full.lost opened with present | ⟨events, later, failed | ⟨reason, refused, rfl⟩⟩
  · exact .inl present
  · refine .inr ⟨past ++ [.dispose entry.serial failure] ++ events, ?_, ?_⟩
    · rw [later, given, journal]
      simp
    · obtain ⟨request, cause, member, key⟩ := failed
      exact .inl ⟨request, cause, List.mem_append_right _ member, key⟩
  · refine .inr ⟨past ++ [.dispose entry.serial failure, .askBuffers (.error reason)], ?_,
      .inr ⟨reason, past, entry.serial, failure, refused, rfl, ?_⟩⟩
    · rw [later, given, journal]
      simp
    · simp [List.filterMap_append, List.filterMap_cons, refreshes, Event.refreshed?]

private theorem Refresh.lost (refresh : Refresh world path cache answer final)
    (opened : cache.index.isSome = true) :
    (∃ entry, answer = .ok (some entry)) ∨ final.entries = cache.entries ∨
    (∀ entry ∈ cache.entries, entry.path ≠ path) ∨
    ∃ events, final.journal = cache.journal ++ events ∧ Lost answer path events := by
  cases refresh with
  | unavailable => exact .inr (.inl rfl)
  | absent _ missing => exact .inr (.inr (.inl missing))
  | reused => exact .inl ⟨_, rfl⟩
  | noBuffers => exact .inr (.inl rfl)
  | reparsed => exact .inl ⟨_, rfl⟩
  | reparseFailed _ _ _ _ _ _ _ _ _ full =>
    exact (replaced_or_lost full opened (List.append_assoc ..) rfl).imp_right (.inr ∘ .inr)
  | rebuilt _ _ _ _ full =>
    exact (replaced_or_lost full opened rfl rfl).imp_right (.inr ∘ .inr)

/-- Where a unit is held the index is open. -/
theorem Accounts.opened {entries : List (Entry E)} {entry : Entry E}
    (account : Accounts cache entries) (member : entry ∈ entries) : cache.index.isSome = true := by
  cases shut : cache.index.isSome with
  | true => rfl
  | false =>
    have none : entries.map Entry.serial = [] := Accounted.held_of_closed account shut
    rw [List.map_eq_nil_iff.mp none] at member
    cases member

private theorem Refresh.footprint (refresh : Refresh world path cache answer final)
    (account : Accounts cache cache.entries) :
    ∃ events, Footprint [path] answer cache final events := by
  obtain ⟨events, journal, stretch⟩ := refresh.stretch
  refine ⟨events, journal, ?_, ?_, ?_⟩
  · intro keep unlisted
    exact refresh.replaced.filter fun entry key => unlisted entry (by simp [key])
  · intro entry member unlisted event inside _ used
    obtain ⟨other, held, key, same⟩ := (stretch.concerns event inside).uses _ used
    rw [eq_of_serial account held member same] at key
    exact unlisted (by simp [key])
  · intro entry member
    by_cases other : entry.path = path
    · rcases refresh.lost (account.opened member) with ⟨fresh, answered⟩ | same | missing | ⟨told, tells, lost⟩
      · obtain ⟨present, key⟩ := refresh.replaced.answered answered
        exact .inl (List.mem_map.mpr ⟨fresh, present, key.trans other.symm⟩)
      · exact .inl (List.mem_map_of_mem (same ▸ member))
      · exact absurd other (missing entry member)
      · obtain rfl : told = events := List.append_cancel_left (tells.symm.trans journal)
        exact .inr (other ▸ lost)
    · exact .inl (List.mem_map_of_mem (refresh.replaced.others other member))

private theorem Pass.footprint {listed : Path} (pass : Pass world header listed cache final)
    (account : Accounts cache cache.entries) :
    ∃ events, Footprint [world.disk.absolute listed] (.ok (none : Option (Entry E))) cache final
      events := by
  cases pass with
  | skipped => exact ⟨[], .silent (List.append_nil _).symm rfl nofun⟩
  | failed _ refresh => exact refresh.footprint account
  | @kept middle entry _ refresh =>
    obtain ⟨events, footprint⟩ := refresh.footprint account
    exact ⟨_, footprint.trans (.checked middle entry.serial header)⟩
  | @evicted middle entry _ refresh _ speculative =>
    obtain ⟨events, footprint⟩ := refresh.footprint account
    have last : middle.entries = cache.entries ++ [entry] :=
      refresh.replaced.appended rfl speculative
    have key : entry.path = world.disk.absolute listed := (refresh.replaced.answered rfl).2
    refine ⟨events ++ [.checkIncludes entry.serial header,
      .dispose entry.serial (E.dispose middle.engine entry.unit).1], ?_, fun _ _ => rfl, ?_, ?_⟩
    · simp [giveBack, footprint.journal]
    · intro other member unlisted event inside call used
      simp only [List.mem_append, List.mem_cons, List.not_mem_nil, or_false] at inside
      rcases inside with inside | rfl | rfl
      · exact footprint.uncalled other member unlisted event inside call used
      · cases call
      · have same : entry.serial = other.serial := Option.some.inj used
        have fresh : entry ∈ middle.entries := (refresh.replaced.answered rfl).1
        rw [← eq_of_serial (refresh.accounts account) fresh (by simp [last, member]) same] at unlisted
        exact unlisted (by simp [key])
    · intro other member
      exact .inl (List.mem_map_of_mem member)

private theorem Passed.footprint (passed : Passed world header sources cache final)
    (account : Accounts cache cache.entries) :
    ∃ events, Footprint (sources.map world.disk.absolute) (.ok (none : Option (Entry E))) cache final
      events := by
  induction passed with
  | nil => exact ⟨[], .silent (List.append_nil _).symm rfl nofun⟩
  | cons pass _ ih =>
    obtain ⟨events, first⟩ := pass.footprint account
    obtain ⟨later, last⟩ := ih (pass.accounts account)
    exact ⟨_, first.trans last⟩

private theorem Search.footprint (search : Search world header sources cache answer final)
    (account : Accounts cache cache.entries) :
    ∃ events, Footprint (sources.map world.disk.absolute) answer cache final events := by
  cases search with
  | exhausted passed => exact passed.footprint account
  | @unavailable before listed later _ _ _ split passed _ refresh =>
    obtain ⟨past, first⟩ := passed.footprint account
    obtain ⟨events, last⟩ := refresh.footprint (passed.accounts account)
    have all : sources.map world.disk.absolute =
        (before.map world.disk.absolute ++ [world.disk.absolute listed]) ++
          later.map world.disk.absolute := by simp [split]
    refine ⟨_, (first.trans last).more fun path member => ?_⟩
    rw [all]
    exact List.mem_append_left _ member
  | @found before listed later _ entry found split passed _ refresh =>
    obtain ⟨past, first⟩ := passed.footprint account
    obtain ⟨events, last⟩ := refresh.footprint (passed.accounts account)
    have asked : Footprint [] (.ok (some entry)) found
        (found.note (.checkIncludes entry.serial header)) _ :=
      .checked found entry.serial header
    have all : sources.map world.disk.absolute =
        (before.map world.disk.absolute ++ [world.disk.absolute listed]) ++
          later.map world.disk.absolute := by simp [split]
    refine ⟨_, ((first.trans last).trans asked).more fun path member => ?_⟩
    rw [List.append_nil] at member
    rw [all]
    exact List.mem_append_left _ member

/-- Files that are asked about again and again are the same files. -/
theorem Resolve.footprint (resolve : Resolve world header cache answer final)
    (account : Accounts cache cache.entries) :
    ∃ events, Footprint ((events.flatMap Event.listed).map world.disk.absolute) answer cache final
      events := by
  have quiet : ∀ entries : List (Entry E), ∀ event ∈ checks header entries,
      event.unitCall? = none := by
    intro entries event member
    obtain ⟨entry, _, rfl⟩ := List.mem_map.mp member
    rfl
  cases resolve with
  | cached => exact ⟨_, .silent rfl rfl (quiet _)⟩
  | @unavailable reason =>
    refine ⟨checks header cache.entries ++ [.askSources (.error reason)], .silent ?_ rfl ?_⟩
    · simp
    · intro event member
      rcases List.mem_append.mp member with check | asked
      · exact quiet _ event check
      · rw [List.mem_singleton.mp asked]
        rfl
  | @searched sources _ _ _ _ search =>
    have asked : Footprint [] (.ok ()) cache (cache.afterListing header sources)
        (checks header cache.entries ++ [.askSources (.ok sources)]) := by
      refine .silent ?_ rfl ?_
      · simp [afterListing]
      · intro event member
        rcases List.mem_append.mp member with check | asked
        · exact quiet _ event check
        · rw [List.mem_singleton.mp asked]
          rfl
    have account : Accounts (cache.afterListing header sources)
        (cache.afterListing header sources).entries :=
      (account.checks (fun _ member => member) header).asked rfl rfl rfl
    obtain ⟨events, footprint⟩ := search.footprint account
    refine ⟨_, (asked.trans footprint).more ?_⟩
    intro path member
    rw [List.flatMap_append, List.flatMap_append, List.map_append, List.map_append]
    exact List.mem_append_left _ (List.mem_append_right _ (by simpa [Event.listed] using member))

private theorem Pass.keys {listed : Path} (pass : Pass world header listed cache final) :
    ∀ key ∈ final.paths, key ∈ cache.paths := by
  intro key member
  obtain ⟨entry, present, rfl⟩ := List.mem_map.mp member
  cases pass with
  | skipped => exact member
  | failed _ refresh =>
    rcases refresh.replaced.origin present with old | answered
    · exact List.mem_map_of_mem old
    · cases answered
  | kept _ refresh _ cached =>
    rcases refresh.replaced.origin present with old | answered
    · exact List.mem_map_of_mem old
    · obtain ⟨old, inside, same⟩ := cached
      have fresh : entry.path = world.disk.absolute listed := (refresh.replaced.answered answered).2
      exact List.mem_map.mpr ⟨old, inside, same.trans fresh.symm⟩
  | evicted => exact member

theorem Passed.keys (passed : Passed world header sources cache final) :
    ∀ key ∈ final.paths, key ∈ cache.paths := by
  induction passed with
  | nil => exact fun _ member => member
  | cons pass _ ih => exact fun key member => pass.keys key (ih key member)

private theorem Search.keys (search : Search world header sources cache answer final) :
    ∀ entry ∈ final.entries, entry.path ∈ cache.paths ∨ answer = .ok (some entry) := by
  intro entry member
  cases search with
  | exhausted passed => exact .inl (passed.keys _ (List.mem_map_of_mem member))
  | unavailable _ passed _ refresh =>
    rcases refresh.replaced.origin member with old | answered
    · exact .inl (passed.keys _ (List.mem_map_of_mem old))
    · cases answered
  | found _ passed _ refresh =>
    exact (refresh.replaced.origin member).imp_left fun old =>
      passed.keys _ (List.mem_map_of_mem old)

private theorem Resolve.keys (resolve : Resolve world header cache answer final) :
    ∀ entry ∈ final.entries, entry.path ∈ cache.paths ∨ answer = .ok (some entry) := by
  intro entry member
  cases resolve with
  | cached => exact .inl (List.mem_map_of_mem member)
  | unavailable => exact .inl (List.mem_map_of_mem member)
  | searched _ _ search => exact search.keys entry member

/-- A unit that was made is given back or held by an entry. -/
theorem Serve.made (serve : Serve world path cache answer final)
    (account : Accounts cache cache.entries) (journal : final.journal = cache.journal ++ events) :
    ∀ serial ∈ created events,
      serial ∈ disposed events ∨ ∃ entry ∈ final.entries, entry.serial = serial := by
  intro serial made
  have before := account.balanced
  have after := (serve.accounts account).balanced
  have fresh : serial ∉ created cache.journal := by
    intro old
    have distinct := after.nodup_created
    rw [journal, created_append] at distinct
    exact (List.nodup_append.mp distinct).2.2 serial old serial made rfl
  by_cases returned : serial ∈ disposed final.journal
  · rw [journal, disposed_append] at returned
    rcases List.mem_append.mp returned with earlier | now
    · exact absurd (before.known serial earlier) fresh
    · exact .inl now
  · have known : serial ∈ created final.journal := by
      rw [journal, created_append]
      exact List.mem_append_right _ made
    exact .inr (List.mem_map.mp (after.mem_held.mpr ⟨known, returned⟩))

/-- Whatever a search for a header comes to: no entry stays that was not there, other than that of
the unit that serves the header; every unit that was made is given back, unless it serves the header
or took the place of one that was cached; files that are not listed keep their entries; and an entry
goes only where its parse failed or the buffers were unavailable for it. -/
theorem header_search_footprint (engine : E.State) (verbosity : Verbosity)
    (steps : List (World × Operation E)) (world : World) (path : Path)
    (role : (FileRole.ofPath (world.disk.absolute path)).isSource = false) :
    let cache : Cache E := (create engine verbosity).run steps
    let answer := (cache.request world path).1
    let after := (cache.request world path).2
    ∃ events,
      Footprint ((events.flatMap Event.listed).map world.disk.absolute) answer cache.unlogged
        after.unlogged events ∧
      (∀ key ∈ after.paths, key ∈ cache.paths ∨
        ∃ served, answer = .ok (some served) ∧ served.path = key) ∧
      (∀ serial ∈ created events, serial ∈ disposed events ∨
        ∃ entry ∈ after.entries, entry.serial = serial ∧
          (answer = .ok (some (unitOf entry)) ∨ entry.path ∈ cache.paths)) := by
  intro cache answer after
  have account := run_accounts engine verbosity steps
  obtain ⟨result, serve, answered⟩ :=
    request_serve cache world path (run_distinct engine verbosity steps)
  have resolve : Resolve world (world.disk.absolute path) cache.unlogged result after.unlogged := by
    cases serve with
    | source source => cases role.symm.trans source
    | header _ resolve => exact resolve
  obtain ⟨events, footprint⟩ := resolve.footprint account
  have told : ∀ entry, result = .ok (some entry) → answer = .ok (some (unitOf entry)) := by
    intro entry same
    rw [same] at answered
    exact answered
  refine ⟨events, ?_, ?_, ?_⟩
  · have mapped := footprint.map (Option.map unitOf)
    rwa [← answered] at mapped
  · intro key member
    obtain ⟨entry, present, rfl⟩ := List.mem_map.mp member
    rcases resolve.keys entry present with old | same
    · exact .inl old
    · exact .inr ⟨unitOf entry, told entry same, rfl⟩
  · intro serial made
    rcases serve.made account footprint.journal serial made with returned | ⟨entry, member, rfl⟩
    · exact .inl returned
    · refine .inr ⟨entry, member, rfl, ?_⟩
      exact (resolve.keys entry member).symm.imp_left (told entry)

theorem cached_file_lost_in_search :
    let script : Scripted.Script := { Scripted.Script.empty with
      includes := [(⟨"/c.c"⟩, [⟨"/h.h"⟩])] }
    let first := World.steady ["-O0"] [] 7 .empty
    let second := World.steady ["-O2"] [⟨"a.c"⟩, ⟨"b.c"⟩, ⟨"c.c"⟩] 7 .empty
    let cache : Cache Scripted.engine := (create script .quiet).run
      [(first, .request ⟨"a.c"⟩), (first, .disturb { script with failingParses := [⟨"/a.c"⟩] })]
    let answer := (cache.request second ⟨"h.h"⟩).1
    let after := (cache.request second ⟨"h.h"⟩).2
    (FileRole.ofPath (second.disk.absolute ⟨"h.h"⟩)).isSource = false ∧
    cache.paths = [⟨"/a.c"⟩] ∧ after.paths = [⟨"/c.c"⟩] ∧
    ∃ events, after.unlogged.journal = cache.unlogged.journal ++ events ∧
      Lost answer ⟨"/a.c"⟩ events := by
  intro script first second cache answer after
  have role : (FileRole.ofPath (second.disk.absolute ⟨"h.h"⟩)).isSource = false := by decide +kernel
  have before : cache.paths = [⟨"/a.c"⟩] := by decide +kernel
  have left : after.paths = [⟨"/c.c"⟩] := by decide +kernel
  obtain ⟨events, footprint, _, _⟩ := header_search_footprint (E := Scripted.engine) script .quiet
    [(first, .request ⟨"a.c"⟩), (first, .disturb { script with failingParses := [⟨"/a.c"⟩] })] second
    ⟨"h.h"⟩ role
  refine ⟨role, before, left, events, footprint.journal, ?_⟩
  have cached : (⟨"/a.c"⟩ : Path) ∈ cache.paths := by rw [before]; exact List.mem_cons_self
  obtain ⟨entry, member, key⟩ := List.mem_map.mp cached
  have gone : entry.path ∉ after.paths := by rw [left, key]; decide
  exact key ▸ (footprint.lost entry member).resolve_left gone

end Cache
end UnitCache
