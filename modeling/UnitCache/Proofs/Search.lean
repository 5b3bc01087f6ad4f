import UnitCache.Proofs.CanonicalPath
import UnitCache.Proofs.RefreshEntries

/-! Everything that a request can do, told once: a source file is brought up to date, a
header is looked for in the cached units and then in the listed source files. -/

namespace UnitCache.Cache
open Proofs

variable {E : Engine}

def includes (cache : Cache E) (entry : Entry E) (header : Path) : Bool :=
  E.includes cache.engine entry.unit header

def checks (header : Path) (entries : List (Entry E)) : List Event :=
  entries.map fun entry => .checkIncludes entry.serial header

theorem filterMap_checks {α : Type} (read : Event → Option α)
    (silent : ∀ serial header, read (.checkIncludes serial header) = none) (header : Path)
    (entries : List (Entry E)) : (checks header entries).filterMap read = [] := by
  refine List.filterMap_eq_nil_iff.mpr fun event member => ?_
  obtain ⟨entry, _, rfl⟩ := List.mem_map.mp member
  exact silent ..

/-- How one listed file is passed over. -/
inductive Pass (world : World) (header listed : Path) (cache : Cache E) : Cache E → Prop where
  | skipped (role : (FileRole.ofPath (world.disk.absolute listed)).isSource = false) :
      Pass world header listed cache cache
  | failed {middle} (role : (FileRole.ofPath (world.disk.absolute listed)).isSource = true)
      (refresh : Refresh world (world.disk.absolute listed) cache (.ok none) middle) :
      Pass world header listed cache middle
  | kept {middle entry} (role : (FileRole.ofPath (world.disk.absolute listed)).isSource = true)
      (refresh : Refresh world (world.disk.absolute listed) cache (.ok (some entry)) middle)
      (excluded : middle.includes entry header = false)
      (cached : ∃ old ∈ cache.entries, old.path = world.disk.absolute listed) :
      Pass world header listed cache (middle.note (.checkIncludes entry.serial header))
  | evicted {middle entry} (role : (FileRole.ofPath (world.disk.absolute listed)).isSource = true)
      (refresh : Refresh world (world.disk.absolute listed) cache (.ok (some entry)) middle)
      (excluded : middle.includes entry header = false)
      (speculative : ∀ old ∈ cache.entries, old.path ≠ world.disk.absolute listed) :
      Pass world header listed cache
        (giveBack { middle.note (.checkIncludes entry.serial header) with
          entries := cache.entries } entry)

/-- Listed files that are passed over one after the other. -/
inductive Passed (world : World) (header : Path) : List Path → Cache E → Cache E → Prop where
  | nil {cache} : Passed world header [] cache cache
  | cons {listed rest cache middle final} (pass : Pass world header listed cache middle)
      (later : Passed world header rest middle final) :
      Passed world header (listed :: rest) cache final

/-- The search through listed files ends where none is left, where a collaborator is unavailable, or
at the first file whose unit includes the header. -/
inductive Search (world : World) (header : Path) (sources : List Path) (cache : Cache E) :
    Except CacheError (Option (Entry E)) → Cache E → Prop where
  | exhausted {final} (passed : Passed world header sources cache final) :
      Search world header sources cache (.ok none) final
  | unavailable {before listed later middle error final}
      (split : sources = before ++ listed :: later)
      (passed : Passed world header before cache middle)
      (role : (FileRole.ofPath (world.disk.absolute listed)).isSource = true)
      (refresh : Refresh world (world.disk.absolute listed) middle (.error error) final) :
      Search world header sources cache (.error error) final
  | found {before listed later middle entry found}
      (split : sources = before ++ listed :: later)
      (passed : Passed world header before cache middle)
      (role : (FileRole.ofPath (world.disk.absolute listed)).isSource = true)
      (refresh : Refresh world (world.disk.absolute listed) middle (.ok (some entry)) found)
      (included : found.includes entry header = true) :
      Search world header sources cache (.ok (some entry))
        (found.note (.checkIncludes entry.serial header))

/-- After all cached units and then the database have been asked about a header. -/
def afterListing (cache : Cache E) (header : Path) (sources : List Path) : Cache E :=
  { cache with
    journal := cache.journal ++ checks header cache.entries ++ [.askSources (.ok sources)] }

/-- The way to the unit that serves a header. -/
inductive Resolve (world : World) (header : Path) (cache : Cache E) :
    Except CacheError (Option (Entry E)) → Cache E → Prop where
  | cached {left entry right} (held : cache.entries = left ++ entry :: right)
      (excluded : ∀ other ∈ left, cache.includes other header = false)
      (included : cache.includes entry header = true) :
      Resolve world header cache (.ok (some entry))
        { cache with journal := cache.journal ++ checks header (left ++ [entry]) }
  | unavailable {reason} (excluded : ∀ entry ∈ cache.entries, cache.includes entry header = false)
      (listing : Answered { cache with journal := cache.journal ++ checks header cache.entries }
        world.listedSources (.error reason)) :
      Resolve world header cache (.error (.unavailable .database reason))
        { cache with
          journal := cache.journal ++ checks header cache.entries ++ [.askSources (.error reason)] }
  | searched {sources answer final}
      (excluded : ∀ entry ∈ cache.entries, cache.includes entry header = false)
      (listing : Answered { cache with journal := cache.journal ++ checks header cache.entries }
        world.listedSources (.ok sources))
      (search : Search world header sources (cache.afterListing header sources) answer final) :
      Resolve world header cache answer final

/-- A request for a path that has been made absolute. -/
inductive Serve (world : World) (path : Path) (cache : Cache E) :
    Except CacheError (Option (Entry E)) → Cache E → Prop where
  | source {answer final} (role : (FileRole.ofPath path).isSource = true)
      (refresh : Refresh world path cache answer final) : Serve world path cache answer final
  | header {answer final} (role : (FileRole.ofPath path).isSource = false)
      (resolve : Resolve world path cache answer final) : Serve world path cache answer final

private theorem unlogged_remove_last {cache : Cache E} {world : World} {source : Path}
    {others : List (Entry E)} {entry : Entry E} (canonical : world.disk.absolute source = source)
    (last : cache.entries = others ++ [entry]) (key : entry.path = source)
    (absent : ∀ other ∈ others, other.path ≠ source) :
    (cache.remove world source).2.unlogged =
      giveBack { cache.unlogged with entries := others } entry := by
  rw [remove, canonical, removeAt_of_split last key (by simpa using absent), unlogged_dispose,
    List.append_nil]
  rfl

private theorem Search.after {world : World} {header listed : Path} {rest : List Path}
    {cache middle final : Cache E} {answer : Except CacheError (Option (Entry E))}
    (search : Search world header rest middle answer final)
    (pass : Pass world header listed cache middle) :
    Search world header (listed :: rest) cache answer final := by
  cases search with
  | exhausted passed => exact .exhausted (.cons pass passed)
  | unavailable split passed role refresh =>
    rw [split, ← List.cons_append]
    exact .unavailable rfl (.cons pass passed) role refresh
  | found split passed role refresh included =>
    rw [split, ← List.cons_append]
    exact .found rfl (.cons pass passed) role refresh included

private theorem searchSources_search (world : World) (header : Path) (sources : List Path)
    (cache : Cache E) (distinct : cache.paths.Nodup) :
    ∃ answer, Search world header sources cache.unlogged answer
        (cache.searchSources world header sources).2.unlogged ∧
      (cache.searchSources world header sources).1 = answer.map (Option.map unitOf) := by
  induction sources generalizing cache with
  | nil =>
    refine ⟨.ok none, ?_, rfl⟩
    rw [searchSources, unlogged_log]
    exact .exhausted .nil
  | cons listed rest ih =>
    cases role : (FileRole.ofPath (world.disk.absolute listed)).isSource with
    | false =>
      obtain ⟨answer, later, answered⟩ := ih (cache.log .debug
        "skipping non-source entry in source listing" [("path", (world.disk.absolute listed).text)])
        distinct
      rw [unlogged_log] at later
      simp only [searchSources, role]
      exact ⟨answer, later.after (.skipped role), answered⟩
    | true =>
      obtain ⟨result, refresh, told⟩ := updateReported_refresh
        (CanonicalPath.absolute_absolute world.disk listed) distinct
      generalize source : world.disk.absolute listed = path at *
      generalize middle : (cache.updateReported world path).2 = updated at *
      have unique : updated.paths.Nodup := refresh.distinct distinct
      cases result with
      | error error =>
        have pair : cache.updateReported world path = (.error error, updated) := Prod.ext told middle
        simp only [searchSources, source, role, pair]
        refine ⟨.error error, ?_, rfl⟩
        exact @Search.unavailable E world header (listed :: rest) cache.unlogged [] listed rest _ error
          updated.unlogged rfl .nil (source ▸ role) (source ▸ refresh)
      | ok found =>
        cases found with
        | none =>
          have pair : cache.updateReported world path = (.ok false, updated) := Prod.ext told middle
          obtain ⟨answer, later, answered⟩ := ih updated unique
          simp only [searchSources, source, role, pair]
          exact ⟨answer, later.after (.failed (source ▸ role) (source ▸ refresh)), answered⟩
        | some entry =>
          have pair : cache.updateReported world path = (.ok true, updated) := Prod.ext told middle
          have held : updated.entry? path = some entry := refresh.entry? distinct
          have checked : (updated.note (.checkIncludes entry.serial header)).unlogged =
              updated.unlogged.note (.checkIncludes entry.serial header) := unlogged_note _ rfl
          simp only [searchSources, source, role, pair, held]
          cases included : E.includes updated.engine entry.unit header with
          | true =>
            have search := @Search.found E world header (listed :: rest) cache.unlogged [] listed rest
              _ entry updated.unlogged rfl .nil (source ▸ role) (source ▸ refresh) included
            rw [← checked] at search
            refine ⟨.ok (some entry), ?_, rfl⟩
            simpa using search
          | false =>
            -- What counts is whether the file was cached before this refresh.
            cases cached : cache.entry? path with
            | some old =>
              obtain ⟨answer, later, answered⟩ :=
                ih (updated.note (.checkIncludes entry.serial header)) unique
              rw [checked] at later
              obtain ⟨left, right, split, key, _⟩ := split_of_entry? distinct cached
              have present : ∃ old ∈ cache.entries, old.path = path := ⟨old, by simp [split], key⟩
              have pass := @Pass.kept E world header listed cache.unlogged updated.unlogged entry
                (source ▸ role) (source ▸ refresh) included (source ▸ present)
              exact ⟨answer, later.after pass, answered⟩
            | none =>
              have speculative : ∀ old ∈ cache.entries, old.path ≠ path := entry?_eq_none cached
              let spoilt := (updated.note (.checkIncludes entry.serial header)).log .debug
                "evicting speculative parse" [("path", path.text)]
              have last : spoilt.entries = cache.entries ++ [entry] :=
                refresh.replaced.appended rfl speculative
              have removed := unlogged_remove_last
                (source ▸ CanonicalPath.absolute_absolute world.disk listed) last
                (refresh.replaced.answered rfl).2 speculative
              rw [unlogged_log, checked] at removed
              obtain ⟨answer, later, answered⟩ := ih (spoilt.remove world path).2 (by
                change (spoilt.remove world path).2.unlogged.paths.Nodup
                rw [removed]
                exact distinct)
              rw [removed] at later
              have pass := @Pass.evicted E world header listed cache.unlogged updated.unlogged entry
                (source ▸ role) (source ▸ refresh) included (source ▸ speculative)
              exact ⟨answer, later.after pass, answered⟩

private theorem noteAll_checks_cons (cache : Cache E) (header : Path) (first : Entry E)
    (rest : List (Entry E)) :
    (cache.note (.checkIncludes first.serial header)).noteAll (checks header rest) =
      cache.noteAll (checks header (first :: rest)) := by
  simp [noteAll, note, checks]

private theorem unlogged_noteAll_checks (cache : Cache E) (header : Path)
    (entries : List (Entry E)) :
    (cache.noteAll (checks header entries)).unlogged =
      { cache.unlogged with journal := cache.unlogged.journal ++ checks header entries } := by
  have told : Journal.trace (checks header entries) = checks header entries := by
    refine List.filter_eq_self.mpr fun event member => ?_
    obtain ⟨entry, _, rfl⟩ := List.mem_map.mp member
    rfl
  simp [unlogged, noteAll, told]

private theorem includer?_first (cache : Cache E) (header : Path) {left right : List (Entry E)}
    {entry : Entry E} (excluded : ∀ other ∈ left, cache.includes other header = false)
    (included : cache.includes entry header = true) :
    cache.includer? header (left ++ entry :: right) =
      (some entry, cache.noteAll (checks header (left ++ [entry]))) := by
  induction left generalizing cache with
  | nil =>
    unfold includes at included
    simp [includer?, included, checks, noteAll, note]
  | cons first rest ih =>
    have answer : E.includes cache.engine first.unit header = false :=
      excluded first List.mem_cons_self
    have later := ih (cache.note (.checkIncludes first.serial header))
      (fun other member => excluded other (List.mem_cons_of_mem _ member)) included
    simp only [List.cons_append, includer?, answer, later, noteAll_checks_cons]
    rfl

private theorem includer?_none (cache : Cache E) (header : Path) {entries : List (Entry E)}
    (excluded : ∀ entry ∈ entries, cache.includes entry header = false) :
    cache.includer? header entries = (none, cache.noteAll (checks header entries)) := by
  induction entries generalizing cache with
  | nil => simp [includer?, checks, noteAll]
  | cons first rest ih =>
    have answer : E.includes cache.engine first.unit header = false :=
      excluded first List.mem_cons_self
    have later := ih (cache.note (.checkIncludes first.serial header))
      fun other member => excluded other (List.mem_cons_of_mem _ member)
    simp only [includer?, answer, later, noteAll_checks_cons]
    rfl

theorem requestHeader_cached {cache : Cache E} (world : World) {header : Path}
    {left right : List (Entry E)} {entry : Entry E} (held : cache.entries = left ++ entry :: right)
    (excluded : ∀ other ∈ left, cache.includes other header = false)
    (included : cache.includes entry header = true) :
    cache.requestHeader world header =
      (.ok (some (unitOf entry)), cache.noteAll (checks header (left ++ [entry]))) := by
  simp only [requestHeader, held, includer?_first cache header excluded included]

private theorem requestHeader_resolve (world : World) (header : Path) (cache : Cache E)
    (distinct : cache.paths.Nodup) :
    ∃ answer, Resolve world header cache.unlogged answer
        (cache.requestHeader world header).2.unlogged ∧
      (cache.requestHeader world header).1 = answer.map (Option.map unitOf) := by
  cases first : cache.entries.find? fun entry => cache.includes entry header with
  | some entry =>
    obtain ⟨included, left, right, split, before⟩ := List.find?_eq_some_iff_append.mp first
    have excluded : ∀ other ∈ left, cache.includes other header = false := by simpa using before
    rw [requestHeader_cached world split excluded included]
    refine ⟨.ok (some entry), ?_, rfl⟩
    rw [unlogged_noteAll_checks]
    exact .cached split excluded included
  | none =>
    have excluded : ∀ entry ∈ cache.entries, cache.includes entry header = false := by
      simpa using first
    have run := includer?_none cache header excluded
    let asked := cache.noteAll (checks header cache.entries)
    have seen : asked.unlogged = { cache.unlogged with
        journal := cache.unlogged.journal ++ checks header cache.entries } :=
      unlogged_noteAll_checks ..
    have listing : asked.unlogged.Answered world.listedSources (world.listedSources asked.journal) :=
      ⟨asked.journal, rfl, rfl⟩
    rw [seen] at listing
    cases answer : world.listedSources asked.journal with
    | error reason =>
      rw [answer] at listing
      have told : requestHeader cache world header = (.error (.unavailable .database reason),
          asked.note (.askSources (.error reason))) := by
        simp only [requestHeader, run]
        rw [show world.listedSources (cache.noteAll _).journal = _ from answer]
      rw [told, unlogged_note _ rfl, seen]
      exact ⟨_, .unavailable excluded listing, rfl⟩
    | ok sources =>
      rw [answer] at listing
      have told : requestHeader cache world header =
          (asked.note (.askSources (.ok sources))).searchSources world header sources := by
        simp only [requestHeader, run]
        rw [show world.listedSources (cache.noteAll _).journal = _ from answer]
      obtain ⟨result, search, answered⟩ := searchSources_search world header sources
        (asked.note (.askSources (.ok sources))) distinct
      rw [unlogged_note _ rfl, seen] at search
      rw [told]
      exact ⟨result, .searched excluded listing search, answered⟩

theorem request_serve (cache : Cache E) (world : World) (path : Path)
    (distinct : cache.paths.Nodup) :
    ∃ answer, Serve world (world.disk.absolute path) cache.unlogged answer
        (cache.request world path).2.unlogged ∧
      (cache.request world path).1 = answer.map (Option.map unitOf) := by
  cases role : (FileRole.ofPath (world.disk.absolute path)).isSource with
  | false =>
    obtain ⟨answer, resolve, answered⟩ :=
      requestHeader_resolve world (world.disk.absolute path) cache distinct
    simp only [request, role]
    exact ⟨answer, .header role resolve, answered⟩
  | true =>
    obtain ⟨result, refresh, told⟩ := updateReported_refresh
      (CanonicalPath.absolute_absolute world.disk path) distinct
    generalize middle : (cache.updateReported world (world.disk.absolute path)).2 = updated at *
    simp only [request, role, requestSource]
    cases result with
    | error error =>
      have pair : cache.updateReported world (world.disk.absolute path) = (.error error, updated) :=
        Prod.ext told middle
      simp only [pair]
      exact ⟨.error error, .source role refresh, rfl⟩
    | ok found =>
      cases found with
      | none =>
        have pair : cache.updateReported world (world.disk.absolute path) = (.ok false, updated) :=
          Prod.ext told middle
        simp only [pair]
        exact ⟨.ok none, .source role refresh, rfl⟩
      | some entry =>
        have pair : cache.updateReported world (world.disk.absolute path) = (.ok true, updated) :=
          Prod.ext told middle
        have held : updated.entry? (world.disk.absolute path) = some entry := refresh.entry? distinct
        simp only [pair, held]
        exact ⟨.ok (some entry), .source role refresh, rfl⟩

/-- The unit that serves a request belongs to an entry that is there afterwards. -/
theorem Serve.answered {world : World} {path : Path} {cache final : Cache E} {entry : Entry E}
    (serve : Serve world path cache (.ok (some entry)) final) : entry ∈ final.entries := by
  cases serve with
  | source _ refresh => exact (refresh.replaced.answered rfl).1
  | header _ resolve =>
    cases resolve with
    | cached held => simp [held]
    | searched _ _ search =>
      cases search with
      | found _ _ _ refresh => exact (refresh.replaced.answered rfl).1

theorem answer_of_served {answer : Except CacheError (Option (Entry E))} {served : ServedUnit E}
    (same : answer.map (Option.map unitOf) = .ok (some served)) :
    ∃ entry, answer = .ok (some entry) ∧ unitOf entry = served := by
  cases answer with
  | error error => cases same
  | ok found =>
    cases found with
    | none => cases same
    | some entry => exact ⟨entry, rfl, Option.some.inj (Except.ok.inj same)⟩

end UnitCache.Cache
