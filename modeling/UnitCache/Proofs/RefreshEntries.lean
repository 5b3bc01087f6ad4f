import UnitCache.Proofs.Refresh

/-! Which entries there are after one source file has been brought up to date. Only the
entry of that file can differ, and a path never gets a second entry. -/

namespace UnitCache.Cache

variable {E : Engine} {world : World} {path : Path} {cache final : Cache E}
  {result : Except CacheError (Option (Entry E))}

namespace FullParse
variable {arguments : List String} {modified : Option Timestamp}

/-- A full parse keeps the entries and puts the new one, if any, after them. -/
theorem entries (full : FullParse world path arguments modified cache result final) :
    (final.entries = cache.entries ∧ ∀ entry, result ≠ .ok (some entry)) ∨
    ∃ entry, final.entries = cache.entries ++ [entry] ∧ entry.path = path ∧
      result = .ok (some entry) := by
  cases full with
  | unavailable => exact .inl ⟨rfl, nofun⟩
  | indexClosed => exact .inl ⟨rfl, nofun⟩
  | failed => exact .inl ⟨rfl, nofun⟩
  | parsed => exact .inr ⟨_, rfl, rfl, rfl⟩

end FullParse

/-- The entries before and after: the path's own may go, change in its place or come last. -/
inductive Replaced (path : Path) (result : Except CacheError (Option (Entry E))) :
    List (Entry E) → List (Entry E) → Prop where
  | kept {entries} (unanswered : ∀ entry, result ≠ .ok (some entry))
      (present : result = .ok none → ∀ entry ∈ entries, entry.path ≠ path) :
      Replaced path result entries entries
  | inPlace {left entry fresh right} (old : entry.path = path) (new : fresh.path = path)
      (answer : result = .ok (some fresh)) :
      Replaced path result (left ++ entry :: right) (left ++ fresh :: right)
  | dropped {left entry right} (old : entry.path = path)
      (unanswered : ∀ entry, result ≠ .ok (some entry)) :
      Replaced path result (left ++ entry :: right) (left ++ right)
  | moved {left entry fresh right} (old : entry.path = path) (new : fresh.path = path)
      (answer : result = .ok (some fresh)) :
      Replaced path result (left ++ entry :: right) (left ++ right ++ [fresh])
  | added {entries fresh} (missing : ∀ entry ∈ entries, entry.path ≠ path)
      (new : fresh.path = path) (answer : result = .ok (some fresh)) :
      Replaced path result entries (entries ++ [fresh])

theorem Refresh.replaced (refresh : Refresh world path cache result final) :
    Replaced path result cache.entries final.entries := by
  cases refresh with
  | unavailable => exact .kept nofun nofun
  | noBuffers => exact .kept nofun nofun
  | absent _ missing full =>
    rcases full.entries with ⟨same, unanswered⟩ | ⟨entry, longer, key, answer⟩
    · rw [same]
      exact .kept unanswered fun _ => missing
    · rw [longer]
      exact .added missing key answer
  | reused _ held key =>
    rw [show (cache.afterQueries path _ _).entries = cache.entries from rfl, held]
    exact .inPlace key key rfl
  | reparsed _ held key =>
    rw [held]
    exact .inPlace key key rfl
  | reparseFailed _ held key _ _ _ _ _ _ full =>
    rw [held]
    rcases full.entries with ⟨same, unanswered⟩ | ⟨entry, longer, new, answer⟩
    · rw [same]
      exact .dropped key unanswered
    · rw [longer]
      exact .moved key new answer
  | rebuilt _ held key _ full =>
    rw [held]
    rcases full.entries with ⟨same, unanswered⟩ | ⟨entry, longer, new, answer⟩
    · rw [same]
      exact .dropped key unanswered
    · rw [longer]
      exact .moved key new answer

theorem distinct_without {Item α : Type} {read : Item → α} {left right : List Item} {item : Item}
    (distinct : ((left ++ item :: right).map read).Nodup) : ((left ++ right).map read).Nodup := by
  have shorter : (left ++ right).Sublist (left ++ item :: right) :=
    List.Sublist.append_left (List.sublist_cons_self item right) left
  exact (shorter.map read).nodup distinct

theorem distinct_concat {Item α : Type} {read : Item → α} {items : List Item} {fresh : Item}
    (distinct : (items.map read).Nodup) (missing : ∀ item ∈ items, read item ≠ read fresh) :
    ((items ++ [fresh]).map read).Nodup := by
  rw [List.map_append, List.nodup_append]
  refine ⟨distinct, by simp, ?_⟩
  intro key member other last same
  obtain ⟨item, inside, rfl⟩ := List.mem_map.mp member
  have fits : other = read fresh := by simpa using last
  exact missing item inside (same.trans fits)

namespace Replaced
variable {before after : List (Entry E)}

/-- What is there afterwards was there before or is what is answered. -/
theorem origin (replaced : Replaced path result before after) {entry : Entry E}
    (member : entry ∈ after) : entry ∈ before ∨ result = .ok (some entry) := by
  cases replaced with
  | kept => exact .inl member
  | inPlace old new answer =>
    simp only [List.mem_append, List.mem_cons] at member ⊢
    rcases member with member | rfl | member
    · exact .inl (.inl member)
    · exact .inr answer
    · exact .inl (.inr (.inr member))
  | dropped old =>
    simp only [List.mem_append, List.mem_cons] at member ⊢
    exact .inl (member.imp id .inr)
  | moved old new answer =>
    simp only [List.mem_append, List.mem_cons, List.mem_nil_iff, or_false] at member ⊢
    rcases member with member | rfl
    · exact .inl (member.imp id .inr)
    · exact .inr answer
  | added missing new answer =>
    rcases List.mem_append.mp member with member | last
    · exact .inl member
    · exact .inr (List.mem_singleton.mp last ▸ answer)

theorem others (replaced : Replaced path result before after) {entry : Entry E}
    (other : entry.path ≠ path) (member : entry ∈ before) : entry ∈ after := by
  cases replaced with
  | kept => exact member
  | inPlace old new =>
    simp only [List.mem_append, List.mem_cons] at member ⊢
    rcases member with member | rfl | member
    · exact .inl member
    · exact absurd old other
    · exact .inr (.inr member)
  | dropped old =>
    simp only [List.mem_append, List.mem_cons] at member ⊢
    rcases member with member | rfl | member
    · exact .inl member
    · exact absurd old other
    · exact .inr member
  | moved old new =>
    simp only [List.mem_append, List.mem_cons] at member ⊢
    rcases member with member | rfl | member
    · exact .inl (.inl member)
    · exact absurd old other
    · exact .inl (.inr member)
  | added => exact List.mem_append_left _ member

private theorem distinct (replaced : Replaced path result before after)
    (unique : (before.map Entry.path).Nodup) : (after.map Entry.path).Nodup := by
  cases replaced with
  | kept => exact unique
  | inPlace old new => simpa [old, new] using unique
  | dropped old => exact distinct_without unique
  | moved old new =>
    exact distinct_concat (distinct_without unique) (new ▸ old ▸ apart_of_distinct unique)
  | added missing new => exact distinct_concat unique (new ▸ missing)

/-- A unit that is answered is the path's entry. -/
theorem answered (replaced : Replaced path result before after) {entry : Entry E}
    (answer : result = .ok (some entry)) : entry ∈ after ∧ entry.path = path := by
  cases replaced with
  | kept unanswered => exact absurd answer (unanswered entry)
  | dropped _ unanswered => exact absurd answer (unanswered entry)
  | inPlace old new same =>
    obtain rfl : _ = entry := Option.some.inj (Except.ok.inj (same.symm.trans answer))
    exact ⟨by simp, new⟩
  | moved old new same =>
    obtain rfl : _ = entry := Option.some.inj (Except.ok.inj (same.symm.trans answer))
    exact ⟨by simp, new⟩
  | added missing new same =>
    obtain rfl : _ = entry := Option.some.inj (Except.ok.inj (same.symm.trans answer))
    exact ⟨by simp, new⟩

theorem missing (replaced : Replaced path result before after)
    (unique : (before.map Entry.path).Nodup) (answer : result = .ok none) :
    ∀ entry ∈ after, entry.path ≠ path := by
  cases replaced with
  | kept _ present => exact present answer
  | dropped old => exact old ▸ apart_of_distinct unique
  | inPlace _ _ same => cases same.symm.trans answer
  | moved _ _ same => cases same.symm.trans answer
  | added _ _ same => cases same.symm.trans answer

theorem appended (replaced : Replaced path result before after) {entry : Entry E}
    (answer : result = .ok (some entry)) (absent : ∀ other ∈ before, other.path ≠ path) :
    after = before ++ [entry] := by
  cases replaced with
  | kept unanswered => exact absurd answer (unanswered entry)
  | inPlace old => exact absurd old (absent _ (by simp))
  | dropped old => exact absurd old (absent _ (by simp))
  | moved old => exact absurd old (absent _ (by simp))
  | added _ _ same => rw [Option.some.inj (Except.ok.inj (same.symm.trans answer))]

end Replaced

theorem Refresh.distinct (refresh : Refresh world path cache result final)
    (unique : cache.paths.Nodup) : final.paths.Nodup :=
  refresh.replaced.distinct unique

/-- What an update answers is what a look-up finds afterwards. -/
theorem Refresh.entry? {entry : Entry E}
    (refresh : Refresh world path cache (.ok (some entry)) final) (unique : cache.paths.Nodup) :
    final.entry? path = some entry := by
  obtain ⟨member, key⟩ := refresh.replaced.answered rfl
  obtain ⟨left, right, split⟩ := List.append_of_mem member
  have distinct := refresh.distinct unique
  rw [paths, split] at distinct
  exact entry?_of_split split key (key ▸ apart_of_distinct distinct)

end UnitCache.Cache
