import UnitCache.Proofs.BufferSpellings
import UnitCache.Proofs.History

/-! What a store of buffers knows is what its history says. Both the contents and the order of the
store are told by a change since which nothing else of a kind has happened: the last change that
concerns a path gives its text, and the update that opened it, with no closing since, its place.
These two readings of the history know nothing of the store, and each change carries them along. -/

namespace UnitCache

namespace BufferChange
open History

/-- The path loses its buffer if it has one. -/
def Closes : BufferChange → Path → Prop
  | .update _ _, _ => False
  | .remove spelled, path => spelled.Same path
  | .clear, _ => True

def Concerns : BufferChange → Path → Prop
  | .update spelled _, path => spelled.Same path
  | change, path => change.Closes path

/-- The last change that concerns the path is an update, and this is its text. -/
def LastWrites (history : List BufferChange) (path : Path) (text : String) : Prop :=
  Since (fun _ change => ∃ spelled, change = .update spelled text ∧ spelled.Same path)
    (·.Concerns path) history

/-- The update at this place of the history found the path absent, and nothing has closed the path
since. The path is spelled as in that update. -/
def OpenedAt (history : List BufferChange) (place : Nat) (path : Path) : Prop :=
  Since (fun before change => before.length = place ∧ (∃ text, change = .update path text) ∧
      ∀ text, ¬LastWrites before path text)
    (·.Closes path) history

variable {history : List BufferChange} {change : BufferChange} {place : Nat} {path : Path}

private theorem lastWrites_concat {text : String} :
    LastWrites (history ++ [change]) path text ↔
      (∃ spelled, change = .update spelled text ∧ spelled.Same path) ∨
        (LastWrites history path text ∧ ¬change.Concerns path) :=
  since_concat

private theorem openedAt_concat :
    OpenedAt (history ++ [change]) place path ↔
      (history.length = place ∧ (∃ text, change = .update path text) ∧
          ∀ text, ¬LastWrites history path text) ∨
        (OpenedAt history place path ∧ ¬change.Closes path) :=
  since_concat

private theorem LastWrites.stays {text : String} (written : LastWrites history path text)
    (still : ¬change.Closes path) : ∃ text, LastWrites (history ++ [change]) path text := by
  by_cases concerns : change.Concerns path
  · cases change with
    | update spelled latest =>
      exact ⟨latest, lastWrites_concat.mpr (.inl ⟨spelled, rfl, concerns⟩)⟩
    | remove => exact absurd concerns still
    | clear => exact absurd concerns still
  · exact ⟨text, lastWrites_concat.mpr (.inr ⟨written, concerns⟩)⟩

theorem OpenedAt.written (opening : OpenedAt history place path) :
    ∃ text, LastWrites history path text := by
  induction history using List.reverseRecOn with
  | nil => exact absurd opening not_since_nil
  | append_singleton history change ih =>
    rcases openedAt_concat.mp opening with ⟨_, ⟨text, rfl⟩, _⟩ | ⟨earlier, still⟩
    · exact ⟨text, lastWrites_concat.mpr (.inl ⟨path, rfl, rfl⟩)⟩
    · obtain ⟨text, written⟩ := ih earlier
      exact written.stays still

private theorem OpenedAt.lt_length (opening : OpenedAt history place path) :
    place < history.length := by
  obtain ⟨before, change, after, rfl, ⟨rfl, _⟩, _⟩ := opening
  simp

theorem OpenedAt.of_concat {text : String} (written : LastWrites history path text)
    (opening : OpenedAt (history ++ [change]) place path) : OpenedAt history place path := by
  rcases openedAt_concat.mp opening with ⟨_, _, absent⟩ | ⟨earlier, _⟩
  · exact absurd written (absent text)
  · exact earlier

theorem OpenedAt.eq_length (absent : ∀ text, ¬LastWrites history path text)
    (opening : OpenedAt (history ++ [change]) place path) : history.length = place := by
  rcases openedAt_concat.mp opening with ⟨latest, _⟩ | ⟨earlier, _⟩
  · exact latest
  · obtain ⟨_, written⟩ := earlier.written
    exact absurd written (absent _)

end BufferChange

open BufferChange History

namespace Buffers

private theorem get?_remove (opened : Buffers) (path other : Path) :
    (opened.remove path).get? other = if path.Same other then none else opened.get? other := by
  unfold remove get?
  split
  · rename_i same
    rw [Option.map_eq_none_iff]
    refine List.find?_eq_none.mpr fun buffer member => ?_
    have apart : ¬buffer.path.Same path := by simpa using (List.mem_filter.mp member).2
    simpa using fun here => apart (here.trans same.symm)
  · rename_i apart
    rw [← Buffer.find?_filter_apart opened.toList apart]
    congr 2
    exact List.filter_congr fun buffer _ => by simp

private theorem ofHistory_concat (history : List BufferChange) (last : BufferChange) :
    ofHistory (history ++ [last]) = (ofHistory history).change last := by
  simp [ofHistory]

theorem get?_change_eq_some_iff {opened : Buffers} {change : BufferChange} {path : Path}
    {text : String} :
    (opened.change change).get? path = some text ↔
      (∃ spelled, change = .update spelled text ∧ spelled.Same path) ∨
        (opened.get? path = some text ∧ ¬change.Concerns path) := by
  cases change with
  | update spelled latest =>
    rw [Buffers.change, get?_update]
    by_cases same : spelled.Same path <;> simp [same, Concerns]
  | remove spelled =>
    rw [Buffers.change, get?_remove]
    by_cases same : spelled.Same path <;> simp [same, Concerns, Closes]
  | clear => simp [Buffers.change, empty, get?, Buffer.find?, Concerns, Closes]

theorem get?_ofHistory_eq_some_iff {history : List BufferChange} {path : Path} {text : String} :
    (ofHistory history).get? path = some text ↔ LastWrites history path text := by
  induction history using List.reverseRecOn with
  | nil =>
    have unwritten : ¬LastWrites [] path text := not_since_nil
    simp [ofHistory, empty, get?, Buffer.find?, unwritten]
  | append_singleton history last ih =>
    rw [ofHistory_concat, get?_change_eq_some_iff, ih]
    exact lastWrites_concat.symm

private theorem contains_iff {opened : Buffers} {path : Path} :
    opened.contains path = true ↔ ∃ text, opened.get? path = some text := by
  rw [contains, ← Option.isSome_map (f := Buffer.text), Option.isSome_iff_exists]
  rfl

private theorem contains_ofHistory_iff {history : List BufferChange} {path : Path} :
    (ofHistory history).contains path = true ↔ ∃ text, LastWrites history path text := by
  rw [contains_iff]
  exact exists_congr fun _ => get?_ofHistory_eq_some_iff

theorem Distinct.get?_eq_some_iff {opened : Buffers} (distinct : opened.Distinct) {path : Path}
    {text : String} :
    opened.get? path = some text ↔
      ∃ buffer ∈ opened.toList, buffer.path.Same path ∧ buffer.text = text := by
  have alone : ∀ buffer, Buffer.find? opened.toList path = some buffer ↔
      buffer ∈ opened.toList ∧ buffer.path.Same path := by
    intro buffer
    rw [← Option.mem_toList, ← Buffer.filter_same distinct, List.mem_filter, decide_eq_true_iff]
  simp only [get?, Option.map_eq_some_iff, alone, and_assoc]

private theorem map_path_update {opened : Buffers} {path : Path}
    (present : opened.contains path = true) (text : String) :
    (opened.update path text).toList.map Buffer.path = opened.toList.map Buffer.path := by
  rw [update, if_pos present, List.map_map]
  refine List.map_congr_left fun buffer _ => ?_
  rw [Function.comp_apply]
  split <;> rfl

/-- The paths stand in the order in which they were opened. -/
structure InOrder (history : List BufferChange) (paths : List Path) : Prop where
  placed : ∀ path ∈ paths, ∃ place, OpenedAt history place path
  ordered : paths.Pairwise fun path later => ∀ first second,
    OpenedAt history first path → OpenedAt history second later → first < second

section Order
variable {history : List BufferChange} {change : BufferChange} {paths kept : List Path}

private theorem InOrder.written (inOrder : InOrder history paths) :
    ∀ path ∈ paths, ∃ text, LastWrites history path text := by
  intro path member
  obtain ⟨place, opening⟩ := inOrder.placed path member
  exact opening.written

theorem InOrder.concat (inOrder : InOrder history paths) (sublist : kept.Sublist paths)
    (stays : ∀ path ∈ kept, ¬change.Closes path) : InOrder (history ++ [change]) kept := by
  constructor
  · intro path member
    obtain ⟨place, opening⟩ := inOrder.placed path (sublist.subset member)
    exact ⟨place, openedAt_concat.mpr (.inr ⟨opening, stays path member⟩)⟩
  · refine (inOrder.ordered.sublist sublist).imp_of_mem fun member later before => ?_
    intro first second opening next
    obtain ⟨_, one⟩ := inOrder.written _ (sublist.subset member)
    obtain ⟨_, two⟩ := inOrder.written _ (sublist.subset later)
    exact before first second (opening.of_concat one) (next.of_concat two)

theorem InOrder.opened (inOrder : InOrder history paths) {path : Path}
    (absent : ∀ text, ¬LastWrites history path text) (text : String) :
    InOrder (history ++ [.update path text]) (paths ++ [path]) := by
  have kept : InOrder (history ++ [.update path text]) paths :=
    inOrder.concat (List.Sublist.refl _) fun _ _ => id
  have latest : OpenedAt (history ++ [.update path text]) history.length path :=
    openedAt_concat.mpr (.inl ⟨rfl, ⟨text, rfl⟩, absent⟩)
  constructor
  · exact List.forall_mem_append.mpr
      ⟨kept.placed, List.forall_mem_singleton.mpr ⟨history.length, latest⟩⟩
  · refine List.pairwise_append.mpr ⟨kept.ordered, List.pairwise_singleton .., ?_⟩
    intro other member last new first second opening next
    obtain rfl : last = path := List.mem_singleton.mp new
    obtain ⟨_, written⟩ := inOrder.written other member
    rw [← next.eq_length absent]
    exact (opening.of_concat written).lt_length

private theorem inOrder_ofHistory (history : List BufferChange) :
    InOrder history ((ofHistory history).toList.map Buffer.path) := by
  induction history using List.reverseRecOn with
  | nil => exact ⟨by simp [ofHistory, empty], List.Pairwise.nil⟩
  | append_singleton history change ih =>
    rw [ofHistory_concat]
    cases change with
    | update path text =>
      rw [Buffers.change]
      by_cases present : (ofHistory history).contains path = true
      · rw [map_path_update present]
        exact ih.concat (List.Sublist.refl _) fun _ _ => id
      · rw [update, if_neg present, List.map_append]
        exact ih.opened (fun text written => present (contains_ofHistory_iff.mpr ⟨text, written⟩)) _
    | remove path =>
      refine ih.concat (List.Sublist.map _ List.filter_sublist) fun other member closes => ?_
      obtain ⟨buffer, inside, rfl⟩ := List.mem_map.mp member
      have apart : ¬buffer.path.Same path := by simpa using (List.mem_filter.mp inside).2
      exact apart closes.symm
    | clear => exact ⟨by simp [Buffers.change, empty], List.Pairwise.nil⟩

end Order

/-- A store of buffers is an ordered map that its history describes. It lists one buffer for each
path that was last updated, with the text of that update, in the order in which the paths were
opened; a look-up finds what is listed. An update of a path that is open leaves the listed paths as
they are. Closing a path tells whether it was open, and takes it from the list. -/
theorem store_follows_history (history : List BufferChange) :
    let opened := ofHistory history
    let paths := opened.toList.map Buffer.path
    opened.Distinct ∧ InOrder history paths ∧ opened.size = opened.toList.length ∧
    (∀ path text, (∃ buffer ∈ opened.toList, buffer.path.Same path ∧ buffer.text = text) ↔
      LastWrites history path text) ∧
    (∀ path text, opened.get? path = some text ↔ LastWrites history path text) ∧
    (∀ path, opened.get? path = (Buffer.find? opened.toList path).map Buffer.text) ∧
    (∀ path text latest, LastWrites history path text →
      (ofHistory (history ++ [.update path latest])).toList.map Buffer.path = paths) ∧
    ∀ path, ((opened.close path).1 = true ↔ ∃ text, LastWrites history path text) ∧
      (opened.close path).2 = ofHistory (history ++ [.remove path]) ∧
      (opened.close path).2.toList.Sublist opened.toList := by
  intro opened paths
  have distinct : opened.Distinct := distinct_ofHistory history
  refine ⟨distinct, inOrder_ofHistory history, rfl, ?_, ?_, fun _ => rfl, ?_, ?_⟩
  · intro path text
    rw [← distinct.get?_eq_some_iff, get?_ofHistory_eq_some_iff]
  · exact fun path text => get?_ofHistory_eq_some_iff
  · intro path text latest written
    rw [ofHistory_concat]
    exact map_path_update (contains_ofHistory_iff.mpr ⟨text, written⟩) latest
  · intro path
    refine ⟨contains_ofHistory_iff, ?_, List.filter_sublist⟩
    rw [ofHistory_concat]
    rfl

example :
    (ofHistory [.update ⟨"/a"⟩ "1", .update ⟨"/b"⟩ "2", .remove ⟨"//a"⟩, .update ⟨"/b/."⟩ "3",
      .update ⟨"/./a"⟩ "4"]).toList = [⟨⟨"/b"⟩, "3"⟩, ⟨⟨"/./a"⟩, "4"⟩] := by
  decide +kernel

end Buffers

end UnitCache
