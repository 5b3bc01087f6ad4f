import Mathlib.Data.List.Induction

/-! What a history says was last. Much of what a program keeps is told by the last event of some
kind: an event that is marked, with none after it that puts an end to that. Whether this holds after
one more event depends on the event, and on whether it held before. -/

namespace UnitCache.History

variable {Event : Type} {marked : List Event → Event → Prop} {ends : Event → Prop}
  {history : List Event} {last : Event}

/-- Some event is marked, by itself and what was before it, and none since then ends that. -/
def Since (marked : List Event → Event → Prop) (ends : Event → Prop) (history : List Event) :
    Prop :=
  ∃ before event after, history = before ++ event :: after ∧ marked before event ∧
    ∀ later ∈ after, ¬ends later

theorem not_since_nil : ¬Since marked ends [] := by
  rintro ⟨before, event, after, split, _⟩
  simp at split

theorem since_concat :
    Since marked ends (history ++ [last]) ↔
      marked history last ∨ (Since marked ends history ∧ ¬ends last) := by
  constructor
  · rintro ⟨before, event, after, split, mark, quiet⟩
    rcases List.eq_nil_or_concat after with rfl | ⟨between, final, rfl⟩
    · obtain ⟨rfl, rfl⟩ := List.append_singleton_inj.mp split
      exact .inl mark
    · obtain ⟨rfl, rfl⟩ : history = before ++ event :: between ∧ last = final := by
        rw [List.concat_eq_append, ← List.cons_append, ← List.append_assoc] at split
        exact List.append_singleton_inj.mp split
      refine .inr ⟨⟨before, event, between, rfl, mark, fun later member => ?_⟩, ?_⟩
      · exact quiet later (by simp [member])
      · exact quiet last (by simp)
  · rintro (mark | ⟨⟨before, event, after, rfl, mark, quiet⟩, ongoing⟩)
    · exact ⟨history, last, [], rfl, mark, by simp⟩
    · refine ⟨before, event, after ++ [last], by simp, mark, fun later member => ?_⟩
      rcases List.mem_append.mp member with old | new
      · exact quiet later old
      · exact List.mem_singleton.mp new ▸ ongoing

end UnitCache.History
