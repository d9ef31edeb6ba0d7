import Mathlib

/-! What a partial function gives for all items of a list, or nothing if it gives nothing
for one of them. -/

namespace Collect

variable {α : Type u} {β : Type v} {f : α → Option β} {items : List α} {results : List β}

theorem mapM_eq_some_iff : items.mapM f = some results ↔ items.map f = results.map some := by
  induction items generalizing results with
  | nil => cases results <;> simp
  | cons item items ih =>
    rw [List.mapM_cons]
    constructor
    · intro collected
      obtain ⟨first, found, collected⟩ := Option.bind_eq_some_iff.mp collected
      obtain ⟨later, rest, same⟩ := Option.bind_eq_some_iff.mp collected
      cases same
      rw [List.map_cons, List.map_cons, found, ih.mp rest]
    · intro each
      cases results with
      | nil => cases each
      | cons first later =>
        obtain ⟨found, rest⟩ := List.cons.inj each
        rw [found, ih.mpr rest]
        rfl

theorem mapM_of_forall (all : ∀ item ∈ items, ∃ result, f item = some result) : ∃ results, items.mapM f = some results := by
  induction items with
  | nil => exact ⟨[], rfl⟩
  | cons item items ih =>
    obtain ⟨first, found⟩ := all item (List.mem_cons_self ..)
    obtain ⟨later, rest⟩ := ih (fun other member => all other (List.mem_cons_of_mem _ member))
    refine ⟨first :: later, ?_⟩
    rw [List.mapM_cons, found, rest]
    rfl

/-- Items that can be told from what they give. -/
theorem map_of_mapM {g : β → α} (back : ∀ item result, f item = some result → item = g result)
    (collected : items.mapM f = some results) : items = results.map g := by
  rw [mapM_eq_some_iff] at collected
  induction items generalizing results with
  | nil =>
    cases results with
    | nil => rfl
    | cons first later => cases collected
  | cons item items ih =>
    cases results with
    | nil => cases collected
    | cons first later =>
      obtain ⟨found, rest⟩ := List.cons.inj collected
      rw [List.map_cons, ← back item first found, ← ih rest]

theorem mapM_map {g : β → α} (forth : ∀ result ∈ results, f (g result) = some result) :
    (results.map g).mapM f = some results := by
  rw [mapM_eq_some_iff, List.map_map]
  exact List.map_congr_left forth

theorem mapM_comp {γ : Type w} (g : β → γ) : items.mapM (fun item => (f item).map g) = (items.mapM f).map (List.map g) := by
  induction items with
  | nil => rfl
  | cons item items ih =>
    rw [List.mapM_cons, List.mapM_cons, ih]
    cases f item with
    | none => rfl
    | some first =>
      cases items.mapM f with
      | none => rfl
      | some later => rfl

end Collect
