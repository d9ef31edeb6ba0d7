import Mathlib

/-! Sums of natural weights over lists, and how they change when a list is edited
in one place. Two tallies that agree for every weight count the same things. -/

namespace Tally

variable {α : Type u}

def total (weight : α → Nat) (items : List α) : Nat := (items.map weight).sum

@[simp] theorem total_nil (weight : α → Nat) : total weight [] = 0 := rfl

@[simp] theorem total_cons (weight : α → Nat) (item : α) (items : List α) :
    total weight (item :: items) = weight item + total weight items := by
  simp [total]

@[simp] theorem total_append (weight : α → Nat) (first rest : List α) :
    total weight (first ++ rest) = total weight first + total weight rest := by
  simp [total]

@[simp] theorem total_map (weight : α → Nat) (f : β → α) (items : List β) :
    total weight (items.map f) = total (fun item => weight (f item)) items := by
  simp [total, Function.comp_def]

theorem total_congr {weight other : α → Nat} {items : List α} (same : ∀ item ∈ items, weight item = other item) :
    total weight items = total other items := by
  rw [total, total, List.map_congr_left same]

theorem total_add (weight other : α → Nat) (items : List α) :
    total (fun item => weight item + other item) items = total weight items + total other items :=
  List.sum_map_add

/-- A sum of sums may be taken in either order. -/
theorem total_comm (weight : κ → β → Nat) (keys : List κ) (entries : List β) :
    total (fun entry => total (fun key => weight key entry) keys) entries =
      total (fun key => total (weight key) entries) keys := by
  induction entries with
  | nil => simp [total]
  | cons entry entries ih => simp only [total_cons, total_add, ih]

theorem weight_le_total (weight : α → Nat) {item : α} {items : List α} (member : item ∈ items) :
    weight item ≤ total weight items :=
  List.single_le_sum (fun _ _ => Nat.zero_le _) _ (List.mem_map_of_mem member)

theorem exists_weight {weight : α → Nat} {items : List α} (some' : 0 < total weight items) :
    ∃ item ∈ items, 0 < weight item := by
  induction items with
  | nil => cases some'
  | cons item items ih =>
    rw [total_cons] at some'
    by_cases here : 0 < weight item
    · exact ⟨item, List.mem_cons_self .., here⟩
    · obtain ⟨other, member, weighs⟩ := ih (by omega)
      exact ⟨other, List.mem_cons_of_mem _ member, weighs⟩

theorem total_eraseIdx (weight : α → Nat) {items : List α} {place : Nat} {item : α} (found : items[place]? = some item) :
    total weight items = weight item + total weight (items.eraseIdx place) := by
  obtain ⟨inside, rfl⟩ := List.getElem?_eq_some_iff.mp found
  have permuted := (List.getElem_cons_eraseIdx_perm inside).map weight
  rw [total, ← permuted.sum_eq, List.map_cons, List.sum_cons, total]

theorem total_set (weight : α → Nat) {items : List α} {place : Nat} {item : α} (found : items[place]? = some item)
    (other : α) : total weight (items.set place other) + weight item = total weight items + weight other := by
  have before := total_eraseIdx weight found
  have inside := (List.getElem?_eq_some_iff.mp found).1
  have after := total_eraseIdx weight (List.getElem?_set_self (a := other) inside)
  rw [List.eraseIdx_set_eq] at after
  omega

theorem total_modify (weight : α → Nat) (items : List α) (place : Nat) (f : α → α) :
    total weight (items.modify place f) + (items[place]?.map weight).getD 0 =
      total weight items + (items[place]?.map (fun item => weight (f item))).getD 0 := by
  cases found : items[place]? with
  | none =>
    rw [List.modify_eq_self (List.getElem?_eq_none_iff.mp found)]
    rfl
  | some item =>
    rw [List.modify_eq_set_getElem?, found]
    exact total_set weight found (f item)

theorem total_erase [DecidableEq α] (weight : α → Nat) {items : List α} {item : α} (member : item ∈ items) :
    total weight items = weight item + total weight (items.erase item) :=
  (List.sum_map_erase weight member).symm

/-- A weight changed at one item changes the sum by as much, if the item occurs once. -/
theorem total_update [DecidableEq α] (weight : α → Nat) {items : List α} (distinct : items.Nodup) {item : α}
    (member : item ∈ items) (value : Nat) :
    total (Function.update weight item value) items + weight item = total weight items + value := by
  rw [total_erase weight member, total_erase (Function.update weight item value) member, Function.update_self,
    total_congr (fun other inside => Function.update_of_ne (distinct.mem_erase_iff.mp inside).1 ..)]
  omega

/-- Items beyond some of them that weigh nothing do not count. -/
theorem total_support [DecidableEq α] {weight : α → Nat} {few many : List α} (fewDistinct : few.Nodup)
    (manyDistinct : many.Nodup) (inside : ∀ item ∈ few, item ∈ many)
    (nothing : ∀ item ∈ many, item ∉ few → weight item = 0) : total weight many = total weight few := by
  induction few generalizing many with
  | nil =>
    have none : total weight many = total (fun _ => 0) many :=
      total_congr (fun item member => nothing item member List.not_mem_nil)
    simpa [total] using none
  | cons head few ih =>
    have distinct := List.nodup_cons.mp fewDistinct
    rw [total_erase weight (inside head (List.mem_cons_self ..)), total_cons,
      ih distinct.2 (manyDistinct.erase head)]
    · intro item member
      have different : item ≠ head := ne_of_mem_of_not_mem member distinct.1
      exact (List.mem_erase_of_ne different).mpr (inside item (List.mem_cons_of_mem _ member))
    · intro item member absent
      have both := manyDistinct.mem_erase_iff.mp member
      exact nothing item both.2 (by simp [both.1, absent])

/-- A sum of sums over the keys of some entries, when every entry that weighs
anything has its key among them once. -/
theorem total_fibers [DecidableEq κ] {weight : κ × β → Nat} {keys : List κ} {entries : List (κ × β)}
    (distinct : keys.Nodup) (keyed : ∀ entry ∈ entries, weight entry ≠ 0 → entry.1 ∈ keys) :
    total (fun key => total (fun entry => if entry.1 = key then weight entry else 0) entries) keys =
      total weight entries := by
  induction entries with
  | nil => simp [total]
  | cons entry entries ih =>
    have rest := ih (fun other member => keyed other (List.mem_cons_of_mem _ member))
    have one : total (fun key => if entry.1 = key then weight entry else 0) keys = weight entry := by
      by_cases nothing : weight entry = 0
      · simp [total, nothing]
      · have member := keyed entry (List.mem_cons_self ..) nothing
        have none : total (fun key => if entry.1 = key then weight entry else 0) (keys.erase entry.1) =
            total (fun _ => 0) (keys.erase entry.1) :=
          total_congr (fun key inside => if_neg (distinct.mem_erase_iff.mp inside).1.symm)
        rw [total_erase _ member, none]
        simp [total]
    rw [total_cons, ← rest, ← one]
    simp only [total_cons]
    rw [total, total, total, ← List.sum_map_add]

end Tally
