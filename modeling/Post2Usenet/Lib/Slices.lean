import Mathlib

/-! Cutting a list into pieces of one size, the last of which may be shorter. -/

namespace Slices

variable {α : Type u}

def slice (items : List α) (size index : Nat) : List α := (items.drop (index * size)).take size

/-- How many pieces a list of this length has. -/
def count (length size : Nat) : Nat := length / size + if length % size ≠ 0 then 1 else 0

variable {length size index : Nat}

theorem start_lt (positive : 0 < size) (inside : index < count length size) : index * size < length := by
  have whole := Nat.div_add_mod length size
  have remainder := Nat.mod_lt length positive
  unfold count at inside
  have bound : index ≤ length / size := by split at inside <;> omega
  have below : index * size ≤ length / size * size := Nat.mul_le_mul_right size bound
  rw [Nat.mul_comm] at whole
  split at inside
  · omega
  · have strict : index * size < length / size * size := Nat.mul_lt_mul_of_pos_right (by omega) positive
    omega

theorem length_le_count (positive : 0 < size) (length : Nat) : length ≤ count length size * size := by
  have whole := Nat.div_add_mod length size
  have remainder := Nat.mod_lt length positive
  unfold count
  rw [Nat.mul_comm] at whole
  split
  · rw [Nat.add_mul]
    omega
  · rw [Nat.add_zero]
    omega

theorem count_eq_ceil (positive : 0 < size) (length : Nat) : count length size = ⌈(length : ℚ) / size⌉₊ := by
  have positive' : (0 : ℚ) < size := by exact_mod_cast positive
  apply Nat.le_antisymm
  · by_contra above
    have start := start_lt positive (Nat.lt_of_not_le above)
    have bound := Nat.le_ceil ((length : ℚ) / size)
    rw [div_le_iff₀ positive'] at bound
    have bound : length ≤ ⌈(length : ℚ) / size⌉₊ * size := by exact_mod_cast bound
    omega
  · rw [Nat.ceil_le, div_le_iff₀ positive']
    exact_mod_cast length_le_count positive length

theorem slice_length (items : List α) (size index : Nat) :
    (slice items size index).length = min size (items.length - index * size) := by
  simp [slice]

/-- Only the last piece can be shorter than the others. -/
theorem slice_full {items : List α} (positive : 0 < size) (inside : index + 1 < count items.length size) :
    (slice items size index).length = size := by
  have next := start_lt positive inside
  rw [Nat.add_mul] at next
  rw [slice_length]
  omega

/-- The last piece is shorter than the others when the pieces do not fit exactly. -/
theorem slice_short {items : List α} (positive : 0 < size) (inside : index < count items.length size) :
    (slice items size index).length < size ↔ items.length % size ≠ 0 ∧ index = count items.length size - 1 := by
  have length := slice_length items size index
  have whole := Nat.div_add_mod items.length size
  by_cases last : index + 1 < count items.length size
  · have full := slice_full positive last
    have different : index ≠ count items.length size - 1 := by omega
    simp [full, different]
  · have same : index = count items.length size - 1 := by omega
    by_cases even : items.length % size = 0
    · have quotient : index + 1 = items.length / size := by
        simp only [count, even, ne_eq, not_true, ite_false] at last inside
        omega
      have tiled : (index + 1) * size = items.length := by
        rw [quotient, Nat.mul_comm]
        omega
      rw [Nat.add_mul] at tiled
      simp only [even, ne_eq, not_true, false_and, iff_false]
      omega
    · have quotient : index = items.length / size := by
        simp only [count, even, ne_eq, not_false_eq_true, ite_true] at last inside
        omega
      have remainder := Nat.mod_lt items.length positive
      rw [← quotient, Nat.mul_comm] at whole
      simp only [even, ne_eq, not_false_eq_true, true_and, ← same, iff_true]
      omega

theorem slices_take (items : List α) (size pieces : Nat) :
    (List.range pieces).flatMap (slice items size) = items.take (pieces * size) := by
  induction pieces with
  | zero => simp
  | succ pieces ih =>
    rw [List.range_succ, List.flatMap_append, ih, List.flatMap_singleton, slice, Nat.add_mul, Nat.one_mul,
      List.take_add]

/-- The pieces, one after the other, are the list. -/
theorem slices_all (items : List α) (positive : 0 < size) :
    (List.range (count items.length size)).flatMap (slice items size) = items := by
  rw [slices_take, List.take_of_length_le (length_le_count positive items.length)]

end Slices
