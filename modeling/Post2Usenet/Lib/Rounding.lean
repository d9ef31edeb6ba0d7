import Mathlib

/-! Rounding a natural number to one with few binary digits, as a binary floating-point
format does: to the nearest one, and to the even one of two that are equally near. -/

namespace Rounding

/-- The nearest multiple of a unit. -/
def toMultiple (unit n : Nat) : Nat :=
  let below := n / unit
  if 2 * (n % unit) < unit ∨ 2 * (n % unit) = unit ∧ below % 2 = 0 then below * unit else (below + 1) * unit

/-- What the last of the digits of a number stands for. -/
def unit (digits n : Nat) : Nat := 2 ^ (n.log2 + 1 - digits)

def nearest (digits n : Nat) : Nat := toMultiple (unit digits n) n

variable {digits n m : Nat}

theorem toMultiple_one (n : Nat) : toMultiple 1 n = n := by simp [toMultiple, Nat.mod_one]

theorem toMultiple_ge (unit n : Nat) : n / unit * unit ≤ toMultiple unit n := by
  simp only [toMultiple]
  split
  · exact Nat.le_refl _
  · exact Nat.mul_le_mul_right _ (Nat.le_succ _)

theorem toMultiple_le (unit n : Nat) : toMultiple unit n ≤ (n / unit + 1) * unit := by
  simp only [toMultiple]
  split
  · exact Nat.mul_le_mul_right _ (Nat.le_succ _)
  · exact Nat.le_refl _

theorem toMultiple_mono (unit : Nat) (le : n ≤ m) : toMultiple unit n ≤ toMultiple unit m := by
  rcases Nat.lt_or_eq_of_le (Nat.div_le_div_right (c := unit) le) with apart | same
  · calc toMultiple unit n ≤ (n / unit + 1) * unit := toMultiple_le unit n
      _ ≤ m / unit * unit := Nat.mul_le_mul_right _ apart
      _ ≤ toMultiple unit m := toMultiple_ge unit m
  · -- Between the same two multiples the larger number has the larger rest.
    have rests : n % unit ≤ m % unit := by
      have first := Nat.div_add_mod n unit
      have second := Nat.div_add_mod m unit
      rw [same] at first
      omega
    have step : m / unit * unit ≤ (m / unit + 1) * unit := Nat.mul_le_mul_right _ (Nat.le_succ _)
    simp only [toMultiple, same]
    split <;> split <;> omega

theorem unit_pos (digits n : Nat) : 0 < unit digits n := Nat.two_pow_pos _

theorem nearest_of_lt (proper : 0 < digits) (small : n < 2 ^ digits) : nearest digits n = n := by
  have whole : unit digits n = 1 := by
    rcases Nat.eq_zero_or_pos n with rfl | positive
    · simp [unit, Nat.sub_eq_zero_of_le proper]
    · have short : n.log2 < digits := (Nat.log2_lt (Nat.ne_of_gt positive)).mpr small
      rw [unit, Nat.sub_eq_zero_of_le short, Nat.pow_zero]
  rw [nearest, whole, toMultiple_one]

/-- No number is rounded past the next power of two. -/
theorem nearest_le (digits n : Nat) : nearest digits n ≤ 2 ^ (n.log2 + 1) := by
  obtain ⟨factor, whole⟩ : unit digits n ∣ 2 ^ (n.log2 + 1) := Nat.pow_dvd_pow 2 (Nat.sub_le ..)
  have below : n / unit digits n < factor := by
    rw [Nat.div_lt_iff_lt_mul (unit_pos ..), Nat.mul_comm, ← whole]
    exact Nat.lt_log2_self
  calc nearest digits n ≤ (n / unit digits n + 1) * unit digits n := toMultiple_le ..
    _ ≤ factor * unit digits n := Nat.mul_le_mul_right _ below
    _ = 2 ^ (n.log2 + 1) := by rw [whole, Nat.mul_comm]

theorem nearest_ge (proper : 0 < digits) (nonzero : n ≠ 0) : 2 ^ n.log2 ≤ nearest digits n := by
  obtain ⟨factor, whole⟩ : unit digits n ∣ 2 ^ n.log2 := Nat.pow_dvd_pow 2 (by omega)
  have above : factor ≤ n / unit digits n := by
    rw [Nat.le_div_iff_mul_le (unit_pos ..), Nat.mul_comm, ← whole]
    exact Nat.log2_self_le nonzero
  calc 2 ^ n.log2 = factor * unit digits n := by rw [whole, Nat.mul_comm]
    _ ≤ n / unit digits n * unit digits n := Nat.mul_le_mul_right _ above
    _ ≤ nearest digits n := toMultiple_ge ..

theorem nearest_mono (proper : 0 < digits) (le : n ≤ m) : nearest digits n ≤ nearest digits m := by
  rcases Nat.eq_zero_or_pos n with rfl | positive
  · rw [nearest_of_lt proper (Nat.two_pow_pos _)]
    exact Nat.zero_le _
  · have nonzero : m ≠ 0 := by omega
    have binade : n.log2 ≤ m.log2 := (Nat.le_log2 nonzero).mpr ((Nat.log2_self_le (by omega)).trans le)
    rcases Nat.lt_or_eq_of_le binade with apart | same
    · calc nearest digits n ≤ 2 ^ (n.log2 + 1) := nearest_le digits n
        _ ≤ 2 ^ m.log2 := Nat.pow_le_pow_right (by decide) apart
        _ ≤ nearest digits m := nearest_ge proper nonzero
    · simp only [nearest, unit, same]
      exact toMultiple_mono _ le

end Rounding
