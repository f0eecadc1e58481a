import WindowFlow.Json.Basic
import WindowFlow.Proofs.Json.Rounding
/-!
The values of numbers. Two numbers have one canonical form exactly when they are equal, the signs of
zeros aside, or when they share a value in the range where binary64 skips no whole number.
-/
namespace WindowFlow

namespace Binary64

variable {x y : Binary64}

/-- The number that `x` stands for. -/
def value (x : Binary64) : ℚ := x.signed x.units / unitsPerOne

theorem unitsPerOne_pos : 0 < unitsPerOne := by
  rw [unitsPerOne_eq]
  positivity

@[simp] theorem natAbs_signed (x : Binary64) (magnitude : ℕ) :
    (x.signed magnitude).natAbs = magnitude := by
  rw [signed]
  split <;> simp

theorem signed_mul (x : Binary64) (m n : ℕ) : x.signed (m * n) = x.signed m * n := by
  rw [signed, signed]
  split <;> push_cast <;> ring

theorem value_eq_intCast_iff {n : ℤ} : x.value = n ↔ x.signed x.units = n * unitsPerOne := by
  have hone : (unitsPerOne : ℚ) ≠ 0 := Nat.cast_ne_zero.2 unitsPerOne_pos.ne'
  rw [value, div_eq_iff hone]
  norm_cast

theorem value_eq_value_iff : x.value = y.value ↔ x.signed x.units = y.signed y.units := by
  have hone : (unitsPerOne : ℚ) ≠ 0 := Nat.cast_ne_zero.2 unitsPerOne_pos.ne'
  rw [value, value, div_left_inj' hone, Int.cast_inj]

theorem negative_eq_of_signed_eq {m : ℕ} (hm : 0 < m) (h : x.signed m = y.signed m) :
    x.negative = y.negative := by
  rw [signed, signed] at h
  cases hx : x.negative <;> cases hy : y.negative <;> simp only [hx, hy] at h ⊢ <;>
    simp at h <;> omega

/-- Binary64 has one number for each value, zero apart. -/
theorem eq_of_value_eq (h : x.value = y.value) (hzero : x.rank ≠ 0) : x = y := by
  have hsigned := value_eq_value_iff.1 h
  have hunits : x.units = y.units := by
    rw [← x.natAbs_signed x.units, hsigned, natAbs_signed]
  have hrank : x.rank = y.rank := by
    rw [← nearestRank_units x, hunits, nearestRank_units]
  have hpos : 0 < y.units := hunits ▸ Nat.pos_of_ne_zero (units_ne_zero hzero)
  have hnegative := negative_eq_of_signed_eq hpos (hunits ▸ hsigned)
  rw [← Option.some_inj, ← ofRank?_rank x, ← ofRank?_rank y, hnegative, hrank]

theorem value_of_rank_eq_zero (h : x.rank = 0) : x.value = 0 := by
  have hunits : x.units = 0 := by rw [units_of_lt (by rw [h]; decide), h]
  simp [value, hunits, signed]

theorem value_of_isSafeInteger (h : x.IsSafeInteger) :
    x.value = x.signed (x.units / unitsPerOne) := by
  rw [value_eq_intCast_iff, ← signed_mul, Nat.div_mul_cancel h.1]

theorem isSafeInteger_iff : x.IsSafeInteger ↔ ∃ n : ℤ, x.value = n ∧ |n| ≤ 2 ^ 53 - 1 := by
  have hbound : ∀ n : ℤ, |n| ≤ 2 ^ 53 - 1 ↔ n.natAbs < 1 <<< 53 := by
    intro n
    rw [Nat.one_shiftLeft, Int.abs_eq_natAbs]
    omega
  constructor
  · intro h
    refine ⟨_, value_of_isSafeInteger h, ?_⟩
    rw [hbound, natAbs_signed]
    exact h.2
  · rintro ⟨n, hvalue, hn⟩
    have hunits : x.units = n.natAbs * unitsPerOne := by
      rw [← x.natAbs_signed x.units, value_eq_intCast_iff.1 hvalue, Int.natAbs_mul, Int.natAbs_natCast]
    refine ⟨hunits ▸ Nat.dvd_mul_left _ _, ?_⟩
    rw [hunits, Nat.mul_div_cancel _ unitsPerOne_pos]
    exact (hbound n).1 hn

theorem isSafeInteger_of_rank_eq_zero (h : x.rank = 0) : x.IsSafeInteger := by
  refine isSafeInteger_iff.2 ⟨0, ?_, by norm_num⟩
  rw [value_of_rank_eq_zero h, Int.cast_zero]

end Binary64

namespace Num

variable {p q : Num}

def value : Num → ℚ
  | .whole n _ => n
  | .float x => x.value

/-- Equal numbers, or numbers of one value that both kinds represent without ambiguity. -/
def Interchangeable (p q : Num) : Prop :=
  p.unsignZero = q.unsignZero ∨ p.value = q.value ∧ |p.value| ≤ 2 ^ 53 - 1

theorem value_canonical (p : Num) : p.canonical.value = p.value := by
  cases p with
  | whole n h => rfl
  | float x =>
    rw [canonical]
    split
    · rename_i h
      exact (Binary64.value_of_isSafeInteger h).symm
    · rfl

theorem Interchangeable.symm (h : p.Interchangeable q) : q.Interchangeable p := by
  obtain h | ⟨hvalue, hbound⟩ := h
  · exact .inl h.symm
  · exact .inr ⟨hvalue.symm, hvalue ▸ hbound⟩

theorem canonical_float_eq_whole_iff {x : Binary64} {n : ℤ} {fits} :
    (float x).canonical = .whole n fits ↔ x.value = n ∧ |n| ≤ 2 ^ 53 - 1 := by
  by_cases hsafe : x.IsSafeInteger
  · obtain ⟨k, hk, hbound⟩ := Binary64.isSafeInteger_iff.1 hsafe
    have hsigned : x.signed (x.units / Binary64.unitsPerOne) = k := by
      exact_mod_cast (Binary64.value_of_isSafeInteger hsafe).symm.trans hk
    rw [canonical, dif_pos hsafe, whole.injEq, hsigned, hk, Int.cast_inj]
    exact ⟨fun h => ⟨h, h ▸ hbound⟩, And.left⟩
  · rw [canonical, dif_neg hsafe]
    simp only [reduceCtorEq, false_iff]
    exact fun h => hsafe (Binary64.isSafeInteger_iff.2 ⟨n, h⟩)

theorem unsignZero_float_eq_iff {x y : Binary64} :
    (float x).unsignZero = (float y).unsignZero ↔ x = y ∨ x.rank = 0 ∧ y.rank = 0 := by
  have hzero : ∀ z : Binary64, z.rank ≠ 0 → z ≠ .zero := fun z hz h => hz (h ▸ rfl)
  by_cases hx : x.rank = 0 <;> by_cases hy : y.rank = 0
  · simp [unsignZero, Binary64.isZero, hx, hy]
  · have hne : x ≠ y := fun h => hy (h ▸ hx)
    simp [unsignZero, Binary64.isZero, hx, hy, hne, (hzero y hy).symm]
  · have hne : x ≠ y := fun h => hx (h ▸ hy)
    simp [unsignZero, Binary64.isZero, hx, hy, hne, hzero x hx]
  · simp [unsignZero, Binary64.isZero, hx, hy]

/-- The canonical form of a float is a whole number, or it is the float and that is no safe
integer. -/
theorem canonical_float_cases (x : Binary64) :
    (∃ n fits, (float x).canonical = .whole n fits) ∨
      ¬ x.IsSafeInteger ∧ (float x).canonical = .float x := by
  by_cases hsafe : x.IsSafeInteger
  · exact .inl ⟨_, _, dif_pos hsafe⟩
  · exact .inr ⟨hsafe, dif_neg hsafe⟩

/-- Zeros that differ in sign are different floats, but one whole number. -/
theorem canonical_float_of_rank_eq_zero {x : Binary64} (h : x.rank = 0) :
    (float x).canonical = .whole 0 (by decide) := by
  rw [canonical_float_eq_whole_iff, Binary64.value_of_rank_eq_zero h]
  norm_num

theorem canonical_float_eq_float_iff {x y : Binary64} :
    (float x).canonical = (float y).canonical ↔ (float x).Interchangeable (float y) := by
  rw [Interchangeable, unsignZero_float_eq_iff]
  constructor
  · intro h
    rcases canonical_float_cases x with ⟨n, fits, hx⟩ | ⟨-, hx⟩
    · obtain ⟨hvalue, hbound⟩ := canonical_float_eq_whole_iff.1 hx
      obtain ⟨hvalue', -⟩ := canonical_float_eq_whole_iff.1 (h ▸ hx)
      refine .inr ⟨hvalue.trans hvalue'.symm, ?_⟩
      rw [value, hvalue]
      exact_mod_cast hbound
    · rcases canonical_float_cases y with ⟨n, fits, hy⟩ | ⟨-, hy⟩
      · simp [hx, hy] at h
      · rw [hx, hy, float.injEq] at h
        exact .inl (.inl h)
  · rintro ((rfl | ⟨hx, hy⟩) | ⟨hvalue, -⟩)
    · rfl
    · rw [canonical_float_of_rank_eq_zero hx, canonical_float_of_rank_eq_zero hy]
    · rcases canonical_float_cases x with ⟨n, fits, hx⟩ | ⟨hother, -⟩
      · obtain ⟨hn, hnbound⟩ := canonical_float_eq_whole_iff.1 hx
        rw [hx, canonical_float_eq_whole_iff.2 ⟨hvalue.symm.trans hn, hnbound⟩]
      · have hrank : x.rank ≠ 0 := mt Binary64.isSafeInteger_of_rank_eq_zero hother
        rw [Binary64.eq_of_value_eq hvalue hrank]

theorem canonical_whole_eq_float_iff {n : ℤ} {fits} {x : Binary64} :
    (whole n fits).canonical = (float x).canonical ↔ (whole n fits).Interchangeable (float x) := by
  have hkinds : (whole n fits).unsignZero ≠ (float x).unsignZero := by
    rw [unsignZero, unsignZero]
    split <;> simp
  rw [canonical, eq_comm, canonical_float_eq_whole_iff, Interchangeable, or_iff_right hkinds]
  simp only [value, eq_comm]
  norm_cast

theorem canonical_eq_canonical_iff : p.canonical = q.canonical ↔ p.Interchangeable q := by
  cases p with
  | whole m hm =>
    cases q with
    | whole n hn =>
      rw [Interchangeable, canonical, canonical, unsignZero, unsignZero, value, value, Int.cast_inj]
      exact ⟨.inl, fun h => h.elim id fun h => by simp [h.1]⟩
    | float y => exact canonical_whole_eq_float_iff
  | float x =>
    cases q with
    | whole n hn =>
      rw [eq_comm, canonical_whole_eq_float_iff]
      exact ⟨.symm, .symm⟩
    | float y => exact canonical_float_eq_float_iff

/-- The first whole float past the safe integers stays a float. -/
example : (float ⟨false, 0x4340000000000000, by decide⟩).canonical =
    .float ⟨false, 0x4340000000000000, by decide⟩ := by decide +kernel

end Num

end WindowFlow
