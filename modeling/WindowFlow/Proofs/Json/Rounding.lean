import Mathlib.Algebra.Order.Field.Power
import Mathlib.Data.Rat.Cast.Order
import Mathlib.Tactic.FieldSimp
import Mathlib.Tactic.Linarith
import Mathlib.Tactic.NormNum
import Mathlib.Tactic.Ring
import WindowFlow.Json.Binary64
/-!
Which binary64 number a numeral names. Rounding depends on the value of the numeral alone, and it
leaves every binary64 magnitude where it is; so the numeral that is written for a number names it.
-/
namespace WindowFlow

namespace Binary64

theorem binade_eq : binade = 2 ^ 52 := Nat.one_shiftLeft 52

theorem unitsPerOne_eq : unitsPerOne = 2 ^ 1074 := by
  have hshift : ∀ n, 1 <<< n = 2 ^ n := Nat.one_shiftLeft
  exact hshift 1074

theorem units_eq (x : Binary64) : x.units = x.significand * 2 ^ x.scale := Nat.shiftLeft_eq _ _

theorem roundDiv_mul_right (n d : Nat) {c : Nat} (hc : 0 < c) :
    roundDiv (n * c) (d * c) = roundDiv n d := by
  have hbelow : 2 * (n % d * c) < d * c ↔ 2 * (n % d) < d := by
    rw [← Nat.mul_assoc, Nat.mul_lt_mul_right hc]
  have habove : d * c < 2 * (n % d * c) ↔ d < 2 * (n % d) := by
    rw [← Nat.mul_assoc, Nat.mul_lt_mul_right hc]
  simp only [roundDiv, Nat.mul_div_mul_right n d hc, Nat.mul_mod_mul_right, hbelow, habove]

theorem roundDiv_mul_self (n : Nat) {d : Nat} (hd : 0 < d) : roundDiv (n * d) d = n := by
  simp [roundDiv, Nat.mul_div_cancel n hd, hd]

theorem nearestRank_mul_right (n d : Nat) {c : Nat} (hc : 0 < c) :
    nearestRank (n * c) (d * c) = nearestRank n d := by
  have hshift : ∀ k, (d * c) <<< k = (d <<< k) * c := by
    intro k
    rw [Nat.shiftLeft_eq, Nat.shiftLeft_eq, Nat.mul_right_comm]
  simp only [nearestRank, Nat.mul_div_mul_right n d hc, hshift, roundDiv_mul_right n _ hc]

/-- The nearest place depends on the quotient, not on how it is written. -/
theorem nearestRank_congr {n d n' d' : Nat} (hd : 0 < d) (hd' : 0 < d') (h : n * d' = n' * d) :
    nearestRank n d = nearestRank n' d' :=
  calc nearestRank n d
    _ = nearestRank (n * d') (d * d') := (nearestRank_mul_right n d hd').symm
    _ = nearestRank (n' * d) (d' * d) := by rw [h, Nat.mul_comm d d']
    _ = nearestRank n' d' := nearestRank_mul_right n' d' hd

/-- In the two lowest binades a magnitude is its own place. -/
theorem units_of_lt {x : Binary64} (h : x.rank < 2 * binade) : x.units = x.rank := by
  have hscale : x.scale = 0 := by
    have : x.rank / binade < 2 := Nat.div_lt_of_lt_mul (by omega)
    rw [scale]
    omega
  rw [units_eq, hscale, Nat.pow_zero, Nat.mul_one, significand]
  split
  · rfl
  · rename_i hnormal
    have : x.rank % binade = x.rank - binade := by
      rw [Nat.mod_eq_sub_mod (Nat.le_of_not_lt hnormal), Nat.mod_eq_of_lt (by omega)]
    omega

theorem significand_of_le {x : Binary64} (h : binade ≤ x.rank) :
    x.significand = binade + x.rank % binade := if_neg (Nat.not_lt.2 h)

theorem significand_lt (x : Binary64) : x.significand < 2 * binade := by
  have hpos : 0 < binade := by decide
  rw [significand]
  split
  · omega
  · have := Nat.mod_lt x.rank hpos
    omega

/-- From the third binade on, a place is its binade's start and a remainder. -/
theorem rank_eq_of_le {x : Binary64} (h : 2 * binade ≤ x.rank) :
    x.rank = x.scale * binade + x.significand := by
  have hpos : 0 < binade := by decide
  have hquot : 2 ≤ x.rank / binade := (Nat.le_div_iff_mul_le hpos).2 h
  have hdiv := Nat.div_add_mod x.rank binade
  have hmul : x.scale * binade + binade = binade * (x.rank / binade) := by
    rw [scale, ← Nat.succ_mul, Nat.mul_comm]
    congr 1
    omega
  rw [significand_of_le (by omega)]
  omega

theorem log2_units {x : Binary64} (h : 2 * binade ≤ x.rank) : x.units.log2 = x.scale + 52 := by
  have hlow : binade ≤ x.significand := by
    rw [significand_of_le (by omega)]
    omega
  have hhigh := x.significand_lt
  rw [binade_eq] at hlow hhigh
  have hne : x.units ≠ 0 := by
    rw [units_eq]
    positivity
  rw [Nat.log2_eq_iff hne, units_eq]
  constructor
  · rw [pow_add, mul_comm]
    exact Nat.mul_le_mul_right _ hlow
  · have : 2 ^ (x.scale + 52 + 1) = 2 * 2 ^ 52 * 2 ^ x.scale := by ring
    rw [this]
    exact Nat.mul_lt_mul_of_pos_right hhigh (by positivity)

/-- A magnitude is nearest to itself. -/
theorem nearestRank_units (x : Binary64) : nearestRank x.units 1 = x.rank := by
  rcases Nat.lt_or_ge x.rank (2 * binade) with h | h
  · have hlog : x.units.log2 - 52 = 0 := by
      rw [units_of_lt h, binade_eq] at *
      have : x.rank.log2 < 53 := by
        rcases Nat.eq_zero_or_pos x.rank with hzero | hpos
        · simp [hzero]
        · exact (Nat.log2_lt (by omega)).2 (by omega)
      omega
    have hround := roundDiv_mul_self x.rank one_pos
    rw [Nat.mul_one] at hround
    rw [nearestRank, Nat.div_one, hlog, units_of_lt h, Nat.zero_mul, Nat.zero_add,
      Nat.shiftLeft_zero, hround]
  · rw [nearestRank, Nat.div_one, log2_units h, Nat.add_sub_cancel, Nat.shiftLeft_eq, Nat.one_mul,
      units_eq, roundDiv_mul_self _ (by positivity), ← rank_eq_of_le h]

end Binary64

namespace Decimal

/-- The magnitude that a numeral stands for. -/
def value (d : Decimal) : ℚ := d.mantissa * 10 ^ d.exponent

theorem value_pos {d : Decimal} (h : d.mantissa ≠ 0) : 0 < d.value := by
  have : 0 < (d.mantissa : ℚ) := by exact_mod_cast Nat.pos_of_ne_zero h
  unfold value
  positivity

theorem mantissa_eq_zero_iff (d : Decimal) : d.mantissa = 0 ↔ d.value = 0 := by
  refine ⟨fun h => by simp [value, h], fun h => ?_⟩
  by_contra hne
  exact (value_pos hne).ne' h

/-- The place of the point bounds the magnitude by a power of ten. -/
theorem point_le_iff {d : Decimal} (h : d.mantissa ≠ 0) (k : ℤ) :
    d.point ≤ k ↔ d.value < 10 ^ k := by
  have hmantissa : (1 : ℚ) ≤ d.mantissa := by exact_mod_cast Nat.pos_of_ne_zero h
  have hsplit : (10 : ℚ) ^ k = 10 ^ (k - d.exponent) * 10 ^ d.exponent := by
    rw [← zpow_add₀ (by norm_num), sub_add_cancel]
  rw [value, hsplit, mul_lt_mul_iff_left₀ (by positivity), point, digits]
  rcases le_or_gt (k - d.exponent) 0 with hk | hk
  · have hlength : 0 < (Nat.toDigits 10 d.mantissa).length := Nat.length_toDigits_pos
    have hpow : (10 : ℚ) ^ (k - d.exponent) ≤ 1 := zpow_le_one_of_nonpos₀ (by norm_num) hk
    constructor
    · intro
      omega
    · intro
      linarith
  · obtain ⟨j, hj⟩ := Int.eq_ofNat_of_zero_le hk.le
    rw [hj, zpow_natCast]
    have hiff := Nat.length_toDigits_le_iff (n := d.mantissa) (k := j) (b := 10) (by norm_num)
      (by omega)
    have hcast : (d.mantissa : ℚ) < 10 ^ j ↔ d.mantissa < 10 ^ j := by norm_cast
    rw [hcast, ← hiff]
    omega

theorem quotient_eq (d : Decimal) :
    (d.quotient.1 : ℚ) = d.value * Binary64.unitsPerOne * d.quotient.2 := by
  have hpow : (10 : ℚ) ^ d.exponent * 10 ^ (-d.exponent).toNat = 10 ^ d.exponent.toNat := by
    rw [← zpow_natCast, ← zpow_natCast, ← zpow_add₀ (by norm_num)]
    congr 1
    omega
  simp only [quotient, value, Nat.pow_eq, Nat.cast_mul, Nat.cast_pow, Nat.cast_ofNat, ← hpow]
  ring

theorem quotient_pos (d : Decimal) : 0 < d.quotient.2 := Nat.pow_pos (by norm_num)

/-- Numerals of one value name one number. -/
theorem nearestRank_congr {d d' : Decimal} (h : d.value = d'.value) :
    d.nearestRank = d'.nearestRank := by
  have hzero : d.mantissa = 0 ↔ d'.mantissa = 0 := by
    rw [mantissa_eq_zero_iff, mantissa_eq_zero_iff, h]
  by_cases hd : d.mantissa = 0
  · rw [nearestRank, nearestRank, if_pos (.inl hd), if_pos (.inl (hzero.1 hd))]
  · have hd' : d'.mantissa ≠ 0 := mt hzero.2 hd
    have hpoint : ∀ k, d.point ≤ k ↔ d'.point ≤ k := by
      intro k
      rw [point_le_iff hd, point_le_iff hd', h]
    have hcross : d.quotient.1 * d'.quotient.2 = d'.quotient.1 * d.quotient.2 := by
      have hcast : (d.quotient.1 * d'.quotient.2 : ℚ) = d'.quotient.1 * d.quotient.2 := by
        rw [quotient_eq, quotient_eq, h]
        ring
      exact_mod_cast hcast
    have hnear := Binary64.nearestRank_congr d.quotient_pos d'.quotient_pos hcross
    simp only [nearestRank, hd, hd', false_or, ← not_le, hpoint, hnear]

end Decimal

namespace Binary64

theorem units_lt (x : Binary64) : x.units < 2 ^ 2098 := by
  have hscale : x.scale ≤ 2045 := by
    have hfinite := x.finite
    have hquot : x.rank / binade < 2047 := Nat.div_lt_of_lt_mul (by rwa [ranks, Nat.mul_comm] at *)
    rw [scale]
    omega
  have hsignificand := x.significand_lt
  rw [binade_eq] at hsignificand
  calc x.units
    _ = x.significand * 2 ^ x.scale := units_eq x
    _ < 2 * 2 ^ 52 * 2 ^ x.scale := Nat.mul_lt_mul_of_pos_right hsignificand (by positivity)
    _ = 2 ^ (53 + x.scale) := by ring
    _ ≤ 2 ^ 2098 := pow_le_pow_right₀ (by norm_num) (by omega)

theorem units_ne_zero {x : Binary64} (h : x.rank ≠ 0) : x.units ≠ 0 := by
  rcases Nat.lt_or_ge x.rank (2 * binade) with hlow | hhigh
  · rwa [units_of_lt hlow]
  · have hpos : 0 < binade := by decide
    rw [units_eq, significand_of_le (by omega)]
    positivity

theorem value_exactDecimal (x : Binary64) : x.exactDecimal.value = x.units / unitsPerOne := by
  have hten : ∀ n : ℕ, (10 : ℚ) ^ n = 2 ^ n * 5 ^ n := fun n => by rw [← mul_pow]; norm_num
  have hexact : ∀ (n : ℕ) (e : ℤ), e = -n →
      (⟨x.units * Nat.pow 5 n, e⟩ : Decimal).value = x.units / 2 ^ n := by
    rintro n e rfl
    rw [Decimal.value, zpow_neg, zpow_natCast, hten, Nat.pow_eq]
    push_cast
    field_simp
  rw [unitsPerOne_eq, Nat.cast_pow, Nat.cast_ofNat]
  apply hexact
  rfl

/-- The digits of the exact expansion name the number they expand. -/
theorem readsAs_exactDecimal (x : Binary64) : x.exactDecimal.ReadsAs x := by
  have hone : (0 : ℚ) < unitsPerOne := by
    rw [unitsPerOne_eq]
    positivity
  rw [Decimal.ReadsAs, Decimal.nearestRank]
  by_cases hzero : x.rank = 0
  · have hunits : x.units = 0 := by
      rw [units_of_lt (by rw [hzero]; decide), hzero]
    have hmantissa : x.exactDecimal.mantissa = 0 := by
      rw [Decimal.mantissa_eq_zero_iff, value_exactDecimal, hunits, Nat.cast_zero, zero_div]
    rw [if_pos (.inl hmantissa), hzero]
  · have hunits := units_ne_zero hzero
    have hmantissa : x.exactDecimal.mantissa ≠ 0 := by
      rw [Ne, Decimal.mantissa_eq_zero_iff, value_exactDecimal]
      exact div_ne_zero (Nat.cast_ne_zero.2 hunits) hone.ne'
    have hlow : ¬ x.exactDecimal.point ≤ -324 := by
      rw [Decimal.point_le_iff hmantissa, value_exactDecimal, not_lt, le_div_iff₀ hone, zpow_neg,
        inv_mul_le_iff₀ (by positivity)]
      have hleast : unitsPerOne ≤ 10 ^ 324 * x.units :=
        calc unitsPerOne
          _ ≤ 10 ^ 324 := by decide +kernel
          _ ≤ 10 ^ 324 * x.units := Nat.le_mul_of_pos_right _ (Nat.pos_of_ne_zero hunits)
      exact_mod_cast hleast
    have hhigh : x.exactDecimal.point ≤ 309 := by
      rw [Decimal.point_le_iff hmantissa, value_exactDecimal, div_lt_iff₀ hone]
      have hgreatest : x.units < 10 ^ 309 * unitsPerOne :=
        calc x.units
          _ < 2 ^ 2098 := x.units_lt
          _ ≤ 10 ^ 309 * unitsPerOne := by decide +kernel
      exact_mod_cast hgreatest
    rw [if_neg (not_or.2 ⟨hmantissa, hlow⟩), if_neg (not_lt.2 hhigh)]
    have hquotient : x.exactDecimal.quotient.1 * 1 = x.units * x.exactDecimal.quotient.2 := by
      have hcast := Decimal.quotient_eq x.exactDecimal
      rw [value_exactDecimal, div_mul_cancel₀ _ hone.ne'] at hcast
      rw [Nat.mul_one]
      exact_mod_cast hcast
    rw [nearestRank_congr (Decimal.quotient_pos _) one_pos hquotient, nearestRank_units]

/-- The numeral that is written for a number names it. -/
theorem readsAs_toDecimal (x : Binary64) : x.toDecimal.ReadsAs x := by
  rw [toDecimal]
  cases hfound : ((List.range 19).map fun n : Nat => x.coarsest - n).findSome?
      fun exponent => (x.neighbours exponent).find? fun d => d.ReadsAs x with
  | none => exact x.readsAs_exactDecimal
  | some d =>
    obtain ⟨exponent, -, hd⟩ := List.exists_of_findSome?_eq_some hfound
    simpa using List.find?_some hd

end Binary64

end WindowFlow
