import Mathlib.Data.Nat.Cast.Order.Field
import WindowFlow.Proofs.Window.Identity
/-!
The numbers that nodes hold as parameters. A float becomes the word of 64 bits that it is cut off
to, but only where that word is its very value; binary64 has all whole numbers of up to 53 bits, so
converting to a word and back tells. Every other number stays as it is.
-/
namespace WindowFlow

namespace Binary64

variable {x : Binary64}

/-- The whole part as a word. Where the words end, the last of them stands for all that follow. -/
def toWord (x : Binary64) : Int64 := .ofIntClamp (x.signed (x.units / unitsPerOne))

/-- The number nearest to a word. -/
def ofWord? (n : Int64) : Option Binary64 :=
  ofRank? (n.toInt < 0) (nearestRank (n.toInt.natAbs * unitsPerOne) 1)

/-- The binade and the significand of a place make up its magnitude. -/
theorem units_of_rank_eq {e s : ℕ} (hrank : x.rank = e * binade + s) (hlow : binade ≤ s)
    (hhigh : s < 2 * binade) : x.units = s * 2 ^ e := by
  have hplace : x.rank = (s - binade) + binade * (e + 1) := by
    rw [hrank, Nat.mul_succ, Nat.mul_comm binade e]
    omega
  have hdiv : x.rank / binade = e + 1 := by
    rw [hplace, Nat.add_mul_div_left _ _ (by decide), Nat.div_eq_of_lt (by omega), Nat.zero_add]
  have hmod : x.rank % binade = s - binade := by
    rw [hplace, Nat.add_mul_mod_self_left, Nat.mod_eq_of_lt (by omega)]
  rw [units_eq, scale, hdiv, Nat.add_sub_cancel, significand_of_le (by omega), hmod,
    Nat.add_sub_cancel' hlow]

/-- Whole numbers of up to 53 bits are magnitudes, under either sign. Shifted up to 53 bits the
number is its significand, and the shift tells the binade. -/
theorem exists_units_eq (negative : Bool) {m : ℕ} (hm : m < 2 ^ 53) :
    ∃ x : Binary64, x.negative = negative ∧ x.units = m * unitsPerOne := by
  rcases Nat.eq_zero_or_pos m with rfl | hpos
  · refine ⟨⟨negative, 0, by decide⟩, rfl, ?_⟩
    rw [Nat.zero_mul]
    exact units_of_lt (Nat.mul_pos two_pos (by decide))
  · obtain ⟨hlow, hhigh⟩ := (Nat.log2_eq_iff hpos.ne').1 (rfl : m.log2 = m.log2)
    have hbits : m.log2 ≤ 52 := Nat.le_of_lt_succ ((Nat.log2_lt hpos.ne').2 hm)
    obtain ⟨shift, hshift⟩ := Nat.exists_eq_add_of_le hbits
    have hpow : 2 ^ m.log2 * 2 ^ shift = binade := by rw [binade_eq, ← pow_add, ← hshift]
    have hslow : binade ≤ m * 2 ^ shift := hpow ▸ Nat.mul_le_mul_right _ hlow
    have hshigh : m * 2 ^ shift < 2 * binade := by
      rw [← hpow, ← Nat.mul_assoc, ← Nat.pow_succ']
      exact Nat.mul_lt_mul_of_pos_right hhigh (by positivity)
    have hfinite : (1022 + m.log2) * binade + m * 2 ^ shift < ranks := by
      have hbinades : (1022 + m.log2) * binade ≤ 1074 * binade :=
        Nat.mul_le_mul_right _ (by omega)
      rw [ranks]
      omega
    refine ⟨⟨negative, _, hfinite⟩, rfl, ?_⟩
    rw [units_of_rank_eq rfl hslow hshigh, unitsPerOne_eq, Nat.mul_assoc, ← pow_add]
    congr 2
    omega

/-- Words of up to 53 bits convert to their own values. -/
theorem value_ofWord? {n : Int64} (hn : |n.toInt| ≤ 2 ^ 53 - 1) :
    (ofWord? n).map value = some (n.toInt : ℚ) := by
  have hm : n.toInt.natAbs < 2 ^ 53 := by
    rw [Int.abs_eq_natAbs] at hn
    omega
  obtain ⟨x, hnegative, hunits⟩ := exists_units_eq (n.toInt < 0) hm
  have hfound : ofWord? n = some x := by
    rw [ofWord?, ← hnegative, ← hunits, nearestRank_units, ofRank?_rank]
  have hsigned : x.signed n.toInt.natAbs = n.toInt := by
    rw [signed, hnegative]
    by_cases hneg : n.toInt < 0
    · rw [if_pos (by simpa using hneg)]
      omega
    · rw [if_neg (by simpa using hneg)]
      omega
  rw [hfound, Option.map_some, Option.some_inj, value_eq_intCast_iff, hunits, signed_mul, hsigned]

/-- In the range where binary64 skips no whole number, a word holds the whole part of a number. -/
theorem toInt_toWord (hx : |x.value| ≤ 2 ^ 53 - 1) :
    x.toWord.toInt = x.signed (x.units / unitsPerOne) ∧ |x.toWord.toInt| ≤ 2 ^ 53 - 1 := by
  have hwhole : |x.signed (x.units / unitsPerOne)| ≤ 2 ^ 53 - 1 := by
    rw [Int.abs_eq_natAbs, natAbs_signed, ← Int.cast_le (R := ℚ), Int.cast_natCast]
    calc ((x.units / unitsPerOne : ℕ) : ℚ)
      _ ≤ x.units / unitsPerOne := Nat.cast_div_le
      _ = |x.value| := by
        rw [value, abs_div, ← Int.cast_abs, Int.abs_eq_natAbs, natAbs_signed, Nat.abs_cast,
          Int.cast_natCast]
      _ ≤ 2 ^ 53 - 1 := hx
      _ = ((2 ^ 53 - 1 : ℤ) : ℚ) := by norm_num
  have hword : x.toWord.toInt = x.signed (x.units / unitsPerOne) := by
    rw [abs_le] at hwhole
    refine Int64.toInt_ofIntClamp ?_ ?_
    · rw [Int64.toInt_minValue]
      omega
    · rw [Int64.toInt_maxValue]
      omega
  exact ⟨hword, hword ▸ hwhole⟩

theorem abs_value_le_of_isSafeInteger (h : x.IsSafeInteger) : |x.value| ≤ 2 ^ 53 - 1 := by
  obtain ⟨n, hn, hbound⟩ := isSafeInteger_iff.1 h
  rw [hn]
  exact_mod_cast hbound

/-- A safe integer is the word that it is cut off to. -/
theorem value_eq_toWord (h : x.IsSafeInteger) : x.value = x.toWord.toInt := by
  rw [(toInt_toWord (abs_value_le_of_isSafeInteger h)).1, value_of_isSafeInteger h]

/-- Converting to a word and back tells the safe integers from the other numbers of their range. -/
theorem isSafeInteger_iff_ofWord? :
    x.IsSafeInteger ↔ |x.value| ≤ 2 ^ 53 - 1 ∧ (ofWord? x.toWord).map value = some x.value := by
  constructor
  · intro h
    have hx := abs_value_le_of_isSafeInteger h
    rw [value_ofWord? (toInt_toWord hx).2, value_eq_toWord h]
    exact ⟨value_eq_toWord h ▸ hx, rfl⟩
  · rintro ⟨hx, hback⟩
    have hword := (toInt_toWord hx).2
    rw [value_ofWord? hword, Option.some_inj] at hback
    exact isSafeInteger_iff.2 ⟨x.toWord.toInt, hback.symm, hword⟩

end Binary64

namespace Num

variable {p q : Num}

/-- The value is a whole number in the range where binary64 skips none. -/
def IsSafeInteger (p : Num) : Prop := ∃ n : ℤ, p.value = n ∧ |n| ≤ 2 ^ 53 - 1

/-- A float in that range is cut off to a word, which takes its place if it converts back to the
value of the float. -/
def throughWord : Num → Num
  | .whole n fits => .whole n fits
  | .float x =>
    if |x.value| ≤ 2 ^ 53 - 1 ∧ (Binary64.ofWord? x.toWord).map Binary64.value = some x.value then
      .ofInt64 x.toWord
    else .float x

theorem canonical_of_not_isSafeInteger (h : ¬ p.IsSafeInteger) : p.canonical = p := by
  cases p with
  | whole n fits => rfl
  | float x => exact dif_neg (mt Binary64.isSafeInteger_iff.1 h)

theorem canonical_of_isSafeInteger (h : p.IsSafeInteger) :
    ∃ n fits, p.canonical = .whole n fits := by
  cases p with
  | whole n fits => exact ⟨n, fits, rfl⟩
  | float x => exact ⟨_, _, dif_pos (Binary64.isSafeInteger_iff.2 h)⟩

theorem canonical_float_eq_toWord {x : Binary64} (h : x.IsSafeInteger) :
    (float x).canonical = .ofInt64 x.toWord := by
  have hword := (Binary64.toInt_toWord (Binary64.abs_value_le_of_isSafeInteger h)).2
  exact canonical_float_eq_whole_iff.2 ⟨Binary64.value_eq_toWord h, hword⟩

theorem canonical_eq_throughWord (p : Num) : p.canonical = p.throughWord := by
  cases p with
  | whole n fits => rfl
  | float x =>
    rw [throughWord]
    by_cases h : x.IsSafeInteger
    · rw [if_pos (Binary64.isSafeInteger_iff_ofWord?.1 h), canonical_float_eq_toWord h]
    · rw [if_neg (mt Binary64.isSafeInteger_iff_ofWord?.2 h)]
      exact dif_neg h

/-- Only zeros have a sign to forget. -/
theorem unsignZero_cases (p : Num) : p.unsignZero = p ∨ p.unsignZero.value = 0 ∧ p.value = 0 := by
  cases p with
  | whole n fits => exact .inl rfl
  | float x =>
    by_cases hx : x.rank = 0
    · have hzero : (float x).unsignZero = .float .zero := by
        simp [unsignZero, Binary64.isZero, hx]
      rw [hzero]
      exact .inr ⟨Binary64.value_of_rank_eq_zero rfl, Binary64.value_of_rank_eq_zero hx⟩
    · exact .inl (by simp [unsignZero, Binary64.isZero, hx])

theorem value_unsignZero (p : Num) : p.unsignZero.value = p.value := by
  obtain h | ⟨h, h'⟩ := p.unsignZero_cases
  · rw [h]
  · rw [h, h']

/-- Zeros share their value, so it makes no difference whether they count as equal. -/
theorem interchangeable_iff :
    p.Interchangeable q ↔ p = q ∨ p.value = q.value ∧ |p.value| ≤ 2 ^ 53 - 1 := by
  rw [Interchangeable]
  refine or_congr_left' fun hvalue => ⟨fun h => ?_, fun h => by rw [h]⟩
  have hsame : p.value = q.value := by rw [← value_unsignZero p, h, value_unsignZero]
  have hne : p.value ≠ 0 := fun hzero => hvalue ⟨hsame, by norm_num [hzero]⟩
  obtain hp | ⟨-, hp⟩ := p.unsignZero_cases
  · obtain hq | ⟨-, hq⟩ := q.unsignZero_cases
    · rw [← hp, h, hq]
    · exact absurd (hsame.trans hq) hne
  · exact absurd hp hne

end Num

/-- A node holds each of its parameters in canonical form: with the same value, as a whole number if
the value is one of up to 53 bits, and otherwise just as it was given. A float that turns into a
word has that word for its value, so it was neither cut short nor clamped. Parameters have one
canonical form when they are the same or share a value that is at most the greatest whole number of
53 bits, and only then; and it makes no difference to this whether zeros that differ in sign count
as the same. -/
theorem stored_numbers_keep_values (p q : Num) (t : Transform) :
    (Node.ofTransform t).transform.columns.map Column.param =
        t.columns.map (fun c => c.param.map Num.canonical) ∧
      p.canonical.value = p.value ∧
      (p.IsSafeInteger → ∃ n fits, p.canonical = .whole n fits) ∧
      (¬ p.IsSafeInteger → p.canonical = p) ∧
      (∀ x : Binary64, x.isZero → (Num.float x).canonical = .whole 0 (by decide)) ∧
      p.canonical.canonical = p.canonical ∧
      p.canonical = p.throughWord ∧
      (∀ x, p = .float x →
        p.canonical = p ∨ p.canonical = .ofInt64 x.toWord ∧ x.value = x.toWord.toInt) ∧
      (p.canonical = q.canonical ↔ p = q ∨ p.value = q.value ∧ |p.value| ≤ 2 ^ 53 - 1) ∧
      (p.canonical.unsignZero = q.canonical.unsignZero ↔
        p.unsignZero = q.unsignZero ∨ p.value = q.value ∧ |p.value| ≤ 2 ^ 53 - 1) := by
  have hforms := Num.canonical_eq_canonical_iff (p := p) (q := q)
  refine ⟨?_, p.value_canonical, Num.canonical_of_isSafeInteger,
    Num.canonical_of_not_isSafeInteger, fun x hx => ?_,
    Num.canonical_of_isCanonical p.canonical_isCanonical, p.canonical_eq_throughWord, ?_,
    hforms.trans Num.interchangeable_iff, ?_⟩
  · simp [Node.ofTransform, Transform.normalize, Column.normalize]
  · have hvalue : x.value = 0 :=
      Binary64.value_of_rank_eq_zero (by simpa [Binary64.isZero] using hx)
    rw [Num.canonical_float_eq_whole_iff, hvalue]
    norm_num
  · rintro x rfl
    by_cases h : x.IsSafeInteger
    · exact .inr ⟨Num.canonical_float_eq_toWord h, Binary64.value_eq_toWord h⟩
    · exact .inl (dif_neg h)
  · rw [Num.unsignZero_of_isCanonical p.canonical_isCanonical,
      Num.unsignZero_of_isCanonical q.canonical_isCanonical]
    exact hforms

/-- The last float of 53 bits and the first of 54. -/
theorem last_safe_integer_stored_whole :
    let last := Num.float ⟨false, 0x433fffffffffffff, by decide⟩
    let past := Num.float ⟨false, 0x4340000000000000, by decide⟩
    let whole := Num.whole 0x1fffffffffffff (by decide)
    last.IsSafeInteger ∧ (∃ n fits, last.canonical = .whole n fits) ∧
      last.canonical = whole.canonical ∧ ¬ past.IsSafeInteger ∧ past.canonical = past := by
  intro last past whole
  obtain ⟨-, -, hlast, -, -, -, -, -, hsame, -⟩ :=
    stored_numbers_keep_values last whole (.tiles none last)
  obtain ⟨-, -, -, hpast, -⟩ := stored_numbers_keep_values past whole (.tiles none past)
  have hvalue : last.value = (0x1fffffffffffff : ℤ) :=
    Binary64.value_eq_intCast_iff.2 (by decide +kernel)
  have hsafe : last.IsSafeInteger := ⟨_, hvalue, by decide⟩
  have hunsafe : ¬ past.IsSafeInteger := mt Binary64.isSafeInteger_iff.2 (by decide +kernel)
  refine ⟨hsafe, hlast hsafe, hsame.2 (.inr ⟨hvalue, ?_⟩), hunsafe, hpast hunsafe⟩
  rw [hvalue]
  norm_num

end WindowFlow
