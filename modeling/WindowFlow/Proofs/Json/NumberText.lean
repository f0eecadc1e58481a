import WindowFlow.Proofs.Json.Literal
import WindowFlow.Proofs.Json.Rounding
/-!
A written number reads back. Whatever the layout of its digits, the text of a number is that of a
literal, and the numeral that the parts of the literal make has the value of the digits that were
laid out.
-/
namespace WindowFlow

namespace Json

theorem toDigits_leads {n : ℕ} (h : n ≠ 0) : ∃ c rest, Nat.toDigits 10 n = c :: rest ∧ c ≠ '0' := by
  induction n using Nat.strongRecOn with
  | _ n ih =>
    rw [Nat.toDigits_eq_if (by decide)]
    split
    · exact ⟨_, [], rfl, mt Nat.digitChar_eq_zero.1 h⟩
    · obtain ⟨c, rest, hdigits, hc⟩ := ih (n / 10) (by omega) (by omega)
      exact ⟨c, rest ++ [(n % 10).digitChar], by rw [hdigits]; rfl, hc⟩

/-- The literal of a natural number. -/
def Literal.ofNat (n : ℕ) : Literal where
  whole := Nat.toDigits 10 n
  fraction := none
  exponent := none
  whole_isDigit _ := Nat.isDigit_of_mem_toDigits (by decide) (by decide)
  whole_leads := by
    by_cases h : n = 0
    · exact .inl (h ▸ rfl)
    · exact .inr (toDigits_leads h)
  fraction_isDigit _ h := absurd h (Option.not_mem_none _)

theorem intChars_eq (n : ℤ) :
    Num.intChars n = signedChars (n < 0) (Literal.ofNat n.natAbs).chars := by
  simp [Num.intChars, signedChars, Literal.ofNat, Literal.chars, Literal.fractionChars,
    Literal.exponentChars]

theorem toDigits_injective : Function.Injective (Nat.toDigits 10) := fun m n h => by
  rw [← Nat.ofDigitChars_ten_toDigits (n := m), h, Nat.ofDigitChars_ten_toDigits]

theorem intChars_injective : Function.Injective Num.intChars := by
  have hsign : ∀ (k : ℕ) (rest : List Char), '-' :: rest ≠ Nat.toDigits 10 k := by
    intro k rest h
    have hdash : '-' ∈ Nat.toDigits 10 k := h ▸ List.mem_cons_self
    exact absurd (Nat.isDigit_of_mem_toDigits (by decide) (by decide) hdash) (by decide)
  intro m n h
  unfold Num.intChars at h
  split at h <;> split at h
  · have habs := toDigits_injective (List.cons.inj h).2
    omega
  · exact absurd h (hsign _ _)
  · exact absurd h.symm (hsign _ _)
  · have habs := toDigits_injective h
    omega

theorem ofLiteral?_ofNat {n : ℤ} (h : -0x8000000000000000 ≤ n ∧ n < 0x10000000000000000) :
    Num.ofLiteral? (n < 0) (Literal.ofNat n.natAbs).whole none none = some (.whole n h) := by
  have hdash : (decide (n < 0) && n.natAbs == 0) = false := by
    simp only [Bool.and_eq_false_iff, decide_eq_false_iff_not, beq_eq_false_iff_ne]
    omega
  have hsigned : (if n < 0 then -(n.natAbs : ℤ) else n.natAbs) = n := by
    split <;> omega
  simp only [Num.ofLiteral?, Literal.ofNat, Option.getD_none, List.append_nil,
    Nat.ofDigitChars_ten_toDigits, Option.isSome_none, Bool.or_self, hdash, decide_eq_true_eq,
    hsigned, Num.ofInt?, dif_pos h, Bool.false_eq_true, if_false, Option.some_or]

theorem trimZeros_append (digits : List Char) :
    ∃ k, digits = Binary64.trimZeros digits ++ List.replicate k '0' := by
  refine ⟨(digits.reverse.takeWhile (· = '0')).length, ?_⟩
  have hzeros : digits.reverse.takeWhile (· = '0') =
      List.replicate (digits.reverse.takeWhile (· = '0')).length '0' := by
    rw [List.eq_replicate_iff]
    refine ⟨rfl, fun c hc => ?_⟩
    simpa using List.all_eq_true.1 List.all_takeWhile c hc
  rw [Binary64.trimZeros, ← List.reverse_replicate, ← hzeros, ← List.reverse_append,
    List.takeWhile_append_dropWhile, List.reverse_reverse]

/-- Digits that may be laid out: the first is not a zero. -/
structure IsSignificand (digits : List Char) : Prop where
  isDigit : ∀ c ∈ digits, c.isDigit
  leads : ∃ c rest, digits = c :: rest ∧ c ≠ '0'

theorem isSignificand_trimZeros {n : ℕ} (h : n ≠ 0) :
    IsSignificand (Binary64.trimZeros (Nat.toDigits 10 n)) := by
  obtain ⟨k, hk⟩ := trimZeros_append (Nat.toDigits 10 n)
  obtain ⟨c, rest, hc, hzero⟩ := toDigits_leads h
  constructor
  · intro d hd
    have hmem : d ∈ Nat.toDigits 10 n := by
      rw [hk]
      exact List.mem_append_left _ hd
    exact Nat.isDigit_of_mem_toDigits (by decide) (by decide) hmem
  · cases htrim : Binary64.trimZeros (Nat.toDigits 10 n) with
    | nil =>
      rw [htrim, List.nil_append, hc] at hk
      exact absurd (List.eq_of_mem_replicate (hk ▸ List.mem_cons_self)) hzero
    | cons d more =>
      rw [htrim, hc] at hk
      exact ⟨d, more, rfl, (List.cons.inj hk).1 ▸ hzero⟩

/-- The digits of a magnitude behind a point make its numeral. -/
def ofDigits (digits : List Char) (point : ℤ) : Decimal :=
  ⟨Nat.ofDigitChars 10 digits 0, point - digits.length⟩

theorem value_ofDigits_replicate (digits : List Char) (k : ℕ) (point : ℤ) :
    (ofDigits (digits ++ List.replicate k '0') point).value = (ofDigits digits point).value := by
  simp only [ofDigits, Decimal.value, Nat.ofDigitChars_append, Nat.ofDigitChars_replicate_zero,
    List.length_append, List.length_replicate]
  have hpow : (10 : ℚ) ^ (point - digits.length) = 10 ^ k * 10 ^ (point - (digits.length + k : ℕ)) := by
    rw [← zpow_natCast, ← zpow_add₀ (by norm_num)]
    congr 1
    omega
  rw [hpow]
  push_cast
  ring

theorem value_ofDigits_trimZeros (d : Decimal) :
    (ofDigits (Binary64.trimZeros d.digits) d.point).value = d.value := by
  obtain ⟨k, hk⟩ := trimZeros_append d.digits
  rw [← value_ofDigits_replicate _ k, ← hk, ofDigits, Decimal.point, Decimal.digits,
    Nat.ofDigitChars_ten_toDigits, add_sub_cancel_right]

/-- The literal has the text of the digits laid out and stands for the same magnitude. -/
structure Literal.Lays (l : Literal) (digits : List Char) (point : ℤ) (text : List Char) : Prop where
  chars_eq : l.chars = text
  pointed : (l.fraction.isSome || l.exponent.isSome) = true
  value_eq : l.decimal.value = (ofDigits digits point).value

/-- The point of a literal stands behind its whole part, shifted by its exponent. -/
theorem Literal.decimal_eq (l : Literal) :
    l.decimal = ofDigits (l.whole ++ l.fraction.getD []) (l.exponent.getD 0 + l.whole.length) := by
  rw [decimal, ofDigits, List.length_append, Decimal.mk.injEq]
  exact ⟨rfl, by omega⟩

variable {digits : List Char} {point : ℤ}

theorem IsSignificand.isDigit_zeros_append (h : IsSignificand digits) (k : ℕ) :
    ∀ c ∈ List.replicate k '0' ++ digits, c.isDigit := by
  intro c hc
  rcases List.mem_append.1 hc with hc | hc
  · rw [List.eq_of_mem_replicate hc]
    rfl
  · exact h.isDigit c hc

theorem exists_literal_below_one (h : IsSignificand digits) (hpoint : point ≤ 0) :
    ∃ l : Literal, l.Lays digits point
      (['0', '.'] ++ List.replicate (-point).toNat '0' ++ digits) := by
  obtain ⟨k, hk⟩ := Int.eq_ofNat_of_zero_le (neg_nonneg.2 hpoint)
  obtain ⟨c, rest, hc, -⟩ := h.leads
  refine ⟨⟨['0'], some (List.replicate k '0' ++ digits), none, by simp, .inl rfl, ?_⟩, ?_, rfl, ?_⟩
  · rintro f hf
    obtain rfl := Option.some.inj hf
    exact ⟨by simp [hc], h.isDigit_zeros_append k⟩
  · simp [Literal.chars, Literal.fractionChars, Literal.exponentChars, hk]
  · have hmantissa : Nat.ofDigitChars 10 (List.replicate (k + 1) '0' ++ digits) 0 =
        Nat.ofDigitChars 10 digits 0 := by
      rw [Nat.ofDigitChars_append, Nat.ofDigitChars_replicate_zero, Nat.mul_zero]
    have hexponent : (0 : ℤ) - (List.replicate k '0' ++ digits).length = point - digits.length := by
      rw [List.length_append, List.length_replicate]
      omega
    simp only [Literal.decimal, ofDigits, Option.getD_some, Option.getD_none, hexponent]
    rw [← hmantissa]
    rfl

theorem exists_literal_inside (h : IsSignificand digits) (hlow : 0 < point)
    (hhigh : point < digits.length) :
    ∃ l : Literal, l.Lays digits point
      (digits.take point.toNat ++ '.' :: digits.drop point.toNat) := by
  obtain ⟨k, rfl⟩ := Int.eq_ofNat_of_zero_le hlow.le
  obtain ⟨c, rest, hc, hzero⟩ := h.leads
  refine ⟨⟨digits.take k, some (digits.drop k), none, fun d hd => h.isDigit d (List.mem_of_mem_take hd),
    .inr ⟨c, rest.take (k - 1), ?_, hzero⟩, ?_⟩, ?_, rfl, ?_⟩
  · rw [hc, List.take_cons (by omega)]
  · rintro f hf
    obtain rfl := Option.some.inj hf
    exact ⟨by simp; omega, fun d hd => h.isDigit d (List.mem_of_mem_drop hd)⟩
  · simp [Literal.chars, Literal.fractionChars, Literal.exponentChars]
  · rw [Literal.decimal_eq]
    simp only [Option.getD_some, Option.getD_none, List.take_append_drop, List.length_take]
    congr 2
    omega

theorem exists_literal_padded (h : IsSignificand digits) (hpoint : digits.length ≤ point) :
    ∃ l : Literal, l.Lays digits point
      (digits ++ List.replicate (point - digits.length).toNat '0' ++ ['.', '0']) := by
  obtain ⟨k, hk⟩ := Int.eq_ofNat_of_zero_le (sub_nonneg.2 hpoint)
  obtain ⟨c, rest, hc, hzero⟩ := h.leads
  refine ⟨⟨digits ++ List.replicate k '0', some ['0'], none, ?_,
    .inr ⟨c, rest ++ List.replicate k '0', by rw [hc]; rfl, hzero⟩, ?_⟩, ?_, rfl, ?_⟩
  · intro d hd
    rcases List.mem_append.1 hd with hd | hd
    · exact h.isDigit d hd
    · rw [List.eq_of_mem_replicate hd]
      rfl
  · rintro f hf
    obtain rfl := Option.some.inj hf
    simp
  · simp [Literal.chars, Literal.fractionChars, Literal.exponentChars, hk]
  · have hzeros : List.replicate k '0' ++ ['0'] = List.replicate (k + 1) '0' :=
      List.replicate_succ'.symm
    rw [Literal.decimal_eq]
    simp only [Option.getD_some, Option.getD_none, List.append_assoc, hzeros,
      value_ofDigits_replicate, List.length_append, List.length_replicate]
    congr 2
    omega

theorem exists_literal_scientific (h : IsSignificand digits) (point : ℤ) :
    ∃ l : Literal, l.Lays digits point
      (digits.take 1 ++ (if (digits.length : ℤ) ≤ 1 then [] else '.' :: digits.drop 1) ++
        ['e', if point < 1 then '-' else '+'] ++ Nat.toDigits 10 (point - 1).natAbs) := by
  obtain ⟨c, rest, rfl, hzero⟩ := h.leads
  have hwhole : ∀ d ∈ [c], d.isDigit := fun d hd =>
    h.isDigit d (List.mem_singleton.1 hd ▸ List.mem_cons_self)
  cases rest with
  | nil =>
    refine ⟨⟨[c], none, some (point - 1), hwhole, .inr ⟨c, [], rfl, hzero⟩, by simp⟩, ?_, rfl, ?_⟩
    · simp [Literal.chars, Literal.fractionChars, Literal.exponentChars]
    · simp [Literal.decimal_eq]
  | cons d rest =>
    refine ⟨⟨[c], some (d :: rest), some (point - 1), hwhole, .inr ⟨c, [], rfl, hzero⟩, ?_⟩, ?_, rfl,
      ?_⟩
    · rintro f hf
      obtain rfl := Option.some.inj hf
      exact ⟨List.cons_ne_nil d rest, fun e he => h.isDigit e (List.mem_cons_of_mem c he)⟩
    · have hmany : ¬ ((c :: d :: rest).length : ℤ) ≤ 1 := by simp
      rw [if_neg hmany]
      simp [Literal.chars, Literal.fractionChars, Literal.exponentChars]
    · simp [Literal.decimal_eq]

/-- Each branch of the layout writes a literal of its own kind. -/
theorem exists_literal_layout (h : IsSignificand digits) (point : ℤ) :
    ∃ l : Literal, l.Lays digits point (Binary64.layout digits point) := by
  simp only [Binary64.layout]
  by_cases hbelow : -5 < point ∧ point ≤ 0
  · rw [if_pos hbelow]
    exact exists_literal_below_one h hbelow.2
  rw [if_neg hbelow]
  by_cases hinside : 0 < point ∧ point < digits.length
  · rw [if_pos hinside]
    exact exists_literal_inside h hinside.1 hinside.2
  rw [if_neg hinside]
  by_cases hpadded : digits.length ≤ point ∧ point ≤ 16
  · rw [if_pos hpadded]
    exact exists_literal_padded h hpadded.1
  rw [if_neg hpadded]
  exact exists_literal_scientific h point

theorem ofLiteral?_of_readsAs {l : Literal} (hpointed : (l.fraction.isSome || l.exponent.isSome) = true)
    {x : Binary64} (h : l.decimal.ReadsAs x) :
    Num.ofLiteral? x.negative l.whole l.fraction l.exponent = some (.float x) := by
  have hfloat : Decimal.toBinary64? x.negative l.decimal = some x := Decimal.toBinary64?_of_readsAs h
  rw [Literal.decimal] at hfloat
  simp only [Num.ofLiteral?, hpointed, Bool.true_or, if_true, hfloat, Option.map_some]

/-- The literal of zero. -/
def Literal.zero : Literal := ⟨['0'], some ['0'], none, by simp, .inl rfl, by simp⟩

theorem exists_literal_float (x : Binary64) :
    ∃ l : Literal, x.chars = signedChars x.negative l.chars ∧
      Num.ofLiteral? x.negative l.whole l.fraction l.exponent = some (.float x) := by
  by_cases hzero : x.isZero
  · refine ⟨.zero, by rw [Binary64.chars]; simp only [hzero, if_true]; rfl, ofLiteral?_of_readsAs rfl ?_⟩
    have hrank : x.rank = 0 := by simpa [Binary64.isZero] using hzero
    rw [Decimal.ReadsAs, hrank]
    rfl
  · have hreads := x.readsAs_toDecimal
    have hmantissa : x.toDecimal.mantissa ≠ 0 := by
      intro h
      rw [Decimal.ReadsAs, Decimal.nearestRank, if_pos (.inl h)] at hreads
      exact hzero (by simp [Binary64.isZero, ← hreads])
    obtain ⟨l, hl⟩ := exists_literal_layout (isSignificand_trimZeros hmantissa) x.toDecimal.point
    refine ⟨l, ?_, ofLiteral?_of_readsAs hl.pointed ?_⟩
    · rw [hl.chars_eq, Binary64.chars]
      simp only [hzero, Bool.false_eq_true, if_false]
      rfl
    · rw [Decimal.ReadsAs, ← hreads]
      exact Decimal.nearestRank_congr (hl.value_eq.trans (value_ofDigits_trimZeros x.toDecimal))

/-- The text of a number is that of a literal that names the number. -/
theorem exists_literal (n : Num) :
    ∃ negative, ∃ l : Literal, n.chars = signedChars negative l.chars ∧
      Num.ofLiteral? negative l.whole l.fraction l.exponent = some n := by
  cases n with
  | whole n h => exact ⟨_, .ofNat n.natAbs, intChars_eq n, ofLiteral?_ofNat h⟩
  | float x => exact ⟨_, exists_literal_float x⟩

/-- A written number is read back, and what follows it is left. -/
theorem takeNumber_chars (n : Num) {text : List Char} (htext : EndsNumber text) :
    takeNumber (n.chars ++ text) = some (n, text) := by
  obtain ⟨negative, l, hchars, hn⟩ := exists_literal n
  rw [hchars]
  exact takeNumber_append negative l htext hn

theorem numChars_leads (n : Num) : ∃ c rest, n.chars = c :: rest ∧ (c = '-' ∨ c.isDigit) := by
  obtain ⟨negative, l, hchars, -⟩ := exists_literal n
  obtain ⟨c, rest, hl, hc⟩ := l.chars_leads
  rw [hchars, hl]
  cases negative with
  | true => exact ⟨'-', c :: rest, rfl, .inl rfl⟩
  | false => exact ⟨c, rest, rfl, .inr hc⟩

end Json

end WindowFlow
