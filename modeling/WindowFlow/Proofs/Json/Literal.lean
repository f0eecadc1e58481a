import WindowFlow.Json.Parse
/-!
Literals: the parts that the text of a number is made of. A reader takes the parts one after another
and leaves the text behind them.
-/
namespace WindowFlow

namespace Json

/-- The parts of the text of a number without its sign. -/
structure Literal where
  whole : List Char
  fraction : Option (List Char)
  exponent : Option Int
  whole_isDigit : ∀ c ∈ whole, c.isDigit
  whole_leads : whole = ['0'] ∨ ∃ c rest, whole = c :: rest ∧ c ≠ '0'
  fraction_isDigit : ∀ f ∈ fraction, f ≠ [] ∧ ∀ c ∈ f, c.isDigit

namespace Literal

def fractionChars : Option (List Char) → List Char
  | none => []
  | some f => '.' :: f

def exponentChars : Option Int → List Char
  | none => []
  | some e => 'e' :: (if e < 0 then '-' else '+') :: Nat.toDigits 10 e.natAbs

def chars (l : Literal) : List Char := l.whole ++ fractionChars l.fraction ++ exponentChars l.exponent

/-- The numeral that the digits and the exponent make. -/
def decimal (l : Literal) : Decimal :=
  ⟨Nat.ofDigitChars 10 (l.whole ++ l.fraction.getD []) 0,
    l.exponent.getD 0 - (l.fraction.getD []).length⟩

end Literal

def NoDigit (text : List Char) : Prop := ∀ c ∈ text.head?, c.isDigit = false

/-- The text cannot be read as more of a number that stands before it. -/
def EndsNumber (text : List Char) : Prop :=
  ∀ c ∈ text.head?, c.isDigit = false ∧ c ≠ '.' ∧ c ≠ 'e' ∧ c ≠ 'E'

theorem EndsNumber.noDigit {text : List Char} (h : EndsNumber text) : NoDigit text :=
  fun c hc => (h c hc).1

theorem takeDigits_append {digits text : List Char} (hne : digits ≠ [])
    (hdigits : ∀ c ∈ digits, c.isDigit) (htext : NoDigit text) :
    takeDigits (digits ++ text) = some (digits, text) := by
  have hnone : text.takeWhile Char.isDigit = [] ∧ text.dropWhile Char.isDigit = text := by
    cases text with
    | nil => exact ⟨rfl, rfl⟩
    | cons c rest =>
      have hc : c.isDigit = false := htext c rfl
      simp [hc]
  rw [takeDigits, List.takeWhile_append_of_pos hdigits, List.dropWhile_append_of_pos hdigits,
    hnone.1, hnone.2, List.append_nil]
  cases digits with
  | nil => exact absurd rfl hne
  | cons c rest => rfl

theorem takeWhole_append (l : Literal) {text : List Char} (htext : NoDigit text) :
    takeWhole (l.whole ++ text) = some (l.whole, text) := by
  obtain h | ⟨c, rest, h, hc⟩ := l.whole_leads
  · rw [h]
    rfl
  · have htake := takeDigits_append (h ▸ List.cons_ne_nil c rest) l.whole_isDigit htext
    rw [takeWhole.eq_def]
    split
    · rename_i heq
      rw [h] at heq
      exact absurd (List.cons.inj heq).1 hc
    · exact htake

theorem takeFraction_append (l : Literal) {text : List Char} (htext : NoDigit text)
    (hpoint : '.' ∉ text.head?) :
    takeFraction (Literal.fractionChars l.fraction ++ text) = some (l.fraction, text) := by
  cases hf : l.fraction with
  | none =>
    rw [Literal.fractionChars, List.nil_append, takeFraction.eq_def]
    split
    · exact absurd rfl hpoint
    · rfl
  | some f =>
    obtain ⟨hne, hdigits⟩ := l.fraction_isDigit f hf
    rw [Literal.fractionChars, List.cons_append, takeFraction, takeDigits_append hne hdigits htext]
    rfl

theorem takeExponent_append (e : Option Int) {text : List Char} (htext : EndsNumber text) :
    takeExponent (Literal.exponentChars e ++ text) = some (e, text) := by
  cases e with
  | none =>
    rw [Literal.exponentChars, List.nil_append, takeExponent.eq_def]
    split
    · exact absurd rfl (htext 'e' rfl).2.2.1
    · exact absurd rfl (htext 'E' rfl).2.2.2
    · rfl
  | some e =>
    have htake := takeDigits_append (Nat.toDigits_ne_nil (n := e.natAbs) (b := 10))
      (fun c => Nat.isDigit_of_mem_toDigits (by decide) (by decide)) htext.noDigit
    rw [Literal.exponentChars]
    split
    · rename_i hneg
      simp only [List.cons_append, takeExponent, takeSigned, htake, Option.map_some,
        Nat.ofDigitChars_ten_toDigits]
      rw [← Int.eq_neg_natAbs_of_nonpos (Int.le_of_lt hneg)]
    · rename_i hpos
      simp only [List.cons_append, takeExponent, takeSigned, htake, Option.map_some,
        Nat.ofDigitChars_ten_toDigits]
      rw [Int.natAbs_of_nonneg (Int.not_lt.1 hpos)]

/-- A literal gives back its parts and leaves what follows it. -/
theorem takeMagnitude_append (negative : Bool) (l : Literal) {text : List Char}
    (htext : EndsNumber text) {n : Num}
    (hn : Num.ofLiteral? negative l.whole l.fraction l.exponent = some n) :
    takeMagnitude negative (l.chars ++ text) = some (n, text) := by
  have hexponent : NoDigit (Literal.exponentChars l.exponent ++ text) ∧
      '.' ∉ (Literal.exponentChars l.exponent ++ text).head? := by
    cases l.exponent with
    | none => exact ⟨htext.noDigit, fun h => (htext '.' h).2.1 rfl⟩
    | some e => simp [Literal.exponentChars, NoDigit, Char.isDigit]
  have hfraction : NoDigit
      (Literal.fractionChars l.fraction ++ (Literal.exponentChars l.exponent ++ text)) := by
    cases l.fraction with
    | none => exact hexponent.1
    | some f => simp [Literal.fractionChars, NoDigit, Char.isDigit]
  rw [takeMagnitude, Literal.chars, List.append_assoc, List.append_assoc,
    takeWhole_append l hfraction]
  simp only [bind, Option.bind_some, takeFraction_append l hexponent.1 hexponent.2,
    takeExponent_append l.exponent htext, hn]
  rfl

theorem Literal.chars_leads (l : Literal) : ∃ c rest, l.chars = c :: rest ∧ c.isDigit := by
  have hwhole : ∃ c rest, l.whole = c :: rest := by
    obtain h | ⟨c, rest, h, -⟩ := l.whole_leads
    · exact ⟨_, _, h⟩
    · exact ⟨c, rest, h⟩
  obtain ⟨c, rest, h⟩ := hwhole
  refine ⟨c, rest ++ fractionChars l.fraction ++ exponentChars l.exponent, ?_,
    l.whole_isDigit c (h ▸ List.mem_cons_self)⟩
  rw [chars, h]
  rfl

/-- The text of a number with the sign in front. -/
def signedChars (negative : Bool) (magnitude : List Char) : List Char :=
  if negative then '-' :: magnitude else magnitude

theorem takeNumber_append (negative : Bool) (l : Literal) {text : List Char}
    (htext : EndsNumber text) {n : Num}
    (hn : Num.ofLiteral? negative l.whole l.fraction l.exponent = some n) :
    takeNumber (signedChars negative l.chars ++ text) = some (n, text) := by
  have htake := takeMagnitude_append negative l htext hn
  cases negative with
  | true => exact htake
  | false =>
    obtain ⟨c, rest, hc, hdigit⟩ := l.chars_leads
    rw [signedChars, if_neg (by decide), takeNumber.eq_def]
    split
    · rename_i heq
      rw [hc] at heq
      have hdash : c = '-' := (List.cons.inj heq).1
      exact absurd hdigit (hdash ▸ by decide)
    · exact htake

end Json

end WindowFlow
