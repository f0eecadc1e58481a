import WindowFlow.Json.Binary64
/-!
JSON values. Their numbers are whole numbers that fit a signed or an unsigned 64-bit word, and
binary64 numbers.
-/
namespace WindowFlow

/-- The two kinds stay apart, so that `1` and `1.0` are different numbers with different texts. -/
inductive Num where
  | whole (value : Int) (fits : -0x8000000000000000 ≤ value ∧ value < 0x10000000000000000)
  | float (value : Binary64)
  deriving DecidableEq, Repr

namespace Binary64

/-- A magnitude with the sign of `x`. -/
def signed (x : Binary64) (magnitude : Nat) : Int :=
  if x.negative then -magnitude else magnitude

theorem signed_fits (x : Binary64) {magnitude : Nat} (h : magnitude < 1 <<< 53) :
    -0x8000000000000000 ≤ x.signed magnitude ∧ x.signed magnitude < 0x10000000000000000 := by
  unfold signed
  split <;> omega

/-- The value is a whole number of at most 53 bits, the range in which binary64 skips none. -/
def IsSafeInteger (x : Binary64) : Prop :=
  unitsPerOne ∣ x.units ∧ x.units / unitsPerOne < 1 <<< 53

instance (x : Binary64) : Decidable x.IsSafeInteger :=
  inferInstanceAs (Decidable (_ ∧ _))

end Binary64

namespace Num

def ofInt? (n : Int) : Option Num :=
  if h : -0x8000000000000000 ≤ n ∧ n < 0x10000000000000000 then some (.whole n h) else none

def ofInt64 (n : Int64) : Num :=
  .whole n.toInt (by have := n.le_toInt; have := n.toInt_lt; omega)

/-- A whole float that binary64 represents without ambiguity becomes a whole number, both zeros
among them; every other number stays as it is. -/
def canonical : Num → Num
  | .whole n h => .whole n h
  | .float x =>
    if h : x.IsSafeInteger then
      .whole (x.signed (x.units / Binary64.unitsPerOne)) (x.signed_fits h.2)
    else .float x

/-- No float is left that `canonical` would turn into a whole number. -/
def IsCanonical : Num → Prop
  | .whole _ _ => True
  | .float x => ¬ x.IsSafeInteger

/-- Forgets the sign of a zero, the only difference that comparing two numbers does not see. -/
def unsignZero : Num → Num
  | .whole n h => .whole n h
  | .float x => if x.isZero then .float .zero else .float x

theorem canonical_isCanonical (n : Num) : n.canonical.IsCanonical := by
  cases n with
  | whole n h => trivial
  | float x =>
    by_cases h : x.IsSafeInteger
    · simp [canonical, h, IsCanonical]
    · simp [canonical, h, IsCanonical]

theorem canonical_of_isCanonical {n : Num} (h : n.IsCanonical) : n.canonical = n := by
  cases n with
  | whole n _ => rfl
  | float x => exact dif_neg h

/-- The decimal text of an integer. -/
def intChars (n : Int) : List Char :=
  if n < 0 then '-' :: Nat.toDigits 10 n.natAbs else Nat.toDigits 10 n.natAbs

def chars : Num → List Char
  | .whole n _ => intChars n
  | .float x => x.chars

/-- The number of a literal `±whole.fraction e±exponent`. A literal with neither fraction nor
exponent names a whole number where one fits, save `-0`, which has no whole number of its own. -/
def ofLiteral? (negative : Bool) (whole : List Char) (fraction : Option (List Char))
    (exponent : Option Int) : Option Num :=
  let places := fraction.getD []
  let mantissa := Nat.ofDigitChars 10 (whole ++ places) 0
  let float := (Decimal.toBinary64? negative
    ⟨mantissa, exponent.getD 0 - places.length⟩).map Num.float
  if fraction.isSome || exponent.isSome || (negative && mantissa == 0) then float
  else (ofInt? (if negative then -mantissa else mantissa)).or float

end Num

/-- The members of an object stand in the order in which they were given; nothing that reads or
writes a value depends on that order as long as the names are distinct. -/
inductive Json where
  | null
  | bool (value : Bool)
  | num (value : Num)
  | str (value : String)
  | arr (items : List Json)
  | obj (members : List (String × Json))
  deriving Inhabited, Repr

namespace Json

def strings (xs : List String) : Json := .arr (xs.map .str)

/-- An absent value is written as null. -/
def orNull : Option Json → Json
  | none => .null
  | some v => v

/-- An object of the members that are present. -/
def record (members : List (String × Option Json)) : Json :=
  .obj (members.filterMap fun m => m.2.map (m.1, ·))

/-- Sets a member: in place if the name is taken, at the end otherwise. -/
def setMember (name : String) (value : Json) : List (String × Json) → List (String × Json)
  | [] => [(name, value)]
  | m :: rest => if m.1 = name then (name, value) :: rest else m :: setMember name value rest

end Json

end WindowFlow
