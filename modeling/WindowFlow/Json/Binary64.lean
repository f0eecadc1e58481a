/-!
Finite binary64 numbers and their decimal texts. The magnitudes form one increasing sequence, so a
number is its sign and the place of its magnitude in that sequence: `rank` 0 is zero, `rank` 1 the
least subnormal, and each binade takes `2 ^ 52` consecutive places. Every magnitude is a whole
multiple of `2 ^ -1074`, which lets all arithmetic on values stay in `Nat`. A numeral is read as the
nearest number, and a number is written with as few digits as read back to it; among equally short
numerals the one nearest to the number is written.
-/
namespace WindowFlow

/-- The count of places in a binade, `2 ^ 52`. -/
def Binary64.binade : Nat := 1 <<< 52

/-- The count of finite magnitudes, which make up 2047 binades. -/
def Binary64.ranks : Nat := 2047 * binade

structure Binary64 where
  negative : Bool
  rank : Nat
  finite : rank < Binary64.ranks
  deriving DecidableEq, Repr

namespace Binary64

def zero : Binary64 := ⟨false, 0, by decide⟩

def isZero (x : Binary64) : Bool := x.rank == 0

/-- The binade above the least one; the subnormals share the least with the first normals. -/
def scale (x : Binary64) : Nat := x.rank / binade - 1

/-- The 53-bit integer significand; only the subnormals lack the leading bit. -/
def significand (x : Binary64) : Nat :=
  if x.rank < binade then x.rank else binade + x.rank % binade

/-- The number one in multiples of `2 ^ -1074`. -/
def unitsPerOne : Nat := 1 <<< 1074

/-- The magnitude as a multiple of `2 ^ -1074`. -/
def units (x : Binary64) : Nat := x.significand <<< x.scale

/-- `numerator / denominator` to the nearest natural number, a half to the even neighbour. -/
def roundDiv (numerator denominator : Nat) : Nat :=
  let q := numerator / denominator
  let r := numerator % denominator
  if 2 * r < denominator then q
  else if denominator < 2 * r then q + 1
  else q + q % 2

/-- The place of the magnitude nearest to `numerator / denominator` multiples of `2 ^ -1074`, as
if the sequence had no end. Within the binade that holds the quotient the places are evenly
spaced, and a quotient rounded up to the binade's end is the first place of the next. -/
def nearestRank (numerator denominator : Nat) : Nat :=
  let shift := (numerator / denominator).log2 - 52
  shift * binade + roundDiv numerator (denominator <<< shift)

/-- The finite number at a place, if the sequence reaches that far. -/
def ofRank? (negative : Bool) (rank : Nat) : Option Binary64 :=
  if h : rank < ranks then some ⟨negative, rank, h⟩ else none

@[simp] theorem ofRank?_rank (x : Binary64) : ofRank? x.negative x.rank = some x := by
  simp [ofRank?, x.finite]

end Binary64

/-- `mantissa * 10 ^ exponent`, a magnitude without sign. -/
structure Decimal where
  mantissa : Nat
  exponent : Int
  deriving DecidableEq, Repr

namespace Decimal

def digits (d : Decimal) : List Char := Nat.toDigits 10 d.mantissa

/-- The place of the point: the magnitude is `0.digits * 10 ^ point`. -/
def point (d : Decimal) : Int := d.exponent + d.digits.length

/-- The magnitude in multiples of `2 ^ -1074`, as a quotient of natural numbers. -/
def quotient (d : Decimal) : Nat × Nat :=
  (d.mantissa * Nat.pow 10 d.exponent.toNat * Binary64.unitsPerOne,
    Nat.pow 10 (-d.exponent).toNat)

/-- The place among the binary64 magnitudes that is nearest to the numeral. Numerals below
`10 ^ -324` lie under half the least positive number, and those from `10 ^ 309` on above the
greatest finite one, whatever their digits, so neither needs its power of ten computed. -/
def nearestRank (d : Decimal) : Nat :=
  if d.mantissa = 0 ∨ d.point ≤ -324 then 0
  else if 309 < d.point then Binary64.ranks
  else Binary64.nearestRank d.quotient.1 d.quotient.2

/-- The number that a numeral names, if it is finite. -/
def toBinary64? (negative : Bool) (d : Decimal) : Option Binary64 :=
  Binary64.ofRank? negative d.nearestRank

/-- The numeral names the magnitude of `x`. -/
def ReadsAs (d : Decimal) (x : Binary64) : Prop := d.nearestRank = x.rank

instance (d : Decimal) (x : Binary64) : Decidable (d.ReadsAs x) :=
  inferInstanceAs (Decidable (d.nearestRank = x.rank))

theorem toBinary64?_of_readsAs {d : Decimal} {x : Binary64} (h : d.ReadsAs x) :
    d.toBinary64? x.negative = some x := by
  rw [toBinary64?, h, Binary64.ofRank?_rank]

end Decimal

namespace Binary64

/-- The magnitude as a numeral, digit for digit: `2 ^ -1074` is `5 ^ 1074` at exponent -1074. -/
def exactDecimal (x : Binary64) : Decimal := ⟨x.units * Nat.pow 5 1074, -1074⟩

/-- The magnitude in multiples of `10 ^ -exponent`, as a quotient of natural numbers. -/
def scaledBy (x : Binary64) (exponent : Int) : Nat × Nat :=
  (x.units * Nat.pow 10 (-exponent).toNat, unitsPerOne * Nat.pow 10 exponent.toNat)

/-- The multiples of `10 ^ exponent` on either side of the magnitude, the nearer one first; of two
equally near ones the even one is first. -/
def neighbours (x : Binary64) (exponent : Int) : List Decimal :=
  let (numerator, denominator) := x.scaledBy exponent
  let below := numerator / denominator
  let nearest := roundDiv numerator denominator
  if nearest = below then [⟨below, exponent⟩, ⟨below + 1, exponent⟩]
  else [⟨below + 1, exponent⟩, ⟨below, exponent⟩]

/-- The exponent of a power of ten that is greater than a tenth of the magnitude and at most a
hundred times as great: the magnitude is below `2 ^ bits`, and two is a little less than ten to
the power `0.30103`. -/
def coarsest (x : Binary64) : Int :=
  let bits : Int := x.units.log2 - 1073
  bits * 30103 / 100000 + 1

/-- The shortest numeral that reads back, sought on one grid of powers of ten after another, each
ten times as fine as the one before. Seventeen digits always suffice for binary64, and the coarsest
grid is at most two above the one for a single digit; the exact expansion stands at the end so that
reading back never rests on these bounds. -/
def toDecimal (x : Binary64) : Decimal :=
  let coarsest := x.coarsest
  let grids := (List.range 19).map fun n : Nat => coarsest - n
  (grids.findSome? fun exponent => (x.neighbours exponent).find? fun d => d.ReadsAs x).getD
    x.exactDecimal

/-- Places digits of a magnitude `0.digits * 10 ^ point`: with a point while the magnitude lies
between a hundred-thousandth and ten quadrillion, otherwise with a signed exponent. -/
def layout (digits : List Char) (point : Int) : List Char :=
  let count : Int := digits.length
  if -5 < point ∧ point ≤ 0 then
    ['0', '.'] ++ List.replicate (-point).toNat '0' ++ digits
  else if 0 < point ∧ point < count then
    digits.take point.toNat ++ '.' :: digits.drop point.toNat
  else if count ≤ point ∧ point ≤ 16 then
    digits ++ List.replicate (point - count).toNat '0' ++ ['.', '0']
  else
    let sign := if point < 1 then '-' else '+'
    let fraction := if count ≤ 1 then [] else '.' :: digits.drop 1
    digits.take 1 ++ fraction ++ ['e', sign] ++ Nat.toDigits 10 (point - 1).natAbs

/-- The digits of a numeral without the zeros that end it. -/
def trimZeros (digits : List Char) : List Char :=
  (digits.reverse.dropWhile (· = '0')).reverse

/-- The text of a number: the fewest digits that read back, never without a point or exponent. -/
def chars (x : Binary64) : List Char :=
  let magnitude :=
    if x.isZero then ['0', '.', '0']
    else
      let d := x.toDecimal
      layout (trimZeros d.digits) d.point
  if x.negative then '-' :: magnitude else magnitude

end Binary64

end WindowFlow
