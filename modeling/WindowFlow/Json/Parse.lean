import WindowFlow.Json.Basic
/-!
Reads a JSON document. Each reader takes what it can from the front of a text and gives back the
rest. Of the members of one object that share a name the last one counts. Strings are read with
every escape of JSON, surrogate pairs included.
-/
namespace WindowFlow.Json

def hexValue (c : Char) : Option Nat :=
  if '0' ≤ c ∧ c ≤ '9' then some (c.toNat - '0'.toNat)
  else if 'a' ≤ c ∧ c ≤ 'f' then some (c.toNat - 'a'.toNat + 10)
  else if 'A' ≤ c ∧ c ≤ 'F' then some (c.toNat - 'A'.toNat + 10)
  else none

/-- The character that a one-letter escape stands for. -/
def shortEscape : Char → Option Char
  | '"' => some '"'
  | '\\' => some '\\'
  | '/' => some '/'
  | 'n' => some '\n'
  | 'r' => some '\r'
  | 't' => some '\t'
  | 'b' => some '\x08'
  | 'f' => some '\x0c'
  | _ => none

/-- Splits a text at the first quote that no backslash stands before. -/
def splitAtQuote : List Char → Option (List Char × List Char)
  | [] => none
  | '"' :: rest => some ([], rest)
  | '\\' :: c :: rest => (splitAtQuote rest).map fun (body, after) => ('\\' :: c :: body, after)
  | c :: rest => (splitAtQuote rest).map fun (body, after) => (c :: body, after)

/-- The numbers of the characters of a body, with escapes by number taken one by one. -/
def codes : List Char → Option (List Nat)
  | [] => some []
  | '\\' :: 'u' :: a :: b :: c :: d :: rest => do
    let high := 16 * (← hexValue a) + (← hexValue b)
    let low := 16 * (← hexValue c) + (← hexValue d)
    return (256 * high + low) :: (← codes rest)
  | '\\' :: c :: rest => do
    return (← shortEscape c).toNat :: (← codes rest)
  | c :: rest => if c.toNat < 0x20 then none else (codes rest).map (c.toNat :: ·)

/-- Joins pairs of surrogates; one that stands alone is no character. -/
def joinSurrogates : List Nat → Option (List Char)
  | [] => some []
  | n :: rest =>
    if n.isValidChar then (joinSurrogates rest).map (Char.ofNat n :: ·)
    else match rest with
      | m :: rest =>
        if 0xD800 ≤ n ∧ n < 0xDC00 ∧ 0xDC00 ≤ m ∧ m < 0xE000 then
          let c := Char.ofNat (0x10000 + (n - 0xD800) * 0x400 + (m - 0xDC00))
          (joinSurrogates rest).map (c :: ·)
        else none
      | [] => none

/-- Reads a string whose opening quote is already taken, and gives the text after it. -/
def unquote (text : List Char) : Option (String × List Char) := do
  let (body, after) ← splitAtQuote text
  return (String.ofList (← joinSurrogates (← codes body)), after)

def isBlank (c : Char) : Bool :=
  c = ' ' || c = '\n' || c = '\r' || c = '\t'

def skipBlanks (text : List Char) : List Char := text.dropWhile isBlank

/-- A run of digits, at least one. -/
def takeDigits (text : List Char) : Option (List Char × List Char) :=
  match text.takeWhile Char.isDigit with
  | [] => none
  | digits => some (digits, text.dropWhile Char.isDigit)

/-- The whole part of a number, which starts with a zero only if it is one. -/
def takeWhole : List Char → Option (List Char × List Char)
  | '0' :: rest => some (['0'], rest)
  | text => takeDigits text

def takeFraction : List Char → Option (Option (List Char) × List Char)
  | '.' :: rest => (takeDigits rest).map fun (digits, rest) => (some digits, rest)
  | text => some (none, text)

/-- The digits after the mark of an exponent, with their sign. -/
def takeSigned : List Char → Option (Int × List Char)
  | '-' :: rest =>
    (takeDigits rest).map fun (digits, rest) => (-(Nat.ofDigitChars 10 digits 0 : Int), rest)
  | '+' :: rest => (takeDigits rest).map fun (digits, rest) => (Nat.ofDigitChars 10 digits 0, rest)
  | text => (takeDigits text).map fun (digits, rest) => (Nat.ofDigitChars 10 digits 0, rest)

def takeExponent : List Char → Option (Option Int × List Char)
  | 'e' :: rest => (takeSigned rest).map fun (n, rest) => (some n, rest)
  | 'E' :: rest => (takeSigned rest).map fun (n, rest) => (some n, rest)
  | text => some (none, text)

def takeMagnitude (negative : Bool) (text : List Char) : Option (Num × List Char) := do
  let (whole, text) ← takeWhole text
  let (fraction, text) ← takeFraction text
  let (exponent, text) ← takeExponent text
  return (← Num.ofLiteral? negative whole fraction exponent, text)

def takeNumber : List Char → Option (Num × List Char)
  | '-' :: rest => takeMagnitude true rest
  | text => takeMagnitude false text

mutual

/-- A value, and the text after it. Every second call takes a character at least, so twice the
length of the text is fuel enough. -/
def takeValue : Nat → List Char → Option (Json × List Char)
  | 0, _ => none
  | fuel + 1, text =>
    match skipBlanks text with
    | 'n' :: 'u' :: 'l' :: 'l' :: rest => some (.null, rest)
    | 't' :: 'r' :: 'u' :: 'e' :: rest => some (.bool true, rest)
    | 'f' :: 'a' :: 'l' :: 's' :: 'e' :: rest => some (.bool false, rest)
    | '"' :: rest => (unquote rest).map fun (s, rest) => (.str s, rest)
    | '[' :: rest =>
      match skipBlanks rest with
      | ']' :: rest => some (.arr [], rest)
      | rest => (takeItems fuel rest).map fun (items, rest) => (.arr items, rest)
    | '\x7b' :: rest =>
      match skipBlanks rest with
      | '\x7d' :: rest => some (.obj [], rest)
      | rest => (takeMembers fuel [] rest).map fun (members, rest) => (.obj members, rest)
    | text => (takeNumber text).map fun (n, rest) => (.num n, rest)

def takeItems : Nat → List Char → Option (List Json × List Char)
  | 0, _ => none
  | fuel + 1, text => do
    let (v, rest) ← takeValue fuel text
    match skipBlanks rest with
    | ']' :: rest => return ([v], rest)
    | ',' :: rest =>
      let (items, rest) ← takeItems fuel rest
      return (v :: items, rest)
    | _ => none

def takeMembers : Nat → List (String × Json) → List Char →
    Option (List (String × Json) × List Char)
  | 0, _, _ => none
  | fuel + 1, members, text =>
    match skipBlanks text with
    | '"' :: rest => do
      let (name, rest) ← unquote rest
      match skipBlanks rest with
      | ':' :: rest =>
        let (v, rest) ← takeValue fuel rest
        let members := setMember name v members
        match skipBlanks rest with
        | '\x7d' :: rest => return (members, rest)
        | ',' :: rest => takeMembers fuel members rest
        | _ => none
      | _ => none
    | _ => none

end

/-- The value of a document: one value with nothing but blanks around it. -/
def parse? (document : String) : Option Json := do
  let text := document.toList
  let (v, rest) ← takeValue (2 * text.length + 2) text
  if skipBlanks rest = [] then some v else none

end WindowFlow.Json
