import WindowFlow.Json.Basic
/-!
The canonical text of a JSON value: no blanks, and the members of every object sorted by name in
code point order. Values that differ only in the order of members have the same canonical text.
-/
namespace WindowFlow.Json

/-- A quote and a backslash stand behind a backslash, the control characters are written by their
short escapes or by number, and every other character as it is. -/
def escape (c : Char) : List Char :=
  match c with
  | '"' => ['\\', '"']
  | '\\' => ['\\', '\\']
  | '\n' => ['\\', 'n']
  | '\r' => ['\\', 'r']
  | '\t' => ['\\', 't']
  | '\x08' => ['\\', 'b']
  | '\x0c' => ['\\', 'f']
  | c =>
    if c.toNat < 0x20 then
      ['\\', 'u', '0', '0', Nat.digitChar (c.toNat / 16), Nat.digitChar (c.toNat % 16)]
    else [c]

/-- The written form of a string, quotes included. -/
def quote (s : String) : List Char :=
  '"' :: s.toList.flatMap escape ++ ['"']

/-- Puts a member in front of the first one whose name is not smaller. -/
def insertByName (m : String × α) : List (String × α) → List (String × α)
  | [] => [m]
  | x :: xs => if m.1 ≤ x.1 then m :: x :: xs else x :: insertByName m xs

def sortByName (ms : List (String × α)) : List (String × α) :=
  ms.foldr insertByName []

/-- A name and the text of its value. -/
def memberChars (m : String × List Char) : List Char :=
  quote m.1 ++ ':' :: m.2

/-- Texts in order, with a comma between any two. -/
def separated (texts : List (List Char)) : List Char :=
  [','].intercalate texts

mutual

def chars : Json → List Char
  | .null => ['n', 'u', 'l', 'l']
  | .bool true => ['t', 'r', 'u', 'e']
  | .bool false => ['f', 'a', 'l', 's', 'e']
  | .num n => n.chars
  | .str s => quote s
  | .arr items => '[' :: separated (itemTexts items) ++ [']']
  | .obj members =>
    '\x7b' :: separated ((sortByName (memberTexts members)).map memberChars) ++ ['\x7d']

def itemTexts : List Json → List (List Char)
  | [] => []
  | v :: rest => v.chars :: itemTexts rest

def memberTexts : List (String × Json) → List (String × List Char)
  | [] => []
  | (name, v) :: rest => (name, v.chars) :: memberTexts rest

end

def canonical (v : Json) : String := String.ofList v.chars

theorem itemTexts_eq_map (items : List Json) : itemTexts items = items.map chars := by
  induction items with
  | nil => rfl
  | cons v rest ih => simp [itemTexts, ih]

theorem memberTexts_eq_map (members : List (String × Json)) :
    memberTexts members = members.map fun m => (m.1, m.2.chars) := by
  induction members with
  | nil => rfl
  | cons m rest ih => simp [memberTexts, ih]

end WindowFlow.Json
