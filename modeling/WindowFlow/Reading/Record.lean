import WindowFlow.Reading.Fault
/-!
Readers of JSON values: strings, truth values, numbers, frame bounds, lists, the names of variants,
and records. A record lists its members once; it is read from an object, where members are found by
name, or from an array, where they are found by place. Reading gathers everything that is wrong
with the members, and the form of the record decides what of it is reported. An object is visited
in name order, so it reports the unreadable member with the least name; an array is visited from
the left. What is absent counts only once all that is present was read.
-/
namespace WindowFlow

namespace Reader

def string : Reader String
  | .str s => .ok s
  | v => .error (.wrongType v .string)

def boolean : Reader Bool
  | .bool b => .ok b
  | v => .error (.wrongType v .boolean)

def number : Reader Num
  | .num n => .ok n
  | v => .error (.wrongType v .number)

/-- Null reads as absent. -/
def nullable (read : Reader α) : Reader (Option α)
  | .null => .ok none
  | v => some <$> read v

/-- A frame bound is a whole number that fits a signed 64-bit word. -/
def bound : Reader Int64
  | .num (.whole n _) =>
    if Int64.minValue.toInt ≤ n ∧ n ≤ Int64.maxValue.toInt then .ok (Int64.ofInt n)
    else .error (.boundOutOfRange n)
  | v => .error (.wrongType v .bound)

/-- Elements are read from the left, and the first that cannot be read stops the reading. -/
def list (read : Reader α) : Reader (List α)
  | .arr items => items.mapM read
  | v => .error (.wrongType v .sequence)

/-- The value that a name stands for. -/
def named (variants : List (String × α)) (name : String) : Except Fault α :=
  match variants.lookup name with
  | some a => .ok a
  | none => .error (.unknownVariant name (variants.map Prod.fst))

/-- One of finitely many variants: its name, or an object with null under the name as its only
member. -/
def variant (variants : List (String × α)) : Reader α
  | .str name => named variants name
  | .obj [(name, content)] => do
    let a ← named variants name
    match content with
    | .null => .ok a
    | v => .error (.wrongType v .unit)
  | .obj _ => .error .notOneMember
  | v => .error (.wrongType v .stringOrMap)

end Reader

/-- Where the members of a record are found. -/
abbrev Members := String → Option Json

/-- A record under construction. Once a member is unreadable, nothing else counts but members
that are unreadable too; they are kept in the order in which the record lists them. -/
inductive Draft (α : Type) where
  | complete (value : α)
  | incomplete (absent : String)
  | unreadable (first : String × Fault) (others : List (String × Fault))

namespace Draft

def faults : Draft α → List (String × Fault)
  | .unreadable first others => first :: others
  | _ => []

protected def map (f : α → β) : Draft α → Draft β
  | .complete a => .complete (f a)
  | .incomplete absent => .incomplete absent
  | .unreadable first others => .unreadable first others

/-- Of two absent members the one on the left is kept. -/
protected def seq : Draft (α → β) → Draft α → Draft β
  | .complete f, a => a.map f
  | .incomplete _, .unreadable first others => .unreadable first others
  | .incomplete absent, _ => .incomplete absent
  | .unreadable first others, a => .unreadable first (others ++ a.faults)

instance : Applicative Draft where
  pure := .complete
  map := .map
  seq f a := .seq f (a ())

def ofRead (name : String) : Except Fault α → Draft α
  | .ok a => .complete a
  | .error fault => .unreadable (name, fault) []

end Draft

namespace Members

/-- A member that has to be there. -/
def required (members : Members) (name : String) (read : Reader α) : Draft α :=
  match members name with
  | none => .incomplete name
  | some v => .ofRead name (read v)

/-- A member that may be absent or null. -/
def optional (members : Members) (name : String) (read : Reader α) : Draft (Option α) :=
  match members name with
  | none => .complete none
  | some v => .ofRead name (Reader.nullable read v)

end Members

structure RecordForm (α : Type) where
  name : String
  members : List String
  draft : Members → Draft α

/-- Of several unreadable members, the one with the least name. -/
def leastNamed (first : String × Fault) : List (String × Fault) → String × Fault
  | [] => first
  | other :: rest => leastNamed (if other.1 < first.1 then other else first) rest

namespace RecordForm

def ofMembers (form : RecordForm α) (members : List (String × Json)) : Except Fault α :=
  match form.draft (members.lookup ·) with
  | .complete a => .ok a
  | .incomplete absent => .error (.missingMember absent)
  | .unreadable first others => .error (leastNamed first others).2

/-- In an array the place of a member is its place in the record's list. Absent members lie past
the end, so whatever is unreadable comes before them. -/
def ofItems (form : RecordForm α) (items : List Json) : Except Fault α :=
  let size := form.members.length
  match form.draft (fun name => items[form.members.idxOf name]?) with
  | .complete a => if items.length ≤ size then .ok a else .error (.tooLong items.length)
  | .incomplete absent =>
    .error (.tooShort (form.members.idxOf absent) (.record form.name) size)
  | .unreadable first _ => .error first.2

/-- Reads a record in either form. -/
def read (form : RecordForm α) : Reader α
  | .obj members => form.ofMembers members
  | .arr items => form.ofItems items
  | v => .error (.wrongType v (.record form.name))

/-- Reads a record where only an object will do. -/
def readObject (form : RecordForm α) : Reader α
  | .obj members => form.ofMembers members
  | v => .error (.wrongType v .map)

end RecordForm

end WindowFlow
