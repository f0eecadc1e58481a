import WindowFlow.Reading.Record
/-!
Window transforms as their authors write them: columns computed over the rows of a partition in a
given order, each from the rows of a frame around the current one. What an author leaves out stays
absent, and an absent list is not an empty one. The columns and sort keys inside a transform are
read from objects only, whatever the form of the transform itself. In normal form every column
carries its name, and a parameter that is a whole number is written as one; transforms that compute
the same for these two reasons alone have the same normal form.
-/
namespace WindowFlow

inductive Direction where
  | ascending
  | descending
  deriving DecidableEq, Repr

def Direction.text : Direction → String
  | .ascending => "ascending"
  | .descending => "descending"

/-- One level of the order within a partition. -/
structure SortKey where
  field : String
  direction : Direction
  deriving DecidableEq, Repr

/-- Rows considered, by their offsets from the current row; an absent end is unbounded. -/
structure Frame where
  start : Option Int64
  stop : Option Int64
  deriving DecidableEq, Repr

namespace Frame

/-- The whole partition. -/
def unbounded : Frame := ⟨none, none⟩

/-- Everything up to the current row. -/
def cumulative : Frame := ⟨none, some 0⟩

end Frame

/-- One computed column. -/
structure Column where
  op : String
  field : Option String
  label : Option String
  param : Option Num
  deriving DecidableEq, Repr

/-- A column without a label is named for its operation. -/
def Column.name (c : Column) : String := c.label.getD c.op

structure Transform where
  columns : List Column
  ignorePeers : Option Bool
  sort : Option (List SortKey)
  partition : Option (List String)
  frame : Frame
  deriving DecidableEq, Repr

namespace Transform

def sortKeys (t : Transform) : List SortKey := t.sort.getD []

def partitionFields (t : Transform) : List String := t.partition.getD []

/-- Forgets the signs of zero parameters. -/
def unsignZeros (t : Transform) : Transform :=
  { t with columns := t.columns.map fun c => { c with param := c.param.map Num.unsignZero } }

/-- Authored alike: the same members with the same values, where a zero has no sign. -/
def Alike (s t : Transform) : Prop := s.unsignZeros = t.unsignZeros

instance (s t : Transform) : Decidable (s.Alike t) :=
  inferInstanceAs (Decidable (s.unsignZeros = t.unsignZeros))

end Transform

def Frame.toJson (f : Frame) : Json :=
  .arr ([f.start, f.stop].map fun bound => .orNull (bound.map fun n => .num (.ofInt64 n)))

def SortKey.toJson (k : SortKey) : Json :=
  .obj [("field", .str k.field), ("order", .str k.direction.text)]

theorem SortKey.toJson_eq_record (k : SortKey) :
    k.toJson = .record [("field", some (.str k.field)), ("order", some (.str k.direction.text))] :=
  rfl

def Column.toJson (c : Column) : Json :=
  .record [
    ("op", some (.str c.op)),
    ("field", c.field.map .str),
    ("as", c.label.map .str),
    ("param", c.param.map .num)]

def Transform.toJson (t : Transform) : Json :=
  .record [
    ("window", some (.arr (t.columns.map Column.toJson))),
    ("ignorePeers", t.ignorePeers.map .bool),
    ("sort", t.sort.map fun keys => .arr (keys.map SortKey.toJson)),
    ("groupby", t.partition.map .strings),
    ("frame", some t.frame.toJson)]

def Direction.read : Reader Direction :=
  .variant [("ascending", .ascending), ("descending", .descending)]

/-- A frame is an array of exactly two bounds, null where it is unbounded. -/
def Frame.read : Reader Frame
  | .arr [] => .error (.tooShort 0 .frame 2)
  | .arr [a] => do
    let _ ← Reader.nullable .bound a
    .error (.tooShort 1 .frame 2)
  | .arr (a :: b :: rest) => do
    let start ← Reader.nullable .bound a
    let stop ← Reader.nullable .bound b
    if rest = [] then .ok ⟨start, stop⟩ else .error (.tooLong (rest.length + 2))
  | v => .error (.wrongType v .frame)

def SortKey.form : RecordForm SortKey where
  name := "SortField"
  members := ["field", "order"]
  draft members := SortKey.mk
    <$> members.required "field" .string
    <*> members.required "order" Direction.read

def Column.form : RecordForm Column where
  name := "WindowFieldDef"
  members := ["op", "field", "as", "param"]
  draft members := Column.mk
    <$> members.required "op" .string
    <*> members.optional "field" .string
    <*> members.optional "as" .string
    <*> members.optional "param" .number

def Transform.form : RecordForm Transform where
  name := "WindowTransform"
  members := ["window", "ignorePeers", "sort", "groupby", "frame"]
  draft members := Transform.mk
    <$> members.required "window" (.list Column.form.readObject)
    <*> members.optional "ignorePeers" .boolean
    <*> members.optional "sort" (.list SortKey.form.readObject)
    <*> members.optional "groupby" (.list .string)
    <*> members.required "frame" Frame.read

namespace Column

def IsNormal (c : Column) : Prop :=
  c.label ≠ none ∧ ∀ p ∈ c.param, p.IsCanonical

def normalize (c : Column) : Column :=
  { c with label := some c.name, param := c.param.map Num.canonical }

theorem normalize_isNormal (c : Column) : c.normalize.IsNormal := by
  refine ⟨by simp [normalize], fun p hp => ?_⟩
  obtain ⟨q, _, rfl⟩ := Option.map_eq_some_iff.1 hp
  exact q.canonical_isCanonical

theorem normalize_of_isNormal {c : Column} (h : c.IsNormal) : c.normalize = c := by
  obtain ⟨op, field, name, param⟩ := c
  obtain ⟨hname, hparam⟩ := h
  cases name with
  | none => exact absurd rfl hname
  | some name =>
    cases param with
    | none => rfl
    | some p => simp [normalize, Column.name, Num.canonical_of_isCanonical (hparam p rfl)]

end Column

namespace Transform

def IsNormal (t : Transform) : Prop := ∀ c ∈ t.columns, c.IsNormal

def normalize (t : Transform) : Transform :=
  { t with columns := t.columns.map Column.normalize }

theorem normalize_isNormal (t : Transform) : t.normalize.IsNormal := by
  intro c hc
  obtain ⟨d, _, rfl⟩ := List.mem_map.1 hc
  exact d.normalize_isNormal

theorem normalize_of_isNormal {t : Transform} (h : t.IsNormal) : t.normalize = t := by
  have hcolumns : t.columns.map Column.normalize = t.columns.map id :=
    List.map_congr_left fun c hc => Column.normalize_of_isNormal (h c hc)
  simp [normalize, hcolumns]

end Transform

end WindowFlow
