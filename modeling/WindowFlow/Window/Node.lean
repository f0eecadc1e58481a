import WindowFlow.Window.Transform
import Std.Data.ExtTreeSet
/-!
Flow nodes. A node is a window transform in normal form and nothing else: what it reads and
produces, its runtime step and its hash all follow from the transform, so nodes made from
equivalent transforms are equal.
-/
namespace WindowFlow

/-- A window step as the runtime takes it: one list per property of the columns and of the sort
keys, where entries of one place belong together. -/
structure Assembled where
  ops : List String
  fields : List (Option String)
  params : List (Option Num)
  names : List String
  sortFields : List String
  sortDirections : List Direction
  frame : Frame
  partition : Option (List String)
  ignorePeers : Option Bool
  deriving DecidableEq, Repr

/-- The written form. Absent fields and parameters are null so that the lists stay aligned, while
a missing partition or peer rule is left out. -/
def Assembled.toJson (a : Assembled) : Json :=
  .record [
    ("type", some (.str "window")),
    ("ops", some (.strings a.ops)),
    ("fields", some (.arr (a.fields.map fun f => .orNull (f.map .str)))),
    ("params", some (.arr (a.params.map fun p => .orNull (p.map .num)))),
    ("as", some (.strings a.names)),
    ("sort", some (.obj [
      ("field", .strings a.sortFields),
      ("order", .strings (a.sortDirections.map Direction.text))])),
    ("frame", some a.frame.toJson),
    ("groupby", a.partition.map .strings),
    ("ignorePeers", a.ignorePeers.map .bool)]

/-- Takes the columns and sort keys apart. An empty partition is no partition. -/
def Transform.assemble (t : Transform) : Assembled where
  ops := t.columns.map Column.op
  fields := t.columns.map Column.field
  params := t.columns.map Column.param
  names := t.columns.map Column.name
  sortFields := t.sortKeys.map SortKey.field
  sortDirections := t.sortKeys.map SortKey.direction
  frame := t.frame
  partition := t.partition.filter (· ≠ [])
  ignorePeers := t.ignorePeers

/-- A set of field names, with its elements in code point order. -/
abbrev FieldSet := Std.ExtTreeSet String

structure Node where
  transform : Transform
  normal : transform.IsNormal
  deriving DecidableEq, Repr

namespace Node

def ofTransform (t : Transform) : Node := ⟨t.normalize, t.normalize_isNormal⟩

/-- Reads an authored transform, which has to be an object. -/
def ofJson (v : Json) : Except DocumentError Node :=
  match Transform.form.readObject v with
  | .ok t => .ok (ofTransform t)
  | .error fault => .error (.transform fault)

/-- The text that identifies a node. -/
def text (n : Node) : String := n.transform.toJson.canonical

/-- The name by which equal nodes are found: the kind of the node and the digest of its text. -/
def hash (n : Node) : String :=
  "WindowTransform " ++ String.ofList (Num.intChars (Text.digest n.text).toInt)

def assemble (n : Node) : Assembled := n.transform.assemble

/-- The fields that have to be there before the node runs. -/
def dependentFields (n : Node) : FieldSet :=
  .ofList (n.transform.columns.filterMap Column.field ++ n.transform.partitionFields ++
    n.transform.sortKeys.map SortKey.field)

/-- The fields that are there once the node has run. -/
def producedFields (n : Node) : FieldSet :=
  .ofList (n.transform.columns.map Column.name ++ n.transform.partitionFields)

/-- Appends each field that is not yet there. -/
def extend (fields more : List String) : List String :=
  more.foldl (fun fields f => if f ∈ fields then fields else fields ++ [f]) fields

/-- The node whose partition is split further by `fields`. Without any, a node that has no
partition still has none. -/
def widen (n : Node) (fields : List String) : Node where
  transform :=
    { n.transform with
      partition :=
        match n.transform.partition, fields with
        | none, [] => none
        | partition, fields => some (extend (partition.getD []) fields) }
  normal := n.normal

theorem ofJson_eq_ok_iff {v : Json} {n : Node} :
    ofJson v = .ok n ↔ ∃ t, Transform.form.readObject v = .ok t ∧ ofTransform t = n := by
  rw [ofJson]
  cases Transform.form.readObject v <;> simp

theorem ofJson_eq_error_iff {v : Json} {e : DocumentError} :
    ofJson v = .error e ↔
      ∃ fault, Transform.form.readObject v = .error fault ∧ e = .transform fault := by
  rw [ofJson]
  cases Transform.form.readObject v <;> simp [eq_comm]

theorem eq_of_transform_eq {m n : Node} (h : m.transform = n.transform) : m = n := by
  cases m
  cases n
  rwa [mk.injEq]

@[simp] theorem ofTransform_transform (n : Node) : ofTransform n.transform = n := by
  obtain ⟨t, h⟩ := n
  simp [ofTransform, Transform.normalize_of_isNormal h]

end Node

end WindowFlow
