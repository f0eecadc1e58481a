import WindowFlow.Proofs.Window.Identity
/-!
What is lost when a transform is taken apart into the lists of a runtime step. Read side by side,
the lists give back every column and every sort key; a sort or a partition that is empty comes back
as one that is absent, and that is all. The written form of a step loses nothing.
-/
namespace WindowFlow

open Json (SameValue)

namespace Assembled

/-- The columns, each from what the lists hold at one place. -/
def columns (a : Assembled) : List Column :=
  (a.ops.zip (a.fields.zip (a.names.zip a.params))).map fun (op, field, name, param) =>
    ⟨op, field, some name, param⟩

def sortKeys (a : Assembled) : List SortKey :=
  (a.sortFields.zip a.sortDirections).map fun (field, direction) => ⟨field, direction⟩

/-- The transform that a step computes. Without sort keys there is no sort. -/
def transform (a : Assembled) : Transform where
  columns := a.columns
  ignorePeers := a.ignorePeers
  sort := some a.sortKeys |>.filter (· ≠ [])
  partition := a.partition
  frame := a.frame

/-- There is an entry for each of so many columns in every list of columns, and a direction for each
sort key. -/
structure Aligned (a : Assembled) (count : Nat) : Prop where
  ops : a.ops.length = count
  fields : a.fields.length = count
  params : a.params.length = count
  names : a.names.length = count
  sort : a.sortFields.length = a.sortDirections.length

end Assembled

namespace Transform

/-- Leaves out a sort and a partition that hold nothing. -/
def dropEmpty (t : Transform) : Transform :=
  { t with sort := t.sort.filter (· ≠ []), partition := t.partition.filter (· ≠ []) }

variable {t : Transform}

theorem aligned_assemble (t : Transform) : t.assemble.Aligned t.columns.length where
  ops := by simp [assemble]
  fields := by simp [assemble]
  params := by simp [assemble]
  names := by simp [assemble]
  sort := by simp [assemble]

theorem sortKeys_dropEmpty (t : Transform) : t.dropEmpty.sortKeys = t.sortKeys := by
  obtain ⟨columns, peers, sort, partition, frame⟩ := t
  cases sort with
  | none => rfl
  | some keys => cases keys <;> rfl

theorem assemble_dropEmpty (t : Transform) : t.dropEmpty.assemble = t.assemble := by
  have hpartition : t.dropEmpty.partition.filter (· ≠ []) = t.partition.filter (· ≠ []) := by
    simp [dropEmpty, Option.filter_filter]
  rw [assemble, assemble, sortKeys_dropEmpty, hpartition]
  rfl

theorem columns_assemble (h : t.IsNormal) : t.assemble.columns = t.columns := by
  have hlabel : ∀ c ∈ t.columns, Column.mk c.op c.field (some c.name) c.param = c := by
    intro c hc
    obtain ⟨label, hlabel⟩ := Option.ne_none_iff_exists'.1 (h c hc).1
    rw [Column.name, hlabel, Option.getD_some, ← hlabel]
  calc t.assemble.columns
    _ = t.columns.map fun c => Column.mk c.op c.field (some c.name) c.param := by
      simp [Assembled.columns, assemble, List.zip_map', Function.comp_def]
    _ = t.columns.map id := List.map_congr_left hlabel
    _ = t.columns := List.map_id t.columns

theorem sortKeys_assemble (t : Transform) : t.assemble.sortKeys = t.sortKeys := by
  simp [Assembled.sortKeys, assemble, List.zip_map', Function.comp_def]

theorem transform_assemble (h : t.IsNormal) : t.assemble.transform = t.dropEmpty := by
  have hsort : (some t.sortKeys).filter (· ≠ []) = t.sort.filter (· ≠ []) := by
    rw [sortKeys]
    cases t.sort <;> simp
  rw [Assembled.transform, columns_assemble h, sortKeys_assemble, hsort]
  rfl

/-- Steps of normal forms tell all but an empty sort or partition from an absent one. -/
theorem assemble_eq_iff {s t : Transform} (hs : s.IsNormal) (ht : t.IsNormal) :
    s.assemble = t.assemble ↔ s.dropEmpty = t.dropEmpty := by
  constructor
  · intro h
    rw [← transform_assemble hs, ← transform_assemble ht, h]
  · intro h
    rw [← assemble_dropEmpty s, ← assemble_dropEmpty t, h]

end Transform

namespace Assembled

theorem eq_of_sameValue_sort {fields fields' : List String} {ds ds' : List Direction}
    (h : SameValue
      (.record [("field", some (.strings fields)), ("order", some (.strings (ds.map Direction.text)))])
      (.record [("field", some (.strings fields')),
        ("order", some (.strings (ds'.map Direction.text)))])) :
    fields = fields' ∧ ds = ds' := by
  have hrel := Json.rel_of_sameValue_record (by simp) (by simp) h
  simp only [List.forall₂_cons, Option.rel_some_some, List.forall₂_nil_left_iff, and_true] at hrel
  exact ⟨Reader.recovers_strings.eq_of_sameValue hrel.1,
    Reader.recovers_directions.eq_of_sameValue hrel.2⟩

/-- No two steps are written alike, whether or not their lists have one length. -/
theorem eq_of_sameValue {a b : Assembled} (h : SameValue a.toJson b.toJson) : a = b := by
  have hrel := Json.rel_of_sameValue_record (by simp) (by simp) h
  simp only [List.forall₂_cons, Option.rel_some_some, List.forall₂_nil_left_iff, and_true] at hrel
  obtain ⟨-, hops, hfields, hparams, hnames, hsort, hframe, hpartition, hpeers⟩ := hrel
  have hops := Reader.recovers_strings.eq_of_sameValue hops
  have hfields := (Reader.recovers_list (Reader.recovers_nullable Reader.recovers_string
    (by simp))).eq_of_sameValue hfields
  have hparams := (Reader.recovers_list (Reader.recovers_nullable Reader.recovers_number
    (by simp))).eq_of_sameValue hparams
  have hnames := Reader.recovers_strings.eq_of_sameValue hnames
  obtain ⟨hsortFields, hdirections⟩ := eq_of_sameValue_sort hsort
  have hframe := Frame.recovers.eq_of_sameValue hframe
  have hpartition := Reader.recovers_strings.eq_of_rel hpartition
  have hpeers := Reader.recovers_boolean.eq_of_rel hpeers
  obtain ⟨ops, fields, params, names, sortFields, directions, frame, partition, peers⟩ := a
  subst hops hfields hparams hnames hsortFields hdirections hframe hpartition hpeers
  rfl

theorem sameValue_toJson_iff {a b : Assembled} : SameValue a.toJson b.toJson ↔ a = b := by
  refine ⟨eq_of_sameValue, ?_⟩
  rintro rfl
  exact .refl _

end Assembled

namespace Json

mutual

/-- Forgets the signs of zeros. -/
def unsignZeros : Json → Json
  | .num n => .num n.unsignZero
  | .arr items => .arr (unsignItems items)
  | .obj ms => .obj (unsignMembers ms)
  | v => v

def unsignItems : List Json → List Json
  | [] => []
  | v :: rest => v.unsignZeros :: unsignItems rest

def unsignMembers : List (String × Json) → List (String × Json)
  | [] => []
  | (name, v) :: rest => (name, v.unsignZeros) :: unsignMembers rest

end

theorem unsignItems_eq_map (items : List Json) : unsignItems items = items.map unsignZeros := by
  induction items with
  | nil => rfl
  | cons v rest ih => rw [unsignItems, ih, List.map_cons]

theorem unsignMembers_eq_map (ms : List (String × Json)) :
    unsignMembers ms = ms.map fun m => (m.1, m.2.unsignZeros) := by
  induction ms with
  | nil => rfl
  | cons m rest ih => rw [unsignMembers, ih, List.map_cons]

@[simp] theorem unsignZeros_str (s : String) : (str s).unsignZeros = .str s := rfl

@[simp] theorem unsignZeros_bool (b : Bool) : (bool b).unsignZeros = .bool b := rfl

@[simp] theorem unsignZeros_num (n : Num) : (num n).unsignZeros = .num n.unsignZero := rfl

@[simp] theorem unsignZeros_arr (items : List Json) :
    (arr items).unsignZeros = .arr (items.map unsignZeros) := by
  rw [unsignZeros, unsignItems_eq_map]

@[simp] theorem unsignZeros_obj (ms : List (String × Json)) :
    (obj ms).unsignZeros = .obj (ms.map fun m => (m.1, m.2.unsignZeros)) := by
  rw [unsignZeros, unsignMembers_eq_map]

@[simp] theorem unsignZeros_strings (xs : List String) : (strings xs).unsignZeros = strings xs := by
  simp [strings]

@[simp] theorem unsignZeros_orNull (o : Option Json) :
    (orNull o).unsignZeros = orNull (o.map unsignZeros) := by
  cases o <;> rfl

theorem unsignZeros_record (ms : List (String × Option Json)) :
    (record ms).unsignZeros = record (ms.map fun m => (m.1, m.2.map unsignZeros)) := by
  simp [record, List.map_filterMap, List.filterMap_map, Function.comp_def]

/-- Values are compared kind by kind, members by their names, and a zero has no sign. -/
def Alike (v w : Json) : Prop := SameValue v.unsignZeros w.unsignZeros

end Json

@[simp] theorem Frame.unsignZeros_toJson (f : Frame) : f.toJson.unsignZeros = f.toJson := by
  simp [toJson, Num.ofInt64, Num.unsignZero, Function.comp_def]

namespace Assembled

def unsignZeros (a : Assembled) : Assembled :=
  { a with params := a.params.map (Option.map Num.unsignZero) }

def Alike (a b : Assembled) : Prop := a.unsignZeros = b.unsignZeros

theorem toJson_unsignZeros (a : Assembled) : a.unsignZeros.toJson = a.toJson.unsignZeros := by
  rw [toJson, toJson, Json.unsignZeros_record]
  simp [unsignZeros, Function.comp_def]

theorem alike_toJson_iff {a b : Assembled} : a.toJson.Alike b.toJson ↔ a.Alike b := by
  rw [Json.Alike, ← toJson_unsignZeros, ← toJson_unsignZeros, sameValue_toJson_iff, Alike]

end Assembled

/-- The step of a node has no signed zero. -/
theorem Node.unsignZeros_assemble (n : Node) : n.assemble.unsignZeros = n.assemble := by
  have hparams : n.transform.columns.map (Option.map Num.unsignZero ∘ Column.param) =
      n.transform.columns.map Column.param :=
    List.map_congr_left fun c hc =>
      congrArg Column.param (Column.unsignZero_of_isNormal (n.normal c hc))
  simp only [assemble, Assembled.unsignZeros, Transform.assemble, List.map_map]
  rw [hparams]

theorem Node.alike_assemble_iff {m n : Node} :
    m.assemble.Alike n.assemble ↔ m.transform.dropEmpty = n.transform.dropEmpty := by
  rw [Assembled.Alike, unsignZeros_assemble, unsignZeros_assemble, assemble, assemble,
    Transform.assemble_eq_iff m.normal n.normal]

/-- The lists of a step have one length and give back the transform in normal form, where an empty
sort or partition is absent. So steps and their written forms tell apart just the transforms that
differ in more than that, and written forms tell all steps apart; it does not matter whether a zero
has a sign. -/
theorem assembly_loses_empty_lists_only (t : Transform) (m n : Node) (a b : Assembled) :
    (Node.ofTransform t).assemble.Aligned t.columns.length ∧
      (Node.ofTransform t).assemble.transform = t.normalize.dropEmpty ∧
      (m.assemble = n.assemble ↔ m.transform.dropEmpty = n.transform.dropEmpty) ∧
      (SameValue m.assemble.toJson n.assemble.toJson ↔
        m.transform.dropEmpty = n.transform.dropEmpty) ∧
      (m.assemble.Alike n.assemble ↔ m.transform.dropEmpty = n.transform.dropEmpty) ∧
      (m.assemble.toJson.Alike n.assemble.toJson ↔
        m.transform.dropEmpty = n.transform.dropEmpty) ∧
      (SameValue a.toJson b.toJson ↔ a = b) ∧
      (a.toJson.Alike b.toJson ↔ a.Alike b) := by
  have hnodes := Transform.assemble_eq_iff m.normal n.normal
  have haligned := t.normalize.aligned_assemble
  rw [Transform.normalize, List.length_map] at haligned
  refine ⟨haligned, Transform.transform_assemble t.normalize_isNormal, hnodes, ?_,
    Node.alike_assemble_iff, ?_, Assembled.sameValue_toJson_iff, Assembled.alike_toJson_iff⟩
  · rw [Assembled.sameValue_toJson_iff]
    exact hnodes
  · rw [Assembled.alike_toJson_iff, Node.alike_assemble_iff]

end WindowFlow
