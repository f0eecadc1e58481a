import Mathlib.Tactic.MkIffOfInductiveProp
import WindowFlow.Proofs.Json.CanonicalText
import WindowFlow.Proofs.Json.Value
import WindowFlow.Proofs.Window.Recovery
/-!
When two authored transforms are one node. The members that decide it are those that a run can tell
apart; the normal forms, their texts and hence the hashes agree on exactly these.
-/
namespace WindowFlow

open Json (SameValue)

namespace Num

theorem unsignZero_of_isCanonical {p : Num} (h : p.IsCanonical) : p.unsignZero = p := by
  cases p with
  | whole n fits => rfl
  | float x =>
    have hrank : x.rank ≠ 0 := mt Binary64.isSafeInteger_of_rank_eq_zero h
    simp [unsignZero, Binary64.isZero, hrank]

end Num

/-- The same but for the kind of a parameter and for a label that says what is understood. -/
@[mk_iff]
structure Column.SameWork (c d : Column) : Prop where
  op : c.op = d.op
  field : c.field = d.field
  name : c.name = d.name
  param : Option.Rel Num.Interchangeable c.param d.param

@[mk_iff]
structure Transform.SameWork (s t : Transform) : Prop where
  columns : List.Forall₂ Column.SameWork s.columns t.columns
  ignorePeers : s.ignorePeers = t.ignorePeers
  sort : s.sort = t.sort
  partition : s.partition = t.partition
  frame : s.frame = t.frame

theorem Column.normalize_eq_iff {c d : Column} : c.normalize = d.normalize ↔ c.SameWork d := by
  have hparam : c.param.map Num.canonical = d.param.map Num.canonical ↔
      Option.Rel Num.Interchangeable c.param d.param := by
    cases c.param <;> cases d.param <;> simp [Num.canonical_eq_canonical_iff]
  rw [normalize, normalize, mk.injEq, Option.some_inj, hparam, sameWork_iff]

theorem Transform.normalize_eq_iff {s t : Transform} : s.normalize = t.normalize ↔ s.SameWork t := by
  have hcolumns : s.columns.map Column.normalize = t.columns.map Column.normalize ↔
      List.Forall₂ Column.SameWork s.columns t.columns := by
    rw [← List.forall₂_eq_eq_eq, List.forall₂_map_left_iff, List.forall₂_map_right_iff]
    simp only [Column.normalize_eq_iff]
  rw [normalize, normalize, mk.injEq, hcolumns, sameWork_iff]

theorem Node.ofTransform_eq_iff {s t : Transform} :
    Node.ofTransform s = Node.ofTransform t ↔ s.SameWork t := by
  rw [ofTransform, ofTransform, mk.injEq, Transform.normalize_eq_iff]

theorem Frame.distinctNames_toJson (f : Frame) : f.toJson.DistinctNames := by
  have hbound : ∀ bound : Option Int64,
      (Json.orNull (bound.map fun n => .num (.ofInt64 n))).DistinctNames := by
    rintro (_ | n)
    · exact .null
    · exact .num _
  simp [toJson, hbound]

theorem SortKey.distinctNames_toJson (k : SortKey) : k.toJson.DistinctNames := by
  simp [toJson]

theorem Column.distinctNames_toJson (c : Column) : c.toJson.DistinctNames := by
  refine Json.distinctNames_record (by simp) ?_
  simp only [List.forall_mem_cons, Option.forall_mem_map]
  simp

theorem Transform.distinctNames_toJson (t : Transform) : t.toJson.DistinctNames := by
  refine Json.distinctNames_record (by simp) ?_
  simp only [List.forall_mem_cons, Option.forall_mem_map]
  simp [Json.strings, Column.distinctNames_toJson, SortKey.distinctNames_toJson,
    Frame.distinctNames_toJson]

/-- The canonical text of a transform tells it from every other. -/
theorem Transform.canonical_toJson_eq_iff {s t : Transform} :
    s.toJson.canonical = t.toJson.canonical ↔ s = t := by
  constructor
  · intro h
    have hsame : SameValue s.toJson t.toJson :=
      Json.sameValue_of_canonical_eq s.distinctNames_toJson t.distinctNames_toJson h
    exact recovers.eq_of_sameValue hsame
  · rintro rfl
    rfl

/-- Nodes are compared by their transforms, where a zero has no sign, and by their hashes. -/
def Node.Alike (m n : Node) : Prop := m.transform.Alike n.transform ∧ m.hash = n.hash

theorem Column.unsignZero_of_isNormal {c : Column} (h : c.IsNormal) :
    { c with param := c.param.map Num.unsignZero } = c := by
  obtain ⟨op, field, label, param⟩ := c
  cases param with
  | none => rfl
  | some p => simp [Num.unsignZero_of_isCanonical (h.2 p rfl)]

theorem Transform.unsignZeros_of_isNormal {t : Transform} (h : t.IsNormal) : t.unsignZeros = t := by
  have hcolumns : (t.columns.map fun c => { c with param := c.param.map Num.unsignZero }) =
      t.columns.map id :=
    List.map_congr_left fun c hc => Column.unsignZero_of_isNormal (h c hc)
  simp [unsignZeros, hcolumns]

theorem Node.alike_iff_eq {m n : Node} : m.Alike n ↔ m = n := by
  rw [Alike, Transform.Alike, Transform.unsignZeros_of_isNormal m.normal,
    Transform.unsignZeros_of_isNormal n.normal]
  constructor
  · rintro ⟨h, -⟩
    cases m
    cases n
    rwa [mk.injEq]
  · rintro rfl
    exact ⟨rfl, rfl⟩

/-- Two authored transforms are one node exactly when they ask for the same work: under either
equality of nodes, and by their canonical texts. Then their hashes and runtime steps agree. -/
theorem same_node_iff_same_work (s t : Transform) :
    (Node.ofTransform s = .ofTransform t ↔ s.SameWork t) ∧
      ((Node.ofTransform s).Alike (.ofTransform t) ↔ s.SameWork t) ∧
      (s.normalize.toJson.canonical = t.normalize.toJson.canonical ↔ s.SameWork t) ∧
      (s.SameWork t → (Node.ofTransform s).hash = (Node.ofTransform t).hash ∧
        (Node.ofTransform s).assemble = (Node.ofTransform t).assemble) := by
  refine ⟨Node.ofTransform_eq_iff, ?_, ?_, fun h => ?_⟩
  · rw [Node.alike_iff_eq, Node.ofTransform_eq_iff]
  · rw [Transform.canonical_toJson_eq_iff, Transform.normalize_eq_iff]
  · rw [Node.ofTransform_eq_iff.2 h]
    exact ⟨rfl, rfl⟩

/-- Tiles of a partition, by their number. -/
def Transform.tiles (label : Option String) (count : Num) : Transform where
  columns := [⟨"ntile", none, label, some count⟩]
  ignorePeers := none
  sort := some []
  partition := none
  frame := .unbounded

/-- Four tiles, written as `4.0` without a label and as `4` with the label that is understood. -/
theorem four_tiles_same_node :
    let float := Transform.tiles none (.float ⟨false, 0x4010000000000000, by decide⟩)
    let whole := Transform.tiles (some "ntile") (.whole 4 (by decide))
    float.SameWork whole ∧ (Node.ofTransform float).hash = (Node.ofTransform whole).hash := by
  intro float whole
  obtain ⟨hnode, -, -, hagree⟩ := same_node_iff_same_work float whole
  have hwork : float.SameWork whole := hnode.1 (by decide +kernel)
  exact ⟨hwork, (hagree hwork).1⟩

end WindowFlow
