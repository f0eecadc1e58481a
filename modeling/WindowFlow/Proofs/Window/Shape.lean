import WindowFlow.Proofs.Reading.Shape
import WindowFlow.Proofs.Reading.Trim
import WindowFlow.Window.Node
/-!
The documents that are read as window transforms, and what is kept of them.
-/
namespace WindowFlow

open Json (SameValue)

namespace Json

/-- An end of a frame: null, or a whole number that fits a signed 64-bit word. -/
def IsBound (v : Json) : Prop :=
  v = .null ∨
    ∃ n fits, v = .num (.whole n fits) ∧ -0x8000000000000000 ≤ n ∧ n < 0x8000000000000000

def IsFrame (v : Json) : Prop :=
  ∃ start stop, v = .arr [start, stop] ∧ IsBound start ∧ IsBound stop

def IsSortKey (v : Json) : Prop :=
  ∃ members, v = .obj members ∧
    Has members "field" IsString ∧
    Has members "order" (IsOneOf ["ascending", "descending"])

def IsColumn (v : Json) : Prop :=
  ∃ members, v = .obj members ∧
    Has members "op" IsString ∧
    MayHave members "field" IsString ∧
    MayHave members "as" IsString ∧
    MayHave members "param" IsNumber

def IsTransform (v : Json) : Prop :=
  ∃ members, v = .obj members ∧
    Has members "window" (IsListOf IsColumn) ∧
    MayHave members "ignorePeers" IsBoolean ∧
    MayHave members "sort" (IsListOf IsSortKey) ∧
    MayHave members "groupby" (IsListOf IsString) ∧
    Has members "frame" IsFrame

end Json

theorem Reader.accepts_bound : (Reader.nullable .bound).Accepts Json.IsBound := by
  refine accepts_nullable fun v => ?_
  simp only [bound_eq_ok_iff]
  constructor
  · rintro ⟨n, rfl⟩
    exact ⟨n.toInt, _, rfl, n.le_toInt, n.toInt_lt⟩
  · rintro ⟨n, fits, rfl, hlow, hhigh⟩
    exact ⟨.ofInt n, by simp only [Num.ofInt64, Int64.toInt_ofInt_of_le hlow hhigh]⟩

theorem Frame.read_eq_ok_iff {v : Json} {f : Frame} :
    Frame.read v = .ok f ↔ ∃ start stop, v = .arr [start, stop] ∧
      Reader.nullable .bound start = .ok f.start ∧ Reader.nullable .bound stop = .ok f.stop := by
  obtain ⟨first, last⟩ := f
  fun_cases Frame.read v with
  | case1 => simp
  | case2 a => cases Reader.nullable .bound a <;> simp [bind, Except.bind]
  | case3 a b rest =>
    cases ha : Reader.nullable .bound a with
    | error fault => simp [bind, Except.bind, ha]
    | ok start =>
      cases hb : Reader.nullable .bound b with
      | error fault => simp [bind, Except.bind, hb]
      | ok stop => by_cases hrest : rest = [] <;> simp [bind, Except.bind, ha, hb, hrest]
  | case4 v _ _ hbounds => simpa using fun a b hv => absurd hv (hbounds a b [])

theorem Frame.accepts : Frame.read.Accepts Json.IsFrame := by
  intro v
  simp only [read_eq_ok_iff, Json.IsFrame, ← Reader.accepts_bound _]
  constructor
  · rintro ⟨f, a, b, hv, ha, hb⟩
    exact ⟨a, b, hv, ⟨f.start, ha⟩, ⟨f.stop, hb⟩⟩
  · rintro ⟨a, b, hv, ⟨start, ha⟩, ⟨stop, hb⟩⟩
    exact ⟨⟨start, stop⟩, a, b, hv, ha, hb⟩

theorem Direction.accepts : read.Accepts (Json.IsOneOf ["ascending", "descending"]) :=
  Reader.accepts_variant _

theorem SortKey.accepts : SortKey.form.readObject.Accepts Json.IsSortKey := by
  intro v
  simp only [RecordForm.exists_readObject_iff, SortKey.form, Draft.exists_seq_iff,
    Draft.exists_map_iff, Members.exists_required_iff Reader.accepts_string,
    Members.exists_required_iff Direction.accepts, Json.IsSortKey]

theorem Column.accepts : Column.form.readObject.Accepts Json.IsColumn := by
  intro v
  simp only [RecordForm.exists_readObject_iff, Column.form, Draft.exists_seq_iff,
    Draft.exists_map_iff, Members.exists_required_iff Reader.accepts_string,
    Members.exists_optional_iff Reader.accepts_string,
    Members.exists_optional_iff Reader.accepts_number, Json.IsColumn, and_assoc]

theorem Transform.accepts : Transform.form.readObject.Accepts Json.IsTransform := by
  intro v
  simp only [RecordForm.exists_readObject_iff, Transform.form, Draft.exists_seq_iff,
    Draft.exists_map_iff, Members.exists_required_iff (Reader.accepts_list Column.accepts),
    Members.exists_optional_iff Reader.accepts_boolean,
    Members.exists_optional_iff (Reader.accepts_list SortKey.accepts),
    Members.exists_optional_iff (Reader.accepts_list Reader.accepts_string),
    Members.exists_required_iff Frame.accepts, Json.IsTransform, and_assoc]

def SortKey.slots (order : Json → Json) : List (String × Slot) :=
  [("field", .always id), ("order", .always order)]

def Column.slots : List (String × Slot) :=
  [("op", .always id), ("field", .unlessNull id), ("as", .unlessNull id),
    ("param", .unlessNull id)]

def Transform.slots (order : Json → Json) : List (String × Slot) :=
  [("window", .always (Json.trimItems (Json.trimRecord Column.slots))),
    ("ignorePeers", .unlessNull id),
    ("sort", .unlessNull (Json.trimItems (Json.trimRecord (SortKey.slots order)))),
    ("groupby", .unlessNull id),
    ("frame", .always id)]

/-- Drops what no record of a transform lists and the nulls that stand for nothing, and treats each
order of a sort key by itself. -/
def Transform.trim (order : Json → Json) : Json → Json :=
  Json.trimRecord (slots order)

theorem Reader.keeps_bound :
    Reader.Keeps (Reader.nullable .bound) (fun o => .orNull (o.map fun n => .num (.ofInt64 n))) id := by
  refine keeps_nullable fun v n _ hread => ?_
  rw [bound_eq_ok_iff.1 hread]
  exact .refl _

theorem Frame.keeps : Frame.read.Keeps Frame.toJson id := by
  intro v f hv hread
  obtain ⟨a, b, rfl, ha, hb⟩ := read_eq_ok_iff.1 hread
  have hbounds := Json.distinctNames_arr_iff.1 hv
  refine .arr (.cons ?_ (.cons ?_ .nil))
  · exact Reader.keeps_bound a _ (hbounds a (by simp)) ha
  · exact Reader.keeps_bound b _ (hbounds b (by simp)) hb

theorem Direction.keeps : Direction.read.Keeps (fun d => .str d.text) Json.trimVariant :=
  Reader.keeps_variant (by decide)

theorem SortKey.keeps :
    SortKey.form.readObject.Keeps SortKey.toJson (Json.trimRecord (slots Json.trimVariant)) := by
  intro v k hv hread
  obtain ⟨members, rfl, hdraft⟩ := RecordForm.readObject_eq_ok_iff.1 hread
  have hnames := (Json.distinctNames_obj_iff.1 hv).1
  simp only [form, Draft.seq_eq_complete_iff, Draft.map_eq_complete_iff] at hdraft
  obtain ⟨_, direction, ⟨field, hfield, rfl⟩, horder, rfl⟩ := hdraft
  rw [toJson_eq_record]
  refine Json.sameValue_trimRecord (by simp) hnames (.cons ⟨rfl, ?_⟩ (.cons ⟨rfl, ?_⟩ .nil))
  · exact Members.required_keeps Reader.keeps_string hv hfield
  · exact Members.required_keeps Direction.keeps hv horder

theorem Column.keeps : Column.form.readObject.Keeps Column.toJson (Json.trimRecord slots) := by
  intro v c hv hread
  obtain ⟨members, rfl, hdraft⟩ := RecordForm.readObject_eq_ok_iff.1 hread
  have hnames := (Json.distinctNames_obj_iff.1 hv).1
  simp only [form, Draft.seq_eq_complete_iff, Draft.map_eq_complete_iff] at hdraft
  obtain ⟨_, param, ⟨_, label, ⟨_, field, ⟨op, hop, rfl⟩, hfield, rfl⟩, hlabel, rfl⟩, hparam, rfl⟩ :=
    hdraft
  refine Json.sameValue_trimRecord (by simp) hnames (.cons ⟨rfl, ?_⟩ (.cons ⟨rfl, ?_⟩
    (.cons ⟨rfl, ?_⟩ (.cons ⟨rfl, ?_⟩ .nil))))
  · exact Members.required_keeps Reader.keeps_string hv hop
  · exact Members.optional_keeps Reader.keeps_string hv hfield
  · exact Members.optional_keeps Reader.keeps_string hv hlabel
  · exact Members.optional_keeps Reader.keeps_number hv hparam

theorem Transform.keeps :
    Transform.form.readObject.Keeps Transform.toJson (trim Json.trimVariant) := by
  intro v t hv hread
  obtain ⟨members, rfl, hdraft⟩ := RecordForm.readObject_eq_ok_iff.1 hread
  have hnames := (Json.distinctNames_obj_iff.1 hv).1
  simp only [form, Draft.seq_eq_complete_iff, Draft.map_eq_complete_iff] at hdraft
  obtain ⟨_, frame, ⟨_, partition, ⟨_, sort, ⟨_, peers, ⟨columns, hcolumns, rfl⟩, hpeers, rfl⟩,
    hsort, rfl⟩, hpartition, rfl⟩, hframe, rfl⟩ := hdraft
  refine Json.sameValue_trimRecord (by simp) hnames (.cons ⟨rfl, ?_⟩ (.cons ⟨rfl, ?_⟩
    (.cons ⟨rfl, ?_⟩ (.cons ⟨rfl, ?_⟩ (.cons ⟨rfl, ?_⟩ .nil)))))
  · exact Members.required_keeps (Reader.keeps_list Column.keeps) hv hcolumns
  · exact Members.optional_keeps Reader.keeps_boolean hv hpeers
  · exact Members.optional_keeps (Reader.keeps_list SortKey.keeps) hv hsort
  · exact Members.optional_keeps Reader.keeps_strings hv hpartition
  · exact Members.required_keeps Frame.keeps hv hframe

/-- Exactly the values of the shape are read as nodes. What is read from such a value, as its author
wrote it, is the value without unknown members, without nulls for members that may be left out, and
with orders as plain names. -/
theorem reads_exactly_transforms (v : Json) :
    ((∃ n, Node.ofJson v = .ok n) ↔ v.IsTransform) ∧
      (v.IsTransform → v.DistinctNames →
        ∃ t, Transform.form.readObject v = .ok t ∧ Node.ofJson v = .ok (.ofTransform t) ∧
          SameValue t.toJson (Transform.trim Json.trimVariant v)) := by
  constructor
  · rw [← Transform.accepts v]
    simp [Node.ofJson_eq_ok_iff]
  · intro hshape hv
    obtain ⟨t, ht⟩ := (Transform.accepts v).2 hshape
    exact ⟨t, ht, Node.ofJson_eq_ok_iff.2 ⟨t, ht, rfl⟩, Transform.keeps v t hv ht⟩

/-- A ranking with an unknown member, a null label, an order as an object and no partition. -/
def Json.ranking : Json :=
  .obj [
    ("window", .arr [.obj [("op", .str "rank"), ("as", .null), ("note", .str "tie")]]),
    ("sort", .arr [.obj [("field", .str "score"), ("order", .obj [("descending", .null)])]]),
    ("groupby", .null),
    ("frame", .arr [.null, .num (.ofInt64 0)])]

theorem ranking_read :
    ∃ t, Node.ofJson Json.ranking = .ok (.ofTransform t) ∧
      SameValue t.toJson (.obj [
        ("window", .arr [.obj [("op", .str "rank")]]),
        ("sort", .arr [.obj [("field", .str "score"), ("order", .str "descending")]]),
        ("frame", .arr [.null, .num (.ofInt64 0)])]) := by
  have hshape : Json.ranking.IsTransform := (reads_exactly_transforms _).1.1 ⟨_, rfl⟩
  have hnames : Json.ranking.DistinctNames := by simp [Json.ranking]
  obtain ⟨t, -, hread, hkept⟩ := (reads_exactly_transforms Json.ranking).2 hshape hnames
  exact ⟨t, hread, hkept⟩

end WindowFlow
