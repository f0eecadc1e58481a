import WindowFlow.Facet.Reader
import WindowFlow.Proofs.Reading.Overlooked
import WindowFlow.Proofs.Window.Shape
/-!
Padding of documents: members that no record lists, and nulls for members that may be left out. At
whatever record it stands, padding has no part in what a document is read as, nor in the fault that
is reported where it cannot be read.
-/
namespace WindowFlow

def Ranking.slots : List (String × Slot) :=
  [("op", .unlessNull id), ("field", .unlessNull id), ("order", .unlessNull id)]

/-- A sort is a record where it is an object. Listed cells are not looked into. -/
def Channel.slots : List (String × Slot) :=
  [("field", .always id), ("type", .always id), ("sort", .unlessNull (Json.trimRecord Ranking.slots))]

def Facet.slots : List (String × Slot) :=
  [("row", .unlessNull (Json.trimRecord Channel.slots)),
    ("column", .unlessNull (Json.trimRecord Channel.slots)),
    ("facet", .unlessNull (Json.trimRecord Channel.slots))]

/-- Drops what no record of a facet lists and the nulls that stand for nothing. -/
def Facet.trim : Json → Json := Json.trimRecord slots

open Members (required_left optional_left)
open Reader (overlooks_id overlooks_list)

theorem SortKey.overlooks : form.readObject.Overlooks (Json.trimRecord (slots id)) := by
  refine RecordForm.overlooks fun members hmembers => ?_
  simp only [form]
  rw [required_left rfl (overlooks_id _) hmembers, required_left rfl (overlooks_id _) hmembers]

theorem Column.overlooks : form.readObject.Overlooks (Json.trimRecord slots) := by
  refine RecordForm.overlooks fun members hmembers => ?_
  simp only [form]
  rw [required_left rfl (overlooks_id _) hmembers, optional_left rfl (overlooks_id _) hmembers,
    optional_left rfl (overlooks_id _) hmembers, optional_left rfl (overlooks_id _) hmembers]

theorem Transform.overlooks : form.readObject.Overlooks (trim id) := by
  refine RecordForm.overlooks fun members hmembers => ?_
  simp only [form]
  rw [required_left rfl (overlooks_list Column.overlooks) hmembers,
    optional_left rfl (overlooks_id _) hmembers,
    optional_left rfl (overlooks_list SortKey.overlooks) hmembers,
    optional_left rfl (overlooks_id _) hmembers, required_left rfl (overlooks_id _) hmembers]

theorem Ranking.overlooks : form.readObject.Overlooks (Json.trimRecord slots) := by
  refine RecordForm.overlooks fun members hmembers => ?_
  simp only [form]
  rw [optional_left rfl (overlooks_id _) hmembers, optional_left rfl (overlooks_id _) hmembers,
    optional_left rfl (overlooks_id _) hmembers]

theorem CellOrder.overlooks : CellOrder.read.Overlooks (Json.trimRecord Ranking.slots) where
  read_eq v hv := by
    cases v with
    | obj sort => exact congrArg (ranked <$> ·) (Ranking.overlooks.read_eq _ hv)
    | _ => rfl
  eq_null := Ranking.overlooks.eq_null

theorem Channel.overlooks : form.readObject.Overlooks (Json.trimRecord slots) := by
  refine RecordForm.overlooks fun members hmembers => ?_
  simp only [form]
  rw [required_left rfl (overlooks_id _) hmembers, required_left rfl (overlooks_id _) hmembers,
    optional_left rfl CellOrder.overlooks hmembers]

theorem Facet.overlooks : form.readObject.Overlooks trim := by
  refine RecordForm.overlooks fun members hmembers => ?_
  simp only [form]
  rw [optional_left rfl Channel.overlooks hmembers, optional_left rfl Channel.overlooks hmembers,
    optional_left rfl Channel.overlooks hmembers]

/-- Without its padding a document is read as the same node or facet, or with the same fault. Orders
in the form of an object are no records and stay as they are. -/
theorem padding_is_overlooked (v : Json) (hv : v.DistinctNames) :
    Node.ofJson (Transform.trim id v) = Node.ofJson v ∧
      Facet.ofJson (Facet.trim v) = Facet.ofJson v := by
  constructor
  · rw [Node.ofJson, Node.ofJson, Transform.overlooks.read_eq v hv]
  · rw [Facet.ofJson, Facet.ofJson, Facet.overlooks.read_eq v hv]

/-- Padded at each of its records; the only sort key has an unknown order and no field, and the
frame is missing. -/
def Json.paddedRanking : Json :=
  .obj [
    ("note", .str "draft"), ("groupby", .null),
    ("window", .arr [.obj [("op", .str "rank"), ("as", .null), ("tie", .bool true)]]),
    ("sort", .arr [.obj [("order", .str "up"), ("nulls", .null)]])]

/-- Padded at each of its records, but not within the cells of the column. -/
def Json.paddedCells : Json :=
  .obj [
    ("row", .null), ("spacing", .null),
    ("column", .obj [("field", .str "year"), ("type", .obj [("ordinal", .null)]), ("title", .null),
      ("sort", .arr [.null, .obj [("op", .null)]])]),
    ("facet", .obj [("field", .str "site"), ("type", .str "nominal"),
      ("sort", .obj [("op", .null), ("field", .str "yield"), ("by", .null)])])]

theorem padded_documents_read :
    Json.paddedRanking.DistinctNames ∧
      Node.ofJson (.obj [
        ("window", .arr [.obj [("op", .str "rank")]]),
        ("sort", .arr [.obj [("order", .str "up")]])]) = Node.ofJson Json.paddedRanking ∧
      Node.ofJson Json.paddedRanking =
        .error (.transform (.unknownVariant "up" ["ascending", "descending"])) ∧
      Json.paddedCells.DistinctNames ∧
      Facet.ofJson (.obj [
        ("column", .obj [("field", .str "year"), ("type", .obj [("ordinal", .null)]),
          ("sort", .arr [.null, .obj [("op", .null)]])]),
        ("facet", .obj [("field", .str "site"), ("type", .str "nominal"),
          ("sort", .obj [("field", .str "yield")])])]) = Facet.ofJson Json.paddedCells := by
  have hranking : Json.paddedRanking.DistinctNames := by simp [Json.paddedRanking]
  have hcells : Json.paddedCells.DistinctNames := by simp [Json.paddedCells]
  exact ⟨hranking, (padding_is_overlooked _ hranking).1, rfl, hcells,
    (padding_is_overlooked _ hcells).2⟩

end WindowFlow
