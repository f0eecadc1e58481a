import WindowFlow.Facet.Reader
import WindowFlow.Proofs.Window.Shape
/-!
The documents that are read as facets, and the facet that each of them gives. What the sort of a
channel is read as is told by the kind of its value alone.
-/
namespace WindowFlow

namespace Json

def IsRanking (v : Json) : Prop :=
  ∃ members, v = .obj members ∧
    MayHave members "op" IsString ∧
    MayHave members "field" IsString ∧
    MayHave members "order" (IsOneOf ["ascending", "descending"])

/-- A list of cells may hold anything. -/
def IsCellOrder (v : Json) : Prop :=
  v = .str "ascending" ∨ v = .str "descending" ∨ (∃ values, v = .arr values) ∨ IsRanking v

def IsChannel (v : Json) : Prop :=
  ∃ members, v = .obj members ∧
    Has members "field" IsString ∧
    Has members "type" (IsOneOf ["nominal", "ordinal", "quantitative", "temporal"]) ∧
    MayHave members "sort" IsCellOrder

def IsFacet (v : Json) : Prop :=
  ∃ members, v = .obj members ∧
    MayHave members "row" IsChannel ∧
    MayHave members "column" IsChannel ∧
    MayHave members "facet" IsChannel

end Json

theorem Ranking.accepts : form.readObject.Accepts Json.IsRanking := by
  intro v
  simp only [RecordForm.exists_readObject_iff, form, Draft.exists_seq_iff, Draft.exists_map_iff,
    Members.exists_optional_iff Reader.accepts_string,
    Members.exists_optional_iff Direction.accepts, Json.IsRanking, and_assoc]

theorem CellOrder.accepts : read.Accepts Json.IsCellOrder := by
  intro v
  cases v with
  | str s =>
    have hname : (∃ d, Direction.read (.str s) = .ok d) ↔ s = "ascending" ∨ s = "descending" := by
      simp [Direction.accepts (.str s), Json.IsOneOf]
    simp [read, Reader.map_eq_ok_iff, hname, Json.IsCellOrder, Json.IsRanking]
  | obj sort => simp [read, Reader.map_eq_ok_iff, Ranking.accepts (.obj sort), Json.IsCellOrder]
  | _ => simp [read, Json.IsCellOrder, Json.IsRanking]

theorem Measure.accepts :
    read.Accepts (Json.IsOneOf ["nominal", "ordinal", "quantitative", "temporal"]) :=
  Reader.accepts_variant _

theorem Channel.accepts : form.readObject.Accepts Json.IsChannel := by
  intro v
  simp only [RecordForm.exists_readObject_iff, form, Draft.exists_seq_iff, Draft.exists_map_iff,
    Members.exists_required_iff Reader.accepts_string,
    Members.exists_required_iff Measure.accepts,
    Members.exists_optional_iff CellOrder.accepts, Json.IsChannel, and_assoc]

theorem Facet.accepts : form.readObject.Accepts Json.IsFacet := by
  intro v
  simp only [RecordForm.exists_readObject_iff, form, Draft.exists_seq_iff, Draft.exists_map_iff,
    Members.exists_optional_iff Channel.accepts, Json.IsFacet, and_assoc]

namespace Json

def GivesRanking (v : Json) (r : Ranking) : Prop :=
  ∃ members, v = .obj members ∧
    MayHold members "op" (fun v s => v = .str s) r.op ∧
    MayHold members "field" (fun v s => v = .str s) r.field ∧
    MayHold members "order" (fun v d => v.Picks d.text) r.direction

/-- A string gives a direction, an array its own items, and an object a ranking. -/
inductive GivesCellOrder : Json → CellOrder → Prop where
  | natural (d : Direction) : GivesCellOrder (.str d.text) (.natural d)
  | listed (values : List Json) : GivesCellOrder (.arr values) (.listed values)
  | ranked {sort : List (String × Json)} {r : Ranking} (hsort : GivesRanking (.obj sort) r) :
    GivesCellOrder (.obj sort) (.ranked r)

def GivesChannel (v : Json) (c : Channel) : Prop :=
  ∃ members, v = .obj members ∧
    Holds members "field" (fun v s => v = .str s) c.field ∧
    Holds members "type" (fun v m => v.Picks m.text) c.measure ∧
    MayHold members "sort" GivesCellOrder c.order

def GivesFacet (v : Json) (f : Facet) : Prop :=
  ∃ members, v = .obj members ∧
    MayHold members "row" GivesChannel f.row ∧
    MayHold members "column" GivesChannel f.column ∧
    MayHold members "facet" GivesChannel f.wrapped

end Json

theorem Direction.gives : read.Gives fun v d => v.Picks d.text :=
  Reader.gives_variant (by decide) fun d => by cases d <;> rfl

theorem Measure.gives : read.Gives fun v m => v.Picks m.text :=
  Reader.gives_variant (by decide) fun m => by cases m <;> rfl

theorem Ranking.gives : form.readObject.Gives Json.GivesRanking := by
  rintro v ⟨op, field, direction⟩
  simp [RecordForm.readObject_eq_ok_iff, form, Draft.seq_eq_complete_iff, Draft.map_eq_complete_iff,
    Members.optional_iff_mayHold Reader.gives_string,
    Members.optional_iff_mayHold Direction.gives, Json.GivesRanking]

theorem CellOrder.gives : read.Gives Json.GivesCellOrder := by
  intro v order
  constructor
  · intro h
    cases v with
    | str s =>
      obtain ⟨d, hd, rfl⟩ := Reader.map_eq_ok_iff.1 h
      obtain hs | hs := (Direction.gives _ _).1 hd <;> cases hs
      exact .natural d
    | arr values =>
      cases h
      exact .listed values
    | obj sort =>
      obtain ⟨r, hr, rfl⟩ := Reader.map_eq_ok_iff.1 h
      exact .ranked ((Ranking.gives _ _).1 hr)
    | _ => cases h
  · intro h
    cases h with
    | natural d => exact Reader.map_eq_ok_iff.2 ⟨d, (Direction.gives _ _).2 (.inl rfl), rfl⟩
    | listed values => rfl
    | ranked hsort => exact Reader.map_eq_ok_iff.2 ⟨_, (Ranking.gives _ _).2 hsort, rfl⟩

theorem Channel.gives : form.readObject.Gives Json.GivesChannel := by
  rintro v ⟨field, measure, order⟩
  simp [RecordForm.readObject_eq_ok_iff, form, Draft.seq_eq_complete_iff, Draft.map_eq_complete_iff,
    Members.required_iff_holds Reader.gives_string, Members.required_iff_holds Measure.gives,
    Members.optional_iff_mayHold CellOrder.gives, Json.GivesChannel]

theorem Facet.gives : form.readObject.Gives Json.GivesFacet := by
  rintro v ⟨row, column, wrapped⟩
  simp [RecordForm.readObject_eq_ok_iff, form, Draft.seq_eq_complete_iff, Draft.map_eq_complete_iff,
    Members.optional_iff_mayHold Channel.gives, Json.GivesFacet]

/-- Exactly the values of the shape are read as facets, and what is read is what the value gives. -/
theorem reads_exactly_facets (v : Json) :
    ((∃ f, Facet.ofJson v = .ok f) ↔ v.IsFacet) ∧
      ∀ f, Facet.ofJson v = .ok f ↔ v.GivesFacet f := by
  simp only [Facet.ofJson_eq_ok_iff]
  exact ⟨Facet.accepts v, Facet.gives v⟩

/-- An object in place of a sort ranks the cells even where it would pick a direction, and a list is
kept as it is even where its items would make up a ranking. -/
example : Facet.ofJson (.obj [
    ("row", .obj [("field", .str "site"), ("type", .obj [("nominal", .null)]),
      ("sort", .obj [("descending", .null)])]),
    ("column", .obj [("field", .str "year"), ("type", .str "temporal"),
      ("sort", .arr [.str "count", .null, .str "descending"])])]) =
      .ok ⟨some ⟨"site", .nominal, some (.ranked ⟨none, none, none⟩)⟩,
        some ⟨"year", .temporal, some (.listed [.str "count", .null, .str "descending"])⟩, none⟩ := by
  rfl

end WindowFlow
