import WindowFlow.Facet.Basic
/-!
How facets are read. The order of cells is told apart by the kind of its JSON value alone: a string
is a direction, an array lists the cells, an object ranks them.
-/
namespace WindowFlow

def Measure.read : Reader Measure :=
  .variant [
    ("nominal", .nominal), ("ordinal", .ordinal),
    ("quantitative", .quantitative), ("temporal", .temporal)]

def Ranking.form : RecordForm Ranking where
  name := "FacetSortField"
  members := ["op", "field", "order"]
  draft members := Ranking.mk
    <$> members.optional "op" .string
    <*> members.optional "field" .string
    <*> members.optional "order" Direction.read

def CellOrder.read : Reader CellOrder
  | .str name => .natural <$> Direction.read (.str name)
  | .arr values => .ok (.listed values)
  | .obj members => .ranked <$> Ranking.form.readObject (.obj members)
  | v => .error (.unreadableSort v)

def Channel.form : RecordForm Channel where
  name := "FacetFieldDef"
  members := ["field", "type", "sort"]
  draft members := Channel.mk
    <$> members.required "field" .string
    <*> members.required "type" Measure.read
    <*> members.optional "sort" CellOrder.read

def Facet.form : RecordForm Facet where
  name := "FacetMapping"
  members := ["row", "column", "facet"]
  draft members := Facet.mk
    <$> members.optional "row" Channel.form.readObject
    <*> members.optional "column" Channel.form.readObject
    <*> members.optional "facet" Channel.form.readObject

/-- Reads an authored facet, which has to be an object. -/
def Facet.ofJson (v : Json) : Except DocumentError Facet :=
  match Facet.form.readObject v with
  | .ok f => .ok f
  | .error fault => .error (.facet fault)

theorem Facet.ofJson_eq_ok_iff {v : Json} {f : Facet} :
    ofJson v = .ok f ↔ form.readObject v = .ok f := by
  rw [ofJson]
  cases form.readObject v <;> simp

theorem Facet.ofJson_eq_error_iff {v : Json} {e : DocumentError} :
    ofJson v = .error e ↔ ∃ fault, form.readObject v = .error fault ∧ e = .facet fault := by
  rw [ofJson]
  cases form.readObject v <;> simp [eq_comm]

end WindowFlow
