import WindowFlow.Window.Node
/-!
Facets: how a view is split into cells by rows, by columns or by a wrapped sequence, and in which
order the cells of each channel stand. Cells ordered by an aggregate need that aggregate on every
row before they are laid out; nobody writes the window that computes it, so it is derived here.
-/
namespace WindowFlow

/-- The level of measurement of a field. -/
inductive Measure where
  | nominal
  | ordinal
  | quantitative
  | temporal
  deriving DecidableEq, Repr

def Measure.text : Measure → String
  | .nominal => "nominal"
  | .ordinal => "ordinal"
  | .quantitative => "quantitative"
  | .temporal => "temporal"

/-- An order of cells by an aggregate over each cell. The direction is for the layout of the cells
and has no part in computing the aggregate. -/
structure Ranking where
  op : Option String
  field : Option String
  direction : Option Direction
  deriving DecidableEq, Repr

namespace Ranking

/-- Cells are ranked by their minimum unless the author says otherwise. -/
def aggregate (r : Ranking) : String := r.op.getD "min"

/-- There is something to aggregate: a field, or the rows themselves. -/
def IsAggregate (r : Ranking) : Prop := r.field.isSome ∨ r.aggregate = "count"

instance (r : Ranking) : Decidable r.IsAggregate :=
  inferInstanceAs (Decidable (_ ∨ _))

/-- The column that holds the aggregate for a channel over the field `cell`. -/
def columnName (r : Ranking) (cell : String) : String :=
  match r.field with
  | some field => r.aggregate ++ "_" ++ field ++ "_by_" ++ cell
  | none => r.aggregate ++ "_by_" ++ cell

end Ranking

/-- The order of a channel's cells: by the field itself, by an explicit list, or by rank. -/
inductive CellOrder where
  | natural (direction : Direction)
  | listed (values : List Json)
  | ranked (ranking : Ranking)
  deriving Repr

/-- The ranking that needs an aggregate computed, if there is one. -/
def CellOrder.aggregate? : CellOrder → Option Ranking
  | .ranked r => if r.IsAggregate then some r else none
  | _ => none

structure Channel where
  field : String
  measure : Measure
  order : Option CellOrder
  deriving Repr

structure Facet where
  row : Option Channel
  column : Option Channel
  wrapped : Option Channel
  deriving Repr

/-- The channels in use, with their names, rows first. -/
def Facet.channels (f : Facet) : List (String × Channel) :=
  [("row", f.row), ("column", f.column), ("facet", f.wrapped)].filterMap fun (name, channel) =>
    channel.map (name, ·)

/-- The aggregate over each cell of a channel, as a window over the cell's rows. -/
def Ranking.window (r : Ranking) (cell : String) : Transform where
  columns := [{ op := r.aggregate, field := r.field, label := r.columnName cell, param := none }]
  ignorePeers := none
  sort := none
  partition := some [cell]
  frame := .unbounded

def Channel.window? (c : Channel) : Option Node := do
  let order ← c.order
  let ranking ← order.aggregate?
  return .ofTransform (ranking.window c.field)

theorem Channel.window?_eq (c : Channel) :
    c.window? = (c.order.bind CellOrder.aggregate?).map fun r => .ofTransform (r.window c.field) := by
  simp only [window?, Option.bind_eq_bind, Option.pure_def]
  rw [← Option.bind_assoc, Option.map_eq_bind]
  rfl

/-- One node for each channel whose cells are ranked by an aggregate, in channel order. -/
def Facet.windows (f : Facet) : List Node :=
  f.channels.filterMap fun (_, channel) => channel.window?

end WindowFlow
