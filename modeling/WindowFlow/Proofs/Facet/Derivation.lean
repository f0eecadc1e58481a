import WindowFlow.Facet.Basic
import WindowFlow.Proofs.Facet.Shape
import WindowFlow.Proofs.Window.Recovery
/-!
The windows of a facet, told from the document that the facet is read from. Of each channel three
things count: its field, and the operation and the field of its sort. The window is the one that an
author would have written for them.
-/
namespace WindowFlow

namespace Json

/-- What an object holds under a name. -/
def member? : Json → String → Option Json
  | .obj members, name => members.lookup name
  | _, _ => none

def string? : Json → Option String
  | .str s => some s
  | _ => none

end Json

/-- An aggregate over each cell of a channel. A count of rows does without a field. -/
structure CellAggregate where
  cell : String
  op : String
  field : Option String
  deriving DecidableEq, Repr

namespace CellAggregate

def name (a : CellAggregate) : String :=
  match a.field with
  | some field => a.op ++ "_" ++ field ++ "_by_" ++ a.cell
  | none => a.op ++ "_by_" ++ a.cell

/-- The transform of an author who computes the aggregate over each cell. -/
def authored (a : CellAggregate) : Json :=
  .obj [
    ("window", .arr [.record [
      ("op", some (.str a.op)), ("field", a.field.map .str), ("as", some (.str a.name))]]),
    ("groupby", .arr [.str a.cell]),
    ("frame", .arr [.null, .null])]

end CellAggregate

namespace Json

/-- A sort of cells that takes an aggregate: by some field, or by the count of rows. -/
def IsAggregateSort (sort : List (String × Json)) : Prop :=
  (∃ field, sort.lookup "field" = some (.str field)) ∨ sort.lookup "op" = some (.str "count")

/-- A channel with such a sort. -/
def RanksCells (channel : Json) : Prop :=
  ∃ members sort, channel = .obj members ∧ members.lookup "sort" = some (.obj sort) ∧
    IsAggregateSort sort

/-- The aggregate that the sort of a channel takes, the minimum where it names none. -/
def cellAggregate? (channel : Json) : Option CellAggregate :=
  match channel.member? "field", channel.member? "sort" with
  | some (.str cell), some (.obj sort) =>
    let op := ((sort.lookup "op").bind string?).getD "min"
    let field := (sort.lookup "field").bind string?
    if field.isSome ∨ op = "count" then some ⟨cell, op, field⟩ else none
  | _, _ => none

/-- The aggregates of a facet, those of its rows first. -/
def cellAggregates (facet : Json) : List CellAggregate :=
  ["row", "column", "facet"].filterMap fun key => (facet.member? key).bind cellAggregate?

end Json

theorem Json.bind_string?_eq_some_iff {found : Option Json} {s : String} :
    found.bind string? = some s ↔ found = some (.str s) := by
  rcases found with _ | v
  · simp
  · cases v <;> simp [string?]

theorem Json.MayHold.string_eq {members : List (String × Json)} {name : String} {o : Option String}
    (h : MayHold members name (fun v s => v = .str s) o) : o = (members.lookup name).bind string? := by
  obtain ⟨rfl, hv | hv⟩ | ⟨v, s, rfl, hv, -, rfl⟩ := Members.rel_given_cases h
  all_goals
    rw [hv]
    rfl

theorem Ranking.toJson_window (r : Ranking) (cell : String) :
    (r.window cell).toJson = (CellAggregate.mk cell r.aggregate r.field).authored := by
  obtain ⟨op, field, direction⟩ := r
  cases field <;> rfl

theorem Ranking.read_obj {sort : List (String × Json)} {r : Ranking}
    (h : form.readObject (.obj sort) = .ok r) :
    r.op = (sort.lookup "op").bind Json.string? ∧
      r.field = (sort.lookup "field").bind Json.string? := by
  obtain ⟨members, hmembers, hop, hfield, -⟩ := (gives _ r).1 h
  cases hmembers
  exact ⟨hop.string_eq, hfield.string_eq⟩

theorem Ranking.isAggregate_iff {sort : List (String × Json)} {r : Ranking}
    (h : form.readObject (.obj sort) = .ok r) : r.IsAggregate ↔ Json.IsAggregateSort sort := by
  obtain ⟨hop, hfield⟩ := read_obj h
  refine or_congr ?_ ?_
  · rw [hfield, Option.isSome_iff_exists]
    exact exists_congr fun _ => Json.bind_string?_eq_some_iff
  · rw [← Json.bind_string?_eq_some_iff, ← hop, aggregate]
    cases r.op <;> simp

/-- An accepted channel ranks its cells where its sort is an object, and only there. -/
theorem Channel.read_cases {v : Json} {c : Channel} (h : form.readObject v = .ok c) :
    (∃ members sort r, v = .obj members ∧ members.lookup "field" = some (.str c.field) ∧
        members.lookup "sort" = some (.obj sort) ∧ Ranking.form.readObject (.obj sort) = .ok r ∧
        c.order = some (.ranked r)) ∨
      ((∀ sort, v.member? "sort" ≠ some (.obj sort)) ∧ c.order.bind CellOrder.aggregate? = none) := by
  obtain ⟨members, rfl, ⟨_, hfield, rfl⟩, -, horder⟩ := (gives v c).1 h
  obtain ⟨hnone, hsort⟩ | ⟨v, order, hsome, hsort, -, hgives⟩ := Members.rel_given_cases horder
  · rw [hnone]
    exact .inr ⟨fun sort => by rcases hsort with hv | hv <;> simp [Json.member?, hv], rfl⟩
  · rw [hsome]
    cases hgives with
    | natural d => exact .inr ⟨by simp [Json.member?, hsort], rfl⟩
    | listed values => exact .inr ⟨by simp [Json.member?, hsort], rfl⟩
    | @ranked sort r hr =>
      exact .inl ⟨members, sort, r, rfl, hfield, hsort, (Ranking.gives _ r).2 hr, rfl⟩

variable {v : Json} {c : Channel}

/-- The aggregate that is asked for is that of the ranking, over the field of the channel. -/
theorem Channel.cellAggregate?_eq (h : form.readObject v = .ok c) :
    v.cellAggregate? =
      (c.order.bind CellOrder.aggregate?).map fun r => ⟨c.field, r.aggregate, r.field⟩ := by
  obtain ⟨members, sort, r, rfl, hfield, hsort, hr, horder⟩ | ⟨hsort, horder⟩ := read_cases h
  · obtain ⟨hop, hby⟩ := Ranking.read_obj hr
    have hasked : (Json.obj members).cellAggregate? =
        if r.IsAggregate then some ⟨c.field, r.aggregate, r.field⟩ else none := by
      simp only [Json.cellAggregate?, Json.member?, hfield, hsort, ← hop, ← hby]
      rfl
    rw [hasked, horder, Option.bind_some, CellOrder.aggregate?, apply_ite (Option.map _)]
    rfl
  · rw [horder, Option.map_none]
    unfold Json.cellAggregate?
    split
    · exact absurd ‹_› (hsort _)
    · rfl

theorem Channel.ranksCells_iff (h : form.readObject v = .ok c) :
    v.RanksCells ↔ (c.order.bind CellOrder.aggregate?).isSome := by
  obtain ⟨members, sort, r, rfl, hfield, hsort, hr, horder⟩ | ⟨hsort, horder⟩ := read_cases h
  · have hranks : (Json.obj members).RanksCells ↔ Json.IsAggregateSort sort := by
      constructor
      · rintro ⟨_, _, h, hfound, hagg⟩
        cases h
        cases hsort.symm.trans hfound
        exact hagg
      · exact fun hagg => ⟨members, sort, rfl, hsort, hagg⟩
    rw [hranks, ← Ranking.isAggregate_iff hr, horder, Option.bind_some, CellOrder.aggregate?]
    by_cases hagg : r.IsAggregate <;> simp [hagg]
  · rw [horder]
    simp only [Option.isSome_none, Bool.false_eq_true, iff_false]
    rintro ⟨members, sort, rfl, hmember, -⟩
    exact hsort sort hmember

theorem Channel.isSome_cellAggregate?_iff (h : form.readObject v = .ok c) :
    v.cellAggregate?.isSome ↔ v.RanksCells := by
  rw [cellAggregate?_eq h, ranksCells_iff h, Option.isSome_map]

/-- A channel implies a window where its object asks for an aggregate, the one that an author would
write. -/
theorem Channel.window?_rel (h : form.readObject v = .ok c) :
    Option.Rel (fun a n => Node.ofJson a.authored = .ok n) v.cellAggregate? c.window? := by
  rw [cellAggregate?_eq h, window?_eq]
  cases c.order.bind CellOrder.aggregate? with
  | none => exact .none
  | some r =>
    refine .some ?_
    rw [← Ranking.toJson_window]
    exact Node.ofJson_toJson _

section

variable {members : List (String × Json)} {name : String} {found : Option Channel}

theorem Channel.optional_window?_rel
    (h : Members.optional (fun name => members.lookup name) name form.readObject = .complete found) :
    Option.Rel (fun a n => Node.ofJson a.authored = .ok n)
      ((members.lookup name).bind Json.cellAggregate?) (found.bind window?) := by
  obtain ⟨rfl, hv | hv⟩ | ⟨v, c, rfl, hv, -, hread⟩ := Members.optional_cases h
  · rw [hv]
    exact .none
  · rw [hv]
    exact .none
  · rw [hv]
    exact window?_rel hread

theorem Channel.optional_isSome_cellAggregate?_iff
    (h : Members.optional (fun name => members.lookup name) name form.readObject = .complete found) :
    ((members.lookup name).bind Json.cellAggregate?).isSome ↔
      ∃ channel, members.lookup name = some channel ∧ channel.RanksCells := by
  obtain ⟨rfl, hv | hv⟩ | ⟨v, c, rfl, hv, -, hread⟩ := Members.optional_cases h
  · simp [hv]
  · simp [hv, Json.cellAggregate?, Json.member?, Json.RanksCells]
  · simp [hv, isSome_cellAggregate?_iff hread]

end

namespace Facet

variable {v : Json} {f : Facet}

/-- Each channel of an accepted facet was read from the member of its name. -/
theorem read_channels (h : ofJson v = .ok f) :
    ∃ members, v = .obj members ∧
      List.Forall₂ (fun name found => Members.optional (fun name => members.lookup name) name
        Channel.form.readObject = .complete found)
        ["row", "column", "facet"] [f.row, f.column, f.wrapped] := by
  obtain ⟨members, rfl, hdraft⟩ := RecordForm.readObject_eq_ok_iff.1 (ofJson_eq_ok_iff.1 h)
  simp only [form, Draft.seq_eq_complete_iff, Draft.map_eq_complete_iff] at hdraft
  obtain ⟨_, wrapped, ⟨_, column, ⟨row, hrow, rfl⟩, hcolumn, rfl⟩, hwrapped, rfl⟩ := hdraft
  exact ⟨members, rfl, .cons hrow (.cons hcolumn (.cons hwrapped .nil))⟩

theorem windows_eq (f : Facet) :
    f.windows = [f.row, f.column, f.wrapped].filterMap (·.bind Channel.window?) := by
  rw [windows, channels, List.filterMap_filterMap]
  rcases f with ⟨_ | _, _ | _, _ | _⟩ <;> rfl

theorem windows_rel (h : ofJson v = .ok f) :
    List.Forall₂ (fun a n => Node.ofJson a.authored = .ok n) v.cellAggregates f.windows := by
  obtain ⟨members, rfl, hread⟩ := read_channels h
  rw [windows_eq]
  exact List.rel_filterMap (fun _ _ hfound => Channel.optional_window?_rel hfound) hread

/-- The windows of a facet are those that an author would have written for its aggregates, in the
order of the channels. An aggregate is asked for by the channels that rank their cells, and by no
others. Measures, directions, listed cells and whatever else the document holds have no part in it:
facets with the same aggregates imply the same nodes, under the same hashes. -/
theorem windows_are_authored (h : ofJson v = .ok f) :
    List.Forall₂ (fun a n => Node.ofJson a.authored = .ok n) v.cellAggregates f.windows ∧
      (∀ name ∈ ["row", "column", "facet"],
        (((v.member? name).bind Json.cellAggregate?).isSome ↔
          ∃ channel, v.member? name = some channel ∧ channel.RanksCells)) ∧
      ∀ w g, ofJson w = .ok g → w.cellAggregates = v.cellAggregates → g.windows = f.windows := by
  refine ⟨windows_rel h, ?_, fun w g hw heq => ?_⟩
  · obtain ⟨members, rfl, hread⟩ := read_channels h
    obtain - | ⟨hrow, - | ⟨hcolumn, - | ⟨hwrapped, -⟩⟩⟩ := hread
    simp only [List.forall_mem_cons, List.not_mem_nil, false_imp_iff, implies_true, and_true]
    exact ⟨Channel.optional_isSome_cellAggregate?_iff hrow,
      Channel.optional_isSome_cellAggregate?_iff hcolumn,
      Channel.optional_isSome_cellAggregate?_iff hwrapped⟩
  · have hsame : Relator.RightUnique fun (a : CellAggregate) n => Node.ofJson a.authored = .ok n :=
      fun a m n hm hn => Except.ok.inj (hm.symm.trans hn)
    exact hsame.forall₂ (heq ▸ windows_rel hw) (windows_rel h)

end Facet

/-- A facet with a row for each region, by their counts, a listed column for each year, and a
sequence of sites by their least yield. -/
def Json.harvest : Json :=
  .obj [
    ("row", .obj [("field", .str "region"), ("type", .str "nominal"),
      ("sort", .obj [("op", .str "count"), ("order", .str "descending")])]),
    ("column", .obj [("field", .str "year"), ("type", .str "temporal"),
      ("sort", .arr [.str "1932", .str "1931"])]),
    ("facet", .obj [("field", .str "site"), ("type", .str "nominal"), ("columns", .str "auto"),
      ("sort", .obj [("op", .null), ("field", .str "yield")])])]

/-- What is left of it for the windows. -/
def Json.rankedHarvest : Json :=
  .obj [
    ("facet", .obj [("field", .str "site"), ("type", .str "ordinal"),
      ("sort", .obj [("field", .str "yield"), ("op", .str "min")])]),
    ("row", .obj [("field", .str "region"), ("type", .str "nominal"),
      ("sort", .obj [("op", .str "count")])])]

theorem Facet.harvest_windows :
    ∃ f g, ofJson Json.harvest = .ok f ∧ ofJson Json.rankedHarvest = .ok g ∧
      List.Forall₂ (fun (a : CellAggregate) n => Node.ofJson a.authored = .ok n)
        [⟨"region", "count", none⟩, ⟨"site", "min", some "yield"⟩] f.windows ∧
      g.windows = f.windows := by
  obtain ⟨f, hf⟩ : ∃ f, ofJson Json.harvest = .ok f := ⟨_, rfl⟩
  obtain ⟨g, hg⟩ : ∃ g, ofJson Json.rankedHarvest = .ok g := ⟨_, rfl⟩
  obtain ⟨hwindows, -, hsame⟩ := windows_are_authored hf
  exact ⟨f, g, hf, hg, hwindows, hsame _ g hg rfl⟩

end WindowFlow
