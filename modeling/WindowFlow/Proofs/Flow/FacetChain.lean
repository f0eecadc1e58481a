import WindowFlow.Proofs.Flow.Regrafting
import WindowFlow.Proofs.Flow.Removal
/-!
What the windows of a facet add to a flow. All of them are inserted or none: once the first has its
place the others have theirs, each below the one before. They are the end of one path, whose steps
and fields are those above the chain and then those of the chain.
-/
namespace WindowFlow

/-- The channels whose cells are ranked by an aggregate, each with its ranking. -/
def Facet.ranked (f : Facet) : List (Channel × Ranking) :=
  f.channels.filterMap fun (_, c) => (c.order.bind CellOrder.aggregate?).map (c, ·)

theorem Facet.windows_eq_map_ranked (f : Facet) :
    f.windows = f.ranked.map fun (c, r) => .ofTransform (r.window c.field) := by
  simp only [windows, ranked, List.map_filterMap, Channel.window?_eq, Option.map_map]
  rfl

theorem Ranking.mem_producedFields_window {r : Ranking} {cell field : String} :
    field ∈ (Node.ofTransform (r.window cell)).producedFields ↔
      field = r.columnName cell ∨ field = cell := by
  have hcolumns : (r.window cell).normalize.columns.map Column.name = [r.columnName cell] := rfl
  have hpartition : (r.window cell).normalize.partitionFields = [cell] := rfl
  simp [Node.producedFields, Node.ofTransform, hcolumns, hpartition]

namespace Flow

open Forest

variable {g : Flow} {parent : Option NodeId} {above : List NodeId} {nodes : List Node}

theorem mem_foldl_producedFields (nodes : List Node) (fields : FieldSet) {field : String} :
    field ∈ nodes.foldl (fun fields n => fields ∪ n.producedFields) fields ↔
      field ∈ fields ∨ ∃ n ∈ nodes, field ∈ n.producedFields := by
  induction nodes generalizing fields with
  | nil => simp
  | cons n rest ih => simp [ih, Std.ExtTreeSet.mem_union_iff, or_assoc]

/-- The windows of a facet produce their columns and the fields of their channels. -/
theorem foldl_producedFields_windows (f : Facet) (fields : FieldSet) :
    f.windows.foldl (fun fields n => fields ∪ n.producedFields) fields =
      fields ∪ .ofList (f.ranked.flatMap fun (c, r) => [r.columnName c.field, c.field]) := by
  apply Std.ExtTreeSet.ext_mem
  intro field
  rw [mem_foldl_producedFields, Std.ExtTreeSet.mem_union_iff, f.windows_eq_map_ranked]
  simp [Ranking.mem_producedFields_window]

/-- What is told from the nodes on the path to a parent. On the way to a root there are none. -/
theorem elim_map_nodesOnPath {β : Type} (tell : List Node → β) (h : g.Way parent above)
    (hnodes : above.map g.node? = nodes.map some) :
    parent.elim (.ok (tell [])) (fun p => tell <$> g.nodesOnPath p) = .ok (tell nodes) := by
  cases parent with
  | none =>
    cases h
    rw [List.map_nil, List.nil_eq, List.map_eq_nil_iff] at hnodes
    rw [hnodes]
    rfl
  | some p =>
    rw [Option.elim_some, h.nodesOnPath_eq hnodes]
    rfl

theorem producedUpTo_of_nodesOnPath {id : NodeId} (h : g.nodesOnPath id = .ok nodes) :
    g.producedUpTo id = .ok (nodes.foldl (fun fields n => fields ∪ n.producedFields) ∅) := by
  rw [producedUpTo, h]
  rfl

/-- The flow `g'` is `g` with the windows of a facet as a chain below `parent`. -/
structure Chained (g g' : Flow) (parent : Option NodeId) (f : Facet) (last : NodeId) : Prop where
  next_eq : g'.next = g.next + f.windows.length
  isLive_iff : ∀ d, g'.IsLive d ↔ g.IsLive d ∨ g.next ≤ d ∧ d < g.next + f.windows.length
  node?_of_window : ∀ k < f.windows.length, g'.node? (g.next + k) = f.windows[k]?
  node?_of_old : ∀ d < g.next, g'.node? d = g.node? d
  parent?_of_first : g'.parent? g.next = parent
  parent?_of_window : ∀ k, k + 1 < f.windows.length →
    g'.parent? (g.next + (k + 1)) = some (g.next + k)
  parent?_of_old : ∀ d < g.next, g'.parent? d = g.parent? d
  children_of_parent : ∀ p, parent = some p → g'.children p = g.children p ++ [g.next]
  children_of_window : ∀ k, k + 1 < f.windows.length →
    g'.children (g.next + k) = [g.next + (k + 1)]
  children_of_last : g'.children last = []
  children_of_old : ∀ d < g.next, parent ≠ some d → g'.children d = g.children d
  path_eq : ∃ ids, g.pathAbove parent = .ok ids ∧
    g'.path last = .ok (ids ++ List.range' g.next f.windows.length)
  assemblePath_eq : ∃ steps, parent.elim (.ok []) g.assemblePath = .ok steps ∧
    g'.assemblePath last = .ok (steps ++ f.windows.map Node.assemble)
  producedUpTo_eq : ∃ fields, parent.elim (.ok ∅) g.producedUpTo = .ok fields ∧
    g'.producedUpTo last =
      .ok (fields ∪ .ofList (f.ranked.flatMap fun (c, r) => [r.columnName c.field, c.field]))

/-- The numbers issued to a chain stand for its nodes. -/
theorem map_node?_chain (g : Flow) (parent : Option NodeId) (nodes : List Node) :
    (List.range' g.next nodes.length).map (g.chain parent nodes).node? = nodes.map some := by
  apply List.ext_getElem
  · simp
  · intro k hk _
    have hlt : k < nodes.length := by simpa using hk
    have hnew : ¬ g.next + k < g.next := Nat.not_lt_of_le (Nat.le_add_right _ _)
    simp [node?_chain, hnew, List.getElem?_eq_getElem hlt]

/-- The path to the end of a chain holds the nodes above the chain and then those of the chain. -/
theorem nodesOnPath_chain {last : NodeId} (habove : g.Way parent above)
    {before : List Node} (hbefore : above.map g.node? = before.map some)
    (hlast : g.chainEnd nodes = some last) :
    (g.chain parent nodes).path last = .ok (above ++ List.range' g.next nodes.length) ∧
      (g.chain parent nodes).nodesOnPath last = .ok (before ++ nodes) := by
  have hway := habove.chain nodes
  rw [hlast, Option.some_or] at hway
  refine ⟨hway.path_eq, hway.nodesOnPath_eq ?_⟩
  have hold : above.map (g.chain parent nodes).node? = above.map g.node? := by
    apply List.map_congr_left
    intro i hi
    rw [node?_chain, if_pos (lt_next_of_isLive (habove.isLive_of_mem hi))]
  rw [List.map_append, List.map_append, hold, hbefore, map_node?_chain]

theorem chained_chain (hg : g.WellFormed) (f : Facet) (hparent : g.HasPlace parent)
    {last : NodeId} (hlast : g.chainEnd f.windows = some last) :
    Chained g (g.chain parent f.windows) parent f last := by
  obtain ⟨ids, hids⟩ := hg.way_of_cursor hparent
  obtain ⟨before, hbefore⟩ := hids.exists_nodes
  obtain ⟨hpath, hnodes⟩ := nodesOnPath_chain hids hbefore hlast
  obtain ⟨window, rest, hwindows⟩ : ∃ window rest, f.windows = window :: rest := by
    cases hf : f.windows with
    | nil => simp [hf, chainEnd] at hlast
    | cons window rest => exact ⟨window, rest, rfl⟩
  have hend : last = g.next + rest.length := by
    rw [hwindows, chainEnd] at hlast
    exact (Option.some.inj hlast).symm
  have hlen : f.windows.length = rest.length + 1 := by rw [hwindows, List.length_cons]
  exact {
    next_eq := next_chain
    isLive_iff := fun d => isLive_chain
    node?_of_window := by
      intro k _
      rw [node?_chain, if_neg (Nat.not_lt_of_le (Nat.le_add_right _ _)), Nat.add_sub_cancel_left]
    node?_of_old := fun d hd => by rw [node?_chain, if_pos hd]
    parent?_of_first := by rw [hwindows, parent?_chain_next]
    parent?_of_window := fun k hk => parent?_chain_succ hk
    parent?_of_old := fun d hd => parent?_chain_of_lt hd
    children_of_parent := by
      intro p hp
      have hlt : p < g.next := lt_next_of_isLive (hparent p hp)
      rw [hwindows, children_chain_of_lt hparent hlt, handed, if_pos hp]
    children_of_window := by
      intro k hk
      rw [children_chain_next hparent (Nat.lt_of_succ_lt hk), if_pos hk]
    children_of_last := by
      rw [hend, children_chain_next hparent (by rw [hlen]; exact Nat.lt_succ_self _), if_neg]
      rw [hlen]
      exact Nat.lt_irrefl _
    children_of_old := by
      intro d hd hne
      rw [hwindows, children_chain_of_lt hparent hd, handed, if_neg hne, List.append_nil]
    path_eq := ⟨ids, pathAbove_eq hids, hpath⟩
    assemblePath_eq := by
      refine ⟨_, elim_map_nodesOnPath (List.map Node.assemble) hids hbefore, ?_⟩
      rw [assemblePath_of_nodesOnPath hnodes, List.map_append]
    producedUpTo_eq := by
      refine ⟨_, elim_map_nodesOnPath
        (List.foldl (fun fields n => fields ∪ n.producedFields) ∅) hids hbefore, ?_⟩
      rw [producedUpTo_of_nodesOnPath hnodes, List.foldl_append, foldl_producedFields_windows] }

/-- The windows of a facet are inserted all or not at all. A facet without any changes nothing,
wherever it is to hang; where there are some, the parent has to be live, and then they become a
chain below it whose last node is the result. -/
theorem insertFacet_all_or_nothing (h : g.Reachable) (parent : Option NodeId) (f : Facet) :
    (f.windows = [] → (insertFacet parent f).run g = .ok none g) ∧
      (f.windows ≠ [] → ∀ p, parent = some p → ¬ g.IsLive p →
        (insertFacet parent f).run g = .error (.unknownNode p) g) ∧
      (f.windows ≠ [] → g.HasPlace parent →
        ∃ last g', (insertFacet parent f).run g = .ok (some last) g' ∧
          last + 1 = g.next + f.windows.length ∧ Chained g g' parent f last) := by
  refine ⟨?_, ?_, ?_⟩
  · intro hnone
    rw [insertFacet, hnone]
    rfl
  · rintro hsome p rfl hp
    exact Edit.run_insertChain_of_not_isLive hsome hp
  · intro hsome hparent
    obtain ⟨window, rest, hwindows⟩ := List.exists_cons_of_ne_nil hsome
    have hlast : g.chainEnd f.windows = some (g.next + rest.length) := by rw [hwindows, chainEnd]
    refine ⟨_, _, ?_, ?_, chained_chain h.wellFormed f hparent hlast⟩
    · rw [insertFacet, Edit.run_insertChain f.windows hparent, hlast]
    · rw [hwindows, List.length_cons, Nat.add_assoc]

/-- A facet with a row for each region, by their counts, and a column for each site, by its least
yield. -/
def regions : Facet where
  row := some ⟨"region", .nominal, some (.ranked ⟨some "count", none, none⟩)⟩
  column := some ⟨"site", .nominal, some (.ranked ⟨none, some "yield", none⟩)⟩
  wrapped := none

theorem rewiring_insert_regions : (run rewiring).Reachable ∧ regions.windows ≠ [] ∧
    ¬ (run rewiring).IsLive 1 ∧
    (insertFacet (some 1) ⟨none, none, none⟩).run (run rewiring) = .ok none (run rewiring) ∧
    (insertFacet (some 1) regions).run (run rewiring) = .error (.unknownNode 1) (run rewiring) ∧
    (run rewiring).HasPlace (some 2) ∧
    ∃ last g', (insertFacet (some 2) regions).run (run rewiring) = .ok (some last) g' ∧
      last + 1 = (run rewiring).next + regions.windows.length ∧
      Chained (run rewiring) g' (some 2) regions last := by
  have hreach : (run rewiring).Reachable := ⟨rewiring, rfl⟩
  have hsome : regions.windows ≠ [] := by decide
  have hgone : ¬ (run rewiring).IsLive 1 := by decide
  have hplace : (run rewiring).HasPlace (some 2) := hasPlace_some.2 (by decide)
  obtain ⟨hnone, -, -⟩ := insertFacet_all_or_nothing hreach (some 1) ⟨none, none, none⟩
  obtain ⟨-, hrefused, -⟩ := insertFacet_all_or_nothing hreach (some 1) regions
  obtain ⟨-, -, hchained⟩ := insertFacet_all_or_nothing hreach (some 2) regions
  exact ⟨hreach, hsome, hgone, hnone rfl, hrefused hsome 1 rfl hgone, hplace, hchained hsome hplace⟩

end Flow

end WindowFlow
