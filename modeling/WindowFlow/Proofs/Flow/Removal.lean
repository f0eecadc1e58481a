import Mathlib.Data.List.InsertIdx
import WindowFlow.Proofs.Flow.Reachable
/-!
What the removal of a node does. Its children move up to its parent in their order, and it is
missing from every path and from the steps along it; nothing else changes.
-/
namespace WindowFlow

namespace Flow

open Forest

variable {g g' : Flow} {id : NodeId}

theorem assemblePath_of_nodesOnPath {nodes : List Node} (h : g.nodesOnPath id = .ok nodes) :
    g.assemblePath id = .ok (nodes.map Node.assemble) := by
  rw [assemblePath, h]
  rfl

/-- The flow `g'` is `g` with the node `id` cut out. -/
structure Spliced (g g' : Flow) (id : NodeId) : Prop where
  gone : ¬ g'.IsLive id
  isLive_iff : ∀ d, d ≠ id → (g'.IsLive d ↔ g.IsLive d)
  node?_eq : ∀ d, d ≠ id → g'.node? d = g.node? d
  next_eq : g'.next = g.next
  parent?_of_child : ∀ c ∈ g.children id, g'.parent? c = g.parent? id
  parent?_of_other : ∀ d, d ≠ id → d ∉ g.children id → g'.parent? d = g.parent? d
  children_of_parent : ∀ q, g.parent? id = some q →
    g'.children q = (g.children q).filter (· ≠ id) ++ g.children id
  children_of_other : ∀ d, d ≠ id → g.parent? id ≠ some d → g'.children d = g.children d
  path_eq : ∀ d, g'.IsLive d → ∃ ids, g.path d = .ok ids ∧ g'.path d = .ok (ids.filter (· ≠ id))
  assemblePath_eq : ∀ d, g'.IsLive d → ∃ ids steps, g.path d = .ok ids ∧
    g.assemblePath d = .ok steps ∧ steps.length = ids.length ∧
    g'.assemblePath d = .ok (if id ∈ ids then steps.eraseIdx (ids.idxOf id) else steps)

theorem filter_ne_eq_eraseIdx {l : List NodeId} (hl : l.Nodup) (id : NodeId) :
    l.filter (· ≠ id) = l.eraseIdx (l.idxOf id) := by
  rw [← List.erase_eq_eraseIdx_of_idxOf rfl, hl.erase_eq_filter]
  apply List.filter_congr
  intro d _
  by_cases hd : d = id <;> simp [hd]

theorem steps_of_drop (hg : g.WellFormed) {d : NodeId} {ids : List NodeId} (hd : d ≠ id)
    (hway : g.Way (some d) ids) :
    ∃ steps, g.assemblePath d = .ok steps ∧ steps.length = ids.length ∧
      Flow.assemblePath (g.drop id) d =
        .ok (if id ∈ ids then steps.eraseIdx (ids.idxOf id) else steps) := by
  obtain ⟨nodes, hnodes⟩ := hway.exists_nodes
  have hlen : nodes.length = ids.length := by
    rw [← List.length_map some, ← hnodes, List.length_map]
  have hdrop := hg.way_drop id hway
  rw [Forest.WellFormed.past, if_neg (by simpa using hd)] at hdrop
  have hkept : (ids.filter (· ≠ id)).map (g.drop id).node? =
      (nodes.eraseIdx (ids.idxOf id)).map some := by
    rw [← List.eraseIdx_map, ← hnodes, List.eraseIdx_map, ← filter_ne_eq_eraseIdx hway.nodup]
    apply List.map_congr_left
    intro i hi
    exact node?_drop (by simpa using (List.mem_filter.1 hi).2)
  refine ⟨nodes.map Node.assemble, assemblePath_of_nodesOnPath (hway.nodesOnPath_eq hnodes),
    by rw [List.length_map, hlen], ?_⟩
  rw [assemblePath_of_nodesOnPath (hdrop.nodesOnPath_eq hkept), ← List.eraseIdx_map]
  split
  · rfl
  · rename_i hnot
    rw [List.eraseIdx_of_length_le]
    rw [List.length_map, hlen, List.idxOf_eq_length_iff.2 hnot]

theorem spliced_drop (hg : g.WellFormed) (id : NodeId) : Spliced g (g.drop id) id where
  gone h := (isLive_drop.1 h).1 rfl
  isLive_iff d hd := by simp [isLive_drop, hd]
  node?_eq d hd := node?_drop hd
  next_eq := next_drop g id
  parent?_of_child c hc := by
    have hparent : g.parent? c = some id := (hg.mem_children c id).1 hc
    have hne : c ≠ id := fun h => hg.not_mem_children_self id (h ▸ hc)
    rw [parent?_drop hne, if_pos hparent]
  parent?_of_other d hd hnot := by
    have hparent : g.parent? d ≠ some id := fun h => hnot ((hg.mem_children d id).2 h)
    rw [parent?_drop hd, if_neg hparent]
  children_of_parent q hq := by
    have hne : q ≠ id := fun h => hg.parent_ne_self id (h ▸ hq)
    rw [children_drop hne hg.hasPlace_parent, handed, if_pos hq]
  children_of_other d hd hnot := by
    rw [children_drop hd hg.hasPlace_parent, handed, if_neg hnot,
      List.append_nil, hg.filter_children hnot]
  path_eq d hd := by
    obtain ⟨hne, hlive⟩ := isLive_drop.1 hd
    obtain ⟨ids, hids⟩ := hg.way d hlive
    have hdrop := hg.way_drop id hids
    rw [Forest.WellFormed.past, if_neg (by simpa using hne)] at hdrop
    exact ⟨ids, hids.path_eq, hdrop.path_eq⟩
  assemblePath_eq d hd := by
    obtain ⟨hne, hlive⟩ := isLive_drop.1 hd
    obtain ⟨ids, hids⟩ := hg.way d hlive
    obtain ⟨steps, hsteps⟩ := steps_of_drop hg hne hids
    exact ⟨ids, steps, hids.path_eq, hsteps⟩

/-- A live node can always be removed, and removing it cuts out just that node. -/
theorem remove_splices (h : g.Reachable) (hlive : g.IsLive id) :
    ∃ node g', g.node? id = some node ∧ (Edit.remove id).run g = .ok node g' ∧ Spliced g g' id := by
  obtain ⟨e, he⟩ := isLive_iff.1 hlive
  exact ⟨e.node, g.drop id, node?_of_get? he, Edit.run_remove h.wellFormed he,
    spliced_drop h.wellFormed id⟩

theorem rewiring_remove_inner : (run rewiring).Reachable ∧ (run rewiring).IsLive 0 ∧
    ∃ node g', (run rewiring).node? 0 = some node ∧
      (Edit.remove 0).run (run rewiring) = .ok node g' ∧ Spliced (run rewiring) g' 0 :=
  ⟨⟨rewiring, rfl⟩, by decide, remove_splices ⟨rewiring, rfl⟩ (by decide)⟩

end Flow

end WindowFlow
