import WindowFlow.Proofs.Flow.Reachable
/-!
What moving a node does. One edge changes, and with it the paths to all that hangs below the node:
each keeps its part from the node on, behind the path to the new parent.
-/
namespace WindowFlow

namespace Flow

open Forest

variable {g g' : Flow} {id : NodeId} {parent : Option NodeId}

/-- The node `d` is `id` or hangs below it. -/
def InTreeOf (g : Flow) (id d : NodeId) : Prop := ∃ k, g.ancestor? k d = some id

/-- The path to a parent; there is nothing above a root. -/
def pathAbove (g : Flow) : Option NodeId → Except ForestError (List NodeId)
  | none => .ok []
  | some p => g.path p

/-- The flow `g'` is `g` with the tree below `id` hung under `parent`. -/
structure Moved (g g' : Flow) (id : NodeId) (parent : Option NodeId) : Prop where
  parent?_self : g'.parent? id = parent
  parent?_of_other : ∀ d, d ≠ id → g'.parent? d = g.parent? d
  children_of_parent : ∀ p, parent = some p →
    g'.children p = (g.children p).filter (· ≠ id) ++ [id]
  children_of_old_parent : ∀ q, g.parent? id = some q → parent ≠ some q →
    g'.children q = (g.children q).filter (· ≠ id)
  children_of_other : ∀ d, parent ≠ some d → g.parent? id ≠ some d →
    g'.children d = g.children d
  isLive_iff : ∀ d, g'.IsLive d ↔ g.IsLive d
  node?_eq : ∀ d, g'.node? d = g.node? d
  next_eq : g'.next = g.next
  size_eq : g'.size = g.size
  path_eq : ∀ d, g.IsLive d → ∃ ids above, g.path d = .ok ids ∧ g.pathAbove parent = .ok above ∧
    g'.path d = .ok (if id ∈ ids then above ++ ids.dropWhile (· ≠ id) else ids)

theorem pathAbove_eq {above : List NodeId} (h : g.Way parent above) :
    g.pathAbove parent = .ok above := by
  cases parent with
  | none =>
    cases h
    rfl
  | some p => exact h.path_eq

theorem moved_place (hg : g.WellFormed) (hlive : g.IsLive id)
    (hparent : g.HasPlace parent) {above : List NodeId}
    (habove : g.Way parent above) (hnot : id ∉ above) : Moved g (g.place id parent) id parent where
  parent?_self := by rw [parent?_place hlive, if_pos rfl]
  parent?_of_other d hd := by rw [parent?_place hlive, if_neg hd]
  children_of_parent p hp := by rw [children_place hparent, handed, if_pos hp]
  children_of_old_parent q _ hq := by
    rw [children_place hparent, handed, if_neg hq, List.append_nil]
  children_of_other d hd hold := by
    rw [children_place hparent, handed, if_neg hd, List.append_nil,
      hg.filter_children hold]
  isLive_iff d := isLive_place
  node?_eq d := node?_place
  next_eq := next_place g id parent
  size_eq := size_congr (next_place g id parent) fun d => isLive_place
  path_eq d hd := by
    obtain ⟨ids, hids⟩ := hg.way d hd
    refine ⟨ids, above, hids.path_eq, pathAbove_eq habove, ?_⟩
    split
    · rename_i hid
      exact (hids.place_of_mem hlive habove hnot hid).path_eq
    · rename_i hid
      exact (hids.place_of_not_mem hlive hid).path_eq

/-- A live node can be moved to the roots and under any live node that is not in its own tree. -/
theorem move_regrafts (h : g.Reachable) (hlive : g.IsLive id)
    (hparent : ∀ p, parent = some p → g.IsLive p ∧ ¬ g.InTreeOf id p) :
    ∃ g', (Edit.move id parent).run g = .ok () g' ∧ Moved g g' id parent := by
  have hg := h.wellFormed
  obtain ⟨above, habove⟩ := hg.way_of_cursor fun p hp => (hparent p hp).1
  have hnot : id ∉ above := by
    intro hid
    cases parent with
    | none =>
      cases habove
      exact List.not_mem_nil hid
    | some p => exact (hparent p rfl).2 (habove.mem_iff_ancestor.1 hid)
  refine ⟨g.place id parent, Edit.run_move hg hlive ?_,
    moved_place hg hlive (fun p hp => (hparent p hp).1) habove hnot⟩
  intro p hp
  subst hp
  refine ⟨(hparent p rfl).1, ?_⟩
  rw [habove.isAbove_eq]
  exact decide_eq_false hnot

theorem rewiring_move_tree : (run rewiring).Reachable ∧ (run rewiring).IsLive 0 ∧
    (∀ p, some 5 = some p → (run rewiring).IsLive p ∧ ¬ (run rewiring).InTreeOf 0 p) ∧
    ∃ g', (Edit.move 0 (some 5)).run (run rewiring) = .ok () g' ∧
      Moved (run rewiring) g' 0 (some 5) := by
  have hparent : ∀ p, some 5 = some p →
      (run rewiring).IsLive p ∧ ¬ (run rewiring).InTreeOf 0 p := by
    intro p hp
    cases hp
    refine ⟨by decide, ?_⟩
    rintro ⟨k, hk⟩
    cases k with
    | zero => cases hk
    | succ k => cases hk
  exact ⟨⟨rewiring, rfl⟩, by decide, hparent,
    move_regrafts ⟨rewiring, rfl⟩ (by decide) hparent⟩

end Flow

end WindowFlow
