import WindowFlow.Proofs.Flow.Reachable
/-!
Removing several nodes. What is left of a path is its surviving nodes, so a survivor hangs under its
nearest surviving ancestor, whatever the order in which the others went. Only the order of children
tells one order of removals from another.
-/
namespace WindowFlow

namespace Forest

variable {α : Type} {g g' : Forest α} {c : Option NodeId} {d p : NodeId}
  {l above gone gone' : List NodeId}

def prune (g : Forest α) (gone : List NodeId) : Forest α := gone.foldl drop g

theorem prune_cons (g : Forest α) (id : NodeId) (rest : List NodeId) :
    g.prune (id :: rest) = (g.drop id).prune rest := rfl

@[simp] theorem next_prune : (g.prune gone).next = g.next := by
  induction gone generalizing g with
  | nil => rfl
  | cons id rest ih => rw [prune_cons, ih, next_drop]

theorem isLive_prune : (g.prune gone).IsLive d ↔ g.IsLive d ∧ d ∉ gone := by
  induction gone generalizing g with
  | nil => simp [prune]
  | cons id rest ih =>
    rw [prune_cons, ih, isLive_drop, List.mem_cons, not_or]
    tauto

theorem node?_prune (hd : d ∉ gone) : (g.prune gone).node? d = g.node? d := by
  induction gone generalizing g with
  | nil => rfl
  | cons id rest ih =>
    rw [List.mem_cons, not_or] at hd
    rw [prune_cons, ih hd.2, node?_drop hd.1]

namespace WellFormed

theorem prune (hg : g.WellFormed) (gone : List NodeId) : (g.prune gone).WellFormed := by
  induction gone generalizing g with
  | nil => exact hg
  | cons id rest ih => exact ih (hg.drop id)

/-- A way loses the nodes that are gone, and leads to the last one that it keeps. -/
theorem way_prune (hg : g.WellFormed) (gone : List NodeId) (h : g.Way c l) :
    (g.prune gone).Way (l.filter (· ∉ gone)).getLast? (l.filter (· ∉ gone)) := by
  induction gone generalizing g c l with
  | nil => simpa [Forest.prune, ← h.eq_getLast?] using h
  | cons id rest ih =>
    have hkept : (l.filter (· ≠ id)).filter (· ∉ rest) = l.filter (· ∉ id :: rest) := by
      rw [List.filter_filter]
      simp [Bool.and_comm]
    rw [← hkept]
    exact ih (hg.drop id) (hg.way_drop id h)

/-- The way to a survivor leads to it still. -/
theorem way_prune_of_not_mem (hg : g.WellFormed) (h : g.Way (some d) l) (hd : d ∉ gone) :
    (g.prune gone).Way (some d) (l.filter (· ∉ gone)) := by
  obtain ⟨above, rfl⟩ : ∃ above, l = above ++ [d] := List.getLast?_eq_some_iff.1 h.eq_getLast?.symm
  have hkept : (above ++ [d]).filter (· ∉ gone) = above.filter (· ∉ gone) ++ [d] := by
    simp [hd]
  have hway := hg.way_prune gone h
  rwa [hkept, List.getLast?_concat, ← hkept] at hway

end WellFormed

/-- The node `p` is the nearest one above `d` that is not among those `gone`. -/
def NearestLeft (g : Forest α) (gone : List NodeId) (d p : NodeId) : Prop :=
  ∃ k, g.ancestor? (k + 1) d = some p ∧ p ∉ gone ∧
    ∀ j < k, ∀ q, g.ancestor? (j + 1) d = some q → q ∈ gone

theorem nearestLeft_congr (hgone : ∀ i, i ∈ gone ↔ i ∈ gone') :
    g.NearestLeft gone d p ↔ g.NearestLeft gone' d p := by
  simp only [NearestLeft, hgone]

/-- On the way to the parent of a node it is the last survivor. -/
theorem nearestLeft_iff (hlive : g.IsLive d) (h : g.Way (g.parent? d) above) :
    g.NearestLeft gone d p ↔ (above.filter (· ∉ gone)).getLast? = some p := by
  have hancestor : ∀ k, g.ancestor? (k + 1) d = above.reverse[k]? := by
    intro k
    rw [(Way.down hlive h).ancestor?_eq, List.reverse_append, List.reverse_singleton,
      List.singleton_append, List.getElem?_cons_succ]
  simp only [NearestLeft, hancestor]
  rw [List.getLast?_filter, List.find?_eq_some_iff_getElem]
  constructor
  · rintro ⟨k, hk, hleft, hbelow⟩
    obtain ⟨hlt, hp⟩ := List.getElem?_eq_some_iff.1 hk
    refine ⟨by simpa using hleft, k, hlt, hp, fun j hj => ?_⟩
    simpa using hbelow j hj _ (List.getElem?_eq_getElem (Nat.lt_trans hj hlt))
  · rintro ⟨hleft, k, hlt, hp, hbelow⟩
    refine ⟨k, List.getElem?_eq_some_iff.2 ⟨hlt, hp⟩, by simpa using hleft, fun j hj q hq => ?_⟩
    obtain ⟨-, rfl⟩ := List.getElem?_eq_some_iff.1 hq
    simpa using hbelow j hj

theorem WellFormed.parent?_prune_iff (hg : g.WellFormed) :
    (g.prune gone).parent? d = some p ↔ (g.prune gone).IsLive d ∧ g.NearestLeft gone d p := by
  by_cases hd : (g.prune gone).IsLive d
  · obtain ⟨hlive, hleft⟩ := isLive_prune.1 hd
    have hplace : g.HasPlace (g.parent? d) := hg.hasPlace_parent
    obtain ⟨above, hup⟩ := hg.way_of_cursor hplace
    have hway := hg.way_prune_of_not_mem (.down hlive hup) hleft
    have hlast : [d].filter (· ∉ gone) = [d] := by simp [hleft]
    rw [List.filter_append, hlast, way_concat_iff] at hway
    rw [hway.2.2.eq_getLast?, ← nearestLeft_iff hlive hup, and_iff_right hd]
  · simp [hd, parent?_of_not_isLive hd]

/-- All that is seen of the forests is the same, but children may stand in another order. -/
structure SameButOrder (g g' : Forest α) : Prop where
  ids_eq : g'.ids = g.ids
  node?_eq : ∀ d, g'.node? d = g.node? d
  roots_eq : g'.roots = g.roots
  parent?_eq : ∀ d, g'.parent? d = g.parent? d
  path_eq : ∀ d, g'.path d = g.path d
  children_perm : ∀ d, (g'.children d).Perm (g.children d)

theorem WellFormed.sameButOrder (hg : g.WellFormed) (hg' : g'.WellFormed)
    (hnext : g'.next = g.next) (hlive : ∀ d, g'.IsLive d ↔ g.IsLive d)
    (hnode : ∀ d, g'.node? d = g.node? d) (hparent : ∀ d, g'.parent? d = g.parent? d) :
    SameButOrder g g' := by
  have hids : g'.ids = g.ids := by simp only [ids, hnext, hlive]
  exact {
    ids_eq := hids
    node?_eq := hnode
    roots_eq := by simp only [roots, hids, hparent]
    parent?_eq := hparent
    path_eq := by
      intro d
      by_cases hd : g.IsLive d
      · obtain ⟨l, hl⟩ := hg.way d hd
        have hl' : g'.Way (some d) l :=
          hl.congr (fun i hi => (hlive i).2 (hl.isLive_of_mem hi)) fun i _ => hparent i
        rw [hl.path_eq, hl'.path_eq]
      · rw [path_of_not_isLive hd, path_of_not_isLive (mt (hlive d).1 hd)]
    children_perm := by
      intro d
      rw [List.perm_ext_iff_of_nodup (hg'.nodup_children d) (hg.nodup_children d)]
      intro c
      rw [hg'.mem_children, hg.mem_children, hparent] }

/-- The order in which the nodes went does not count. -/
theorem WellFormed.sameButOrder_prune (hg : g.WellFormed) (hgone : ∀ i, i ∈ gone ↔ i ∈ gone') :
    SameButOrder (g.prune gone) (g.prune gone') := by
  have hlive : ∀ d, (g.prune gone').IsLive d ↔ (g.prune gone).IsLive d := by
    intro d
    rw [isLive_prune, isLive_prune, hgone]
  refine (hg.prune gone).sameButOrder (hg.prune gone') ?_ hlive ?_ ?_
  · rw [next_prune, next_prune]
  · intro d
    by_cases hd : d ∈ gone
    · rw [node?_of_not_isLive, node?_of_not_isLive]
      · simp [isLive_prune, hd]
      · simp [isLive_prune, ← hgone, hd]
    · rw [node?_prune hd, node?_prune (mt (hgone d).2 hd)]
  · intro d
    refine Option.ext fun p => ?_
    rw [hg.parent?_prune_iff, hg.parent?_prune_iff, hlive, nearestLeft_congr hgone]

/-- The forest `g'` is what is left of `g` without the nodes that are `gone`. -/
structure Pruned (g g' : Forest α) (gone : List NodeId) : Prop where
  isLive_iff : ∀ d, g'.IsLive d ↔ g.IsLive d ∧ d ∉ gone
  node?_eq : ∀ d, d ∉ gone → g'.node? d = g.node? d
  next_eq : g'.next = g.next
  parent?_iff : ∀ d p, g'.parent? d = some p ↔ g'.IsLive d ∧ g.NearestLeft gone d p
  path_eq : ∀ d, g'.IsLive d →
    ∃ ids, g.path d = .ok ids ∧ g'.path d = .ok (ids.filter (· ∉ gone))

theorem WellFormed.pruned_prune (hg : g.WellFormed) (gone : List NodeId) :
    Pruned g (g.prune gone) gone where
  isLive_iff _ := isLive_prune
  node?_eq _ := node?_prune
  next_eq := next_prune
  parent?_iff _ _ := hg.parent?_prune_iff
  path_eq d hd := by
    obtain ⟨hlive, hleft⟩ := isLive_prune.1 hd
    obtain ⟨l, hl⟩ := hg.way d hlive
    exact ⟨l, hl.path_eq, (hg.way_prune_of_not_mem hl hleft).path_eq⟩

end Forest

namespace Edit

open Forest

variable {α : Type} {g : Forest α} {gone : List NodeId}

/-- Removes nodes one after the other, and gives them in that order. -/
def removeAll (gone : List NodeId) : Edit α (List α) := gone.mapM remove

/-- A node that is still to go stays live while others go before it. -/
theorem run_removeAll (hg : g.WellFormed) (hnodup : gone.Nodup) (hlive : ∀ id ∈ gone, g.IsLive id) :
    ∃ nodes, (removeAll gone).run g = .ok nodes (g.prune gone) ∧
      nodes.map some = gone.map g.node? := by
  induction gone generalizing g with
  | nil => exact ⟨[], rfl, rfl⟩
  | cons id rest ih =>
    obtain ⟨hid, hrest⟩ := List.nodup_cons.1 hnodup
    obtain ⟨e, he⟩ := isLive_iff.1 (hlive id List.mem_cons_self)
    have hne : ∀ d ∈ rest, d ≠ id := fun d hd hdid => hid (hdid ▸ hd)
    obtain ⟨nodes, hrun, hnodes⟩ := ih (hg.drop id) hrest fun d hd =>
      isLive_drop.2 ⟨hne d hd, hlive d (List.mem_cons_of_mem id hd)⟩
    refine ⟨e.node :: nodes, ?_, ?_⟩
    · rw [removeAll] at hrun
      rw [removeAll, List.mapM_cons, run_bind_of_ok (run_remove hg he), run_bind_of_ok hrun]
      rfl
    · have hkept : rest.map (g.drop id).node? = rest.map g.node? :=
        List.map_congr_left fun d hd => node?_drop (hne d hd)
      rw [List.map_cons, List.map_cons, hnodes, hkept, node?_of_get? he]

end Edit

namespace Flow

open Forest

variable {g : Flow}

/-- Live nodes can be removed in any order. Every removal goes through and gives the node that it
removes; afterwards each survivor has its nearest surviving ancestor as its parent and its old path
without what is gone. So two orders leave the same flow but for the order of children. -/
theorem removal_order_is_immaterial (h : g.Reachable) {gone gone' : List NodeId}
    (hnodup : gone.Nodup) (hlive : ∀ id ∈ gone, g.IsLive id) (hperm : gone.Perm gone') :
    ∃ nodes g₁ nodes' g₂,
      (Edit.removeAll gone).run g = .ok nodes g₁ ∧ nodes.map some = gone.map g.node? ∧
      (Edit.removeAll gone').run g = .ok nodes' g₂ ∧ nodes'.map some = gone'.map g.node? ∧
      Pruned g g₁ gone ∧ Pruned g g₂ gone' ∧ SameButOrder g₁ g₂ := by
  have hg := h.wellFormed
  have hgone : ∀ i, i ∈ gone ↔ i ∈ gone' := fun i => hperm.mem_iff
  obtain ⟨nodes, hrun, hnodes⟩ := Edit.run_removeAll hg hnodup hlive
  obtain ⟨nodes', hrun', hnodes'⟩ := Edit.run_removeAll hg (hperm.nodup_iff.1 hnodup)
    fun id hid => hlive id ((hgone id).2 hid)
  exact ⟨nodes, _, nodes', _, hrun, hnodes, hrun', hnodes', hg.pruned_prune gone,
    hg.pruned_prune gone', hg.sameButOrder_prune hgone⟩

/-- A run that hangs two branches of two nodes each below one root. -/
def branches : List Command := [
  .insert none (single "rank"), .insert (some 0) (single "sum"), .insert (some 0) (single "min"),
  .insert (some 1) (single "max"), .insert (some 2) (single "count")]

/-- What hangs below a node that goes first comes first. -/
example : ((run branches).prune [1, 2]).children 0 = [3, 4] ∧
    ((run branches).prune [2, 1]).children 0 = [4, 3] := by decide

theorem branches_remove_root_and_child : (run branches).Reachable ∧ [0, 2].Nodup ∧
    (∀ id ∈ [0, 2], (run branches).IsLive id) ∧ [0, 2].Perm [2, 0] ∧
    ∃ nodes g₁ nodes' g₂,
      (Edit.removeAll [0, 2]).run (run branches) = .ok nodes g₁ ∧
      nodes.map some = [0, 2].map (run branches).node? ∧
      (Edit.removeAll [2, 0]).run (run branches) = .ok nodes' g₂ ∧
      nodes'.map some = [2, 0].map (run branches).node? ∧
      Pruned (run branches) g₁ [0, 2] ∧ Pruned (run branches) g₂ [2, 0] ∧ SameButOrder g₁ g₂ := by
  have hreach : (run branches).Reachable := ⟨branches, rfl⟩
  have hlive : ∀ id ∈ [0, 2], (run branches).IsLive id := by decide
  have hperm : [0, 2].Perm [2, 0] := .swap 2 0 []
  exact ⟨hreach, by decide, hlive, hperm,
    removal_order_is_immaterial hreach (by decide) hlive hperm⟩

end Flow

end WindowFlow
