import WindowFlow.Flow
import WindowFlow.Proofs.Forest.Run
/-!
Runs of commands from the empty flow, failing ones included, and what the edges of a flow say of one
another. The parent of a node and the children of its parent are kept apart and rewritten apart;
after any run they agree, and what looks up and down a flow comes to an end.
-/
namespace WindowFlow

/-- The two ends of every edge agree, and every way up ends at a root. -/
structure Forest.Agrees {α : Type} (g : Forest α) : Prop where
  parent_isLive : ∀ c p, g.IsLive c → g.parent? c = some p → g.IsLive p
  mem_children : ∀ c p, g.IsLive c → (c ∈ g.children p ↔ g.parent? c = some p)
  count_children : ∀ c p, g.parent? c = some p → (g.children p).count c = 1
  children_isLive : ∀ c p, c ∈ g.children p → g.IsLive c
  root_above : ∀ id, g.IsLive id →
    ∃ k < g.size, ∃ r, g.ancestor? k id = some r ∧ g.IsLive r ∧ g.parent? r = none
  not_above_itself : ∀ id k, g.ancestor? (k + 1) id ≠ some id
  climb_ends : ∀ id, g.IsLive id → ∃ way, g.path id = .ok way.reverse ∧
    ∀ rounds ≥ g.size, g.climb rounds (some id) = some (.ok way)
  meets_ends : ∀ id p, g.IsLive p →
    ∀ rounds ≥ g.size, g.meets id rounds (some p) = some (g.isAbove id p)

namespace Flow

open Forest

/-- A node with one column, over each cell of the field `k`. -/
def single (op : String) : Node :=
  .ofTransform ⟨[⟨op, none, none, none⟩], none, none, some ["k"], .unbounded⟩

/-- A run that hangs the oldest node below a newer one, cuts out a node between others and has three
commands fail. -/
def rewiring : List Command := [
  .insert none (single "rank"), .insert (some 0) (single "sum"), .insert (some 1) (single "min"),
  .insert none (single "max"), .insert (some 1) (single "count"), .insert (some 9) (single "sum"),
  .move 0 (some 3), .move 3 (some 2), .remove 1, .remove 1, .duplicate 2]

theorem wellFormed_after {g : Flow} (hg : g.WellFormed) (c : Command) :
    (g.after c).WellFormed := by
  cases c with
  | insert parent node => exact Edit.wellFormed_insert hg parent node
  | move id parent => exact Edit.wellFormed_move hg id parent
  | remove id => exact Edit.wellFormed_remove hg id
  | duplicate id => exact Edit.wellFormed_duplicate hg id
  | insertFacet parent facet => exact Edit.wellFormed_insertChain hg parent facet.windows

theorem wellFormed_foldl_after (commands : List Command) {g : Flow} (hg : g.WellFormed) :
    (commands.foldl after g).WellFormed := by
  induction commands generalizing g with
  | nil => exact hg
  | cons c rest ih => exact ih (wellFormed_after hg c)

theorem Reachable.wellFormed {g : Flow} (h : g.Reachable) : g.WellFormed := by
  obtain ⟨commands, rfl⟩ := h
  exact wellFormed_foldl_after commands wellFormed_empty

theorem Reachable.agrees {g : Flow} (h : g.Reachable) : g.Agrees where
  parent_isLive c p _ hp := h.wellFormed.parent_isLive hp
  mem_children c p _ := h.wellFormed.mem_children c p
  count_children c p hp := by
    have hmem : c ∈ g.children p := (h.wellFormed.mem_children c p).2 hp
    exact List.count_eq_one_of_mem (h.wellFormed.nodup_children p) hmem
  children_isLive c p hc := h.wellFormed.isLive_of_mem_children hc
  root_above id hid := by
    obtain ⟨l, hl⟩ := h.wellFormed.way id hid
    have hpos : 0 < l.length := List.length_pos_of_mem hl.mem_self
    have hlen := hl.length_le_size
    exact ⟨l.length - 1, by omega, hl.exists_root⟩
  not_above_itself id k := by
    by_cases hid : g.IsLive id
    · obtain ⟨l, hl⟩ := h.wellFormed.way id hid
      exact hl.ancestor?_ne_self k
    · simp [ancestor?, parent?_of_not_isLive hid]
  climb_ends id hid := by
    obtain ⟨l, hl⟩ := h.wellFormed.way id hid
    refine ⟨l.reverse, by rw [List.reverse_reverse, hl.path_eq], ?_⟩
    intro rounds hrounds
    exact hl.climb_eq (Nat.le_trans hl.length_le_size hrounds)
  meets_ends id p hp := by
    obtain ⟨l, hl⟩ := h.wellFormed.way p hp
    intro rounds hrounds
    rw [hl.isAbove_eq, hl.meets_eq id (Nat.le_trans hl.length_le_size hrounds)]

theorem rewiring_agrees : (run rewiring).Reachable ∧ (run rewiring).Agrees :=
  ⟨⟨rewiring, rfl⟩, Reachable.agrees ⟨rewiring, rfl⟩⟩

end Flow

end WindowFlow
