import Mathlib.Data.List.Chain
import WindowFlow.Proofs.Flow.Reachable
/-!
The forest seen from its roots. Children are listed apart from parents, but the sequences that lead
down from a root by children lists are just the paths up to the root read the other way, so a walk
down from the roots comes to every live node, and to none of them twice.
-/
namespace WindowFlow

namespace Forest

variable {α : Type} {g : Forest α} {id : NodeId} {l : List NodeId}

/-- A sequence from a root down to a node, at each step to a child. -/
structure Descends (g : Forest α) (l : List NodeId) (id : NodeId) : Prop where
  head : ∃ r ∈ g.roots, l.head? = some r
  steps : l.IsChain fun p c => c ∈ g.children p
  last : l.getLast? = some id

theorem mem_roots : id ∈ g.roots ↔ g.IsLive id ∧ g.parent? id = none := by
  simp [roots, mem_ids]

theorem descends_concat_iff {i : NodeId} :
    g.Descends (l ++ [i]) id ↔
      i = id ∧ (l = [] ∧ i ∈ g.roots ∨ ∃ p, g.Descends l p ∧ i ∈ g.children p) := by
  constructor
  · intro h
    obtain ⟨r, hr, hhead⟩ := h.head
    refine ⟨by simpa using h.last, ?_⟩
    rcases l.eq_nil_or_concat' with rfl | ⟨above, p, rfl⟩
    · obtain rfl : i = r := by simpa using hhead
      exact .inl ⟨rfl, hr⟩
    · obtain ⟨hsteps, -, hchild⟩ := List.isChain_append.1 h.steps
      exact .inr ⟨p, ⟨⟨r, hr, by simpa using hhead⟩, hsteps, List.getLast?_concat⟩,
        hchild p (by simp) i (by simp)⟩
  · rintro ⟨rfl, ⟨rfl, hroot⟩ | ⟨p, hp, hchild⟩⟩
    · exact ⟨⟨i, hroot, rfl⟩, .singleton i, rfl⟩
    · obtain ⟨r, hr, hhead⟩ := hp.head
      refine ⟨⟨r, hr, by rw [List.head?_append, hhead, Option.some_or]⟩, ?_, List.getLast?_concat⟩
      refine List.isChain_append.2 ⟨hp.steps, .singleton i, ?_⟩
      intro q hq c hc
      rw [hp.last] at hq
      obtain rfl := Option.some.inj hq
      obtain rfl := Option.some.inj hc
      exact hchild

/-- Up by parents and down by children it is one way. -/
theorem WellFormed.descends_iff_way (hg : g.WellFormed) : g.Descends l id ↔ g.Way (some id) l := by
  induction l using List.reverseRecOn generalizing id with
  | nil =>
    constructor
    · intro h
      exact absurd h.last (by simp)
    · intro h
      exact absurd h.mem_self List.not_mem_nil
  | append_singleton above i ih =>
    rw [descends_concat_iff, way_concat_iff]
    refine and_congr_right ?_
    rintro rfl
    simp only [mem_roots, hg.mem_children]
    cases hp : g.parent? i with
    | none =>
      constructor
      · rintro (⟨rfl, hlive, -⟩ | ⟨p, -, hparent⟩)
        · exact ⟨hlive, .top⟩
        · cases hparent
      · rintro ⟨hlive, hup⟩
        cases hup
        exact .inl ⟨rfl, hlive, rfl⟩
    | some p =>
      have hlive : g.IsLive i := isLive_of_parent? hp
      simp [hlive, ih]

/-- The numbers in the order of a depth-first walk: a node comes before its children, and these
before all that was waiting. -/
def walk (g : Forest α) : Nat → List NodeId → Option (List NodeId)
  | _, [] => some []
  | 0, _ :: _ => none
  | rounds + 1, id :: rest => (g.walk rounds (g.children id ++ rest)).map (id :: ·)

/-- A walk that has visited some nodes and has others waiting: it has met just the roots and the
children of those it has visited. -/
structure Walking (g : Forest α) (visited waiting : List NodeId) : Prop where
  nodup : (visited ++ waiting).Nodup
  mem_iff : ∀ c, c ∈ visited ++ waiting ↔ g.IsLive c ∧ ∀ p, g.parent? c = some p → p ∈ visited

namespace Walking

variable {visited waiting rest : List NodeId}

theorem roots (g : Forest α) : g.Walking [] g.roots where
  nodup := (nodup_ids g).filter _
  mem_iff c := by
    rw [List.nil_append, mem_roots]
    cases g.parent? c <;> simp

/-- The children of a node that is still waiting were not met. -/
theorem not_mem_of_mem_children (hg : g.WellFormed) (h : g.Walking visited (id :: rest))
    {c : NodeId} (hc : c ∈ g.children id) : c ∉ visited ++ id :: rest := by
  intro hmet
  have hid : id ∈ visited := ((h.mem_iff c).1 hmet).2 id ((hg.mem_children c id).1 hc)
  exact (List.nodup_append.1 h.nodup).2.2 id hid id List.mem_cons_self rfl

theorem visit (hg : g.WellFormed) (h : g.Walking visited (id :: rest)) :
    g.Walking (visited ++ [id]) (g.children id ++ rest) := by
  have hperm : (visited ++ [id] ++ (g.children id ++ rest)).Perm
      (g.children id ++ (visited ++ id :: rest)) := by
    rw [List.append_cons visited id rest]
    exact List.perm_append_comm_assoc _ _ _
  constructor
  · rw [hperm.nodup_iff, List.nodup_append]
    refine ⟨hg.nodup_children id, h.nodup, ?_⟩
    intro c hc d hd hcd
    exact h.not_mem_of_mem_children hg hc (hcd ▸ hd)
  · intro c
    rw [hperm.mem_iff, List.mem_append, hg.mem_children, h.mem_iff]
    cases hp : g.parent? c with
    | none => simp
    | some p =>
      have hlive : g.IsLive c := isLive_of_parent? hp
      simp [hlive, or_comm]

theorem mem_visited (h : g.Walking visited []) {c : Option NodeId} (hway : g.Way c l) :
    ∀ d ∈ l, d ∈ visited := by
  induction hway with
  | top => simp
  | @down d above hlive hup ih =>
    have hd : d ∈ visited ++ [] := by
      refine (h.mem_iff d).2 ⟨hlive, fun p hp => ih p ?_⟩
      rw [hp] at hup
      exact hup.mem_self
    rw [List.append_nil] at hd
    intro e he
    rcases List.mem_append.1 he with he | he
    · exact ih e he
    · exact List.mem_singleton.1 he ▸ hd

theorem length_le_size (h : g.Walking visited waiting) :
    visited.length + waiting.length ≤ g.size := by
  rw [← List.length_append]
  exact length_le_size_of_nodup h.nodup fun c hc => ((h.mem_iff c).1 hc).1

/-- A walk with nothing left to visit has visited all there is. -/
theorem perm_ids (hg : g.WellFormed) (h : g.Walking visited []) : visited.Perm g.ids := by
  have hnodup : visited.Nodup := by simpa using h.nodup
  rw [List.perm_ext_iff_of_nodup hnodup (nodup_ids g)]
  intro c
  rw [mem_ids]
  constructor
  · intro hc
    exact ((h.mem_iff c).1 (List.mem_append_left [] hc)).1
  · intro hc
    obtain ⟨l, hl⟩ := hg.way c hc
    exact h.mem_visited hl c hl.mem_self

/-- Each round visits a node that is new, so there are rounds enough for all of them. -/
theorem walk_perm (hg : g.WellFormed) {rounds : Nat} (h : g.Walking visited waiting)
    (hrounds : g.size ≤ visited.length + rounds) :
    ∃ l, g.walk rounds waiting = some l ∧ (visited ++ l).Perm g.ids := by
  induction rounds generalizing visited waiting with
  | zero =>
    have hlen := h.length_le_size
    obtain rfl : waiting = [] := List.eq_nil_of_length_eq_zero (by omega)
    refine ⟨[], rfl, ?_⟩
    rw [List.append_nil]
    exact h.perm_ids hg
  | succ rounds ih =>
    cases waiting with
    | nil =>
      refine ⟨[], rfl, ?_⟩
      rw [List.append_nil]
      exact h.perm_ids hg
    | cons id rest =>
      have hleft : g.size ≤ (visited ++ [id]).length + rounds := by
        rw [List.length_append, List.length_singleton]
        omega
      obtain ⟨l, hl, hperm⟩ := ih (h.visit hg) hleft
      refine ⟨id :: l, by rw [walk, hl, Option.map_some], ?_⟩
      rwa [List.append_cons]

end Walking

theorem pairwise_roots (g : Forest α) : g.roots.Pairwise (· < ·) := (pairwise_ids g).filter _

end Forest

namespace Flow

open Forest

/-- Just one sequence leads down to a live node, and it is the path of that node; a walk from the
roots visits each live number once and no other. -/
theorem Reachable.seen_alike_from_both_ends {g : Flow} (h : g.Reachable) :
    (∀ id, g.IsLive id → ∃ ids, g.path id = .ok ids ∧ ids.Nodup ∧
      ∀ l, g.Descends l id ↔ l = ids) ∧
    (∀ rounds ≥ g.size, ∃ ids, g.walk rounds g.roots = some ids ∧
      ∀ id, ids.count id = if g.IsLive id then 1 else 0) ∧
    g.roots.Pairwise (· < ·) := by
  have hg := h.wellFormed
  refine ⟨?_, ?_, pairwise_roots g⟩
  · intro id hid
    obtain ⟨ids, hids⟩ := hg.way id hid
    refine ⟨ids, hids.path_eq, hids.nodup, fun l => ?_⟩
    rw [hg.descends_iff_way]
    refine ⟨fun hl => hl.unique hids, ?_⟩
    rintro rfl
    exact hids
  · intro rounds hrounds
    obtain ⟨ids, hwalk, hperm⟩ := (Walking.roots g).walk_perm hg (by simpa using hrounds)
    refine ⟨ids, hwalk, fun id => ?_⟩
    rw [List.nil_append] at hperm
    rw [hperm.count_eq, (nodup_ids g).count]
    simp only [mem_ids]

/-- What a walk of `rewiring` visits: a copy stands beside the tree. -/
example : (run rewiring).walk 5 (run rewiring).roots = some [3, 0, 2, 4, 5] := by decide

theorem rewiring_descends : (run rewiring).Reachable ∧ (run rewiring).IsLive 4 ∧
    (run rewiring).path 4 = .ok [3, 0, 4] ∧ (∀ l, (run rewiring).Descends l 4 ↔ l = [3, 0, 4]) ∧
    ∃ ids, (run rewiring).walk 7 (run rewiring).roots = some ids ∧ ids.count 4 = 1 := by
  obtain ⟨hdescends, hwalk, -⟩ := Reachable.seen_alike_from_both_ends ⟨rewiring, rfl⟩
  have hlive : (run rewiring).IsLive 4 := by decide
  have hpath : (run rewiring).path 4 = .ok [3, 0, 4] := rfl
  obtain ⟨ids, hids, -, hunique⟩ := hdescends 4 hlive
  rw [hpath, Except.ok.injEq] at hids
  obtain ⟨visited, hvisited, hcount⟩ := hwalk 7 (by decide)
  exact ⟨⟨rewiring, rfl⟩, hlive, hpath, hids ▸ hunique, visited, hvisited,
    (hcount 4).trans (if_pos hlive)⟩

end Flow

end WindowFlow
