import Mathlib.Data.List.TakeWhile
import WindowFlow.Proofs.Forest.Outcome
/-!
Well-formed forests: every edge is kept at both of its ends, once, and a way leads to every node.
Adding, moving and dropping a node keep a forest well-formed, and each says what becomes of a way.
-/
namespace WindowFlow

namespace Forest

variable {α : Type} {g : Forest α}

namespace Way

variable {c : Option NodeId} {id : NodeId} {l up : List NodeId}

theorem add (node : α) (parent : Option NodeId) (h : g.Way c l) :
    (g.add node parent).Way c l := by
  refine h.congr (fun d hd => isLive_add.2 (.inr (h.isLive_of_mem hd))) ?_
  intro d hd
  have hne : d ≠ g.next := Nat.ne_of_lt (lt_next_of_isLive (h.isLive_of_mem hd))
  rw [parent?_add, if_neg hne]

theorem add_next (node : α) {parent : Option NodeId} (h : g.Way parent up) :
    (g.add node parent).Way (some g.next) (up ++ [g.next]) := by
  refine .down (isLive_add.2 (.inl rfl)) ?_
  rw [parent?_add, if_pos rfl]
  exact h.add node parent

/-- The way to the parent of a chain goes on through the whole chain. -/
theorem chain (nodes : List α) {parent : Option NodeId} (h : g.Way parent up) :
    (g.chain parent nodes).Way ((g.chainEnd nodes).or parent)
      (up ++ List.range' g.next nodes.length) := by
  induction nodes generalizing g parent up with
  | nil => simpa [Forest.chain, chainEnd] using h
  | cons node rest ih =>
    have hrest := ih (h.add_next node)
    rw [chainEnd_add_or, next_add, List.append_assoc, List.singleton_append, ← List.range'_succ]
      at hrest
    exact hrest

/-- A way that does not pass the moved node stays. -/
theorem place_of_not_mem {parent : Option NodeId} (h : g.Way c l) (hlive : g.IsLive id)
    (hid : id ∉ l) : (g.place id parent).Way c l := by
  refine h.congr (fun d hd => isLive_place.2 (h.isLive_of_mem hd)) ?_
  intro d hd
  have hne : d ≠ id := fun he => hid (he ▸ hd)
  rw [parent?_place hlive, if_neg hne]

/-- Where a way passes the moved node, all that was above it gives way to the new way there. -/
theorem place_of_mem {parent : Option NodeId} (h : g.Way c l) (hlive : g.IsLive id)
    (hup : g.Way parent up) (hnot : id ∉ up) (hid : id ∈ l) :
    (g.place id parent).Way c (up ++ l.dropWhile (· ≠ id)) := by
  induction h with
  | top => exact absurd hid List.not_mem_nil
  | @down d above hd hway ih =>
    by_cases hself : d = id
    · have habove : ∀ a ∈ above, a ≠ id := by
        intro a ha he
        exact hway.not_mem_above hd (hself ▸ he ▸ ha)
      have hdrop : (above ++ [d]).dropWhile (· ≠ id) = [d] := by
        rw [List.dropWhile_append_of_pos (by simpa using habove)]
        simp [hself]
      rw [hdrop]
      refine .down (isLive_place.2 hd) ?_
      rw [parent?_place hlive, if_pos hself]
      exact hup.place_of_not_mem hlive hnot
    · have hmem : id ∈ above := by
        rcases List.mem_append.1 hid with h | h
        · exact h
        · exact absurd (List.mem_singleton.1 h).symm hself
      have hrest : ¬ (above.dropWhile (· ≠ id)).isEmpty := by
        rw [List.isEmpty_iff, List.dropWhile_eq_nil_iff]
        exact fun hall => by simpa using hall id hmem
      rw [List.dropWhile_append, if_neg hrest, ← List.append_assoc]
      refine .down (isLive_place.2 hd) ?_
      rw [parent?_place hlive, if_neg hself]
      exact ih hmem

end Way

structure WellFormed (g : Forest α) : Prop where
  mem_children : ∀ c p, c ∈ g.children p ↔ g.parent? c = some p
  nodup_children : ∀ p, (g.children p).Nodup
  way : ∀ id, g.IsLive id → ∃ l, g.Way (some id) l

theorem wellFormed_empty : (empty : Forest α).WellFormed where
  mem_children c p := by simp [children, parent?]
  nodup_children p := by simp [children]
  way id h := by simp [IsLive] at h

namespace WellFormed

variable {c : Option NodeId} {id p : NodeId} {l : List NodeId}

/-- A way leads to wherever a node may hang. -/
theorem way_of_cursor (hg : g.WellFormed) (hc : g.HasPlace c) :
    ∃ l, g.Way c l := by
  cases c with
  | none => exact ⟨[], .top⟩
  | some p => exact hg.way p (hc p rfl)

theorem parent_isLive (hg : g.WellFormed) (h : g.parent? id = some p) : g.IsLive p := by
  obtain ⟨l, hl⟩ := hg.way id (isLive_of_parent? h)
  obtain _ | @⟨_, above, _, hup⟩ := hl
  rw [h] at hup
  exact hup.isLive_of_mem hup.mem_self

theorem hasPlace_parent (hg : g.WellFormed) : g.HasPlace (g.parent? id) := fun _ =>
  hg.parent_isLive

theorem parent_ne_self (hg : g.WellFormed) (id : NodeId) : g.parent? id ≠ some id := by
  intro h
  obtain ⟨l, hl⟩ := hg.way id (isLive_of_parent? h)
  obtain _ | @⟨_, above, hlive, hup⟩ := hl
  have hself := hup.not_mem_above hlive
  rw [h] at hup
  exact hself hup.mem_self

theorem isLive_of_mem_children (hg : g.WellFormed) (h : id ∈ g.children p) : g.IsLive id :=
  isLive_of_parent? ((hg.mem_children id p).1 h)

theorem not_mem_children_self (hg : g.WellFormed) (id : NodeId) : id ∉ g.children id := fun h =>
  hg.parent_ne_self id ((hg.mem_children id id).1 h)

/-- A child of both would have two parents. -/
theorem eq_of_mem_children (hg : g.WellFormed) {q : NodeId} (hp : id ∈ g.children p)
    (hq : id ∈ g.children q) : p = q := by
  rw [hg.mem_children] at hp hq
  exact Option.some.inj (hp.symm.trans hq)

/-- No list but its parent's holds a node. -/
theorem filter_children (hg : g.WellFormed) (h : g.parent? id ≠ some p) :
    (g.children p).filter (· ≠ id) = g.children p := by
  rw [List.filter_eq_self]
  intro c hc
  have hne : c ≠ id := fun he => h (he ▸ (hg.mem_children c p).1 hc)
  simpa using hne

theorem add (hg : g.WellFormed) (node : α) {parent : Option NodeId}
    (hparent : g.HasPlace parent) : (g.add node parent).WellFormed where
  mem_children c p := by
    rw [children_add hparent, List.mem_append, hg.mem_children, mem_handed, List.mem_singleton,
      parent?_add]
    by_cases hc : c = g.next
    · have hnone : g.parent? c = none := by
        rw [hc]
        exact parent?_of_not_isLive g.not_isLive_next
      simp [hc, hc ▸ hnone]
    · simp [hc]
  nodup_children p := by
    rw [children_add hparent]
    apply nodup_append_handed (hg.nodup_children p) (List.nodup_singleton g.next)
    intro _ c hc
    have hlt : c < g.next := lt_next_of_isLive (hg.isLive_of_mem_children hc)
    rw [List.mem_singleton]
    exact Nat.ne_of_lt hlt
  way i hi := by
    by_cases hold : g.IsLive i
    · obtain ⟨l, hl⟩ := hg.way i hold
      exact ⟨l, hl.add node parent⟩
    · obtain rfl : i = g.next := (isLive_add.1 hi).resolve_right hold
      obtain ⟨up, hup⟩ := hg.way_of_cursor hparent
      exact ⟨up ++ [g.next], hup.add_next node⟩

theorem place (hg : g.WellFormed) {parent : Option NodeId} (hlive : g.IsLive id)
    (hparent : g.HasPlace parent) {up : List NodeId}
    (hup : g.Way parent up) (hnot : id ∉ up) : (g.place id parent).WellFormed where
  mem_children c p := by
    rw [children_place hparent, List.mem_append, List.mem_filter, hg.mem_children, mem_handed,
      List.mem_singleton, parent?_place hlive]
    by_cases hc : c = id <;> simp [hc]
  nodup_children p := by
    rw [children_place hparent]
    apply nodup_append_handed ((hg.nodup_children p).filter _) (List.nodup_singleton id)
    intro _ c hc
    rw [List.mem_singleton]
    simpa using (List.mem_filter.1 hc).2
  way i hi := by
    obtain ⟨l, hl⟩ := hg.way i (isLive_place.1 hi)
    by_cases hid : id ∈ l
    · exact ⟨_, hl.place_of_mem hlive hup hnot hid⟩
    · exact ⟨l, hl.place_of_not_mem hlive hid⟩

/-- Where a way leads once `id` is gone: to the parent of `id` if it led to `id`. -/
def past (g : Forest α) (id : NodeId) (c : Option NodeId) : Option NodeId :=
  if c = some id then g.parent? id else c

/-- The dropped node is missing from every way, and nothing else is. -/
theorem way_drop (hg : g.WellFormed) (id : NodeId) (h : g.Way c l) :
    (g.drop id).Way (past g id c) (l.filter (· ≠ id)) := by
  induction h with
  | top => exact .top
  | @down d above hd _ ih =>
    rw [List.filter_append]
    by_cases hself : d = id
    · have hpast : past g id (g.parent? d) = g.parent? d :=
        if_neg (hself ▸ hg.parent_ne_self d)
      rw [hpast] at ih
      simpa [past, hself] using ih
    · have hcursor : past g id (some d) = some d := by simp [past, hself]
      have hkept : [d].filter (· ≠ id) = [d] := by simp [hself]
      rw [hcursor, hkept]
      refine .down (isLive_drop.2 ⟨hself, hd⟩) ?_
      rw [parent?_drop hself]
      exact ih

theorem drop (hg : g.WellFormed) (id : NodeId) : (g.drop id).WellFormed where
  mem_children c p := by
    by_cases hp : p = id
    · rw [hp, children_drop_self]
      refine ⟨fun h => absurd h List.not_mem_nil, ?_⟩
      intro hc
      have hne : c ≠ id := (isLive_drop.1 (isLive_of_parent? hc)).1
      rw [parent?_drop hne] at hc
      split at hc
      · exact absurd hc (hg.parent_ne_self id)
      · contradiction
    · rw [children_drop hp hg.hasPlace_parent, List.mem_append, List.mem_filter,
        hg.mem_children, mem_handed, hg.mem_children]
      by_cases hc : c = id
      · simp [hc, parent?_drop_self, hg.parent_ne_self id]
      · rw [parent?_drop hc]
        by_cases hchild : g.parent? c = some id
        · simp [hchild, hc, Ne.symm hp]
        · simp [hchild, hc]
  nodup_children p := by
    by_cases hp : p = id
    · rw [hp, children_drop_self]
      exact List.nodup_nil
    · rw [children_drop hp hg.hasPlace_parent]
      apply nodup_append_handed ((hg.nodup_children p).filter _) (hg.nodup_children id)
      intro _ c hc hcid
      exact hp (hg.eq_of_mem_children (List.mem_filter.1 hc).1 hcid)
  way i hi := by
    obtain ⟨hne, hlive⟩ := isLive_drop.1 hi
    obtain ⟨l, hl⟩ := hg.way i hlive
    have hdrop := hg.way_drop id hl
    rw [past, if_neg (by simpa using hne)] at hdrop
    exact ⟨_, hdrop⟩

end WellFormed

end Forest

end WindowFlow
