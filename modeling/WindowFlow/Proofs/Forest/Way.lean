import Mathlib.Data.List.Nodup
import Mathlib.Data.List.Perm.Subperm
import WindowFlow.Forest.Basic
/-!
Ways as a relation. A way leads from a root down to a node and passes every number once, so it has
no more numbers than there are live ones. That is what bounds both walks: on a way each of them ends
within as many rounds, and their results say what the way holds.
-/
namespace WindowFlow

namespace Forest

variable {α : Type} {g g' : Forest α}

/-- The number that is so many steps above a node. -/
def ancestor? (g : Forest α) : Nat → NodeId → Option NodeId
  | 0, id => some id
  | k + 1, id => (g.parent? id).bind (g.ancestor? k)

/-- A list that repeats no number is no longer than there are live ones. -/
theorem length_le_size_of_nodup {l : List NodeId} (hl : l.Nodup) (hlive : ∀ d ∈ l, g.IsLive d) :
    l.length ≤ g.size :=
  (List.subperm_of_subset hl fun d hd => mem_ids.2 (hlive d hd)).length_le

/-- The way from a root down to a node. No numbers lead to no node. -/
inductive Way (g : Forest α) : Option NodeId → List NodeId → Prop where
  | top : Way g none []
  | down {id : NodeId} {above : List NodeId} :
    g.IsLive id → Way g (g.parent? id) above → Way g (some id) (above ++ [id])

namespace Way

variable {c : Option NodeId} {id d : NodeId} {l l' : List NodeId}

theorem unique (h : Way g c l) (h' : Way g c l') : l = l' := by
  induction h generalizing l' with
  | top =>
    cases h'
    rfl
  | down _ _ ih =>
    cases h' with
    | down _ h' => rw [ih h']

theorem isLive_of_mem (h : Way g c l) (hd : d ∈ l) : g.IsLive d := by
  induction h with
  | top => exact absurd hd List.not_mem_nil
  | down hlive _ ih =>
    rcases List.mem_append.1 hd with hd | hd
    · exact ih hd
    · rw [List.mem_singleton.1 hd]
      exact hlive

theorem mem_self (h : Way g (some id) l) : id ∈ l := by
  cases h
  simp

/-- A way leads to its last number. -/
theorem eq_getLast? (h : Way g c l) : c = l.getLast? := by
  cases h with
  | top => rfl
  | down => rw [List.getLast?_concat]

/-- A way to a node passes over the way to each of its numbers. -/
theorem of_mem (h : Way g c l) (hd : d ∈ l) : ∃ l', Way g (some d) l' ∧ l' <+: l := by
  induction h with
  | top => exact absurd hd List.not_mem_nil
  | @down id above hlive hway ih =>
    rcases List.mem_append.1 hd with hd | hd
    · obtain ⟨l', hl', hpre⟩ := ih hd
      exact ⟨l', hl', hpre.trans (List.prefix_append above [id])⟩
    · rw [List.mem_singleton.1 hd]
      exact ⟨above ++ [id], .down hlive hway, List.prefix_refl _⟩

theorem not_mem_above (h : Way g (g.parent? id) l) (hlive : g.IsLive id) : id ∉ l := by
  intro hmem
  obtain ⟨l', hl', hpre⟩ := h.of_mem hmem
  have heq : l' = l ++ [id] := hl'.unique (.down hlive h)
  have hlen := hpre.length_le
  rw [heq, List.length_append, List.length_singleton] at hlen
  omega

/-- No number is passed twice. -/
theorem nodup (h : Way g c l) : l.Nodup := by
  induction h with
  | top => exact List.nodup_nil
  | @down id above hlive hway ih =>
    have hid := hway.not_mem_above hlive
    rw [List.nodup_append]
    refine ⟨ih, List.nodup_singleton id, ?_⟩
    intro a ha b hb
    rw [List.mem_singleton.1 hb]
    exact fun hab => hid (hab ▸ ha)

theorem length_le_size (h : Way g c l) : l.length ≤ g.size :=
  length_le_size_of_nodup h.nodup fun _ hd => h.isLive_of_mem hd

theorem parent?_head (h : Way g c l) {r : NodeId} (hr : l.head? = some r) :
    g.parent? r = none := by
  induction h with
  | top => exact absurd hr (by simp)
  | @down id above _ hway ih =>
    cases above with
    | nil =>
      rw [List.nil_append, List.head?_cons] at hr
      rw [← Option.some.inj hr]
      cases hp : g.parent? id with
      | none => rfl
      | some p =>
        rw [hp] at hway
        exact absurd hway.mem_self List.not_mem_nil
    | cons a rest => exact ih (by simpa using hr)

/-- A way depends on nothing but the parents of its numbers. -/
theorem congr (h : Way g c l) (hlive : ∀ d ∈ l, g'.IsLive d)
    (hparent : ∀ d ∈ l, g'.parent? d = g.parent? d) : Way g' c l := by
  induction h with
  | top => exact .top
  | @down id above _ _ ih =>
    have hid : id ∈ above ++ [id] := List.mem_append_right above (List.mem_singleton_self id)
    have hup : Way g' (g.parent? id) above :=
      ih (fun d hd => hlive d (List.mem_append_left [id] hd))
        (fun d hd => hparent d (List.mem_append_left [id] hd))
    rw [← hparent id hid] at hup
    exact .down (hlive id hid) hup

/-- Read backwards, a way lists the ancestors of the node at its end. -/
theorem ancestor?_eq (h : Way g (some id) l) (k : Nat) : g.ancestor? k id = l.reverse[k]? := by
  induction k generalizing id l with
  | zero =>
    cases h
    simp [ancestor?]
  | succ k ih =>
    obtain _ | @⟨_, above, _, hup⟩ := h
    simp only [ancestor?, List.reverse_append, List.reverse_singleton, List.singleton_append,
      List.getElem?_cons_succ]
    cases hp : g.parent? id with
    | none =>
      rw [hp] at hup
      cases hup
      rfl
    | some p =>
      rw [hp] at hup
      exact ih hup

/-- The last ancestor is a root. -/
theorem exists_root (h : Way g (some id) l) :
    ∃ r, g.ancestor? (l.length - 1) id = some r ∧ g.IsLive r ∧ g.parent? r = none := by
  have hne : l ≠ [] := List.ne_nil_of_mem h.mem_self
  have hlast : l.reverse[l.length - 1]? = some (l.head hne) := by
    rw [← List.head?_eq_some_head hne, ← List.getLast?_reverse, List.getLast?_eq_getElem?,
      List.length_reverse]
  refine ⟨l.head hne, ?_, h.isLive_of_mem (List.head_mem hne), ?_⟩
  · rw [h.ancestor?_eq, hlast]
  · exact h.parent?_head (List.head?_eq_some_head hne)

theorem ancestor?_ne_self (h : Way g (some id) l) (k : Nat) : g.ancestor? (k + 1) id ≠ some id := by
  intro hk
  rw [h.ancestor?_eq] at hk
  obtain _ | @⟨_, above, hlive, hup⟩ := h
  rw [List.reverse_append, List.reverse_singleton, List.singleton_append,
    List.getElem?_cons_succ] at hk
  exact hup.not_mem_above hlive (List.mem_reverse.1 (List.mem_of_getElem? hk))

theorem mem_iff_ancestor (h : Way g (some id) l) : d ∈ l ↔ ∃ k, g.ancestor? k id = some d := by
  rw [← List.mem_reverse, List.mem_iff_getElem?]
  simp only [h.ancestor?_eq]

theorem climb_eq (h : Way g c l) {n : Nat} (hn : l.length ≤ n) :
    g.climb n c = some (.ok l.reverse) := by
  induction h generalizing n with
  | top => cases n <;> rfl
  | @down id above hlive _ ih =>
    obtain ⟨e, he⟩ := isLive_iff.1 hlive
    rw [List.length_append, List.length_singleton] at hn
    obtain ⟨n, rfl⟩ : ∃ m, n = m + 1 := ⟨n - 1, by omega⟩
    have hup := ih (n := n) (by omega)
    rw [parent?_of_get? he] at hup
    simp [climb, he, hup, Functor.map, Except.map]

theorem meets_eq (h : Way g c l) (id : NodeId) {n : Nat} (hn : l.length ≤ n) :
    g.meets id n c = some (decide (id ∈ l)) := by
  induction h generalizing n with
  | top => cases n <;> simp [meets]
  | @down i above _ _ ih =>
    rw [List.length_append, List.length_singleton] at hn
    obtain ⟨n, rfl⟩ : ∃ m, n = m + 1 := ⟨n - 1, by omega⟩
    have hup := ih (n := n) (by omega)
    by_cases hi : i = id
    · simp [meets, hi]
    · simp [meets, hi, hup, Ne.symm hi]

theorem path_eq (h : Way g (some id) l) : g.path id = .ok l := by
  have hlen := h.length_le_size
  have hsize := size_le_next g
  have hclimb := h.climb_eq (n := g.next + 1) (by omega)
  simp [path, hclimb, Functor.map, Except.map]

theorem isAbove_eq (h : Way g (some id) l) (d : NodeId) : g.isAbove d id = decide (d ∈ l) := by
  have hlen := h.length_le_size
  have hsize := size_le_next g
  rw [isAbove, h.meets_eq d (n := g.next + 1) (by omega), Option.getD_some]

theorem exists_nodes (h : Way g c l) : ∃ nodes : List α, l.map g.node? = nodes.map some := by
  induction h with
  | top => exact ⟨[], rfl⟩
  | @down id above hlive _ ih =>
    obtain ⟨nodes, hnodes⟩ := ih
    obtain ⟨e, he⟩ := isLive_iff.1 hlive
    refine ⟨nodes ++ [e.node], ?_⟩
    rw [List.map_append, List.map_append, hnodes, List.map_singleton, List.map_singleton,
      node?_of_get? he]

theorem mapM_nodeAt {nodes : List α} (hnodes : l.map g.node? = nodes.map some) :
    l.mapM g.nodeAt = .ok nodes := by
  induction l generalizing nodes with
  | nil =>
    rw [List.map_nil, List.nil_eq, List.map_eq_nil_iff] at hnodes
    rw [hnodes]
    rfl
  | cons i rest ih =>
    obtain ⟨node, others, rfl⟩ : ∃ node others, nodes = node :: others :=
      List.exists_cons_of_ne_nil (by rintro rfl; simp at hnodes)
    rw [List.map_cons, List.map_cons, List.cons.injEq] at hnodes
    rw [List.mapM_cons, nodeAt, hnodes.1, ih hnodes.2]
    rfl

theorem nodesOnPath_eq (h : Way g (some id) l) {nodes : List α}
    (hnodes : l.map g.node? = nodes.map some) : g.nodesOnPath id = .ok nodes := by
  rw [nodesOnPath, h.path_eq]
  exact mapM_nodeAt hnodes

end Way

theorem way_concat_iff {id i : NodeId} {l : List NodeId} :
    g.Way (some id) (l ++ [i]) ↔ i = id ∧ g.IsLive id ∧ g.Way (g.parent? id) l := by
  constructor
  · intro h
    generalize hl : l ++ [i] = l' at h
    cases h with
    | down hlive hup =>
      obtain ⟨rfl, hi⟩ := List.append_inj' hl rfl
      exact ⟨List.singleton_inj.1 hi, hlive, hup⟩
  · rintro ⟨rfl, hlive, hup⟩
    exact .down hlive hup

theorem path_of_not_isLive {id : NodeId} (h : ¬ g.IsLive id) :
    g.path id = .error (.unknownNode id) := by
  simp [path, climb, get?_of_not_isLive h, Functor.map, Except.map]

theorem nodesOnPath_of_not_isLive {id : NodeId} (h : ¬ g.IsLive id) :
    g.nodesOnPath id = .error (.unknownNode id) := by
  rw [nodesOnPath, path_of_not_isLive h]
  rfl

end Forest

end WindowFlow
