import WindowFlow.Proofs.Flow.Reachable
import WindowFlow.Proofs.Window.Hash
/-!
What is found by the hash of a node. A hash holds the digest of a text, and digests are fewer than
texts. So a node is found together with its equals, and with every node whose text happens to have
the digest of its own. To take a found node for the one that was looked for is sound in a flow in
which no texts collide, and a run leads to such flows if the nodes that it brings do not collide.
-/
namespace WindowFlow

namespace Node

variable {m n : Node}

/-- The texts of the nodes are two, and their digest is one. -/
structure Collides (m n : Node) : Prop where
  text_ne : m.text ≠ n.text
  digest_eq : Text.digest m.text = Text.digest n.text

theorem hash_eq_iff_eq_or_collides : m.hash = n.hash ↔ m = n ∨ m.Collides n := by
  rw [hash_eq_iff]
  constructor
  · intro hdigest
    by_cases htext : m.text = n.text
    · exact .inl (text_eq_iff.1 htext)
    · exact .inr ⟨htext, hdigest⟩
  · rintro (rfl | hcollides)
    · rfl
    · exact hcollides.digest_eq

theorem Collides.ne (h : m.Collides n) : m ≠ n := mt text_eq_iff.2 h.text_ne

end Node

/-- Some number stands for the node. -/
def Forest.Holds {α : Type} (g : Forest α) (n : α) : Prop := ∃ id, g.node? id = some n

namespace Flow

open Forest

variable {g : Flow} {m n : Node}

theorem mem_withHash {id : NodeId} {hash : String} :
    id ∈ g.withHash hash ↔ ∃ n, g.node? id = some n ∧ n.hash = hash := by
  rw [withHash, List.mem_filter, mem_ids, Option.any_eq_true]
  simp only [decide_eq_true_eq]
  exact ⟨And.right, fun ⟨n, hn, hhash⟩ => ⟨isLive_of_node? hn, n, hn, hhash⟩⟩

/-- Whatever is found by the hash of a node is that node once more. -/
def MergesSoundly (g : Flow) : Prop :=
  ∀ id n, g.node? id = some n → ∀ other ∈ g.withHash n.hash, g.node? other = some n

theorem mem_withHash_hash {other : NodeId} :
    other ∈ g.withHash n.hash ↔ ∃ m, g.node? other = some m ∧ (m = n ∨ m.Collides n) := by
  simp only [mem_withHash, Node.hash_eq_iff_eq_or_collides]

theorem mergesSoundly_iff :
    g.MergesSoundly ↔ ∀ m n, g.Holds m → g.Holds n → ¬ m.Collides n := by
  constructor
  · rintro hsound m n ⟨other, hm⟩ ⟨id, hn⟩ hcollides
    have hfound : other ∈ g.withHash n.hash := mem_withHash_hash.2 ⟨m, hm, .inr hcollides⟩
    have hsame : g.node? other = some n := hsound id n hn other hfound
    exact hcollides.ne (Option.some.inj (hm.symm.trans hsame))
  · intro hnone id n hn other hother
    obtain ⟨m, hm, rfl | hcollides⟩ := mem_withHash_hash.1 hother
    · exact hm
    · exact absurd hcollides (hnone m n ⟨other, hm⟩ ⟨id, hn⟩)

/-- The nodes that a command may bring into a flow. A copy brings none that is not there. -/
def Command.brought : Command → List Node
  | .insert _ node => [node]
  | .insertFacet _ facet => facet.windows
  | .move _ _ | .remove _ | .duplicate _ => []

theorem holds_add {node : Node} {parent : Option NodeId} (h : (g.add node parent).Holds n) :
    n = node ∨ g.Holds n := by
  obtain ⟨id, hid⟩ := h
  rw [node?_add] at hid
  split at hid
  · exact .inl (Option.some.inj hid).symm
  · exact .inr ⟨id, hid⟩

theorem holds_insertChain {nodes : List Node} {parent : Option NodeId}
    (h : ((Edit.insertChain parent nodes).stop g).Holds n) : n ∈ nodes ∨ g.Holds n := by
  induction nodes generalizing g parent with
  | nil => exact .inr h
  | cons node rest ih =>
    obtain ⟨-, hrun⟩ | ⟨err, hrun⟩ := Edit.insert_cases g parent node
    · rw [Edit.insertChain, Edit.stop_bind_of_ok hrun, Edit.stop_bind_pure] at h
      obtain hrest | hadded := ih h
      · exact .inl (List.mem_cons_of_mem node hrest)
      · obtain rfl | hold := holds_add hadded
        · exact .inl List.mem_cons_self
        · exact .inr hold
    · rw [Edit.insertChain, Edit.stop_of_error (Edit.run_bind_of_error hrun _)] at h
      exact .inr h

/-- What a flow holds after a command, it held before or the command brought it. -/
theorem holds_after (hwf : g.WellFormed) {c : Command} (h : (g.after c).Holds n) :
    n ∈ c.brought ∨ g.Holds n := by
  cases c with
  | insert parent node =>
    rw [after] at h
    obtain ⟨-, hrun⟩ | ⟨err, hrun⟩ := Edit.insert_cases g parent node
    · rw [Edit.stop_of_ok hrun] at h
      exact (holds_add h).imp_left fun hnode => List.mem_singleton.2 hnode
    · rw [Edit.stop_of_error hrun] at h
      exact .inr h
  | move id parent =>
    rw [after] at h
    obtain ⟨-, -, -, hrun⟩ | ⟨err, hrun⟩ := Edit.move_cases hwf id parent
    · rw [Edit.stop_of_ok hrun] at h
      obtain ⟨i, hi⟩ := h
      exact .inr ⟨i, by rwa [node?_place] at hi⟩
    · rw [Edit.stop_of_error hrun] at h
      exact .inr h
  | remove id =>
    rw [after] at h
    obtain ⟨e, -, hrun⟩ | ⟨err, hrun⟩ := Edit.remove_cases hwf id
    · rw [Edit.stop_of_ok hrun] at h
      obtain ⟨i, hi⟩ := h
      have hne : i ≠ id := by
        rintro rfl
        simp [node?_drop_self] at hi
      exact .inr ⟨i, by rwa [node?_drop hne] at hi⟩
    · rw [Edit.stop_of_error hrun] at h
      exact .inr h
  | duplicate id =>
    rw [after] at h
    obtain ⟨e, he, hrun⟩ | ⟨err, hrun⟩ := Edit.duplicate_cases g id
    · rw [Edit.stop_of_ok hrun] at h
      obtain rfl | hold := holds_add h
      · exact .inr ⟨id, node?_of_get? he⟩
      · exact .inr hold
    · rw [Edit.stop_of_error hrun] at h
      exact .inr h
  | insertFacet parent facet => exact holds_insertChain h

/-- A node held after a run was brought by a command of it, the first or one of the rest, or held
before it. -/
theorem holds_foldl_after {commands : List Command} (hwf : g.WellFormed)
    (h : (commands.foldl after g).Holds n) : n ∈ commands.flatMap Command.brought ∨ g.Holds n := by
  induction commands generalizing g with
  | nil => exact .inr h
  | cons c rest ih =>
    rw [List.flatMap_cons, List.mem_append]
    obtain hrest | hafter := ih (wellFormed_after hwf c) h
    · exact .inl (.inr hrest)
    · exact (holds_after hwf hafter).imp_left .inl

theorem holds_run {commands : List Command} (h : (run commands).Holds n) :
    n ∈ commands.flatMap Command.brought := by
  refine (holds_foldl_after wellFormed_empty h).resolve_right ?_
  rintro ⟨id, hid⟩
  simp [node?] at hid

/-- After any run the hash of a node finds the equals of the node and the nodes that collide with
it, and nothing else. So a flow merges soundly where no two of its nodes collide and nowhere else,
and a run that brings no nodes that collide leads to such flows alone. Nodes whose texts differ in
one unit do not collide. -/
theorem found_are_equals_or_collide (commands : List Command) :
    (∀ id n, (run commands).node? id = some n → ∀ other, other ∈ (run commands).withHash n.hash ↔
        ∃ m, (run commands).node? other = some m ∧ (m = n ∨ m.Collides n)) ∧
      ((run commands).MergesSoundly ↔
        ∀ m n, (run commands).Holds m → (run commands).Holds n → ¬ m.Collides n) ∧
      ((∀ m ∈ commands.flatMap Command.brought, ∀ n ∈ commands.flatMap Command.brought,
        ¬ m.Collides n) → (run commands).MergesSoundly) ∧
      ∀ m n : Node, m.Collides n → ¬ Text.DifferInOneUnit m.text n.text := by
  refine ⟨fun _ n _ other => mem_withHash_hash, mergesSoundly_iff, fun hbrought => ?_, ?_⟩
  · exact mergesSoundly_iff.2 fun m n hm hn => hbrought m (holds_run hm) n (holds_run hn)
  · exact fun m n hcollides hone => hone.digest_ne hcollides.digest_eq

/-- Ranks, in a column of the label. -/
def ranks (label : String) : Node :=
  .ofTransform ⟨[⟨"rank", none, some label, none⟩], none, none, none, .unbounded⟩

/-- A run that brings two nodes whose labels have one digest. -/
def homographs : List Command := [.insert none (ranks "Aa"), .insert none (ranks "BB")]

/-- A run that brings two nodes that do not collide, and copies one of them. -/
def distinct : List Command :=
  [.insert none (ranks "Aa"), .insert (some 0) (ranks "Bb"), .duplicate 0]

theorem ranks_collide : (ranks "BB").Collides (ranks "Aa") where
  text_ne := by decide +kernel
  digest_eq := by decide +kernel

theorem homographs_are_found :
    1 ∈ (run homographs).withHash (ranks "Aa").hash ∧
      ¬ Text.DifferInOneUnit (ranks "BB").text (ranks "Aa").text ∧
      (run distinct).MergesSoundly := by
  obtain ⟨hfound, -, -, hone⟩ := found_are_equals_or_collide homographs
  obtain ⟨-, -, hsound, -⟩ := found_are_equals_or_collide distinct
  have hapart : ∀ m ∈ distinct.flatMap Command.brought, ∀ n ∈ distinct.flatMap Command.brought,
      Text.digest m.text = Text.digest n.text → m = n := by
    decide +kernel
  exact ⟨(hfound 0 (ranks "Aa") rfl 1).2 ⟨ranks "BB", rfl, .inr ranks_collide⟩,
    hone _ _ ranks_collide,
    hsound fun m hm n hn hcollides => hcollides.ne (hapart m hm n hn hcollides.digest_eq)⟩

/-- The first of these runs has two nodes with one hash, and they run as different steps. -/
theorem not_mergesSoundly_homographs :
    (run homographs).Reachable ∧ ¬ (run homographs).MergesSoundly ∧
      (ranks "BB").assemble ≠ (ranks "Aa").assemble := by
  refine ⟨⟨homographs, rfl⟩, fun hsound => ?_, fun hstep => ?_⟩
  · exact mergesSoundly_iff.1 hsound _ _ ⟨1, rfl⟩ ⟨0, rfl⟩ ranks_collide
  · exact absurd (congrArg Assembled.names hstep) (by decide)

end Flow

end WindowFlow
