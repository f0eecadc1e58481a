import Mathlib.Data.List.Basic
import WindowFlow.Window.Node
/-!
Partitions that are split further. Fields join the end of a partition in the order in which they are
first given, and a field that is there already does not join again; so it makes no difference
whether fields are given at once or one list after the other.
-/
namespace WindowFlow

namespace Node

/-- The fields `new` are those of `more` that are not among `fields`, each of them once, in the
order in which they first stand in `more`. -/
structure Joins (new fields more : List String) : Prop where
  mem_iff : ∀ f, f ∈ new ↔ f ∈ more ∧ f ∉ fields
  ordered : new.Pairwise fun f g => more.idxOf f < more.idxOf g

theorem extend_append (fields more later : List String) :
    extend fields (more ++ later) = extend (extend fields more) later := List.foldl_append

theorem extend_cons (fields : List String) (f : String) (more : List String) :
    extend fields (f :: more) = extend (if f ∈ fields then fields else fields ++ [f]) more := rfl

/-- Another field in front moves the first places of the others by one. -/
theorem ordered_cons {new more : List String} {f : String} (hnot : f ∉ new)
    (h : new.Pairwise fun g k => more.idxOf g < more.idxOf k) :
    new.Pairwise fun g k => (f :: more).idxOf g < (f :: more).idxOf k := by
  refine h.imp_of_mem fun {g k} hg hk hlt => ?_
  have hne : ∀ g ∈ new, f ≠ g := fun g hg hfg => hnot (hfg ▸ hg)
  rw [List.idxOf_cons_ne more (hne g hg), List.idxOf_cons_ne more (hne k hk)]
  exact Nat.succ_lt_succ hlt

theorem exists_extend_eq (fields more : List String) :
    ∃ new, extend fields more = fields ++ new ∧ Joins new fields more := by
  induction more generalizing fields with
  | nil => exact ⟨[], (List.append_nil fields).symm, by simp, .nil⟩
  | cons f rest ih =>
    rw [extend_cons]
    by_cases hf : f ∈ fields
    · obtain ⟨new, heq, hmem, hordered⟩ := ih fields
      have hnot : f ∉ new := fun hnew => ((hmem f).1 hnew).2 hf
      rw [if_pos hf]
      refine ⟨new, heq, fun g => ?_, ordered_cons hnot hordered⟩
      rw [hmem, List.mem_cons, or_and_right]
      exact (or_iff_right fun hg => hg.2 (hg.1 ▸ hf)).symm
    · obtain ⟨new, heq, hmem, hordered⟩ := ih (fields ++ [f])
      have hnot : f ∉ new := fun hnew => ((hmem f).1 hnew).2 (by simp)
      rw [if_neg hf]
      refine ⟨f :: new, by rw [heq, List.append_assoc, List.singleton_append], fun g => ?_, ?_⟩
      · by_cases hg : g = f
        · simp [hg, hf]
        · simp [hmem, hg]
      · refine .cons (fun g hg => ?_) (ordered_cons hnot hordered)
        have hne : f ≠ g := fun hfg => hnot (hfg ▸ hg)
        rw [List.idxOf_cons_self, List.idxOf_cons_ne rest hne]
        exact Nat.succ_pos _

theorem mem_extend {fields more : List String} {f : String} :
    f ∈ extend fields more ↔ f ∈ fields ∨ f ∈ more := by
  obtain ⟨new, heq, hmem, -⟩ := exists_extend_eq fields more
  rw [heq, List.mem_append, hmem]
  tauto

theorem extend_eq_self_iff {fields more : List String} :
    extend fields more = fields ↔ ∀ f ∈ more, f ∈ fields := by
  obtain ⟨new, heq, hmem, -⟩ := exists_extend_eq fields more
  rw [heq, List.append_right_eq_self, List.eq_nil_iff_forall_not_mem]
  simp [hmem]

/-- Nothing but the partition changes. -/
theorem transform_widen (n : Node) (fields : List String) :
    (n.widen fields).transform =
      { n.transform with partition := (n.widen fields).transform.partition } := rfl

theorem partition_widen (n : Node) (fields : List String) :
    (n.widen fields).transform.partition =
      if n.transform.partition = none ∧ fields = [] then none
      else some (extend n.transform.partitionFields fields) := by
  obtain ⟨⟨columns, ignorePeers, sort, partition, frame⟩, hn⟩ := n
  cases partition <;> cases fields <;> simp [widen, Transform.partitionFields]

theorem partition_widen_eq_none_iff {n : Node} {fields : List String} :
    (n.widen fields).transform.partition = none ↔ n.transform.partition = none ∧ fields = [] := by
  rw [partition_widen]
  simp

theorem partitionFields_widen (n : Node) (fields : List String) :
    (n.widen fields).transform.partitionFields = extend n.transform.partitionFields fields := by
  rw [Transform.partitionFields, partition_widen]
  split
  · rename_i h
    simp [Transform.partitionFields, h, extend]
  · rfl

/-- A node is as wide as it gets by fields that its partition has. -/
theorem widen_eq_self_iff {n : Node} {fields : List String} :
    n.widen fields = n ↔ ∀ f ∈ fields, f ∈ n.transform.partitionFields := by
  constructor
  · intro h
    rw [← extend_eq_self_iff, ← partitionFields_widen, h]
  · intro h
    have hpartition : (n.widen fields).transform.partition = n.transform.partition := by
      rw [partition_widen]
      cases hp : n.transform.partition with
      | none =>
        have hfields : fields = [] := by
          rw [Transform.partitionFields, hp] at h
          exact List.eq_nil_iff_forall_not_mem.2 fun f hf => List.not_mem_nil (h f hf)
        rw [if_pos ⟨rfl, hfields⟩]
      | some own =>
        rw [extend_eq_self_iff.2 h, Transform.partitionFields, hp]
        simp
    refine eq_of_transform_eq ?_
    rw [transform_widen, hpartition]

theorem widen_widen (n : Node) (fields later : List String) :
    (n.widen fields).widen later = n.widen (fields ++ later) := by
  have hnone : ((n.widen fields).transform.partition = none ∧ later = []) ↔
      n.transform.partition = none ∧ fields ++ later = [] := by
    rw [partition_widen_eq_none_iff, List.append_eq_nil_iff, and_assoc]
  have hpartition : ((n.widen fields).widen later).transform.partition =
      (n.widen (fields ++ later)).transform.partition := by
    rw [partition_widen (n.widen fields), partition_widen n (fields ++ later),
      partitionFields_widen, extend_append, if_congr hnone rfl rfl]
  refine eq_of_transform_eq ?_
  rw [transform_widen, transform_widen n (fields ++ later), hpartition]
  rfl

theorem producedFields_widen (n : Node) (fields : List String) :
    (n.widen fields).producedFields = n.producedFields ∪ .ofList fields := by
  refine Std.ExtTreeSet.ext_mem fun f => ?_
  rw [producedFields, partitionFields_widen, transform_widen, Std.ExtTreeSet.mem_union_iff]
  simp [producedFields, mem_extend, or_assoc]

theorem dependentFields_widen (n : Node) (fields : List String) :
    (n.widen fields).dependentFields = n.dependentFields ∪ .ofList fields := by
  refine Std.ExtTreeSet.ext_mem fun f => ?_
  rw [dependentFields, partitionFields_widen, transform_widen, Std.ExtTreeSet.mem_union_iff]
  simp [dependentFields, mem_extend, Transform.sortKeys, or_assoc, or_left_comm, or_comm]

/-- Fields given one list after the other make the same node, under the same hash, as all of them
given at once. The partition of a node stays in front, and behind it come the fields that it lacks;
a partition is absent only as long as no field is given. Nothing else of the node changes, normal
form included, and it reads and produces the fields given besides its own. -/
theorem widening_accumulates (n : Node) (fields later : List String) :
    (n.widen fields).widen later = n.widen (fields ++ later) ∧
      (∃ new, (n.widen fields).transform.partitionFields = n.transform.partitionFields ++ new ∧
        Joins new n.transform.partitionFields fields) ∧
      ((n.widen fields).transform.partition = none ↔ n.transform.partition = none ∧ fields = []) ∧
      (n.widen fields = n ↔ ∀ f ∈ fields, f ∈ n.transform.partitionFields) ∧
      { (n.widen fields).transform with partition := n.transform.partition } = n.transform ∧
      ofTransform { n.transform with partition := (n.widen fields).transform.partition } =
        n.widen fields ∧
      (n.widen fields).producedFields = n.producedFields ∪ .ofList fields ∧
      (n.widen fields).dependentFields = n.dependentFields ∪ .ofList fields := by
  refine ⟨widen_widen n fields later, ?_, partition_widen_eq_none_iff, widen_eq_self_iff, rfl, ?_,
    producedFields_widen n fields, dependentFields_widen n fields⟩
  · rw [partitionFields_widen]
    exact exists_extend_eq _ _
  · rw [← transform_widen, ofTransform_transform]

/-- Repetitions stay where the partition has them, and do not count among what is given. -/
example :
    extend ["site", "site"] ["year", "site", "crop", "year"] = ["site", "site", "year", "crop"] := by
  decide

end Node

end WindowFlow
