import WindowFlow.Proofs.Facet.Derivation
import WindowFlow.Proofs.Flow.FacetChain
/-!
The fields that nodes report. They are told from the transform of a node, apart from the runtime
step that is assembled from it, and are just the fields that the step names. Along a path they add
up step by step, so what is there above a node is there at the node.
-/
namespace WindowFlow

namespace Assembled

/-- The fields that have to be there before the step runs. -/
def inputs (a : Assembled) : FieldSet :=
  .ofList (a.fields.filterMap id ++ a.partition.getD [] ++ a.sortFields)

/-- The fields that are there once the step has run. -/
def outputs (a : Assembled) : FieldSet := .ofList (a.names ++ a.partition.getD [])

end Assembled

namespace Json

variable {members : List (String × Option Json)} {name : String} {o : Option Json} {entry : Json}

/-- The object holds a list under the name, and the entry stands in it. -/
def Lists (v : Json) (name : String) (entry : Json) : Prop :=
  ∃ items, v.member? name = some (.arr items) ∧ entry ∈ items

/-- The entry stands where a written step names what it reads. A column without a field has null in
the place of one. -/
def HasInput (step entry : Json) : Prop :=
  step.Lists "fields" entry ∧ entry ≠ .null ∨ step.Lists "groupby" entry ∨
    ∃ sort, step.member? "sort" = some sort ∧ sort.Lists "field" entry

/-- The entry stands where a written step names what its rows have afterwards. -/
def HasOutput (step entry : Json) : Prop := step.Lists "as" entry ∨ step.Lists "groupby" entry

theorem member?_record (hnames : (names members).Nodup) (h : (name, o) ∈ members) :
    (record members).member? name = o := lookup_record hnames h

theorem lists_strings_iff {v : Json} {xs : List String} (h : v.member? name = some (strings xs)) :
    v.Lists name entry ↔ ∃ f ∈ xs, entry = .str f := by
  simp [Lists, h, strings, eq_comm]

end Json

namespace Assembled

variable {a : Assembled} {entry : Json} {f : String}

theorem mem_inputs :
    f ∈ a.inputs ↔ some f ∈ a.fields ∨ f ∈ a.partition.getD [] ∨ f ∈ a.sortFields := by
  simp [inputs]

theorem mem_outputs : f ∈ a.outputs ↔ f ∈ a.names ∨ f ∈ a.partition.getD [] := by
  simp [outputs]

theorem lists_fields_iff :
    a.toJson.Lists "fields" entry ∧ entry ≠ .null ↔ ∃ f, some f ∈ a.fields ∧ entry = .str f := by
  have hmember : a.toJson.member? "fields" =
      some (.arr (a.fields.map fun f => .orNull (f.map .str))) :=
    Json.member?_record (by simp) (by simp)
  rw [Json.Lists, hmember]
  constructor
  · rintro ⟨⟨items, hitems, hentry⟩, hne⟩
    cases hitems
    obtain ⟨_ | f, hf, rfl⟩ := List.mem_map.1 hentry
    · exact absurd rfl hne
    · exact ⟨f, hf, rfl⟩
  · rintro ⟨f, hf, rfl⟩
    exact ⟨⟨_, rfl, List.mem_map.2 ⟨some f, hf, rfl⟩⟩, nofun⟩

theorem lists_groupby_iff :
    a.toJson.Lists "groupby" entry ↔ ∃ f ∈ a.partition.getD [], entry = .str f := by
  have hmember : a.toJson.member? "groupby" = a.partition.map .strings :=
    Json.member?_record (by simp) (by simp)
  cases hpartition : a.partition with
  | none => simp [Json.Lists, hmember, hpartition]
  | some fields =>
    rw [hpartition] at hmember
    exact Json.lists_strings_iff hmember

theorem lists_sort_iff :
    (∃ sort, a.toJson.member? "sort" = some sort ∧ sort.Lists "field" entry) ↔
      ∃ f ∈ a.sortFields, entry = .str f := by
  have hmember : a.toJson.member? "sort" = some (.record [
      ("field", some (.strings a.sortFields)),
      ("order", some (.strings (a.sortDirections.map Direction.text)))]) :=
    Json.member?_record (by simp) (by simp [Json.record])
  have hfield : ∀ order, (Json.record [("field", some (.strings a.sortFields)),
      ("order", order)]).member? "field" = some (.strings a.sortFields) :=
    fun order => Json.member?_record (by simp) (by simp)
  simp only [hmember, Option.some.injEq, exists_eq_left', Json.lists_strings_iff (hfield _)]

/-- The written form of a step names the fields that the step reads and writes, and nothing else
where they stand. -/
theorem hasInput_toJson_iff : a.toJson.HasInput entry ↔ ∃ f ∈ a.inputs, entry = .str f := by
  rw [Json.HasInput, lists_fields_iff, lists_groupby_iff, lists_sort_iff]
  simp only [mem_inputs, or_and_right, exists_or]

theorem hasOutput_toJson_iff : a.toJson.HasOutput entry ↔ ∃ f ∈ a.outputs, entry = .str f := by
  have hmember : a.toJson.member? "as" = some (.strings a.names) :=
    Json.member?_record (by simp) (by simp)
  rw [Json.HasOutput, Json.lists_strings_iff hmember, lists_groupby_iff]
  simp only [mem_outputs, or_and_right, exists_or]

end Assembled

/-- The step leaves out a partition that is empty, which has no fields. -/
theorem Transform.getD_partition_assemble (t : Transform) :
    t.assemble.partition.getD [] = t.partitionFields := by
  rw [assemble, partitionFields]
  cases t.partition with
  | none => rfl
  | some fields => cases fields <;> rfl

namespace Node

theorem dependentFields_eq_inputs (n : Node) : n.dependentFields = n.assemble.inputs := by
  refine Std.ExtTreeSet.ext_mem fun f => ?_
  rw [Assembled.mem_inputs, assemble, Transform.getD_partition_assemble]
  simp [dependentFields, Transform.assemble]

theorem producedFields_eq_outputs (n : Node) : n.producedFields = n.assemble.outputs := by
  rw [producedFields, Assembled.outputs, assemble, Transform.getD_partition_assemble]
  rfl

end Node

namespace Flow

open Forest

variable {g : Flow} {id : NodeId} {n : Node}

/-- What is there at a node, some node on the path to it produces. -/
theorem exists_producedUpTo {l : List NodeId} {nodes : List Node} (h : g.Way (some id) l)
    (hnodes : l.map g.node? = nodes.map some) :
    ∃ fields, g.producedUpTo id = .ok fields ∧
      ∀ f, f ∈ fields ↔ ∃ n ∈ nodes, f ∈ n.producedFields := by
  refine ⟨_, producedUpTo_of_nodesOnPath (h.nodesOnPath_eq hnodes), fun f => ?_⟩
  rw [mem_foldl_producedFields]
  simp

/-- A node adds what it produces to what is there at its parent. -/
theorem producedUpTo_eq_union (hg : g.WellFormed) (hn : g.node? id = some n) :
    ∃ above, (g.parent? id).elim (.ok ∅) g.producedUpTo = .ok above ∧
      g.producedUpTo id = .ok (above ∪ n.producedFields) := by
  have hplace : g.HasPlace (g.parent? id) := hg.hasPlace_parent
  obtain ⟨above, hup⟩ := hg.way_of_cursor hplace
  obtain ⟨nodes, hnodes⟩ := hup.exists_nodes
  have hway : g.Way (some id) (above ++ [id]) := .down (isLive_of_node? hn) hup
  have hall : (above ++ [id]).map g.node? = (nodes ++ [n]).map some := by
    rw [List.map_append, List.map_append, hnodes, List.map_singleton, List.map_singleton, hn]
  refine ⟨_, elim_map_nodesOnPath
    (List.foldl (fun fields n => fields ∪ n.producedFields) ∅) hup hnodes, ?_⟩
  rw [producedUpTo_of_nodesOnPath (hway.nodesOnPath_eq hall), List.foldl_append, List.foldl_cons,
    List.foldl_nil]

/-- What is there at a node is there all the way down from it. -/
theorem producedUpTo_subset {l : List NodeId} {d : NodeId} (h : g.Way (some id) l) (hd : d ∈ l)
    {fields : FieldSet} (hfields : g.producedUpTo id = .ok fields) :
    ∃ earlier, g.producedUpTo d = .ok earlier ∧ ∀ f ∈ earlier, f ∈ fields := by
  obtain ⟨l', hl', hpre⟩ := h.of_mem hd
  obtain ⟨nodes, hnodes⟩ := h.exists_nodes
  obtain ⟨nodes', hnodes'⟩ := hl'.exists_nodes
  obtain ⟨fields', hfields', hmem⟩ := exists_producedUpTo h hnodes
  obtain ⟨earlier, hearlier, hmem'⟩ := exists_producedUpTo hl' hnodes'
  obtain rfl : fields = fields' := by
    rw [hfields, Except.ok.injEq] at hfields'
    exact hfields'
  have hsub : ∀ n ∈ nodes', n ∈ nodes := by
    intro n hn
    have hn' : some n ∈ l'.map g.node? := hnodes' ▸ List.mem_map_of_mem hn
    have hn'' : some n ∈ nodes.map some := hnodes ▸ List.map_subset g.node? hpre.subset hn'
    simpa using hn''
  refine ⟨earlier, hearlier, fun f hf => ?_⟩
  obtain ⟨n, hn, hf⟩ := (hmem' f).1 hf
  exact (hmem f).2 ⟨n, hsub n hn, hf⟩

/-- The sets of fields that a node reports are those that its step names, also as the step is
written. At a live node of a flow there are the fields that the steps down to it leave: those at its
parent and its own, and so all that are there at any node on its path. -/
theorem reported_fields_are_those_of_steps :
    (∀ n : Node, n.dependentFields = n.assemble.inputs ∧ n.producedFields = n.assemble.outputs) ∧
      (∀ (a : Assembled) (entry : Json),
        (a.toJson.HasInput entry ↔ ∃ f ∈ a.inputs, entry = .str f) ∧
        (a.toJson.HasOutput entry ↔ ∃ f ∈ a.outputs, entry = .str f)) ∧
      ∀ g : Flow, g.Reachable → ∀ id n, g.node? id = some n →
        ∃ ids steps fields, g.path id = .ok ids ∧ g.assemblePath id = .ok steps ∧
          g.producedUpTo id = .ok fields ∧
          (∀ f, f ∈ fields ↔ ∃ step ∈ steps, f ∈ step.outputs) ∧
          (∃ above, (g.parent? id).elim (.ok ∅) g.producedUpTo = .ok above ∧
            fields = above ∪ n.producedFields) ∧
          ∀ d ∈ ids, ∃ earlier, g.producedUpTo d = .ok earlier ∧ ∀ f ∈ earlier, f ∈ fields := by
  refine ⟨fun n => ⟨n.dependentFields_eq_inputs, n.producedFields_eq_outputs⟩,
    fun a entry => ⟨Assembled.hasInput_toJson_iff, Assembled.hasOutput_toJson_iff⟩, ?_⟩
  intro g h id n hn
  have hg := h.wellFormed
  obtain ⟨l, hl⟩ := hg.way id (isLive_of_node? hn)
  obtain ⟨nodes, hnodes⟩ := hl.exists_nodes
  obtain ⟨fields, hfields, hmem⟩ := exists_producedUpTo hl hnodes
  obtain ⟨above, habove, hunion⟩ := producedUpTo_eq_union hg hn
  rw [hfields, Except.ok.injEq] at hunion
  refine ⟨l, nodes.map Node.assemble, fields, hl.path_eq,
    assemblePath_of_nodesOnPath (hl.nodesOnPath_eq hnodes), hfields, fun f => ?_,
    ⟨above, habove, hunion⟩, fun d hd => producedUpTo_subset hl hd hfields⟩
  simp [hmem, Node.producedFields_eq_outputs]

/-- At the end of the path `3`, `0`, `4` there is what was there at `0` and at `3`. -/
theorem rewiring_fields_add_up : (run rewiring).Reachable ∧
    (run rewiring).node? 4 = some (single "count") ∧
    ∃ above fields, (run rewiring).producedUpTo 0 = .ok above ∧
      (run rewiring).producedUpTo 4 = .ok fields ∧
      fields = above ∪ (single "count").producedFields ∧
      ∃ earlier, (run rewiring).producedUpTo 3 = .ok earlier ∧ ∀ f ∈ earlier, f ∈ fields := by
  have hreach : (run rewiring).Reachable := ⟨rewiring, rfl⟩
  have hnode : (run rewiring).node? 4 = some (single "count") := rfl
  obtain ⟨-, -, hflows⟩ := reported_fields_are_those_of_steps
  obtain ⟨ids, -, fields, hpath, -, hfields, -, ⟨above, habove, hunion⟩, hearlier⟩ :=
    hflows (run rewiring) hreach 4 (single "count") hnode
  have hids : [3, 0, 4] = ids := Except.ok.inj hpath
  have hroot : 3 ∈ ids := by
    rw [← hids]
    exact List.mem_cons_self
  exact ⟨hreach, hnode, above, fields, habove, hfields, hunion, hearlier 3 hroot⟩

end Flow

end WindowFlow
