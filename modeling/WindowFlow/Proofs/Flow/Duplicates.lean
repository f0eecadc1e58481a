import WindowFlow.Proofs.Flow.History
import WindowFlow.Proofs.Flow.Merging
import WindowFlow.Proofs.Window.Widening
/-!
Where the nodes of a flow come from, and that the hash of a node finds all that come from an equal
source. A node is read, made from a transform, widened or implied by a facet, and then inserted or
copied. Each way leads to the node of one configuration; so nodes of equivalent configurations have
one hash, wherever they hang and whatever has been done to the flow.
-/
namespace WindowFlow

/-- The configuration whose partition is split further by `fields`. -/
def Transform.widen (t : Transform) (fields : List String) : Transform :=
  { t with
    partition :=
      if t.partition = none ∧ fields = [] then none
      else some (Node.extend t.partitionFields fields) }

namespace Node

/-- Widening does not mind whether columns and parameters are in normal form. -/
theorem ofTransform_widen (t : Transform) (fields : List String) :
    (ofTransform t).widen fields = ofTransform (t.widen fields) := by
  refine eq_of_transform_eq ?_
  rw [transform_widen, partition_widen]
  rfl

/-- The ways to build a node, each with the configuration that the node is built from. -/
inductive BuiltFrom : Node → Transform → Prop where
  | read {v : Json} {t : Transform} {n : Node} :
      Transform.form.readObject v = .ok t → ofJson v = .ok n → BuiltFrom n t
  | made (t : Transform) : BuiltFrom (ofTransform t) t
  | widened {n : Node} {t : Transform} (fields : List String) :
      BuiltFrom n t → BuiltFrom (n.widen fields) (t.widen fields)
  | implied {c : Channel} {r : Ranking} {n : Node} :
      c.order.bind CellOrder.aggregate? = some r → c.window? = some n →
      BuiltFrom n (r.window c.field)

theorem BuiltFrom.eq_ofTransform {n : Node} {t : Transform} (h : n.BuiltFrom t) :
    n = ofTransform t := by
  induction h with
  | read hread hnode =>
    obtain ⟨t', hread', rfl⟩ := ofJson_eq_ok_iff.1 hnode
    rw [Except.ok.inj (hread.symm.trans hread')]
  | made t => rfl
  | widened fields _ ih => rw [ih, ofTransform_widen]
  | @implied c r n hranked hwindow =>
    rw [Channel.window?_eq, hranked, Option.map_some] at hwindow
    exact (Option.some.inj hwindow).symm

end Node

namespace Flow

open Forest

variable {g : Flow} {commands : List Command} {parent : Option NodeId} {id : NodeId} {n node : Node}
  {s t : Transform}

/-- A chain gets consecutive numbers. -/
theorem issued_mem_chainEvents {nodes : List Node} :
    .issued id n ∈ g.chainEvents parent nodes ↔
      g.HasPlace parent ∧ ∃ k, nodes[k]? = some n ∧ id = g.next + k := by
  induction nodes generalizing g parent with
  | nil => simp [chainEvents]
  | cons node rest ih =>
    obtain ⟨hparent, hrun⟩ | ⟨err, hrun⟩ := Edit.insert_cases g parent node
    · rw [chainEvents, hrun, List.mem_cons, ih]
      constructor
      · rintro (h | ⟨-, k, hk, rfl⟩)
        · cases h
          exact ⟨hparent, 0, rfl, rfl⟩
        · exact ⟨hparent, k + 1, hk, next_add_add g node parent k⟩
      · rintro ⟨-, k, hk, rfl⟩
        cases k with
        | zero =>
          cases hk
          exact .inl rfl
        | succ k =>
          exact .inr ⟨hasPlace_add_next g node parent, k, hk, (next_add_add g node parent k).symm⟩
    · have hparent : ¬ g.HasPlace parent := by
        intro hparent
        rw [Edit.run_insert node hparent] at hrun
        cases hrun
      rw [chainEvents, hrun]
      simp [hparent]

/-- A node that is inserted is a chain of its own. -/
theorem issued_mem_events_insert :
    .issued id n ∈ g.events (.insert parent node) ↔ g.HasPlace parent ∧ id = g.next ∧ n = node := by
  have hchain : g.events (.insert parent node) = g.chainEvents parent [node] := by
    rw [events, chainEvents, Edit.value?]
    cases (Edit.insert parent node).run g <;> rfl
  rw [hchain, issued_mem_chainEvents]
  refine and_congr_right fun _ => ⟨?_, ?_⟩
  · rintro ⟨k, hk, rfl⟩
    obtain ⟨rfl, rfl⟩ : k = 0 ∧ node = n := by simpa [List.getElem?_singleton] using hk
    exact ⟨rfl, rfl⟩
  · rintro ⟨rfl, rfl⟩
    exact ⟨0, rfl, rfl⟩

theorem issued_mem_events_duplicate {original : NodeId} :
    .issued id n ∈ g.events (.duplicate original) ↔ id = g.next ∧ g.node? original = some n := by
  obtain ⟨e, he, hrun⟩ | ⟨err, hrun⟩ := Edit.duplicate_cases g original
  · rw [events, Edit.value?_of_ok hrun, node?_of_get? he]
    simp [eq_comm]
  · have hnode : g.node? original = none := by
      refine node?_of_not_isLive fun hlive => ?_
      obtain ⟨e, he⟩ := isLive_iff.1 hlive
      rw [Edit.run_duplicate he] at hrun
      cases hrun
    rw [events, Edit.value?_of_error hrun, hnode]
    simp

theorem issued_concat_iff {c : Command} :
    (id, n) ∈ (history (commands ++ [c])).issued ↔
      (id, n) ∈ (history commands).issued ∨ .issued id n ∈ (run commands).events c := by
  have hgrows : history (commands ++ [c]) = history commands ++ (run commands).events c := by
    rw [history, eventsOf_append, eventsOf, eventsOf, List.append_nil]
    rfl
  rw [hgrows, History.issued_append, List.mem_append, ← History.mem_issued]

/-- The ways in which a number comes to stand for a node in a run, each with the configuration that
the node is built from. A copy goes back to the configuration of what it is a copy of, and later
commands change nothing about either. -/
inductive Origin : List Command → NodeId → Transform → Prop where
  | inserted {commands : List Command} {parent : Option NodeId} {n : Node} {t : Transform} :
      (run commands).HasPlace parent → n.BuiltFrom t →
      Origin (commands ++ [.insert parent n]) (run commands).next t
  | chained {commands : List Command} {parent : Option NodeId} {facet : Facet} {k : Nat} {n : Node}
      {t : Transform} :
      (run commands).HasPlace parent → facet.windows[k]? = some n → n.BuiltFrom t →
      Origin (commands ++ [.insertFacet parent facet]) ((run commands).next + k) t
  | copied {commands : List Command} {id : NodeId} {t : Transform} :
      (run commands).IsLive id → Origin commands id t →
      Origin (commands ++ [.duplicate id]) (run commands).next t
  | kept {commands : List Command} {id : NodeId} {t : Transform} (c : Command) :
      Origin commands id t → Origin (commands ++ [c]) id t

theorem Origin.exists_issued (h : Origin commands id t) :
    ∃ n, (id, n) ∈ (history commands).issued ∧ n.BuiltFrom t := by
  induction h with
  | inserted hparent hbuilt =>
    exact ⟨_, issued_concat_iff.2 (.inr (issued_mem_events_insert.2 ⟨hparent, rfl, rfl⟩)), hbuilt⟩
  | chained hparent hk hbuilt =>
    exact ⟨_, issued_concat_iff.2 (.inr (issued_mem_chainEvents.2 ⟨hparent, _, hk, rfl⟩)), hbuilt⟩
  | @copied commands id t hlive _ ih =>
    obtain ⟨n, hn, hbuilt⟩ := ih
    have hnode := (accounts_history commands).node?_of_issued hn hlive
    exact ⟨n, issued_concat_iff.2 (.inr (issued_mem_events_duplicate.2 ⟨rfl, hnode⟩)), hbuilt⟩
  | kept c _ ih =>
    obtain ⟨n, hn, hbuilt⟩ := ih
    exact ⟨n, issued_concat_iff.2 (.inl hn), hbuilt⟩

/-- From the last command backwards: it issued the number, or the run before it did. -/
theorem origin_of_issued (hn : (id, n) ∈ (history commands).issued) (hbuilt : n.BuiltFrom t) :
    Origin commands id t := by
  induction commands using List.reverseRecOn generalizing id with
  | nil => exact absurd hn List.not_mem_nil
  | append_singleton commands c ih =>
    obtain hold | hnew := issued_concat_iff.1 hn
    · exact .kept c (ih hold)
    · cases c with
      | insert parent node =>
        obtain ⟨hparent, rfl, rfl⟩ := issued_mem_events_insert.1 hnew
        exact .inserted hparent hbuilt
      | move i parent => exact absurd hnew List.not_mem_nil
      | remove i => simp [events] at hnew
      | duplicate original =>
        obtain ⟨rfl, hnode⟩ := issued_mem_events_duplicate.1 hnew
        have hissued := (accounts_history commands).issued_of_node? hnode
        exact .copied (isLive_of_node? hnode) (ih hissued)
      | insertFacet parent facet =>
        obtain ⟨hparent, k, hk, rfl⟩ := issued_mem_chainEvents.1 hnew
        exact .chained hparent hk hbuilt

/-- While a number stands for a node, the node is that of the configuration it comes from. -/
theorem Origin.node?_eq (h : Origin commands id t) (hlive : (run commands).IsLive id) :
    (run commands).node? id = some (.ofTransform t) := by
  obtain ⟨n, hn, hbuilt⟩ := h.exists_issued
  rw [← hbuilt.eq_ofTransform]
  exact (accounts_history commands).node?_of_issued hn hlive

theorem exists_origin (hn : (run commands).node? id = some n) : ∃ t, Origin commands id t := by
  have hissued := (accounts_history commands).issued_of_node? hn
  have hbuilt : n.BuiltFrom n.transform := by
    have hmade := Node.BuiltFrom.made n.transform
    rwa [Node.ofTransform_transform] at hmade
  exact ⟨n.transform, origin_of_issued hissued hbuilt⟩

theorem pairwise_withHash (g : Flow) (hash : String) : (g.withHash hash).Pairwise (· < ·) :=
  (pairwise_ids g).filter _

theorem isLive_of_mem_withHash {hash : String} (h : id ∈ g.withHash hash) : g.IsLive id := by
  obtain ⟨n, hn, -⟩ := mem_withHash.1 h
  exact isLive_of_node? hn

/-- After any run the hash of a live node finds, in ascending order, live numbers alone: the node
itself and every other whose configuration is equivalent to one of its own, however the two were
built and inserted. Beyond these it finds only nodes that collide with it. -/
theorem duplicates_are_found (commands : List Command) {id : NodeId} {n : Node}
    (hn : (run commands).node? id = some n) :
    ((run commands).withHash n.hash).Pairwise (· < ·) ∧
      id ∈ (run commands).withHash n.hash ∧
      (∀ other ∈ (run commands).withHash n.hash,
        (run commands).IsLive other ∧ other ∉ (history commands).removed) ∧
      (∃ s, Origin commands id s) ∧
      ∀ s, Origin commands id s → n = .ofTransform s ∧
        ∀ other t, (run commands).IsLive other → Origin commands other t →
          (other ∈ (run commands).withHash n.hash ↔
            s.SameWork t ∨ (Node.ofTransform t).Collides (.ofTransform s)) := by
  refine ⟨pairwise_withHash _ _, mem_withHash.2 ⟨n, hn, rfl⟩, fun other hother => ?_,
    exists_origin hn, fun s hs => ?_⟩
  · have hlive := isLive_of_mem_withHash hother
    exact ⟨hlive, ((accounts_history commands).isLive_iff.1 hlive).2⟩
  · obtain rfl := Option.some.inj (hn.symm.trans (hs.node?_eq (isLive_of_node? hn)))
    refine ⟨rfl, fun other t hlive ht => ?_⟩
    have hsame : Node.ofTransform t = .ofTransform s ↔ s.SameWork t := by
      rw [eq_comm, Node.ofTransform_eq_iff]
    rw [mem_withHash_hash, ht.node?_eq hlive, ← hsame]
    simp

/-- Four tiles of each site, counted by a float and without a label. -/
def siteTiles : Transform :=
  (Transform.tiles none (.float ⟨false, 0x4010000000000000, by decide⟩)).widen ["site"]

/-- Four tiles, counted by a whole number, under the label that is understood. -/
def plainTiles : Transform := .tiles (some "ntile") (.whole 4 (by decide))

/-- A run in which four tiles of each site are read, made by widening and copied, and in which what
was read is removed at last. -/
def recurring : List Command := [
  .insert none (.ofTransform siteTiles),
  .insert (some 0) ((Node.ofTransform plainTiles).widen ["site"]),
  .insert (some 1) (single "rank"), .duplicate 0, .move 3 (some 2), .remove 0]

theorem recurring_tiles_are_found :
    let tiles := Node.ofTransform siteTiles
    (run recurring).node? 1 = some tiles ∧ Origin recurring 1 (plainTiles.widen ["site"]) ∧
      Origin recurring 3 siteTiles ∧ (plainTiles.widen ["site"]).SameWork siteTiles ∧
      3 ∈ (run recurring).withHash tiles.hash ∧ 0 ∉ (run recurring).withHash tiles.hash := by
  intro tiles
  have hread : tiles.BuiltFrom siteTiles :=
    .read (Transform.readObject_toJson siteTiles) (Node.ofJson_toJson siteTiles)
  have hwidened : Origin recurring 1 (plainTiles.widen ["site"]) :=
    origin_of_issued (by decide +kernel) (.widened ["site"] (.made plainTiles))
  have hcopied : Origin recurring 3 siteTiles := origin_of_issued (by decide +kernel) hread
  have hwork : (plainTiles.widen ["site"]).SameWork siteTiles :=
    Node.ofTransform_eq_iff.1 (by decide +kernel)
  have hnode : (run recurring).node? 1 = some tiles := by decide +kernel
  obtain ⟨-, -, hlive, -, hsources⟩ := duplicates_are_found recurring hnode
  obtain ⟨-, hfound⟩ := hsources _ hwidened
  have hcopy : (run recurring).IsLive 3 := by decide +kernel
  have hgone : 0 ∈ (history recurring).removed := by decide +kernel
  exact ⟨hnode, hwidened, hcopied, hwork, (hfound 3 siteTiles hcopy hcopied).2 (.inl hwork),
    fun h => (hlive 0 h).2 hgone⟩

end Flow

end WindowFlow
