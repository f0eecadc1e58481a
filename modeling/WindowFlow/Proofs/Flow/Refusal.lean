import WindowFlow.Proofs.Flow.Reachable
/-!
When commands and queries fail. Each one looks at its arguments first; in a flow that runs lead to,
that is also the only place where it can fail, and then nothing has changed.
-/
namespace WindowFlow

namespace Flow

open Forest

variable {g : Flow}

/-- The error that a command stops at, if it does. -/
def refusal? (g : Flow) : Command → Option ForestError
  | .insert parent node => (Edit.insert parent node).error? g
  | .move id parent => (Edit.move id parent).error? g
  | .remove id => (Edit.remove id : Edit Node Node).error? g
  | .duplicate id => (Edit.duplicate id : Edit Node NodeId).error? g
  | .insertFacet parent facet => (insertFacet parent facet).error? g

/-- What is wrong with the arguments of a command. -/
inductive Refused (g : Flow) : Command → ForestError → Prop where
  | insert {p : NodeId} {node : Node} (hp : ¬ g.IsLive p) :
    Refused g (.insert (some p) node) (.unknownNode p)
  | move {id : NodeId} {parent : Option NodeId} (hid : ¬ g.IsLive id) :
    Refused g (.move id parent) (.unknownNode id)
  | moveUnder {id p : NodeId} (hid : g.IsLive id) (hp : ¬ g.IsLive p) :
    Refused g (.move id (some p)) (.unknownNode p)
  | moveBelow {id p : NodeId} {ids : List NodeId} (hid : g.IsLive id) (hp : g.IsLive p)
    (hpath : g.path p = .ok ids) (hmem : id ∈ ids) : Refused g (.move id (some p)) (.cycle id p)
  | remove {id : NodeId} (hid : ¬ g.IsLive id) : Refused g (.remove id) (.unknownNode id)
  | duplicate {id : NodeId} (hid : ¬ g.IsLive id) : Refused g (.duplicate id) (.unknownNode id)
  | insertFacet {p : NodeId} {facet : Facet} (hwindows : facet.windows ≠ []) (hp : ¬ g.IsLive p) :
    Refused g (.insertFacet (some p) facet) (.unknownNode p)

/-- A command with wrong arguments fails before it changes anything. -/
theorem Refused.refusal?_eq {c : Command} {err : ForestError} (hg : g.WellFormed)
    (h : Refused g c err) : g.refusal? c = some err ∧ g.after c = g := by
  cases h with
  | @insert p node hp =>
    have hrun := Edit.run_insert_of_not_isLive node hp
    exact ⟨Edit.error?_of_error hrun, Edit.stop_of_error hrun⟩
  | @move id parent hid =>
    have hrun := Edit.run_move_of_not_isLive parent hid
    exact ⟨Edit.error?_of_error hrun, Edit.stop_of_error hrun⟩
  | moveUnder hid hp =>
    have hrun := Edit.run_move_of_parent_not_isLive hid hp
    exact ⟨Edit.error?_of_error hrun, Edit.stop_of_error hrun⟩
  | @moveBelow id p ids hid hp hpath hmem =>
    obtain ⟨l, hl⟩ := hg.way p hp
    rw [hl.path_eq, Except.ok.injEq] at hpath
    have habove : g.isAbove id p = true := by
      rw [hl.isAbove_eq, hpath]
      exact decide_eq_true hmem
    have hrun := Edit.run_move_of_isAbove hid hp habove
    exact ⟨Edit.error?_of_error hrun, Edit.stop_of_error hrun⟩
  | remove hid =>
    have hrun := Edit.run_remove_of_not_isLive hid
    exact ⟨Edit.error?_of_error hrun, Edit.stop_of_error hrun⟩
  | duplicate hid =>
    have hrun := Edit.run_duplicate_of_not_isLive hid
    exact ⟨Edit.error?_of_error hrun, Edit.stop_of_error hrun⟩
  | insertFacet hwindows hp =>
    have hrun := Edit.run_insertChain_of_not_isLive hwindows hp
    exact ⟨Edit.error?_of_error hrun, Edit.stop_of_error hrun⟩

/-- A command whose arguments are right goes through. -/
theorem refusal?_eq_none {c : Command} (hg : g.WellFormed) (h : ∀ err, ¬ Refused g c err) :
    g.refusal? c = none := by
  cases c with
  | insert parent node =>
    have hparent : g.HasPlace parent := by
      rintro p rfl
      by_contra hp
      exact h _ (.insert hp)
    exact Edit.error?_of_ok (Edit.run_insert node hparent)
  | move id parent =>
    have hid : g.IsLive id := by
      by_contra hid
      exact h _ (.move hid)
    have hparent : ∀ p, parent = some p → g.IsLive p ∧ g.isAbove id p = false := by
      rintro p rfl
      have hp : g.IsLive p := by
        by_contra hp
        exact h _ (.moveUnder hid hp)
      obtain ⟨l, hl⟩ := hg.way p hp
      have hnot : id ∉ l := fun hmem => h _ (.moveBelow hid hp hl.path_eq hmem)
      rw [hl.isAbove_eq]
      exact ⟨hp, decide_eq_false hnot⟩
    exact Edit.error?_of_ok (Edit.run_move hg hid hparent)
  | remove id =>
    have hid : g.IsLive id := by
      by_contra hid
      exact h _ (.remove hid)
    obtain ⟨e, he⟩ := isLive_iff.1 hid
    exact Edit.error?_of_ok (Edit.run_remove hg he)
  | duplicate id =>
    have hid : g.IsLive id := by
      by_contra hid
      exact h _ (.duplicate hid)
    obtain ⟨e, he⟩ := isLive_iff.1 hid
    exact Edit.error?_of_ok (Edit.run_duplicate he)
  | insertFacet parent facet =>
    by_cases hwindows : facet.windows = []
    · rw [refusal?, Flow.insertFacet, hwindows]
      rfl
    · have hparent : g.HasPlace parent := by
        rintro p rfl
        by_contra hp
        exact h _ (.insertFacet hwindows hp)
      exact Edit.error?_of_ok (Edit.run_insertChain facet.windows hparent)

theorem refusal?_eq_some_iff (hg : g.WellFormed) (c : Command) (err : ForestError) :
    g.refusal? c = some err ↔ Refused g c err := by
  refine ⟨?_, fun h => (h.refusal?_eq hg).1⟩
  intro hfail
  by_cases hany : ∃ err', Refused g c err'
  · obtain ⟨err', herr⟩ := hany
    rw [(herr.refusal?_eq hg).1] at hfail
    rwa [← Option.some.inj hfail]
  · rw [refusal?_eq_none hg (not_exists.1 hany)] at hfail
    exact absurd hfail (Option.some_ne_none err).symm

theorem nodesOnPath_cases (hg : g.WellFormed) (id : NodeId) :
    (g.IsLive id ∧ ∃ ids nodes, g.path id = .ok ids ∧ g.nodesOnPath id = .ok nodes) ∨
      (¬ g.IsLive id ∧ g.path id = .error (.unknownNode id) ∧
        g.nodesOnPath id = .error (.unknownNode id)) := by
  by_cases hid : g.IsLive id
  · obtain ⟨l, hl⟩ := hg.way id hid
    obtain ⟨nodes, hnodes⟩ := hl.exists_nodes
    exact .inl ⟨hid, l, nodes, hl.path_eq, hl.nodesOnPath_eq hnodes⟩
  · exact .inr ⟨hid, path_of_not_isLive hid, nodesOnPath_of_not_isLive hid⟩

/-- Commands and queries fail on wrong arguments only, for the reason that is wrong with them, and a
command that fails has changed nothing. -/
theorem Reachable.fails_on_wrong_arguments_only (h : g.Reachable) :
    (∀ c err, g.refusal? c = some err ↔ Refused g c err) ∧
    (∀ c err, g.refusal? c = some err → g.after c = g) ∧
    (∀ id err, g.path id = .error err ↔ ¬ g.IsLive id ∧ err = .unknownNode id) ∧
    (∀ id err, g.assemblePath id = .error err ↔ ¬ g.IsLive id ∧ err = .unknownNode id) ∧
    (∀ id err, g.producedUpTo id = .error err ↔ ¬ g.IsLive id ∧ err = .unknownNode id) := by
  have hg := h.wellFormed
  refine ⟨refusal?_eq_some_iff hg, ?_, ?_, ?_, ?_⟩
  · intro c err hfail
    exact (((refusal?_eq_some_iff hg c err).1 hfail).refusal?_eq hg).2
  · intro id err
    obtain ⟨hid, ids, nodes, hpath, -⟩ | ⟨hid, hpath, -⟩ := nodesOnPath_cases hg id
    · simp [hpath, hid]
    · simp [hpath, hid, eq_comm]
  · intro id err
    obtain ⟨hid, ids, nodes, -, hnodes⟩ | ⟨hid, -, hnodes⟩ := nodesOnPath_cases hg id
    · simp [assemblePath, hnodes, hid, Functor.map, Except.map]
    · simp [assemblePath, hnodes, hid, Functor.map, Except.map, eq_comm]
  · intro id err
    obtain ⟨hid, ids, nodes, -, hnodes⟩ | ⟨hid, -, hnodes⟩ := nodesOnPath_cases hg id
    · simp [producedUpTo, hnodes, hid, Functor.map, Except.map]
    · simp [producedUpTo, hnodes, hid, Functor.map, Except.map, eq_comm]

theorem rewiring_refuses_cycle : (run rewiring).Reachable ∧
    Refused (run rewiring) (.move 3 (some 2)) (.cycle 3 2) ∧
    (run rewiring).refusal? (.move 3 (some 2)) = some (.cycle 3 2) ∧
    (run rewiring).after (.move 3 (some 2)) = run rewiring ∧
    (run rewiring).path 1 = .error (.unknownNode 1) := by
  have hreach : (run rewiring).Reachable := ⟨rewiring, rfl⟩
  have hcycle : Refused (run rewiring) (.move 3 (some 2)) (.cycle 3 2) :=
    .moveBelow (by decide) (by decide) rfl (by decide)
  obtain ⟨hiff, hkept, hpath, -, -⟩ := Reachable.fails_on_wrong_arguments_only hreach
  have hfail := (hiff _ _).2 hcycle
  exact ⟨hreach, hcycle, hfail, hkept _ _ hfail, (hpath 1 _).2 ⟨by decide, rfl⟩⟩

end Flow

end WindowFlow
