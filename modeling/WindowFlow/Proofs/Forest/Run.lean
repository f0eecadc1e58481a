import WindowFlow.Forest.Edit
import WindowFlow.Proofs.Forest.WellFormed
/-!
What edits yield. In a well-formed forest every node that an edit looks up after its first change is
live, so an edit that has changed anything goes through to its end.
-/
namespace WindowFlow

namespace Edit

open Forest

variable {α β γ : Type} {g : Forest α}

theorem run_bind_of_ok {e : Edit α β} {b : β} {g' : Forest α} (h : e.run g = .ok b g')
    (f : β → Edit α γ) : (e >>= f).run g = (f b).run g' := by
  rw [run_bind, h]

theorem run_bind_of_error {e : Edit α β} {err : ForestError} {g' : Forest α}
    (h : e.run g = .error err g') (f : β → Edit α γ) : (e >>= f).run g = .error err g' := by
  rw [run_bind, h]

theorem run_entry_of_get? {id : NodeId} {e : Entry α} (h : g.get? id = some e) :
    (entry id).run g = .ok e g := by
  rw [run_entry, h]

theorem run_entry_of_not_isLive {id : NodeId} (h : ¬ g.IsLive id) :
    (entry id).run g = .error (.unknownNode id) g := by
  rw [run_entry, get?_of_not_isLive h]

theorem run_alter_of_isLive {id : NodeId} (f : Entry α → Entry α) (h : g.IsLive id) :
    (alter id f).run g = .ok () (g.mapEntries fun i e => if i = id then f e else e) := by
  obtain ⟨e, he⟩ := isLive_iff.1 h
  rw [run_alter, he, update_eq_mapEntries]

theorem run_setParent {id : NodeId} (parent : Option NodeId) (h : g.IsLive id) :
    (setParent id parent).run g =
      .ok () (g.mapEntries fun i e =>
        { e with parent := if i = id then parent else e.parent }) := by
  rw [setParent, run_alter_of_isLive _ h]
  congr 1
  apply mapEntries_congr
  intro i e _
  split <;> rfl

theorem run_adopt {parent : Option NodeId} (ids : List NodeId)
    (hparent : g.HasPlace parent) :
    (adopt parent ids).run g =
      .ok () (g.mapEntries fun i e =>
        { e with children := e.children ++ handed parent ids i }) := by
  cases parent with
  | none =>
    rw [adopt, run_pure, mapEntries_eq_self]
    intro i e _
    simp [handed]
  | some p =>
    rw [adopt, run_alter_of_isLive _ (hparent p rfl)]
    congr 1
    apply mapEntries_congr
    intro i e _
    by_cases hi : i = p
    · simp [handed, hi]
    · simp [handed, hi, Ne.symm hi]

/-- No list but that of its parent holds a node, so it is taken off all of them. -/
theorem run_detach (hg : g.WellFormed) {id : NodeId} (h : g.IsLive id) :
    (detach id).run g = .ok () (g.mapEntries fun _ e => e.disown id) := by
  obtain ⟨e, he⟩ := isLive_iff.1 h
  have hkept : ∀ i e', g.get? i = some e' → e.parent ≠ some i → e'.disown id = e' := by
    intro i e' hi hne
    rw [Entry.disown, ← children_of_get? hi,
      hg.filter_children (by rwa [parent?_of_get? he]), children_of_get? hi]
  rw [detach, run_bind_of_ok (run_entry_of_get? he)]
  cases hp : e.parent with
  | none =>
    have hnone : ∀ i, e.parent ≠ some i := by simp [hp]
    rw [mapEntries_eq_self fun i e' hi => hkept i e' hi (hnone i)]
    rfl
  | some p =>
    have hlive : g.IsLive p := hg.parent_isLive (by rw [parent?_of_get? he, hp])
    simp only [run_alter_of_isLive _ hlive]
    congr 1
    apply mapEntries_congr
    intro i e' hi
    split
    · rfl
    · rename_i hne
      rw [hkept i e' hi (by simpa [hp] using Ne.symm hne)]

theorem run_setParents (ids : List NodeId) (parent : Option NodeId)
    (h : ∀ c ∈ ids, g.IsLive c) :
    (forM ids fun c => setParent c parent : Edit α PUnit).run g =
      .ok () (g.mapEntries fun i e =>
        { e with parent := if i ∈ ids then parent else e.parent }) := by
  induction ids generalizing g with
  | nil =>
    rw [List.forM_nil, run_pure, mapEntries_eq_self]
    intro i e _
    rw [if_neg List.not_mem_nil]
  | cons c rest ih =>
    rw [List.forM_cons, run_bind_of_ok (run_setParent parent (h c List.mem_cons_self)), ih]
    · rw [mapEntries_mapEntries]
      congr 1
      apply mapEntries_congr
      intro i e _
      by_cases hi : i = c <;> by_cases hr : i ∈ rest <;> simp [hi, hr]
    · intro d hd
      simpa [Forest.IsLive] using h d (List.mem_cons_of_mem c hd)

theorem run_insert {parent : Option NodeId} (node : α)
    (hparent : g.HasPlace parent) :
    (insert parent node).run g = .ok g.next (g.add node parent) := by
  have hpush : (g.push node parent).HasPlace parent := by
    intro p hp
    have hne : p ≠ g.next := Nat.ne_of_lt (lt_next_of_isLive (hparent p hp))
    simpa [Forest.IsLive, get?_push, hne] using hparent p hp
  have hadopt := run_adopt [g.next] hpush
  cases parent with
  | none =>
    simp only [insert, run_bind, run_modifyGet, hadopt, run_pure]
    rfl
  | some p =>
    obtain ⟨e, he⟩ := isLive_iff.1 (hparent p rfl)
    simp only [insert, run_bind, run_entry_of_get? he, run_modifyGet, hadopt, run_pure]
    rfl

/-- Moving takes three changes, none of which can fail once the checks are passed. -/
theorem run_move (hg : g.WellFormed) {id : NodeId} {parent : Option NodeId} (hlive : g.IsLive id)
    (hparent : ∀ p, parent = some p → g.IsLive p ∧ g.isAbove id p = false) :
    (move id parent).run g = .ok () (g.place id parent) := by
  obtain ⟨e, he⟩ := isLive_iff.1 hlive
  have hchanges : (do detach id; setParent id parent; adopt parent [id] : Edit α Unit).run g =
      .ok () (g.place id parent) := by
    rw [run_bind_of_ok (run_detach hg hlive), run_bind_of_ok (run_setParent parent ?_), run_adopt,
      mapEntries_mapEntries, mapEntries_mapEntries]
    · rfl
    · intro p hp
      simpa [Forest.IsLive] using (hparent p hp).1
    · simpa [Forest.IsLive] using hlive
  cases parent with
  | none =>
    rw [move, run_bind_of_ok (run_entry_of_get? he)]
    exact hchanges
  | some p =>
    obtain ⟨hp, habove⟩ := hparent p rfl
    obtain ⟨f, hf⟩ := isLive_iff.1 hp
    rw [move, run_bind_of_ok (run_entry_of_get? he)]
    simp only [run_bind, run_entry_of_get? hf, run_get, habove]
    exact hchanges

/-- The children and the parent of a node outlive it, so handing over the children cannot fail. -/
theorem run_remove (hg : g.WellFormed) {id : NodeId} {e : Entry α} (he : g.get? id = some e) :
    (remove id).run g = .ok e.node (g.drop id) := by
  have hlive : g.IsLive id := isLive_of_get? he
  have hparent : g.parent? id = e.parent := parent?_of_get? he
  have hchildren : g.children id = e.children := children_of_get? he
  have hchild : ∀ c ∈ e.children, c ≠ id ∧ g.parent? c = some id := by
    intro c hc
    rw [← hchildren] at hc
    exact ⟨fun h => hg.not_mem_children_self id (h ▸ hc), (hg.mem_children c id).1 hc⟩
  have hself : e.children.filter (· ≠ id) = e.children := by
    rw [← hchildren]
    exact hg.filter_children (hg.parent_ne_self id)
  have htake : (take id).run (g.mapEntries fun _ e => e.disown id) =
      .ok e ((g.clear id).mapEntries fun _ e => e.disown id) := by
    rw [run_take, get?_mapEntries, he, ← clear_mapEntries]
    simp only [Entry.disown, Option.map_some, hself]
  rw [remove, run_bind_of_ok (run_entry_of_get? he), run_bind_of_ok (run_detach hg hlive),
    run_bind_of_ok htake, run_bind_of_ok (run_setParents e.children e.parent ?_),
    run_bind_of_ok (run_adopt e.children ?_), run_pure, mapEntries_mapEntries,
    mapEntries_mapEntries]
  · congr 1
    rw [drop, hparent, hchildren]
    apply mapEntries_congr
    intro i f hf
    have hi : i ∈ e.children ↔ f.parent = some id := by
      have hgi : g.get? i = some f := by
        rw [get?_clear] at hf
        split at hf <;> simp_all
      rw [← hchildren, hg.mem_children, parent?_of_get? hgi]
    simp only [hi, Entry.disown]
  · intro p hp
    have hne : p ≠ id := by
      intro hpid
      rw [hp, hpid] at hparent
      exact hg.parent_ne_self id hparent
    have hplive : g.IsLive p := hg.parent_isLive (hparent.trans hp)
    simpa [Forest.IsLive, get?_clear, hne] using hplive
  · intro c hc
    obtain ⟨hne, hparent⟩ := hchild c hc
    simpa [Forest.IsLive, get?_clear, hne] using isLive_of_parent? hparent

theorem run_duplicate {id : NodeId} {e : Entry α} (he : g.get? id = some e) :
    (duplicate id).run g = .ok g.next (g.add e.node none) := by
  rw [duplicate, run_bind_of_ok (run_entry_of_get? he), run_insert _ hasPlace_none]

/-- Each node of a chain has its place under the one before, so only the first can be refused. -/
theorem run_insertChain {parent : Option NodeId} (nodes : List α) (hparent : g.HasPlace parent) :
    (insertChain parent nodes).run g = .ok (g.chainEnd nodes) (g.chain parent nodes) := by
  induction nodes generalizing g parent with
  | nil => rfl
  | cons node rest ih =>
    rw [insertChain, run_bind_of_ok (run_insert node hparent),
      run_bind_of_ok (ih (hasPlace_add_next g node parent)), run_pure, chainEnd_add_or, chain]

theorem run_insert_of_not_isLive {p : NodeId} (node : α) (h : ¬ g.IsLive p) :
    (insert (some p) node).run g = .error (.unknownNode p) g := by
  rw [insert]
  exact run_bind_of_error (run_entry_of_not_isLive h) _

theorem run_move_of_not_isLive {id : NodeId} (parent : Option NodeId) (h : ¬ g.IsLive id) :
    (move id parent).run g = .error (.unknownNode id) g := by
  rw [move, run_bind_of_error (run_entry_of_not_isLive h)]

theorem run_move_of_parent_not_isLive {id p : NodeId} (hlive : g.IsLive id) (h : ¬ g.IsLive p) :
    (move id (some p)).run g = .error (.unknownNode p) g := by
  obtain ⟨e, he⟩ := isLive_iff.1 hlive
  rw [move, run_bind_of_ok (run_entry_of_get? he)]
  exact run_bind_of_error (run_entry_of_not_isLive h) _

theorem run_move_of_isAbove {id p : NodeId} (hlive : g.IsLive id) (hp : g.IsLive p)
    (h : g.isAbove id p = true) : (move id (some p)).run g = .error (.cycle id p) g := by
  obtain ⟨e, he⟩ := isLive_iff.1 hlive
  obtain ⟨f, hf⟩ := isLive_iff.1 hp
  rw [move, run_bind_of_ok (run_entry_of_get? he)]
  simp only [run_bind, run_entry_of_get? hf, run_get, h, if_true, run_throw]

theorem run_remove_of_not_isLive {id : NodeId} (h : ¬ g.IsLive id) :
    (remove id).run g = .error (.unknownNode id) g := by
  rw [remove, run_bind_of_error (run_entry_of_not_isLive h)]

theorem run_duplicate_of_not_isLive {id : NodeId} (h : ¬ g.IsLive id) :
    (duplicate id).run g = .error (.unknownNode id) g := by
  rw [duplicate, run_bind_of_error (run_entry_of_not_isLive h)]

theorem run_insertChain_of_not_isLive {p : NodeId} {nodes : List α} (hnodes : nodes ≠ [])
    (h : ¬ g.IsLive p) : (insertChain (some p) nodes).run g = .error (.unknownNode p) g := by
  obtain ⟨node, rest, rfl⟩ := List.exists_cons_of_ne_nil hnodes
  rw [insertChain, run_bind_of_error (run_insert_of_not_isLive node h)]

section

variable {e : Edit α β} {b : β} {err : ForestError} {g' : Forest α}

theorem stop_of_ok (h : e.run g = .ok b g') : e.stop g = g' := by
  rw [stop, h]

theorem stop_of_error (h : e.run g = .error err g') : e.stop g = g' := by
  rw [stop, h]

theorem error?_of_ok (h : e.run g = .ok b g') : e.error? g = none := by
  rw [error?, h]

theorem error?_of_error (h : e.run g = .error err g') : e.error? g = some err := by
  rw [error?, h]

theorem stop_bind_of_ok (h : e.run g = .ok b g') (f : β → Edit α γ) :
    (e >>= f).stop g = (f b).stop g' := by
  rw [stop, run_bind_of_ok h, stop]

/-- Where an edit stops does not depend on what is made of its result. -/
theorem stop_bind_pure (e : Edit α β) (f : β → γ) (g : Forest α) :
    (do return f (← e) : Edit α γ).stop g = e.stop g := by
  cases hrun : e.run g with
  | ok b g' => rw [stop_bind_of_ok hrun, stop_of_ok hrun, stop_of_ok (run_pure (f b) g')]
  | error err g' => rw [stop_of_error (run_bind_of_error hrun _), stop_of_error hrun]

/-- What each part of an edit keeps, the edit keeps. -/
theorem stop_bind {P : Forest α → Prop} {f : β → Edit α γ} (he : P (e.stop g))
    (hf : ∀ b g', P g' → P ((f b).stop g')) : P ((e >>= f).stop g) := by
  cases hrun : e.run g with
  | ok b g' =>
    rw [stop_of_ok hrun] at he
    rw [stop, run_bind_of_ok hrun]
    exact hf b g' he
  | error err g' =>
    rw [stop_of_error hrun] at he
    rw [stop_of_error (run_bind_of_error hrun f)]
    exact he

end

theorem insert_cases (g : Forest α) (parent : Option NodeId) (node : α) :
    (g.HasPlace parent ∧ (insert parent node).run g = .ok g.next (g.add node parent)) ∨
      ∃ err, (insert parent node).run g = .error err g := by
  by_cases h : g.HasPlace parent
  · exact .inl ⟨h, run_insert node h⟩
  · simp only [Forest.HasPlace, not_forall] at h
    obtain ⟨p, rfl, hp⟩ := h
    exact .inr ⟨_, run_insert_of_not_isLive node hp⟩

/-- A node moves only where the way does not lead through it. -/
theorem move_cases (hg : g.WellFormed) (id : NodeId) (parent : Option NodeId) :
    (g.IsLive id ∧ g.HasPlace parent ∧ (∃ up, g.Way parent up ∧ id ∉ up) ∧
        (move id parent).run g = .ok () (g.place id parent)) ∨
      ∃ err, (move id parent).run g = .error err g := by
  by_cases hlive : g.IsLive id
  · cases parent with
    | none =>
      exact .inl ⟨hlive, hasPlace_none, ⟨[], .top, List.not_mem_nil⟩,
        run_move hg hlive (by simp)⟩
    | some p =>
      by_cases hp : g.IsLive p
      · obtain ⟨up, hup⟩ := hg.way p hp
        have habove := hup.isAbove_eq id
        by_cases hid : id ∈ up
        · exact .inr ⟨_, run_move_of_isAbove hlive hp (by simpa [hid] using habove)⟩
        · have hparent : ∀ q, some p = some q → g.IsLive q ∧ g.isAbove id q = false := by
            intro q hq
            cases hq
            exact ⟨hp, by simpa [hid] using habove⟩
          exact .inl ⟨hlive, hasPlace_some.2 hp, ⟨up, hup, hid⟩, run_move hg hlive hparent⟩
      · exact .inr ⟨_, run_move_of_parent_not_isLive hlive hp⟩
  · exact .inr ⟨_, run_move_of_not_isLive parent hlive⟩

theorem remove_cases (hg : g.WellFormed) (id : NodeId) :
    (∃ e, g.get? id = some e ∧ (remove id).run g = .ok e.node (g.drop id)) ∨
      ∃ err, (remove id).run g = .error err g := by
  by_cases hlive : g.IsLive id
  · obtain ⟨e, he⟩ := isLive_iff.1 hlive
    exact .inl ⟨e, he, run_remove hg he⟩
  · exact .inr ⟨_, run_remove_of_not_isLive hlive⟩

theorem duplicate_cases (g : Forest α) (id : NodeId) :
    (∃ e, g.get? id = some e ∧ (duplicate id).run g = .ok g.next (g.add e.node none)) ∨
      ∃ err, (duplicate id).run g = .error err g := by
  by_cases hlive : g.IsLive id
  · obtain ⟨e, he⟩ := isLive_iff.1 hlive
    exact .inl ⟨e, he, run_duplicate he⟩
  · exact .inr ⟨_, run_duplicate_of_not_isLive hlive⟩

theorem wellFormed_insert (hg : g.WellFormed) (parent : Option NodeId) (node : α) :
    ((insert parent node).stop g).WellFormed := by
  obtain ⟨hparent, hrun⟩ | ⟨err, hrun⟩ := insert_cases g parent node
  · rw [stop_of_ok hrun]
    exact hg.add node hparent
  · rw [stop_of_error hrun]
    exact hg

theorem wellFormed_move (hg : g.WellFormed) (id : NodeId) (parent : Option NodeId) :
    ((move id parent).stop g).WellFormed := by
  obtain ⟨hlive, hparent, ⟨up, hup, hid⟩, hrun⟩ | ⟨err, hrun⟩ := move_cases hg id parent
  · rw [stop_of_ok hrun]
    exact hg.place hlive hparent hup hid
  · rw [stop_of_error hrun]
    exact hg

theorem wellFormed_remove (hg : g.WellFormed) (id : NodeId) :
    ((remove id : Edit α α).stop g).WellFormed := by
  obtain ⟨e, he, hrun⟩ | ⟨err, hrun⟩ := remove_cases hg id
  · rw [stop_of_ok hrun]
    exact hg.drop id
  · rw [stop_of_error hrun]
    exact hg

theorem wellFormed_duplicate (hg : g.WellFormed) (id : NodeId) :
    ((duplicate id : Edit α NodeId).stop g).WellFormed := by
  obtain ⟨e, he, hrun⟩ | ⟨err, hrun⟩ := duplicate_cases g id
  · rw [stop_of_ok hrun]
    exact hg.add e.node hasPlace_none
  · rw [stop_of_error hrun]
    exact hg

theorem wellFormed_insertChain (hg : g.WellFormed) (parent : Option NodeId) (nodes : List α) :
    ((insertChain parent nodes).stop g).WellFormed := by
  induction nodes generalizing g parent with
  | nil => exact hg
  | cons node rest ih =>
    rw [insertChain]
    apply stop_bind (wellFormed_insert hg parent node)
    intro id g₁ hg₁
    apply stop_bind (ih hg₁ (some id))
    intro last g₂ hg₂
    exact hg₂

end Edit

end WindowFlow
