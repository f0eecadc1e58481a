import WindowFlow.Proofs.Flow.Reachable
/-!
The history of a run: which number each insertion yields and to which node, and which numbers are
removed. The history alone says what is live at any moment and which node each number stands for, so
no number stands for two nodes and none comes back.
-/
namespace WindowFlow

namespace Edit

variable {α β : Type} {e : Edit α β} {b : β} {err : ForestError} {g g' : Forest α}

/-- What an edit yields, if it goes through. -/
def value? (e : Edit α β) (g : Forest α) : Option β :=
  match e.run g with
  | .ok b _ => some b
  | .error _ _ => none

theorem value?_of_ok (h : e.run g = .ok b g') : e.value? g = some b := by
  rw [value?, h]

theorem value?_of_error (h : e.run g = .error err g') : e.value? g = none := by
  rw [value?, h]

end Edit

namespace Flow

open Forest

inductive Event where
  | issued (id : NodeId) (node : Node)
  | removed (id : NodeId)
  deriving DecidableEq, Repr

abbrev History := List Event

namespace History

/-- The nodes inserted, each with the number that its insertion yields. -/
def issued (h : History) : List (NodeId × Node) :=
  h.filterMap fun
    | .issued id node => some (id, node)
    | .removed _ => none

def removed (h : History) : List NodeId :=
  h.filterMap fun
    | .issued _ _ => none
    | .removed id => some id

variable {h h' : History} {id : NodeId} {node : Node}

@[simp] theorem issued_append : issued (h ++ h') = h.issued ++ issued h' := List.filterMap_append

@[simp] theorem removed_append : removed (h ++ h') = h.removed ++ removed h' :=
  List.filterMap_append

@[simp] theorem issued_nil : issued [] = [] := rfl

@[simp] theorem issued_issued : issued [.issued id node] = [(id, node)] := rfl

@[simp] theorem removed_issued : removed [.issued id node] = [] := rfl

@[simp] theorem issued_removed : issued [.removed id] = [] := rfl

@[simp] theorem removed_removed : removed [.removed id] = [id] := rfl

theorem mem_issued : (id, node) ∈ h.issued ↔ .issued id node ∈ h := by
  rw [issued, List.mem_filterMap]
  constructor
  · rintro ⟨⟨i, n⟩ | i, hmem, heq⟩
    · cases heq
      exact hmem
    · cases heq
  · exact fun hmem => ⟨_, hmem, rfl⟩

end History

/-- What the insertions of a chain yield, as far as they go through. -/
def chainEvents (g : Flow) (parent : Option NodeId) : List Node → History
  | [] => []
  | node :: rest =>
    match (Edit.insert parent node).run g with
    | .ok id g' => .issued id node :: chainEvents g' (some id) rest
    | .error _ _ => []

/-- What a command adds to the history. A copy is a node inserted once more. -/
def events (g : Flow) : Command → History
  | .insert parent node => ((Edit.insert parent node).value? g).toList.map (.issued · node)
  | .move _ _ => []
  | .remove id => ((Edit.remove id : Edit Node Node).value? g).toList.map fun _ => .removed id
  | .duplicate id => (do
      let copy ← (Edit.duplicate id : Edit Node NodeId).value? g
      return Event.issued copy (← g.node? id)).toList
  | .insertFacet parent facet => g.chainEvents parent facet.windows

def eventsOf (g : Flow) : List Command → History
  | [] => []
  | c :: rest => g.events c ++ (g.after c).eventsOf rest

def history (commands : List Command) : History := eventsOf .empty commands

/-- The history accounts for the flow: numbers are issued in order, and what is live is what was
issued and not removed. -/
structure Accounts (h : History) (g : Flow) : Prop where
  issued_ids : h.issued.map Prod.fst = List.range g.next
  node?_eq_some_iff : ∀ id node, g.node? id = some node ↔ (id, node) ∈ h.issued ∧ id ∉ h.removed
  nodup_removed : h.removed.Nodup
  removed_lt : ∀ id ∈ h.removed, id < g.next

variable {h : History} {g : Flow}

theorem accounts_empty : Accounts [] .empty where
  issued_ids := rfl
  node?_eq_some_iff id node := by simp [node?]
  nodup_removed := List.nodup_nil
  removed_lt id hid := absurd hid List.not_mem_nil

namespace Accounts

/-- The live numbers are those issued and not removed. -/
theorem isLive_iff (hg : Accounts h g) {id : NodeId} :
    g.IsLive id ↔ id ∈ h.issued.map Prod.fst ∧ id ∉ h.removed := by
  have hnode : g.IsLive id ↔ ∃ node, g.node? id = some node := by
    simp [node?, Forest.isLive_iff]
  simp [hnode, hg.node?_eq_some_iff]

theorem node?_of_issued (hg : Accounts h g) {id : NodeId} {node : Node}
    (hnode : (id, node) ∈ h.issued) (hlive : g.IsLive id) : g.node? id = some node :=
  (hg.node?_eq_some_iff id node).2 ⟨hnode, (hg.isLive_iff.1 hlive).2⟩

theorem issued_of_node? (hg : Accounts h g) {id : NodeId} {node : Node}
    (hnode : g.node? id = some node) : (id, node) ∈ h.issued :=
  ((hg.node?_eq_some_iff id node).1 hnode).1

theorem add (hg : Accounts h g) (node : Node) (parent : Option NodeId) :
    Accounts (h ++ [.issued g.next node]) (g.add node parent) where
  issued_ids := by
    rw [History.issued_append, List.map_append, hg.issued_ids, next_add, List.range_succ]
    rfl
  node?_eq_some_iff id n := by
    have hnew : g.next ∉ h.removed := fun hid => Nat.lt_irrefl _ (hg.removed_lt _ hid)
    have hold : ∀ n, (g.next, n) ∉ h.issued := by
      intro n hn
      have hid : g.next ∈ h.issued.map Prod.fst := List.mem_map_of_mem hn
      rw [hg.issued_ids, List.mem_range] at hid
      exact Nat.lt_irrefl _ hid
    rw [node?_add]
    by_cases hid : id = g.next
    · simp [hid, hnew, hold, eq_comm]
    · simp [hid, hg.node?_eq_some_iff]
  nodup_removed := by simpa using hg.nodup_removed
  removed_lt id hid := by
    have hlt : id < g.next := hg.removed_lt id (by simpa using hid)
    rw [next_add]
    exact Nat.lt_succ_of_lt hlt

theorem place (hg : Accounts h g) (id : NodeId) (parent : Option NodeId) :
    Accounts h (g.place id parent) where
  issued_ids := by rw [hg.issued_ids, next_place]
  node?_eq_some_iff i n := by rw [node?_place, hg.node?_eq_some_iff]
  nodup_removed := hg.nodup_removed
  removed_lt i hi := by
    rw [next_place]
    exact hg.removed_lt i hi

theorem drop (hg : Accounts h g) {id : NodeId} (hid : g.IsLive id) :
    Accounts (h ++ [.removed id]) (g.drop id) where
  issued_ids := by simpa using hg.issued_ids
  node?_eq_some_iff i n := by
    by_cases hi : i = id
    · simp [hi, node?_drop_self]
    · simp [hi, node?_drop, hg.node?_eq_some_iff]
  nodup_removed := by
    have hnot : id ∉ h.removed := (hg.isLive_iff.1 hid).2
    rw [History.removed_append, History.removed_removed, List.nodup_append]
    refine ⟨hg.nodup_removed, List.nodup_singleton id, ?_⟩
    intro i hi j hj hij
    rw [List.mem_singleton.1 hj] at hij
    exact hnot (hij ▸ hi)
  removed_lt i hi := by
    rw [next_drop]
    rw [History.removed_append, History.removed_removed, List.mem_append] at hi
    rcases hi with hi | hi
    · exact hg.removed_lt i hi
    · rw [List.mem_singleton.1 hi]
      exact lt_next_of_isLive hid

theorem insertChain (hg : Accounts h g) (parent : Option NodeId) (nodes : List Node) :
    Accounts (h ++ g.chainEvents parent nodes) ((Edit.insertChain parent nodes).stop g) := by
  induction nodes generalizing h g parent with
  | nil =>
    rw [chainEvents, List.append_nil]
    exact hg
  | cons node rest ih =>
    obtain ⟨-, hrun⟩ | ⟨err, hrun⟩ := Edit.insert_cases g parent node
    · have hrest := ih (hg.add node parent) (some g.next)
      rw [chainEvents, hrun, Edit.insertChain, Edit.stop_bind_of_ok hrun, Edit.stop_bind_pure]
      simpa using hrest
    · rw [chainEvents, hrun, Edit.insertChain, Edit.stop_of_error (Edit.run_bind_of_error hrun _)]
      simpa using hg

end Accounts

/-- A command adds to the history what it changes. -/
theorem accounts_after (hwf : g.WellFormed) (hg : Accounts h g) (c : Command) :
    Accounts (h ++ g.events c) (g.after c) := by
  cases c with
  | insert parent node =>
    obtain ⟨-, hrun⟩ | ⟨err, hrun⟩ := Edit.insert_cases g parent node
    · rw [events, Edit.value?_of_ok hrun, after, Edit.stop_of_ok hrun]
      exact hg.add node parent
    · rw [events, Edit.value?_of_error hrun, after, Edit.stop_of_error hrun]
      simpa using hg
  | move id parent =>
    obtain ⟨-, -, -, hrun⟩ | ⟨err, hrun⟩ := Edit.move_cases hwf id parent
    · rw [events, List.append_nil, after, Edit.stop_of_ok hrun]
      exact hg.place id parent
    · rw [events, List.append_nil, after, Edit.stop_of_error hrun]
      exact hg
  | remove id =>
    obtain ⟨e, he, hrun⟩ | ⟨err, hrun⟩ := Edit.remove_cases hwf id
    · rw [events, Edit.value?_of_ok hrun, after, Edit.stop_of_ok hrun]
      exact hg.drop (isLive_of_get? he)
    · rw [events, Edit.value?_of_error hrun, after, Edit.stop_of_error hrun]
      simpa using hg
  | duplicate id =>
    obtain ⟨e, he, hrun⟩ | ⟨err, hrun⟩ := Edit.duplicate_cases g id
    · rw [events, Edit.value?_of_ok hrun, node?_of_get? he, after, Edit.stop_of_ok hrun]
      exact hg.add e.node none
    · rw [events, Edit.value?_of_error hrun, after, Edit.stop_of_error hrun]
      simpa using hg
  | insertFacet parent facet => exact hg.insertChain parent facet.windows

theorem eventsOf_append (commands later : List Command) (g : Flow) :
    g.eventsOf (commands ++ later) = g.eventsOf commands ++ (commands.foldl after g).eventsOf later := by
  induction commands generalizing g with
  | nil => rfl
  | cons c rest ih => rw [List.cons_append, eventsOf, ih, eventsOf, List.append_assoc, List.foldl_cons]

theorem accounts_eventsOf (commands : List Command) (hwf : g.WellFormed) (hg : Accounts h g) :
    Accounts (h ++ g.eventsOf commands) (commands.foldl after g) := by
  induction commands generalizing h g with
  | nil =>
    rw [eventsOf, List.append_nil]
    exact hg
  | cons c rest ih =>
    rw [eventsOf, ← List.append_assoc]
    exact ih (wellFormed_after hwf c) (accounts_after hwf hg c)

theorem accounts_history (commands : List Command) : Accounts (history commands) (run commands) :=
  accounts_eventsOf commands wellFormed_empty accounts_empty

/-- Each removal takes away one of the nodes that were inserted. -/
theorem Accounts.size_add_length_removed (hg : Accounts h g) :
    g.size + h.removed.length = h.issued.length := by
  have hlive : g.ids = (List.range g.next).filter fun id => !decide (id ∈ h.removed) := by
    refine List.filter_congr fun id hid => ?_
    have hissued : id ∈ h.issued.map Prod.fst := hg.issued_ids ▸ hid
    simp [hg.isLive_iff, hissued]
  have hremoved : ((List.range g.next).filter (· ∈ h.removed)).Perm h.removed := by
    rw [List.perm_ext_iff_of_nodup (List.nodup_range.filter _) hg.nodup_removed]
    intro id
    simpa using fun hid => hg.removed_lt id hid
  calc g.size + h.removed.length
    _ = ((List.range g.next).filter (· ∈ h.removed)).length +
        ((List.range g.next).filter fun id => !decide (id ∈ h.removed)).length := by
      rw [size, hlive, hremoved.length_eq, Nat.add_comm]
    _ = (List.range g.next).length := (List.length_eq_length_filter_add _).symm
    _ = h.issued.length := by rw [← hg.issued_ids, List.length_map]

/-- At every moment of a run the history so far accounts for the flow: the numbers issued are the
first ones, each once, and each stands for the node inserted under it until it is removed. The
history only grows, so what it says of a number goes on to hold: what was removed never comes back,
and what is not removed is still the same node. -/
theorem numbers_are_never_reused (commands later : List Command) :
    Accounts (history commands) (run commands) ∧
      (∀ id, (run commands).IsLive id ↔
        id ∈ (history commands).issued.map Prod.fst ∧ id ∉ (history commands).removed) ∧
      (run commands).size + (history commands).removed.length = (history commands).issued.length ∧
      history commands <+: history (commands ++ later) ∧
      (∀ id ∈ (history commands).removed, ¬ (run (commands ++ later)).IsLive id) ∧
      (∀ id node, (id, node) ∈ (history commands).issued →
        id ∉ (history (commands ++ later)).removed →
        (run (commands ++ later)).node? id = some node) := by
  have hnow := accounts_history commands
  have hlater := accounts_history (commands ++ later)
  have hgrows : history (commands ++ later) = history commands ++ (run commands).eventsOf later :=
    eventsOf_append commands later .empty
  refine ⟨hnow, fun id => hnow.isLive_iff, hnow.size_add_length_removed, ?_, ?_, ?_⟩
  · rw [hgrows]
    exact List.prefix_append _ _
  · intro id hid hlive
    have hkept : id ∈ (history (commands ++ later)).removed := by
      rw [hgrows, History.removed_append]
      exact List.mem_append_left _ hid
    exact (hlater.isLive_iff.1 hlive).2 hkept
  · intro id node hnode hid
    have hkept : (id, node) ∈ (history (commands ++ later)).issued := by
      rw [hgrows, History.issued_append]
      exact List.mem_append_left _ hnode
    exact (hlater.node?_eq_some_iff id node).2 ⟨hkept, hid⟩

/-- More commands for a run: two nodes inserted, one of them as a copy, and a removal that fails. -/
def refilling : List Command := [.insert (some 0) (single "sum"), .duplicate 0, .remove 1]

theorem rewiring_keeps_numbers :
    1 ∈ (history rewiring).removed ∧ ¬ (run (rewiring ++ refilling)).IsLive 1 ∧
      (0, single "rank") ∈ (history rewiring).issued ∧
      0 ∉ (history (rewiring ++ refilling)).removed ∧
      (run (rewiring ++ refilling)).node? 0 = some (single "rank") := by
  obtain ⟨-, -, -, -, hgone, hkept⟩ := numbers_are_never_reused rewiring refilling
  have hremoved : 1 ∈ (history rewiring).removed := by decide
  have hissued : (0, single "rank") ∈ (history rewiring).issued := by decide
  have hnot : 0 ∉ (history (rewiring ++ refilling)).removed := by decide
  exact ⟨hremoved, hgone 1 hremoved, hissued, hnot, hkept 0 _ hissued hnot⟩

end Flow

end WindowFlow
