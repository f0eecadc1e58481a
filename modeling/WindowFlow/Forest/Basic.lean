/-!
Forests of nodes that are addressed by number. Numbers are issued in order and never again, so an
edit that drops a node leaves its place empty. Every edge is kept at both ends: the entry of a node
holds its parent and, in order, its children. The walks from a node up to its root go from parent to
parent for as long as there is one, so they are cut off after a number of rounds and yield nothing
where they have not come to an end.
-/
namespace WindowFlow

abbrev NodeId := Nat

structure Entry (α : Type) where
  node : α
  parent : Option NodeId
  children : List NodeId
  deriving DecidableEq, Repr

structure Forest (α : Type) where
  entries : Array (Option (Entry α))
  deriving DecidableEq, Repr

namespace Forest

def empty : Forest α := ⟨#[]⟩

/-- What is kept of a live node. -/
def get? (g : Forest α) (id : NodeId) : Option (Entry α) := g.entries[id]?.join

def node? (g : Forest α) (id : NodeId) : Option α := (g.get? id).map Entry.node

def parent? (g : Forest α) (id : NodeId) : Option NodeId := (g.get? id).bind Entry.parent

/-- The children in order, none for a number that is not live. -/
def children (g : Forest α) (id : NodeId) : List NodeId :=
  ((g.get? id).map Entry.children).getD []

def IsLive (g : Forest α) (id : NodeId) : Prop := (g.get? id).isSome

instance (g : Forest α) (id : NodeId) : Decidable (g.IsLive id) :=
  inferInstanceAs (Decidable ((g.get? id).isSome = true))

/-- A node can hang under a live node, and without a parent it always can. -/
def HasPlace (g : Forest α) (parent : Option NodeId) : Prop := ∀ p, parent = some p → g.IsLive p

/-- The number that the next node will get. -/
def next (g : Forest α) : NodeId := g.entries.size

/-- The live numbers in ascending order. -/
def ids (g : Forest α) : List NodeId := (List.range g.next).filter g.IsLive

/-- The count of live nodes. -/
def size (g : Forest α) : Nat := g.ids.length

def isEmpty (g : Forest α) : Bool := g.size == 0

/-- The live nodes without a parent. -/
def roots (g : Forest α) : List NodeId := g.ids.filter fun id => (g.parent? id).isNone

/-- Changes what is kept of a live node. -/
def update (g : Forest α) (id : NodeId) (f : Entry α → Entry α) : Forest α :=
  ⟨g.entries.modify id (Option.map f)⟩

/-- Issues the next number to a node without children. -/
def push (g : Forest α) (node : α) (parent : Option NodeId) : Forest α :=
  ⟨g.entries.push (some ⟨node, parent, []⟩)⟩

def clear (g : Forest α) (id : NodeId) : Forest α := ⟨g.entries.modify id fun _ => none⟩

@[simp] theorem get?_empty (id : NodeId) : (empty : Forest α).get? id = none := by
  simp [get?, empty]

theorem get?_eq_none_of_next_le {g : Forest α} {id : NodeId} (h : g.next ≤ id) :
    g.get? id = none := by
  simp [get?, Array.getElem?_eq_none (show g.entries.size ≤ id from h)]

theorem get?_update (g : Forest α) (id : NodeId) (f : Entry α → Entry α) (i : NodeId) :
    (g.update id f).get? i = if i = id then (g.get? i).map f else g.get? i := by
  unfold get? update
  rw [Array.getElem?_modify]
  by_cases h : i = id
  · subst h
    cases g.entries[i]? <;> simp
  · simp [h, Ne.symm h]

theorem get?_push (g : Forest α) (node : α) (parent : Option NodeId) (i : NodeId) :
    (g.push node parent).get? i =
      if i = g.next then some ⟨node, parent, []⟩ else g.get? i := by
  unfold get? push next
  rw [Array.getElem?_push]
  split <;> simp

theorem get?_clear (g : Forest α) (id i : NodeId) :
    (g.clear id).get? i = if i = id then none else g.get? i := by
  unfold get? clear
  rw [Array.getElem?_modify]
  by_cases h : i = id
  · subst h
    cases g.entries[i]? <;> simp
  · simp [h, Ne.symm h]

@[simp] theorem next_update (g : Forest α) (id : NodeId) (f : Entry α → Entry α) :
    (g.update id f).next = g.next := by simp [next, update]

@[simp] theorem next_push (g : Forest α) (node : α) (parent : Option NodeId) :
    (g.push node parent).next = g.next + 1 := by simp [next, push]

@[simp] theorem next_clear (g : Forest α) (id : NodeId) : (g.clear id).next = g.next := by
  simp [next, clear]

variable {α : Type} {g : Forest α}

theorem isLive_iff {id : NodeId} : g.IsLive id ↔ ∃ e, g.get? id = some e :=
  Option.isSome_iff_exists

theorem isLive_of_get? {id : NodeId} {e : Entry α} (h : g.get? id = some e) : g.IsLive id :=
  isLive_iff.2 ⟨e, h⟩

theorem parent?_of_get? {id : NodeId} {e : Entry α} (h : g.get? id = some e) :
    g.parent? id = e.parent := by
  simp [parent?, h]

theorem children_of_get? {id : NodeId} {e : Entry α} (h : g.get? id = some e) :
    g.children id = e.children := by
  simp [children, h]

theorem node?_of_get? {id : NodeId} {e : Entry α} (h : g.get? id = some e) :
    g.node? id = some e.node := by
  simp [node?, h]

theorem get?_of_not_isLive {id : NodeId} (h : ¬ g.IsLive id) : g.get? id = none := by
  simpa [IsLive] using h

theorem parent?_of_not_isLive {id : NodeId} (h : ¬ g.IsLive id) : g.parent? id = none := by
  simp [parent?, get?_of_not_isLive h]

theorem children_of_not_isLive {id : NodeId} (h : ¬ g.IsLive id) : g.children id = [] := by
  simp [children, get?_of_not_isLive h]

theorem node?_of_not_isLive {id : NodeId} (h : ¬ g.IsLive id) : g.node? id = none := by
  simp [node?, get?_of_not_isLive h]

theorem isLive_of_parent? {id p : NodeId} (h : g.parent? id = some p) : g.IsLive id := by
  obtain ⟨e, he, _⟩ := Option.bind_eq_some_iff.1 h
  exact isLive_of_get? he

theorem isLive_of_node? {id : NodeId} {node : α} (h : g.node? id = some node) : g.IsLive id := by
  obtain ⟨e, he, _⟩ := Option.map_eq_some_iff.1 h
  exact isLive_of_get? he

theorem hasPlace_none : g.HasPlace none := fun p hp => absurd hp.symm (Option.some_ne_none p)

theorem hasPlace_some {p : NodeId} : g.HasPlace (some p) ↔ g.IsLive p := by
  simp [HasPlace]

theorem lt_next_of_isLive {id : NodeId} (h : g.IsLive id) : id < g.next := by
  obtain ⟨e, he⟩ := isLive_iff.1 h
  apply Nat.lt_of_not_le
  intro hge
  rw [get?_eq_none_of_next_le hge] at he
  exact Option.some_ne_none e he.symm

theorem mem_ids {id : NodeId} : id ∈ g.ids ↔ g.IsLive id := by
  simp only [ids, List.mem_filter, List.mem_range, decide_eq_true_eq]
  exact ⟨fun h => h.2, fun h => ⟨lt_next_of_isLive h, h⟩⟩

theorem pairwise_ids (g : Forest α) : g.ids.Pairwise (· < ·) := List.pairwise_lt_range.filter _

theorem nodup_ids (g : Forest α) : g.ids.Nodup := (pairwise_ids g).imp Nat.ne_of_lt

theorem size_le_next (g : Forest α) : g.size ≤ g.next := by
  have h := List.length_filter_le (fun id => decide (g.IsLive id)) (List.range g.next)
  rwa [List.length_range] at h

end Forest

inductive ForestError where
  | unknownNode (id : NodeId)
  | cycle (node parent : NodeId)
  deriving DecidableEq, Repr

namespace ForestError

def nodeText (id : NodeId) : String := "NodeId(" ++ toString id ++ ")"

def message : ForestError → String
  | .unknownNode id => "unknown dataflow node " ++ nodeText id
  | .cycle node parent =>
    "setting " ++ nodeText parent ++ " as parent of " ++ nodeText node ++
      " would create a cycle"

end ForestError

namespace Forest

/-- The numbers on the way up from a node. Every one of them has to be live. -/
def climb (g : Forest α) : Nat → Option NodeId → Option (Except ForestError (List NodeId))
  | _, none => some (.ok [])
  | 0, some _ => none
  | rounds + 1, some id =>
    match g.get? id with
    | none => some (.error (.unknownNode id))
    | some e => (g.climb rounds e.parent).map ((id :: ·) <$> ·)

/-- Whether the way up from a node comes to `id`. -/
def meets (g : Forest α) (id : NodeId) : Nat → Option NodeId → Option Bool
  | _, none => some false
  | 0, some _ => none
  | rounds + 1, some i => if i = id then some true else g.meets id rounds (g.parent? i)

/-- The numbers from the root down to a node. No way is longer than there are numbers. -/
def path (g : Forest α) (id : NodeId) : Except ForestError (List NodeId) :=
  match g.climb (g.next + 1) (some id) with
  | some way => List.reverse <$> way
  | none => .ok []

/-- Whether `id` is a node or above it. -/
def isAbove (g : Forest α) (id node : NodeId) : Bool :=
  (g.meets id (g.next + 1) (some node)).getD false

/-- The node of a number, which has to be live. -/
def nodeAt (g : Forest α) (id : NodeId) : Except ForestError α :=
  match g.node? id with
  | some node => .ok node
  | none => .error (.unknownNode id)

/-- The nodes from the root down to a node. -/
def nodesOnPath (g : Forest α) (id : NodeId) : Except ForestError (List α) := do
  (← g.path id).mapM g.nodeAt

end Forest

end WindowFlow
