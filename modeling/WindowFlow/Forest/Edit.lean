import WindowFlow.Forest.Basic
/-!
Edits of a forest. An edit either yields a value and the edited forest, or an error and the forest
it stopped at. Each part looks up the nodes it changes and stops where one of them is not live; that
a whole edit never stops halfway is a fact about forests whose edges agree at both ends.
-/
namespace WindowFlow

abbrev Edit (α β : Type) := EStateM ForestError (Forest α) β

namespace Edit

/-- What is kept of a node, which has to be live. -/
def entry (id : NodeId) : Edit α (Entry α) := do
  match (← get).get? id with
  | some e => return e
  | none => throw (.unknownNode id)

/-- Changes what is kept of a node, which has to be live. -/
def alter (id : NodeId) (f : Entry α → Entry α) : Edit α Unit := do
  let _ ← entry id
  modify (·.update id f)

def setParent (id : NodeId) (parent : Option NodeId) : Edit α Unit :=
  alter id fun e => { e with parent := parent }

/-- Appends children to a node; roots are on no list. -/
def adopt (parent : Option NodeId) (ids : List NodeId) : Edit α Unit :=
  match parent with
  | none => pure ()
  | some p => alter p fun e => { e with children := e.children ++ ids }

/-- Takes a node off its parent's list. -/
def detach (id : NodeId) : Edit α Unit := do
  match (← entry id).parent with
  | none => return
  | some p => alter p fun e => { e with children := e.children.filter (· ≠ id) }

/-- Empties the place of a node and gives what was kept there. -/
def take (id : NodeId) : Edit α (Entry α) := do
  let e ← entry id
  modify (·.clear id)
  return e

/-- Adds a node as the last child of `parent`, or as a root, and gives its number. -/
def insert (parent : Option NodeId) (node : α) : Edit α NodeId := do
  if let some p := parent then
    let _ ← entry p
  let id ← modifyGet fun g => (g.next, g.push node parent)
  adopt parent [id]
  return id

/-- Moves a node with all below it under `parent`, or to the roots. It cannot go below itself. -/
def move (id : NodeId) (parent : Option NodeId) : Edit α Unit := do
  let _ ← entry id
  if let some p := parent then
    let _ ← entry p
    if (← get).isAbove id p then throw (.cycle id p)
  detach id
  setParent id parent
  adopt parent [id]

/-- Removes a node, hands its children to its parent, and gives the node. -/
def remove (id : NodeId) : Edit α α := do
  let parent := (← entry id).parent
  detach id
  let e ← take id
  forM e.children fun child => setParent child parent
  adopt parent e.children
  return e.node

/-- Adds a copy of a node as a root without children. -/
def duplicate (id : NodeId) : Edit α NodeId := do
  insert none (← entry id).node

/-- Adds nodes as a chain below `parent`, each under the one before, and gives the last. -/
def insertChain (parent : Option NodeId) : List α → Edit α (Option NodeId)
  | [] => return none
  | node :: rest => do
    let id ← insert parent node
    return (← insertChain (some id) rest).or (some id)

/-- The forest that an edit stops at, at its end or at an error. -/
def stop (e : Edit α β) (g : Forest α) : Forest α :=
  match e.run g with
  | .ok _ g' => g'
  | .error _ g' => g'

/-- The error that an edit stops at, if it does. -/
def error? (e : Edit α β) (g : Forest α) : Option ForestError :=
  match e.run g with
  | .ok _ _ => none
  | .error err _ => some err

@[simp] theorem run_pure (b : β) (g : Forest α) : (pure b : Edit α β).run g = .ok b g := rfl

@[simp] theorem run_throw (err : ForestError) (g : Forest α) :
    (throw err : Edit α β).run g = .error err g := rfl

@[simp] theorem run_get (g : Forest α) : (get : Edit α (Forest α)).run g = .ok g g := rfl

@[simp] theorem run_modifyGet (f : Forest α → β × Forest α) (g : Forest α) :
    (modifyGet f : Edit α β).run g = .ok (f g).1 (f g).2 := rfl

theorem run_bind (e : Edit α β) (f : β → Edit α γ) (g : Forest α) :
    (e >>= f).run g =
      match e.run g with
      | .ok b g => (f b).run g
      | .error err g => .error err g := by
  change EStateM.bind e f g = _
  unfold EStateM.bind
  cases h : e g <;> simp [EStateM.run, h]

theorem run_entry (id : NodeId) (g : Forest α) :
    (entry id).run g =
      match g.get? id with
      | some e => .ok e g
      | none => .error (.unknownNode id) g := by
  unfold entry
  rw [run_bind, run_get]
  cases h : g.get? id <;> simp only [h, run_pure, run_throw]

theorem run_alter (id : NodeId) (f : Entry α → Entry α) (g : Forest α) :
    (alter id f).run g =
      match g.get? id with
      | some _ => .ok () (g.update id f)
      | none => .error (.unknownNode id) g := by
  unfold alter
  rw [run_bind, run_entry]
  cases g.get? id <;> rfl

theorem run_take (id : NodeId) (g : Forest α) :
    (take id).run g =
      match g.get? id with
      | some e => .ok e (g.clear id)
      | none => .error (.unknownNode id) g := by
  unfold take
  rw [run_bind, run_entry]
  cases g.get? id <;> rfl

end Edit

end WindowFlow
