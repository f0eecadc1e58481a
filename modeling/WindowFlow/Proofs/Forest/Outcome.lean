import WindowFlow.Proofs.Forest.Way
/-!
The forests that edits end in, each written down at once: what becomes of every entry. A view of
such a forest follows from the same view of the forest before.
-/
namespace WindowFlow

/-- What is kept of a node, with `id` off its list. -/
def Entry.disown {α : Type} (e : Entry α) (id : NodeId) : Entry α :=
  { e with children := e.children.filter (· ≠ id) }

namespace Forest

variable {α : Type} {g g' : Forest α}

/-- Two forests are the same when they keep the same and issue the same number next. -/
theorem ext_get? (hnext : g'.next = g.next) (hget : ∀ i, g'.get? i = g.get? i) : g' = g := by
  obtain ⟨entries⟩ := g
  obtain ⟨entries'⟩ := g'
  have hentries : entries' = entries := by
    apply Array.ext hnext
    intro i hi hi'
    simpa [get?, hi, hi'] using hget i
  rw [hentries]

theorem size_congr (hnext : g'.next = g.next) (hlive : ∀ i, g'.IsLive i ↔ g.IsLive i) :
    g'.size = g.size := by
  simp only [size, ids, hnext, hlive]

def mapEntries (g : Forest α) (f : NodeId → Entry α → Entry α) : Forest α :=
  ⟨g.entries.mapIdx fun i e => e.map (f i)⟩

@[simp] theorem next_mapEntries (g : Forest α) (f : NodeId → Entry α → Entry α) :
    (g.mapEntries f).next = g.next := by
  simp [next, mapEntries]

@[simp] theorem get?_mapEntries (g : Forest α) (f : NodeId → Entry α → Entry α) (i : NodeId) :
    (g.mapEntries f).get? i = (g.get? i).map (f i) := by
  unfold get? mapEntries
  rw [Array.getElem?_mapIdx]
  cases g.entries[i]? <;> simp

theorem mapEntries_congr {f f' : NodeId → Entry α → Entry α}
    (h : ∀ i e, g.get? i = some e → f i e = f' i e) : g.mapEntries f = g.mapEntries f' := by
  refine ext_get? (by simp) ?_
  intro i
  rw [get?_mapEntries, get?_mapEntries]
  exact Option.map_congr fun e he => h i e he

theorem mapEntries_eq_self {f : NodeId → Entry α → Entry α}
    (h : ∀ i e, g.get? i = some e → f i e = e) : g.mapEntries f = g := by
  refine ext_get? (by simp) ?_
  intro i
  rw [get?_mapEntries]
  cases hi : g.get? i with
  | none => rfl
  | some e => rw [Option.map_some, h i e hi]

theorem mapEntries_mapEntries (g : Forest α) (f f' : NodeId → Entry α → Entry α) :
    (g.mapEntries f).mapEntries f' = g.mapEntries fun i e => f' i (f i e) := by
  refine ext_get? (by simp) ?_
  intro i
  simp [Function.comp_def]

theorem clear_mapEntries (g : Forest α) (f : NodeId → Entry α → Entry α) (id : NodeId) :
    (g.mapEntries f).clear id = (g.clear id).mapEntries f := by
  refine ext_get? (by simp) ?_
  intro i
  by_cases hi : i = id <;> simp [get?_clear, hi]

theorem update_eq_mapEntries (g : Forest α) (id : NodeId) (f : Entry α → Entry α) :
    g.update id f = g.mapEntries fun i e => if i = id then f e else e := by
  refine ext_get? (by simp) ?_
  intro i
  by_cases hi : i = id <;> simp [get?_update, hi]

/-- The children that node `i` takes on when `ids` are handed to `parent`. -/
def handed (parent : Option NodeId) (ids : List NodeId) (i : NodeId) : List NodeId :=
  if parent = some i then ids else []

@[simp] theorem mem_handed {parent : Option NodeId} {ids : List NodeId} {i c : NodeId} :
    c ∈ handed parent ids i ↔ parent = some i ∧ c ∈ ids := by
  unfold handed
  split <;> simp [*]

theorem nodup_append_handed {parent : Option NodeId} {ids l : List NodeId} {i : NodeId}
    (hl : l.Nodup) (hids : ids.Nodup) (hnew : parent = some i → ∀ c ∈ l, c ∉ ids) :
    (l ++ handed parent ids i).Nodup := by
  unfold handed
  split
  · rename_i hparent
    rw [List.nodup_append]
    refine ⟨hl, hids, ?_⟩
    intro c hc d hd hcd
    exact hnew hparent c hc (hcd ▸ hd)
  · rw [List.append_nil]
    exact hl

/-- A new last child of `parent`, or a new root. -/
def add (g : Forest α) (node : α) (parent : Option NodeId) : Forest α :=
  (g.push node parent).mapEntries fun i e =>
    { e with children := e.children ++ handed parent [g.next] i }

/-- A node with all below it as the last child of `parent`, or as a root. -/
def place (g : Forest α) (id : NodeId) (parent : Option NodeId) : Forest α :=
  g.mapEntries fun i e =>
    { e with
      parent := if i = id then parent else e.parent
      children := e.children.filter (· ≠ id) ++ handed parent [id] i }

/-- A node gone, and its children with its parent, behind those already there. -/
def drop (g : Forest α) (id : NodeId) : Forest α :=
  (g.clear id).mapEntries fun i e =>
    { e with
      parent := if e.parent = some id then g.parent? id else e.parent
      children := e.children.filter (· ≠ id) ++ handed (g.parent? id) (g.children id) i }

/-- Nodes added as a chain below `parent`, each under the one before. -/
def chain (g : Forest α) (parent : Option NodeId) : List α → Forest α
  | [] => g
  | node :: rest => (g.add node parent).chain (some g.next) rest

/-- The number that the last node of a chain gets. -/
def chainEnd (g : Forest α) : List α → Option NodeId
  | [] => none
  | _ :: rest => some (g.next + rest.length)

@[simp] theorem next_add (g : Forest α) (node : α) (parent : Option NodeId) :
    (g.add node parent).next = g.next + 1 := by
  simp [add]

@[simp] theorem next_place (g : Forest α) (id : NodeId) (parent : Option NodeId) :
    (g.place id parent).next = g.next := by
  simp [place]

@[simp] theorem next_drop (g : Forest α) (id : NodeId) : (g.drop id).next = g.next := by
  simp [drop]

theorem not_isLive_next (g : Forest α) : ¬ g.IsLive g.next := fun h =>
  Nat.lt_irrefl g.next (lt_next_of_isLive h)

theorem isLive_add {node : α} {parent : Option NodeId} {i : NodeId} :
    (g.add node parent).IsLive i ↔ i = g.next ∨ g.IsLive i := by
  by_cases hi : i = g.next <;> simp [IsLive, add, get?_push, hi]

theorem node?_add {node : α} {parent : Option NodeId} {i : NodeId} :
    (g.add node parent).node? i = if i = g.next then some node else g.node? i := by
  by_cases hi : i = g.next <;> simp [node?, add, get?_push, hi, Function.comp_def]

theorem parent?_add {node : α} {parent : Option NodeId} {i : NodeId} :
    (g.add node parent).parent? i = if i = g.next then parent else g.parent? i := by
  by_cases hi : i = g.next
  · simp [parent?, add, get?_push, hi]
  · cases hg : g.get? i <;> simp [parent?, add, get?_push, hi, hg]

theorem children_add {node : α} {parent : Option NodeId} {i : NodeId}
    (hparent : g.HasPlace parent) :
    (g.add node parent).children i = g.children i ++ handed parent [g.next] i := by
  have hnew : parent ≠ some g.next := fun h => g.not_isLive_next (hparent _ h)
  by_cases hi : i = g.next
  · rw [hi, children_of_not_isLive g.not_isLive_next]
    simp [children, add, get?_push, handed, hnew]
  · cases hg : g.get? i with
    | some e => simp [children, add, get?_push, hi, hg]
    | none =>
      have hother : parent ≠ some i := by
        intro h
        obtain ⟨e, he⟩ := isLive_iff.1 (hparent i h)
        exact Option.some_ne_none e (he.symm.trans hg)
      simp [children, add, get?_push, hi, hg, handed, hother]

section

variable {node : α} {nodes : List α} {parent : Option NodeId} {i : NodeId}

theorem hasPlace_add_next (g : Forest α) (node : α) (parent : Option NodeId) :
    (g.add node parent).HasPlace (some g.next) :=
  hasPlace_some.2 (isLive_add.2 (.inl rfl))

theorem lt_next_add (hi : i ≤ g.next) : i < (g.add node parent).next := by
  rw [next_add]
  exact Nat.lt_succ_of_le hi

theorem next_add_add (g : Forest α) (node : α) (parent : Option NodeId) (k : Nat) :
    (g.add node parent).next + k = g.next + (k + 1) := by
  rw [next_add, Nat.add_assoc, Nat.add_comm 1]

theorem children_add_next (hparent : g.HasPlace parent) :
    (g.add node parent).children g.next = [] := by
  have hne : parent ≠ some g.next := fun h => g.not_isLive_next (hparent _ h)
  rw [children_add hparent, children_of_not_isLive g.not_isLive_next, handed, if_neg hne,
    List.append_nil]

theorem chainEnd_add_or (g : Forest α) (node : α) (parent : Option NodeId) (nodes : List α) :
    ((g.add node parent).chainEnd nodes).or (some g.next) = g.chainEnd (node :: nodes) := by
  cases nodes with
  | nil => rfl
  | cons next rest => rw [chainEnd, chainEnd, Option.some_or, next_add_add, List.length_cons]

@[simp] theorem next_chain : (g.chain parent nodes).next = g.next + nodes.length := by
  induction nodes generalizing g parent with
  | nil => rfl
  | cons node rest ih => rw [chain, ih, next_add_add, List.length_cons]

theorem isLive_chain :
    (g.chain parent nodes).IsLive i ↔
      g.IsLive i ∨ g.next ≤ i ∧ i < g.next + nodes.length := by
  induction nodes generalizing g parent with
  | nil => exact ⟨.inl, fun h => h.resolve_right fun hi => Nat.not_lt_of_le hi.1 hi.2⟩
  | cons node rest ih =>
    rw [chain, ih, isLive_add, next_add, List.length_cons]
    grind

theorem node?_chain :
    (g.chain parent nodes).node? i = if i < g.next then g.node? i else nodes[i - g.next]? := by
  induction nodes generalizing g parent with
  | nil =>
    split
    · rfl
    · rename_i hi
      simp [chain, node?, get?_eq_none_of_next_le (Nat.le_of_not_lt hi)]
  | cons node rest ih =>
    rw [chain, ih, node?_add, next_add]
    rcases Nat.lt_trichotomy i g.next with hi | rfl | hi
    · simp [hi, Nat.lt_succ_of_lt hi, Nat.ne_of_lt hi]
    · simp
    · obtain ⟨k, rfl⟩ := Nat.exists_eq_add_of_lt hi
      have hk : g.next + k + 1 - g.next = k + 1 := by grind
      have hrest : g.next + k + 1 - (g.next + 1) = k := by grind
      rw [if_neg (by grind), if_neg (Nat.not_lt_of_lt hi), hk, hrest, List.getElem?_cons_succ]

theorem parent?_chain_of_lt (hi : i < g.next) :
    (g.chain parent nodes).parent? i = g.parent? i := by
  induction nodes generalizing g parent with
  | nil => rfl
  | cons node rest ih =>
    rw [chain, ih (lt_next_add (Nat.le_of_lt hi)), parent?_add, if_neg (Nat.ne_of_lt hi)]

theorem parent?_chain_next : (g.chain parent (node :: nodes)).parent? g.next = parent := by
  rw [chain, parent?_chain_of_lt (lt_next_add (Nat.le_refl _)), parent?_add, if_pos rfl]

/-- Each node of a chain but the first hangs under the one before. -/
theorem parent?_chain_succ {k : Nat} (hk : k + 1 < nodes.length) :
    (g.chain parent nodes).parent? (g.next + (k + 1)) = some (g.next + k) := by
  induction nodes generalizing g parent k with
  | nil => exact absurd hk (Nat.not_lt_zero _)
  | cons node rest ih =>
    have hrest : k < rest.length := Nat.lt_of_succ_lt_succ hk
    rw [chain, ← next_add_add g node parent]
    cases k with
    | zero =>
      obtain ⟨next, others, rfl⟩ := List.exists_cons_of_ne_nil (List.ne_nil_of_length_pos hrest)
      exact parent?_chain_next
    | succ k => rw [ih hrest, next_add_add]

theorem children_chain_of_lt (hparent : g.HasPlace parent) (hi : i < g.next) :
    (g.chain parent (node :: nodes)).children i = g.children i ++ handed parent [g.next] i := by
  induction nodes generalizing g parent node with
  | nil => rw [chain, chain, children_add hparent]
  | cons next rest ih =>
    have hother : handed (some g.next) [(g.add node parent).next] i = [] :=
      if_neg fun h => Nat.ne_of_lt hi (Option.some.inj h).symm
    rw [chain, ih (hasPlace_add_next g node parent) (lt_next_add (Nat.le_of_lt hi)),
      children_add hparent, hother, List.append_nil]

/-- Each node of a chain but the last has the one after it as its only child. -/
theorem children_chain_next (hparent : g.HasPlace parent) {k : Nat} (hk : k < nodes.length) :
    (g.chain parent nodes).children (g.next + k) =
      if k + 1 < nodes.length then [g.next + (k + 1)] else [] := by
  induction nodes generalizing g parent k with
  | nil => exact absurd hk (Nat.not_lt_zero _)
  | cons node rest ih =>
    cases k with
    | zero =>
      rw [chain, Nat.add_zero]
      cases rest with
      | nil => exact children_add_next hparent
      | cons next others =>
        rw [children_chain_of_lt (hasPlace_add_next g node parent) (lt_next_add (Nat.le_refl _)),
          children_add_next hparent]
        simp [handed]
    | succ k =>
      have hrest := ih (hasPlace_add_next g node parent) (Nat.lt_of_succ_lt_succ hk)
      rw [next_add_add, next_add_add] at hrest
      rw [chain, hrest]
      simp only [List.length_cons, Nat.succ_lt_succ_iff]

end

theorem isLive_place {id i : NodeId} {parent : Option NodeId} :
    (g.place id parent).IsLive i ↔ g.IsLive i := by
  simp [IsLive, place]

theorem node?_place {id i : NodeId} {parent : Option NodeId} :
    (g.place id parent).node? i = g.node? i := by
  simp [node?, place, Function.comp_def]

theorem parent?_place {id i : NodeId} {parent : Option NodeId} (hlive : g.IsLive id) :
    (g.place id parent).parent? i = if i = id then parent else g.parent? i := by
  by_cases hi : i = id
  · obtain ⟨e, he⟩ := isLive_iff.1 hlive
    simp [parent?, place, hi, he]
  · cases hg : g.get? i <;> simp [parent?, place, hi, hg]

theorem children_place {id i : NodeId} {parent : Option NodeId}
    (hparent : g.HasPlace parent) :
    (g.place id parent).children i =
      (g.children i).filter (· ≠ id) ++ handed parent [id] i := by
  by_cases hi : g.IsLive i
  · obtain ⟨e, he⟩ := isLive_iff.1 hi
    simp [children, place, he]
  · have hother : parent ≠ some i := fun h => hi (hparent i h)
    simp [children, place, get?_of_not_isLive hi, handed, hother]

theorem isLive_drop {id i : NodeId} : (g.drop id).IsLive i ↔ i ≠ id ∧ g.IsLive i := by
  by_cases hi : i = id <;> simp [IsLive, drop, get?_clear, hi]

theorem parent?_drop_self (g : Forest α) (id : NodeId) : (g.drop id).parent? id = none :=
  parent?_of_not_isLive fun h => (isLive_drop.1 h).1 rfl

theorem children_drop_self (g : Forest α) (id : NodeId) : (g.drop id).children id = [] :=
  children_of_not_isLive fun h => (isLive_drop.1 h).1 rfl

theorem node?_drop_self (g : Forest α) (id : NodeId) : (g.drop id).node? id = none := by
  simp [node?, drop, get?_clear]

theorem node?_drop {id i : NodeId} (hi : i ≠ id) : (g.drop id).node? i = g.node? i := by
  simp [node?, drop, get?_clear, hi, Function.comp_def]

theorem parent?_drop {id i : NodeId} (hi : i ≠ id) :
    (g.drop id).parent? i = if g.parent? i = some id then g.parent? id else g.parent? i := by
  cases hg : g.get? i <;> simp [parent?, drop, get?_clear, hi, hg]

theorem children_drop {id i : NodeId} (hi : i ≠ id)
    (hparent : g.HasPlace (g.parent? id)) :
    (g.drop id).children i =
      (g.children i).filter (· ≠ id) ++ handed (g.parent? id) (g.children id) i := by
  by_cases hlive : g.IsLive i
  · obtain ⟨e, he⟩ := isLive_iff.1 hlive
    simp [children, drop, get?_clear, hi, he]
  · have hother : g.parent? id ≠ some i := fun h => hlive (hparent i h)
    simp [children, drop, get?_clear, hi, get?_of_not_isLive hlive, handed, hother]

end Forest

end WindowFlow
