import Mathlib.Data.List.Sort
import WindowFlow.Json.Canonical
/-!
Lists of members. Where no two members share a name, a list is known by what it holds under each
name, its order apart, and there is one order in which the names ascend.
-/
namespace WindowFlow.Json

variable {α β : Type} {ms ns : List (String × α)} {name : String} {v : α}

def names (ms : List (String × α)) : List String := ms.map Prod.fst

@[simp] theorem names_nil : names ([] : List (String × α)) = [] := rfl

@[simp] theorem names_cons (m : String × α) (ms : List (String × α)) :
    names (m :: ms) = m.1 :: names ms := rfl

@[simp] theorem names_append (ms ns : List (String × α)) :
    names (ms ++ ns) = names ms ++ names ns := List.map_append

theorem names_perm (h : ms.Perm ns) : (names ms).Perm (names ns) := h.map Prod.fst

theorem mem_names_of_mem (h : (name, v) ∈ ms) : name ∈ names ms := List.mem_map_of_mem h

theorem names_map (f : String × α → β) (ms : List (String × α)) :
    names (ms.map fun m => (m.1, f m)) = names ms := by
  simp [names]

/-- A name with distinct names around it has one value. -/
theorem eq_of_mem_of_mem (h : (names ms).Nodup) {m n : String × α} (hm : m ∈ ms) (hn : n ∈ ms)
    (hname : m.1 = n.1) : m = n :=
  List.inj_on_of_nodup_map h hm hn hname

theorem lookup_cons_eq_ite (m : String × α) (ms : List (String × α)) (name : String) :
    (m :: ms).lookup name = if name = m.1 then some m.2 else ms.lookup name := by
  obtain ⟨k, v⟩ := m
  rw [List.lookup_cons]
  by_cases h : name = k
  · simp [h]
  · simp [h, beq_false_of_ne h]

theorem mem_of_lookup_eq_some (h : ms.lookup name = some v) : (name, v) ∈ ms := by
  obtain ⟨before, after, rfl, -⟩ := List.lookup_eq_some_iff.1 h
  simp

theorem lookup_eq_some_iff_mem (hnames : (names ms).Nodup) :
    ms.lookup name = some v ↔ (name, v) ∈ ms := by
  refine ⟨mem_of_lookup_eq_some, fun hmem => ?_⟩
  induction ms with
  | nil => exact absurd hmem List.not_mem_nil
  | cons m rest ih =>
    rw [names_cons, List.nodup_cons] at hnames
    rw [lookup_cons_eq_ite]
    rcases List.mem_cons.1 hmem with rfl | hmem
    · simp
    · have hne : name ≠ m.1 := fun h => hnames.1 (h ▸ mem_names_of_mem hmem)
      rw [if_neg hne, ih hnames.2 hmem]

theorem lookup_eq_none_iff_not_mem : ms.lookup name = none ↔ name ∉ names ms := by
  rw [List.lookup_eq_none_iff, names, List.mem_map]
  refine ⟨?_, ?_⟩
  · rintro h ⟨m, hm, rfl⟩
    simpa using h m hm
  · intro h m hm
    exact bne_iff_ne.2 fun hname => h ⟨m, hm, hname.symm⟩

/-- What is found under a name does not depend on the order of the members. -/
theorem lookup_perm (h : ms.Perm ns) (hnames : (names ms).Nodup) (name : String) :
    ms.lookup name = ns.lookup name := by
  refine Option.ext fun v => ?_
  rw [lookup_eq_some_iff_mem hnames, lookup_eq_some_iff_mem ((names_perm h).nodup_iff.1 hnames)]
  exact h.mem_iff

/-- Lists in which the same is found under every name differ in their order only. -/
theorem perm_of_lookup_eq (hms : (names ms).Nodup) (hns : (names ns).Nodup)
    (h : ∀ name, ms.lookup name = ns.lookup name) : ms.Perm ns := by
  rw [List.perm_ext_iff_of_nodup (List.Nodup.of_map Prod.fst hms) (List.Nodup.of_map Prod.fst hns)]
  rintro ⟨name, v⟩
  rw [← lookup_eq_some_iff_mem hms, ← lookup_eq_some_iff_mem hns, h]

theorem eq_none_of_rel_none {R : α → β → Prop} {o : Option β} (h : Option.Rel R none o) :
    o = none := by
  cases h
  rfl

theorem exists_of_rel_some {R : α → β → Prop} {a : α} {o : Option β}
    (h : Option.Rel R (some a) o) : ∃ b, o = some b ∧ R a b := by
  cases h with
  | some hab => exact ⟨_, rfl, hab⟩

/-- Members that are left out where their value asks for it. -/
theorem lookup_filterMap (keep : String → α → Option β) (hnames : (names ms).Nodup) :
    (ms.filterMap fun m => (keep m.1 m.2).map (m.1, ·)).lookup name =
      (ms.lookup name).bind (keep name) := by
  induction ms with
  | nil => rfl
  | cons m rest ih =>
    rw [names_cons, List.nodup_cons] at hnames
    rw [lookup_cons_eq_ite, List.filterMap_cons]
    by_cases hname : name = m.1
    · subst hname
      rw [if_pos rfl]
      have hrest : rest.lookup m.1 = none := lookup_eq_none_iff_not_mem.2 hnames.1
      cases hkeep : keep m.1 m.2 with
      | none => simpa [hkeep, hrest] using ih hnames.2
      | some w => simp [hkeep]
    · rw [if_neg hname, ← ih hnames.2]
      cases keep m.1 m.2 with
      | none => rfl
      | some w => simp [lookup_cons_eq_ite, hname]

/-- What a record says of a member is what its object holds. -/
theorem lookup_record {members : List (String × Option Json)} {o : Option Json}
    (hnames : (names members).Nodup) (h : (name, o) ∈ members) :
    (members.filterMap fun m => m.2.map (m.1, ·)).lookup name = o := by
  rw [lookup_filterMap (fun _ o => o) hnames, (lookup_eq_some_iff_mem hnames).2 h, Option.bind_some]

theorem nodup_names_filterMap (keep : String → α → Option β) (hnames : (names ms).Nodup) :
    (names (ms.filterMap fun m => (keep m.1 m.2).map (m.1, ·))).Nodup := by
  have hsub : (names (ms.filterMap fun m => (keep m.1 m.2).map (m.1, ·))).Sublist (names ms) := by
    clear hnames
    induction ms with
    | nil => exact List.Sublist.refl _
    | cons m rest ih =>
      rw [List.filterMap_cons]
      cases keep m.1 m.2 with
      | none => exact ih.cons m.1
      | some w => exact ih.cons_cons m.1
  exact hnames.sublist hsub

theorem setMember_of_not_mem {members : List (String × Json)} {value : Json}
    (h : name ∉ names members) : setMember name value members = members ++ [(name, value)] := by
  induction members with
  | nil => rfl
  | cons m rest ih =>
    rw [names_cons, List.mem_cons, not_or] at h
    rw [setMember, if_neg (Ne.symm h.1), ih h.2, List.cons_append]

/-- The order by name, which puts no order on members of one name. -/
def NameLE (m n : String × α) : Prop := m.1 ≤ n.1

instance : DecidableRel (NameLE (α := α)) := fun m n => inferInstanceAs (Decidable (m.1 ≤ n.1))

instance : Std.Total (NameLE (α := α)) := ⟨fun m n => String.le_total m.1 n.1⟩

instance : IsTrans (String × α) NameLE := ⟨fun _ _ _ => String.le_trans⟩

theorem sortByName_eq_insertionSort (ms : List (String × α)) :
    sortByName ms = ms.insertionSort NameLE := by
  have hinsert : ∀ (m : String × α) (ms : List (String × α)),
      insertByName m ms = ms.orderedInsert NameLE m := by
    intro m ms
    induction ms with
    | nil => rfl
    | cons n rest ih =>
      rw [insertByName, List.orderedInsert_cons, ih]
      rfl
  induction ms with
  | nil => rfl
  | cons m rest ih =>
    rw [List.insertionSort_cons, ← ih, ← hinsert]
    rfl

theorem sortByName_perm (ms : List (String × α)) : (sortByName ms).Perm ms := by
  rw [sortByName_eq_insertionSort]
  exact List.perm_insertionSort NameLE ms

theorem sortByName_pairwise (ms : List (String × α)) : (sortByName ms).Pairwise NameLE := by
  rw [sortByName_eq_insertionSort]
  exact List.pairwise_insertionSort NameLE ms

theorem nodup_names_sortByName (hnames : (names ms).Nodup) : (names (sortByName ms)).Nodup :=
  (names_perm (sortByName_perm ms)).nodup_iff.2 hnames

/-- Of lists with the same members, all of different names, sorting makes one list. -/
theorem sortByName_congr (h : ms.Perm ns) (hnames : (names ms).Nodup) :
    sortByName ms = sortByName ns := by
  have hperm : (sortByName ms).Perm (sortByName ns) :=
    ((sortByName_perm ms).trans h).trans (sortByName_perm ns).symm
  refine hperm.eq_of_pairwise ?_ (sortByName_pairwise ms) (sortByName_pairwise ns)
  intro m n hm hn hle hge
  have hn' : n ∈ ms := h.mem_iff.2 ((sortByName_perm ns).mem_iff.1 hn)
  exact eq_of_mem_of_mem hnames ((sortByName_perm ms).mem_iff.1 hm) hn' (String.le_antisymm hle hge)

theorem sortByName_sortByName (ms : List (String × α)) :
    sortByName (sortByName ms) = sortByName ms := by
  rw [sortByName_eq_insertionSort (sortByName ms)]
  exact (sortByName_pairwise ms).insertionSort_eq

/-- Sorting looks at names only. -/
theorem sortByName_map (f : String × α → β) (ms : List (String × α)) :
    sortByName (ms.map fun m => (m.1, f m)) = (sortByName ms).map fun m => (m.1, f m) := by
  rw [sortByName_eq_insertionSort, sortByName_eq_insertionSort,
    List.map_insertionSort NameLE NameLE (fun m => (m.1, f m)) ms fun m _ n _ => Iff.rfl]

end WindowFlow.Json
