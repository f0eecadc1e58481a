import WindowFlow.Proofs.Json.Members
/-!
When two JSON values are the same: kind by kind and item by item, with the members of an object in
any order. Each value has a form with all members in name order; two values are the same when they
have one such form, and the canonical text is a text of that form.
-/
namespace WindowFlow.Json

/-- Induction over values. What an array or an object holds may be assumed to have the property. -/
@[elab_as_elim, induction_eliminator]
theorem induction {motive : Json → Prop} (null : motive .null) (bool : ∀ b, motive (.bool b))
    (num : ∀ n, motive (.num n)) (str : ∀ s, motive (.str s))
    (arr : ∀ items : List Json, (∀ v ∈ items, motive v) → motive (.arr items))
    (obj : ∀ ms : List (String × Json), (∀ m ∈ ms, motive m.2) → motive (.obj ms))
    (v : Json) : motive v :=
  @Json.rec motive (fun items => ∀ v ∈ items, motive v) (fun ms => ∀ m ∈ ms, motive m.2)
    (fun m => motive m.2) null bool num str arr obj
    (fun _ h => absurd h List.not_mem_nil) (fun _ _ hv hrest => List.forall_mem_cons.2 ⟨hv, hrest⟩)
    (fun _ h => absurd h List.not_mem_nil) (fun _ _ hm hrest => List.forall_mem_cons.2 ⟨hm, hrest⟩)
    (fun _ _ hv => hv) v

/-- No two members of an object share a name, at any level. -/
inductive DistinctNames : Json → Prop where
  | null : DistinctNames .null
  | bool (b : Bool) : DistinctNames (.bool b)
  | num (n : Num) : DistinctNames (.num n)
  | str (s : String) : DistinctNames (.str s)
  | arr {items : List Json} (hitems : ∀ v ∈ items, DistinctNames v) : DistinctNames (.arr items)
  | obj {ms : List (String × Json)} (hnames : (names ms).Nodup)
    (hvalues : ∀ m ∈ ms, DistinctNames m.2) : DistinctNames (.obj ms)

attribute [simp] DistinctNames.null DistinctNames.bool DistinctNames.num DistinctNames.str

@[simp] theorem distinctNames_arr_iff {items : List Json} :
    DistinctNames (.arr items) ↔ ∀ v ∈ items, DistinctNames v := by
  refine ⟨fun h => ?_, .arr⟩
  cases h with
  | arr hitems => exact hitems

@[simp] theorem distinctNames_obj_iff {ms : List (String × Json)} :
    DistinctNames (.obj ms) ↔ (names ms).Nodup ∧ ∀ m ∈ ms, DistinctNames m.2 := by
  refine ⟨fun h => ?_, fun h => .obj h.1 h.2⟩
  cases h with
  | obj hnames hvalues => exact ⟨hnames, hvalues⟩

theorem distinctNames_record {members : List (String × Option Json)}
    (hnames : (names members).Nodup) (h : ∀ m ∈ members, ∀ v ∈ m.2, v.DistinctNames) :
    (record members).DistinctNames := by
  refine .obj (nodup_names_filterMap (fun _ o => o) hnames) fun m hm => ?_
  obtain ⟨n, hn, hvalue⟩ := List.mem_filterMap.1 hm
  obtain ⟨v, hv, rfl⟩ := Option.map_eq_some_iff.1 hvalue
  exact h n hn v hv

mutual

/-- The same value, whatever the order in which the members of objects were given. -/
inductive SameValue : Json → Json → Prop where
  | null : SameValue .null .null
  | bool (b : Bool) : SameValue (.bool b) (.bool b)
  | num (n : Num) : SameValue (.num n) (.num n)
  | str (s : String) : SameValue (.str s) (.str s)
  | arr {xs ys : List Json} (hitems : List.Forall₂ SameValue xs ys) : SameValue (.arr xs) (.arr ys)
  | obj {ms ms' ns ns' : List (String × Json)} (hms : ms.Perm ms') (hns : ns.Perm ns')
    (hmembers : List.Forall₂ SameMember ms' ns') : SameValue (.obj ms) (.obj ns)

inductive SameMember : String × Json → String × Json → Prop where
  | intro (name : String) {v w : Json} (hvalue : SameValue v w) : SameMember (name, v) (name, w)

end

theorem SameValue.refl (v : Json) : SameValue v v := by
  induction v with
  | null => exact .null
  | bool b => exact .bool b
  | num n => exact .num n
  | str s => exact .str s
  | arr items ih => exact .arr (List.forall₂_same.2 ih)
  | obj ms ih =>
    exact .obj (.refl ms) (.refl ms) (List.forall₂_same.2 fun m hm => .intro m.1 (ih m hm))

theorem names_eq_of_sameMember {ms ns : List (String × Json)}
    (h : List.Forall₂ SameMember ms ns) : names ms = names ns := by
  induction h with
  | nil => rfl
  | cons hm _ ih =>
    cases hm
    rw [names_cons, names_cons, ih]

theorem lookup_rel_of_sameMember {ms ns : List (String × Json)}
    (h : List.Forall₂ SameMember ms ns) (name : String) :
    Option.Rel SameValue (ms.lookup name) (ns.lookup name) := by
  induction h with
  | nil => exact .none
  | cons hm _ ih =>
    cases hm with
    | intro k hvalue =>
      rw [lookup_cons_eq_ite, lookup_cons_eq_ite]
      split
      · exact .some hvalue
      · exact ih

/-- In an object that is the same, each name has a value that is the same. -/
theorem SameValue.lookup_rel {ms : List (String × Json)} {v : Json} (h : SameValue (.obj ms) v)
    (hnames : (names ms).Nodup) :
    ∃ ns, v = .obj ns ∧ ∀ name, Option.Rel SameValue (ms.lookup name) (ns.lookup name) := by
  cases h with
  | @obj _ ms' ns ns' hms hns hmembers =>
    refine ⟨ns, rfl, fun name => ?_⟩
    have hms' : (names ms').Nodup := (names_perm hms).nodup_iff.1 hnames
    have hns' : (names ns').Nodup := names_eq_of_sameMember hmembers ▸ hms'
    rw [lookup_perm hms hnames, ← lookup_perm hns.symm hns']
    exact lookup_rel_of_sameMember hmembers name

/-- Objects agree if they hold the same under each name: the members of the second, taken in the
order of the first, agree with these one by one. -/
theorem sameValue_obj_of_lookup {ms ns : List (String × Json)} (hms : (names ms).Nodup)
    (hns : (names ns).Nodup)
    (h : ∀ name, Option.Rel SameValue (ms.lookup name) (ns.lookup name)) :
    SameValue (.obj ms) (.obj ns) := by
  let arranged := ms.map fun m => (m.1, (ns.lookup m.1).getD .null)
  have hnames : names arranged = names ms := names_map _ ms
  have hlookup : ∀ name, arranged.lookup name = ns.lookup name := by
    intro name
    cases hv : ms.lookup name with
    | none =>
      have hnone : ns.lookup name = none := eq_none_of_rel_none (hv ▸ h name)
      rw [hnone, lookup_eq_none_iff_not_mem, hnames]
      exact lookup_eq_none_iff_not_mem.1 hv
    | some v =>
      obtain ⟨w, hw, -⟩ := exists_of_rel_some (hv ▸ h name)
      have hmem : (name, (ns.lookup name).getD .null) ∈ arranged :=
        List.mem_map.2 ⟨(name, v), mem_of_lookup_eq_some hv, rfl⟩
      rw [(lookup_eq_some_iff_mem (hnames ▸ hms)).2 hmem, hw, Option.getD_some]
  refine .obj (.refl ms) (perm_of_lookup_eq hns (hnames ▸ hms) fun name => (hlookup name).symm) ?_
  refine List.forall₂_map_right_iff.2 (List.forall₂_same.2 fun m hm => ?_)
  obtain ⟨w, hw, hvalue⟩ := exists_of_rel_some ((lookup_eq_some_iff_mem hms).2 hm ▸ h m.1)
  rw [hw]
  exact .intro m.1 hvalue

mutual

/-- The value with the members of all its objects in name order. -/
def sorted : Json → Json
  | .arr items => .arr (sortedItems items)
  | .obj ms => .obj (sortByName (sortedMembers ms))
  | v => v

def sortedItems : List Json → List Json
  | [] => []
  | v :: rest => v.sorted :: sortedItems rest

def sortedMembers : List (String × Json) → List (String × Json)
  | [] => []
  | (name, v) :: rest => (name, v.sorted) :: sortedMembers rest

end

theorem sortedItems_eq_map (items : List Json) : sortedItems items = items.map sorted := by
  induction items with
  | nil => rfl
  | cons v rest ih => rw [sortedItems, ih, List.map_cons]

theorem sortedMembers_eq_map (ms : List (String × Json)) :
    sortedMembers ms = ms.map fun m => (m.1, m.2.sorted) := by
  induction ms with
  | nil => rfl
  | cons m rest ih => rw [sortedMembers, ih, List.map_cons]

theorem sorted_arr (items : List Json) : (arr items).sorted = .arr (items.map sorted) := by
  rw [sorted, sortedItems_eq_map]

theorem sorted_obj (ms : List (String × Json)) :
    (obj ms).sorted = .obj ((sortByName ms).map fun m => (m.1, m.2.sorted)) := by
  rw [sorted, sortedMembers_eq_map, sortByName_map]

/-- Functions that agree on related elements send related lists to one list. -/
theorem map_eq_map_of_forall₂ {α β γ : Type} {R : α → β → Prop} {xs : List α} {ys : List β}
    {f : α → γ} {g : β → γ} (h : List.Forall₂ R xs ys) (hfg : ∀ x ∈ xs, ∀ y, R x y → f x = g y) :
    xs.map f = ys.map g := by
  induction h with
  | nil => rfl
  | cons hxy _ ih =>
    obtain ⟨hx, hxs⟩ := List.forall_mem_cons.1 hfg
    rw [List.map_cons, List.map_cons, hx _ hxy, ih hxs]

theorem SameValue.sorted_eq {v w : Json} (h : SameValue v w) (hv : v.DistinctNames) :
    v.sorted = w.sorted := by
  induction v generalizing w with
  | null => cases h; rfl
  | bool b => cases h; rfl
  | num n => cases h; rfl
  | str s => cases h; rfl
  | arr items ih =>
    obtain - | - | - | - | hitems | - := h
    have hdistinct := distinctNames_arr_iff.1 hv
    rw [sorted_arr, sorted_arr,
      map_eq_map_of_forall₂ hitems fun v hv w hvw => ih v hv hvw (hdistinct v hv)]
  | obj ms ih =>
    obtain - | - | - | - | - | @⟨_, ms', ns, ns', hms, hns, hmembers⟩ := h
    obtain ⟨hnames, hdistinct⟩ := distinctNames_obj_iff.1 hv
    have hmap : (ms'.map fun m => (m.1, m.2.sorted)) = ns'.map fun n => (n.1, n.2.sorted) := by
      refine map_eq_map_of_forall₂ hmembers fun m hm n hmn => ?_
      have hmem : m ∈ ms := hms.mem_iff.2 hm
      cases hmn with
      | intro name hvalue => rw [ih _ hmem hvalue (hdistinct _ hmem)]
    rw [sorted_obj, sorted_obj, ← sortByName_map, ← sortByName_map]
    have hperm : (ms.map fun m => (m.1, m.2.sorted)).Perm (ns.map fun n => (n.1, n.2.sorted)) :=
      ((hms.map _).trans (.of_eq hmap)).trans (hns.map _).symm
    rw [sortByName_congr hperm ((names_map _ ms).symm ▸ hnames)]

theorem forall₂_of_map_eq_map {α β γ : Type} {R : α → β → Prop} {f : α → γ} {g : β → γ}
    {xs : List α} {ys : List β} (h : xs.map f = ys.map g)
    (hfg : ∀ x ∈ xs, ∀ y, f x = g y → R x y) : List.Forall₂ R xs ys := by
  induction xs generalizing ys with
  | nil =>
    rw [List.map_nil, eq_comm, List.map_eq_nil_iff] at h
    exact h ▸ .nil
  | cons x xs ih =>
    cases ys with
    | nil => exact absurd h (by simp)
    | cons y ys =>
      rw [List.map_cons, List.map_cons, List.cons.injEq] at h
      obtain ⟨hx, hxs⟩ := List.forall_mem_cons.1 hfg
      exact .cons (hx y h.1) (ih h.2 hxs)

theorem sameValue_of_sorted_eq {v w : Json} (h : v.sorted = w.sorted) : SameValue v w := by
  induction v generalizing w with
  | null => cases w <;> simp_all [sorted, SameValue.refl]
  | bool b => cases w <;> simp_all [sorted, SameValue.refl]
  | num n => cases w <;> simp_all [sorted, SameValue.refl]
  | str s => cases w <;> simp_all [sorted, SameValue.refl]
  | arr items ih =>
    cases w with
    | arr items' =>
      rw [sorted_arr, sorted_arr, arr.injEq] at h
      exact .arr (forall₂_of_map_eq_map h fun v hv w => ih v hv)
    | _ => simp [sorted] at h
  | obj ms ih =>
    cases w with
    | obj ns =>
      rw [sorted_obj, sorted_obj, obj.injEq] at h
      refine .obj (sortByName_perm ms).symm (sortByName_perm ns).symm ?_
      refine forall₂_of_map_eq_map h fun m hm n hmn => ?_
      obtain ⟨name, v⟩ := m
      obtain ⟨name', w⟩ := n
      obtain ⟨rfl, hvalue⟩ := Prod.mk.inj hmn
      exact .intro name (ih (name, v) ((sortByName_perm ms).mem_iff.1 hm) hvalue)
    | _ => simp [sorted] at h

/-- The canonical text does not tell the order in which members were given. -/
theorem chars_sorted (v : Json) : v.sorted.chars = v.chars := by
  induction v with
  | null => rfl
  | bool b => rfl
  | num n => rfl
  | str s => rfl
  | arr items ih =>
    have htexts : items.map (chars ∘ sorted) = items.map chars := List.map_congr_left ih
    rw [sorted_arr, chars, chars, itemTexts_eq_map, itemTexts_eq_map, List.map_map, htexts]
  | obj ms ih =>
    have htexts : (sortByName ms).map (fun m => (m.1, m.2.sorted.chars)) =
        (sortByName ms).map fun m => (m.1, m.2.chars) := by
      refine List.map_congr_left fun m hm => ?_
      rw [ih m ((sortByName_perm ms).mem_iff.1 hm)]
    rw [sorted_obj, chars, chars, memberTexts_eq_map, memberTexts_eq_map, List.map_map,
      sortByName_map, Function.comp_def, htexts, ← sortByName_map, sortByName_sortByName]

end WindowFlow.Json
