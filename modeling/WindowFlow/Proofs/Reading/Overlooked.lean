import WindowFlow.Proofs.Reading.Trim
/-!
What readers overlook. A reader that overlooks what is trimmed from a value reads the rest as it
reads the whole, and stops at the same fault where it stops. Records overlook what their slots drop:
each member is found again, or was null where it may be absent.
-/
namespace WindowFlow

variable {α : Type}

namespace Reader

variable {read : Reader α} {trim : Json → Json}

/-- A value is read as what is left of it. What is left is null for null only, so that a value does
not become absent. -/
structure Overlooks (read : Reader α) (trim : Json → Json) : Prop where
  read_eq : ∀ v, v.DistinctNames → read (trim v) = read v
  eq_null : ∀ v, trim v = .null → v = .null

theorem overlooks_id (read : Reader α) : read.Overlooks id := ⟨fun _ _ => rfl, fun _ h => h⟩

theorem overlooks_list (h : read.Overlooks trim) :
    (list read).Overlooks (Json.trimItems trim) where
  read_eq v hv := by
    cases v with
    | arr items =>
      rw [Json.distinctNames_arr_iff] at hv
      rw [Json.trimItems, list, list]
      induction items with
      | nil => rfl
      | cons v rest ih =>
        obtain ⟨hitem, hrest⟩ := List.forall_mem_cons.1 hv
        rw [List.map_cons, List.mapM_cons, List.mapM_cons, h.read_eq v hitem, ih hrest]
    | _ => rfl
  eq_null v hnull := by
    cases v <;> cases hnull
    rfl

end Reader

section

variable {members : List (String × Json)} {slots : List (String × Slot)} {name : String}
  {read : Reader α} {trim : Json → Json}

/-- The members of an object that the slots of a record leave. -/
def Members.left (slots : List (String × Slot)) (members : List (String × Json)) : Members :=
  fun name => (members.lookup name).bind (Json.keep slots name)

theorem Members.required_left (hslot : slots.lookup name = some (.always trim))
    (h : read.Overlooks trim) (hmembers : (Json.obj members).DistinctNames) :
    (left slots members).required name read =
      required (fun name => members.lookup name) name read := by
  simp only [required, left]
  cases hfound : members.lookup name with
  | none => rfl
  | some v =>
    simp only [Option.bind_some, Json.keep, hslot, Slot.always,
      h.read_eq v (hmembers.of_lookup hfound)]

theorem Members.optional_left (hslot : slots.lookup name = some (.unlessNull trim))
    (h : read.Overlooks trim) (hmembers : (Json.obj members).DistinctNames) :
    (left slots members).optional name read =
      optional (fun name => members.lookup name) name read := by
  simp only [optional, left]
  cases hfound : members.lookup name with
  | none => rfl
  | some v =>
    by_cases hnull : v = .null
    · subst hnull
      simp only [Option.bind_some, Json.keep, hslot, Slot.unlessNull]
      rfl
    · simp only [Option.bind_some, Json.keep, hslot, Slot.unlessNull_of_ne_null hnull,
        Reader.nullable_of_ne_null fun hv => hnull (h.eq_null v hv),
        Reader.nullable_of_ne_null hnull, h.read_eq v (hmembers.of_lookup hfound)]

theorem RecordForm.overlooks {form : RecordForm α}
    (h : ∀ members, (Json.obj members).DistinctNames →
      form.draft (Members.left slots members) = form.draft (fun name => members.lookup name)) :
    form.readObject.Overlooks (Json.trimRecord slots) where
  read_eq v hv := by
    cases v with
    | obj members =>
      have hleft : (fun name => (members.filterMap fun m =>
          (Json.keep slots m.1 m.2).map (m.1, ·)).lookup name) = Members.left slots members := by
        funext name
        exact Json.lookup_filterMap (Json.keep slots) (Json.distinctNames_obj_iff.1 hv).1
      simp only [Json.trimRecord, readObject, ofMembers, hleft, h members hv]
    | _ => rfl
  eq_null v hnull := by
    cases v <;> cases hnull
    rfl

end

end WindowFlow
