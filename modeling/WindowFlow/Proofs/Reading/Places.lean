import WindowFlow.Proofs.Json.Members
import WindowFlow.Proofs.Reading.Success
/-!
Records in the form of an array. An item stands for the member that is listed at its place, so a
record is read from an array as from the object that puts the names to the items. What lies past the
last place is no member, and nothing is read where there is such an item.
-/
namespace WindowFlow

variable {α β : Type}

namespace Json

def IsObject (v : Json) : Prop := ∃ members, v = .obj members

/-- Under a name is what stands at its place. -/
theorem lookup_zip {names : List String} {name : String} (h : name ∈ names) (items : List β) :
    (names.zip items).lookup name = items[names.idxOf name]? := by
  induction names generalizing items with
  | nil => exact absurd h List.not_mem_nil
  | cons first rest ih =>
    cases items with
    | nil => rfl
    | cons v items =>
      rw [List.zip_cons_cons, lookup_cons_eq_ite]
      by_cases hname : name = first
      · simp [hname]
      · have hrest : name ∈ rest := (List.mem_cons.1 h).resolve_left hname
        rw [if_neg hname, ih hrest, List.idxOf_cons_ne rest (Ne.symm hname), List.getElem?_cons_succ]

end Json

namespace RecordForm

variable {form : RecordForm α} {v : Json} {a : α}

/-- What a record finds in a value: by name in an object, by place in an array. -/
def found (form : RecordForm α) : Json → Members
  | .obj members, name => members.lookup name
  | .arr items, name => items[form.members.idxOf name]?
  | _, _ => none

/-- A record is made up from the members that it lists and from no others. -/
def UsesListed (form : RecordForm α) : Prop :=
  ∀ left right : Members, (∀ name ∈ form.members, left name = right name) →
    form.draft left = form.draft right

theorem read_obj_eq_ok_iff {members : List (String × Json)} :
    form.read (.obj members) = .ok a ↔ form.draft (form.found (.obj members)) = .complete a := by
  have hfound : form.found (.obj members) = fun name => members.lookup name := rfl
  rw [read, ofMembers, hfound]
  cases form.draft fun name => members.lookup name <;> simp

theorem read_arr_eq_ok_iff {items : List Json} :
    form.read (.arr items) = .ok a ↔
      items.length ≤ form.members.length ∧ form.draft (form.found (.arr items)) = .complete a := by
  have hfound : form.found (.arr items) = fun name => items[form.members.idxOf name]? := rfl
  rw [read, ofItems, hfound]
  cases form.draft fun name => items[form.members.idxOf name]? with
  | complete b => by_cases hlen : items.length ≤ form.members.length <;> simp [hlen]
  | incomplete absent => simp
  | unreadable first others => simp

/-- In either form a record is what its members make up. -/
theorem draft_found (h : form.read v = .ok a) : form.draft (form.found v) = .complete a := by
  cases v with
  | obj members => exact read_obj_eq_ok_iff.1 h
  | arr items => exact (read_arr_eq_ok_iff.1 h).2
  | _ => cases h

theorem isObject_of_readObject (h : form.readObject v = .ok a) : v.IsObject := by
  obtain ⟨members, rfl, -⟩ := readObject_eq_ok_iff.1 h
  exact ⟨members, rfl⟩

end RecordForm

/-- Arrays are read as the objects that put the names to their items, as far as the names go. -/
structure Reader.ReadsByPlace (read : Reader α) (names : List String) : Prop where
  read_arr_iff : ∀ items, items.length ≤ names.length → ∀ a,
    read (.arr items) = .ok a ↔ read (.obj (names.zip items)) = .ok a
  refuses_longer : ∀ items, names.length < items.length → ∃ fault, read (.arr items) = .error fault

theorem RecordForm.UsesListed.readsByPlace {form : RecordForm α} (h : form.UsesListed) :
    form.read.ReadsByPlace form.members where
  read_arr_iff items hlen a := by
    have hfound : form.draft (form.found (.arr items)) =
        form.draft (form.found (.obj (form.members.zip items))) :=
      h _ _ fun name hname => (Json.lookup_zip hname items).symm
    rw [RecordForm.read_arr_eq_ok_iff, RecordForm.read_obj_eq_ok_iff, hfound]
    exact and_iff_right hlen
  refuses_longer items hlen := by
    cases hread : form.read (.arr items) with
    | error fault => exact ⟨fault, rfl⟩
    | ok a => exact absurd (RecordForm.read_arr_eq_ok_iff.1 hread).1 (Nat.not_le_of_lt hlen)

end WindowFlow
