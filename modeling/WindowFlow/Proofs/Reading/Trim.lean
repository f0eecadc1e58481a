import WindowFlow.Proofs.Json.SameValue
import WindowFlow.Proofs.Reading.Success
/-!
What a record keeps of the object it is read from. Members that the record does not list are
dropped, and so are nulls where a member may be left out; what remains, each value trimmed in its
own way, is the written form of the record.
-/
namespace WindowFlow

open Json (SameValue)

/-- What becomes of the value of a member, and none where the member goes. -/
abbrev Slot := Json → Option Json

namespace Slot

def always (trim : Json → Json) : Slot := fun v => some (trim v)

def unlessNull (trim : Json → Json) : Slot
  | .null => none
  | v => some (trim v)

theorem unlessNull_of_ne_null {v : Json} (h : v ≠ .null) (trim : Json → Json) :
    unlessNull trim v = some (trim v) := by
  cases v with
  | null => exact absurd rfl h
  | _ => rfl

end Slot

namespace Json

/-- What becomes of a member of an object, by the slot of its name. -/
def keep (slots : List (String × Slot)) (name : String) (v : Json) : Option Json :=
  (slots.lookup name).bind fun slot => slot v

def trimRecord (slots : List (String × Slot)) : Json → Json
  | .obj members => .obj (members.filterMap fun m => (keep slots m.1 m.2).map (m.1, ·))
  | v => v

def trimItems (trim : Json → Json) : Json → Json
  | .arr items => .arr (items.map trim)
  | v => v

/-- A name that stands as the only member of an object, over null, stands alone instead. -/
def trimVariant : Json → Json
  | .obj [(name, .null)] => .str name
  | v => v

end Json

variable {α β : Type}

namespace Reader

variable {read : Reader α} {write : α → Json} {trim : Json → Json}

/-- What is read from a value is written as the value trimmed. -/
def Keeps (read : Reader α) (write : α → Json) (trim : Json → Json) : Prop :=
  ∀ v a, v.DistinctNames → read v = .ok a → SameValue (write a) (trim v)

theorem keeps_string : Keeps string .str id := by
  rintro (_ | _ | _ | s | _ | _) a - h <;> cases h
  exact .refl _

theorem keeps_boolean : Keeps boolean .bool id := by
  rintro (_ | b | _ | _ | _ | _) a - h <;> cases h
  exact .refl _

theorem keeps_number : Keeps number .num id := by
  rintro (_ | _ | n | _ | _ | _) a - h <;> cases h
  exact .refl _

theorem keeps_nullable (h : Keeps read write id) :
    Keeps (nullable read) (fun o => .orNull (o.map write)) id := by
  intro v o hv hread
  by_cases hnull : v = .null
  · subst hnull
    cases hread
    exact .null
  · rw [nullable_of_ne_null hnull] at hread
    obtain ⟨a, ha, rfl⟩ := map_eq_ok_iff.1 hread
    exact h v a hv ha

theorem keeps_list (h : Keeps read write trim) :
    Keeps (list read) (fun as => .arr (as.map write)) (Json.trimItems trim) := by
  intro v as hv hread
  obtain ⟨items, rfl, has⟩ := list_eq_ok_iff.1 hread
  rw [Json.distinctNames_arr_iff] at hv
  clear hread
  refine .arr (List.forall₂_map_left_iff.2 (List.forall₂_map_right_iff.2 ?_))
  induction has with
  | nil => exact .nil
  | cons ha _ ih =>
    obtain ⟨hitem, hrest⟩ := List.forall_mem_cons.1 hv
    exact .cons (h _ _ hitem ha) (ih hrest)

theorem keeps_strings : Keeps (list string) .strings id := by
  intro v xs hv hread
  have hsame := keeps_list keeps_string v xs hv hread
  obtain ⟨items, rfl, -⟩ := list_eq_ok_iff.1 hread
  rwa [Json.trimItems, List.map_id] at hsame

theorem keeps_variant {variants : List (String × α)} {text : α → String}
    (h : ∀ m ∈ variants, text m.2 = m.1) :
    Keeps (variant variants) (fun a => .str (text a)) Json.trimVariant := by
  intro v a _ hread
  obtain ⟨name, ha, rfl | rfl⟩ := variant_eq_ok_iff.1 hread
  all_goals
    have hname : text a = name := h _ (Json.mem_of_lookup_eq_some ha)
    simp only [Json.trimVariant, hname]
    exact .str name

end Reader

namespace Json

theorem DistinctNames.of_lookup {members : List (String × Json)} (h : DistinctNames (.obj members))
    {name : String} {v : Json} (hv : members.lookup name = some v) : v.DistinctNames := by
  exact (distinctNames_obj_iff.1 h).2 _ (mem_of_lookup_eq_some hv)

/-- Where members agree slot by slot they agree name by name. -/
theorem rel_lookup_of_slots {written : List (String × Option Json)} {slots : List (String × Slot)}
    {members : List (String × Json)}
    (h : List.Forall₂ (fun w slot => w.1 = slot.1 ∧
      Option.Rel SameValue w.2 ((members.lookup slot.1).bind slot.2)) written slots)
    (name : String) :
    Option.Rel SameValue ((written.lookup name).bind fun o => o)
      ((members.lookup name).bind fun v => (slots.lookup name).bind fun slot => slot v) := by
  induction h with
  | nil => cases members.lookup name <;> exact .none
  | @cons w slot _ _ hw _ ih =>
    obtain ⟨hname, hvalue⟩ := hw
    simp only [lookup_cons_eq_ite, hname]
    split
    · rename_i heq
      subst heq
      exact hvalue
    · exact ih

/-- An object trimmed is a record if they agree slot by slot. -/
theorem sameValue_trimRecord {written : List (String × Option Json)} {slots : List (String × Slot)}
    {members : List (String × Json)} (hwritten : (names written).Nodup)
    (hmembers : (names members).Nodup)
    (h : List.Forall₂ (fun w slot => w.1 = slot.1 ∧
      Option.Rel SameValue w.2 ((members.lookup slot.1).bind slot.2)) written slots) :
    SameValue (record written) (trimRecord slots (.obj members)) := by
  refine sameValue_obj_of_lookup (nodup_names_filterMap (fun _ o => o) hwritten)
    (nodup_names_filterMap (keep slots) hmembers) fun name => ?_
  rw [lookup_filterMap (fun _ o => o) hwritten, lookup_filterMap (keep slots) hmembers]
  exact rel_lookup_of_slots h name

end Json

namespace Members

variable {members : List (String × Json)} {name : String} {read : Reader α} {write : α → Json}
  {trim : Json → Json}

theorem required_keeps (h : read.Keeps write trim) (hmembers : (Json.obj members).DistinctNames)
    {a : α} (hread : required (fun name => members.lookup name) name read = .complete a) :
    Option.Rel SameValue (some (write a)) ((members.lookup name).bind (Slot.always trim)) := by
  obtain ⟨v, hv, ha⟩ := required_eq_complete_iff.1 hread
  rw [hv, Option.bind_some]
  exact .some (h v a (hmembers.of_lookup hv) ha)

theorem optional_keeps (h : read.Keeps write trim) (hmembers : (Json.obj members).DistinctNames)
    {o : Option α} (hread : optional (fun name => members.lookup name) name read = .complete o) :
    Option.Rel SameValue (o.map write) ((members.lookup name).bind (Slot.unlessNull trim)) := by
  obtain ⟨rfl, hv | hv⟩ | ⟨v, a, rfl, hv, hne, ha⟩ := optional_cases hread
  · rw [hv]
    exact .none
  · rw [hv]
    exact .none
  · rw [hv, Option.bind_some, Slot.unlessNull_of_ne_null hne]
    exact .some (h v a (hmembers.of_lookup hv) ha)

end Members

end WindowFlow
