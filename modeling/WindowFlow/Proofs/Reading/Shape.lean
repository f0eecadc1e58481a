import WindowFlow.Proofs.Json.Members
import WindowFlow.Proofs.Reading.Success
/-!
Shapes of values, and the readers that accept exactly the values of a shape. A record has a shape
for each member that it lists, and whatever else an object holds is free. What an accepted value
gives is told in the same way, from what its members give.
-/
namespace WindowFlow

variable {α β : Type}

namespace Json

def IsString (v : Json) : Prop := ∃ s, v = .str s

def IsBoolean (v : Json) : Prop := ∃ b, v = .bool b

def IsNumber (v : Json) : Prop := ∃ n, v = .num n

def IsListOf (shape : Json → Prop) (v : Json) : Prop :=
  ∃ items, v = .arr items ∧ ∀ item ∈ items, shape item

/-- One of several names, or an object with null under such a name as its only member. -/
def IsOneOf (names : List String) (v : Json) : Prop :=
  ∃ name ∈ names, v = .str name ∨ v = .obj [(name, .null)]

/-- There is a member of this name, and its value has the shape. -/
def Has (members : List (String × Json)) (name : String) (shape : Json → Prop) : Prop :=
  ∃ v, members.lookup name = some v ∧ shape v

/-- A member of this name, if there is one, is null or has the shape. -/
def MayHave (members : List (String × Json)) (name : String) (shape : Json → Prop) : Prop :=
  ∀ v, members.lookup name = some v → v = .null ∨ shape v

/-- The name alone, or null under the name as the only member of an object. -/
def Picks (v : Json) (name : String) : Prop := v = .str name ∨ v = .obj [(name, .null)]

/-- There is a member of this name, and it gives the value. -/
def Holds (members : List (String × Json)) (name : String) (gives : Json → α → Prop) (a : α) : Prop :=
  ∃ v, members.lookup name = some v ∧ gives v a

/-- The member of this name gives the value. It gives none where it is absent or null, and nowhere
else. -/
def MayHold (members : List (String × Json)) (name : String) (gives : Json → α → Prop)
    (o : Option α) : Prop :=
  Option.Rel gives (Members.given (fun name => members.lookup name) name) o

end Json

open Json (IsString IsBoolean IsNumber IsListOf IsOneOf Has MayHave Holds MayHold)

namespace Reader

variable {read : Reader α} {shape : Json → Prop} {gives : Json → α → Prop}

def Accepts (read : Reader α) (shape : Json → Prop) : Prop :=
  ∀ v, (∃ a, read v = .ok a) ↔ shape v

theorem accepts_string : Accepts string IsString := by
  intro v
  cases v <;> simp [string, IsString]

theorem accepts_boolean : Accepts boolean IsBoolean := by
  intro v
  cases v <;> simp [boolean, IsBoolean]

theorem accepts_number : Accepts number IsNumber := by
  intro v
  cases v <;> simp [number, IsNumber]

theorem accepts_nullable (h : Accepts read shape) :
    Accepts (nullable read) fun v => v = .null ∨ shape v := by
  intro v
  by_cases hnull : v = .null
  · subst hnull
    exact ⟨fun _ => .inl rfl, fun _ => ⟨none, rfl⟩⟩
  · simp [nullable_of_ne_null hnull, map_eq_ok_iff, hnull, ← h v]

theorem accepts_list (h : Accepts read shape) : Accepts (list read) (IsListOf shape) := by
  have hitems : ∀ items : List Json,
      (∃ as, List.Forall₂ (fun v a => read v = .ok a) items as) ↔ ∀ item ∈ items, shape item := by
    intro items
    induction items with
    | nil => simp
    | cons v rest ih => simp [List.forall₂_cons_left_iff, ← ih, ← h v]
  intro v
  simp only [list_eq_ok_iff, IsListOf, ← hitems]
  rw [exists_comm]
  simp only [exists_and_left]

theorem accepts_variant (variants : List (String × α)) :
    Accepts (variant variants) (IsOneOf (Json.names variants)) := by
  have hfound : ∀ name, (∃ a, variants.lookup name = some a) ↔ name ∈ Json.names variants := by
    intro name
    rw [← not_iff_not, ← Json.lookup_eq_none_iff_not_mem]
    cases variants.lookup name <;> simp
  intro v
  simp only [variant_eq_ok_iff, IsOneOf, ← hfound]
  rw [exists_comm]
  simp only [exists_and_right]

def Gives (read : Reader α) (gives : Json → α → Prop) : Prop :=
  ∀ v a, read v = .ok a ↔ gives v a

theorem gives_string : Gives string fun v s => v = .str s := by
  intro v s
  cases v <;> simp [string]

theorem gives_variant {variants : List (String × α)} {text : α → String}
    (htext : ∀ m ∈ variants, text m.2 = m.1) (hfound : ∀ a, variants.lookup (text a) = some a) :
    Gives (variant variants) fun v a => v.Picks (text a) := by
  intro v a
  rw [variant_eq_ok_iff]
  constructor
  · rintro ⟨name, hname, hv⟩
    obtain rfl : text a = name := htext _ (Json.mem_of_lookup_eq_some hname)
    exact hv
  · exact fun hv => ⟨text a, hfound a, hv⟩

end Reader

namespace Draft

theorem exists_map_iff {f : α → β} {d : Draft α} :
    (∃ b, f <$> d = .complete b) ↔ ∃ a, d = .complete a := by
  simp [map_eq_complete_iff]

theorem exists_seq_iff {f : Draft (α → β)} {d : Draft α} :
    (∃ b, f <*> d = .complete b) ↔ (∃ g, f = .complete g) ∧ ∃ a, d = .complete a := by
  simp [seq_eq_complete_iff]

end Draft

namespace Members

variable {members : List (String × Json)} {name : String} {read : Reader α} {shape : Json → Prop}
  {gives : Json → α → Prop}

theorem exists_required_iff (h : read.Accepts shape) :
    (∃ a, required (fun name => members.lookup name) name read = .complete a) ↔
      Has members name shape := by
  simp only [required_eq_complete_iff, Has, ← h _]
  rw [exists_comm]
  simp only [exists_and_left]

theorem exists_optional_iff (h : read.Accepts shape) :
    (∃ o, optional (fun name => members.lookup name) name read = .complete o) ↔
      MayHave members name shape := by
  cases hfound : members.lookup name with
  | none => simp [optional, MayHave, hfound]
  | some v =>
    simp only [optional, MayHave, hfound, Draft.ofRead_eq_complete_iff, Reader.accepts_nullable h v]
    simp

theorem required_iff_holds (h : read.Gives gives) {a : α} :
    required (fun name => members.lookup name) name read = .complete a ↔
      Holds members name gives a := by
  simp only [required_eq_complete_iff, Holds, h _ _]

theorem optional_iff_mayHold (h : read.Gives gives) {o : Option α} :
    optional (fun name => members.lookup name) name read = .complete o ↔
      MayHold members name gives o := by
  simp only [optional_eq_complete_iff, MayHold, h _ _]

end Members

theorem RecordForm.exists_readObject_iff {form : RecordForm α} {v : Json} :
    (∃ a, form.readObject v = .ok a) ↔
      ∃ members, v = .obj members ∧ ∃ a, form.draft (fun name => members.lookup name) = .complete a := by
  simp only [readObject_eq_ok_iff]
  rw [exists_comm]
  simp only [exists_and_left]

end WindowFlow
