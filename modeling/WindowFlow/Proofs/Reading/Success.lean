import Mathlib.Data.List.Forall2
import WindowFlow.Reading.Record
/-!
When reading succeeds, and with what. A list is read where each of its elements is, and a record
where each of its members is; a member that may be left out counts as absent where it is null.
-/
namespace WindowFlow

variable {α β : Type}

namespace Reader

variable {read : Reader α} {v : Json}

theorem map_eq_ok_iff {f : α → β} {x : Except Fault α} {b : β} :
    f <$> x = .ok b ↔ ∃ a, x = .ok a ∧ f a = b := by
  cases x <;> simp [Functor.map, Except.map]

theorem map_eq_error_iff {f : α → β} {x : Except Fault α} {fault : Fault} :
    f <$> x = .error fault ↔ x = .error fault := by
  cases x <;> simp [Functor.map, Except.map]

theorem mapM_eq_ok_iff {items : List Json} {as : List α} :
    items.mapM read = .ok as ↔ List.Forall₂ (fun v a => read v = .ok a) items as := by
  induction items generalizing as with
  | nil => cases as <;> simp [pure, Except.pure]
  | cons v rest ih =>
    rw [List.mapM_cons]
    cases hv : read v with
    | error fault => cases as <;> simp [bind, Except.bind, hv]
    | ok a =>
      cases hrest : rest.mapM read with
      | error fault => cases as <;> simp [bind, Except.bind, ← ih, hv, hrest]
      | ok bs => cases as <;> simp [bind, Except.bind, pure, Except.pure, ← ih, hv, hrest]

theorem list_eq_ok_iff {as : List α} :
    list read v = .ok as ↔
      ∃ items, v = .arr items ∧ List.Forall₂ (fun v a => read v = .ok a) items as := by
  cases v with
  | arr items => simp [list, mapM_eq_ok_iff]
  | _ => simp [list]

/-- A bound is read from the whole number that it is, and from nothing else. -/
theorem bound_eq_ok_iff {n : Int64} : bound v = .ok n ↔ v = .num (.ofInt64 n) := by
  have hfits : Int64.minValue.toInt ≤ n.toInt ∧ n.toInt ≤ Int64.maxValue.toInt :=
    ⟨n.minValue_le_toInt, n.toInt_le⟩
  fun_cases bound v with
  | case1 k _ hk =>
    have hlow : -2 ^ 63 ≤ k := Int64.toInt_minValue ▸ hk.1
    have hhigh : k < 2 ^ 63 := Int.lt_of_le_sub_one (Int64.toInt_maxValue ▸ hk.2)
    simp only [Except.ok.injEq, Num.ofInt64, Json.num.injEq, Num.whole.injEq]
    exact ⟨fun h => by rw [← h, Int64.toInt_ofInt_of_le hlow hhigh],
      fun h => by rw [h, Int64.ofInt_toInt]⟩
  | case2 k _ hk =>
    simp only [reduceCtorEq, Num.ofInt64, Json.num.injEq, Num.whole.injEq, false_iff]
    exact fun h => hk (h ▸ hfits)
  | case3 v hv => simpa [Num.ofInt64] using hv n.toInt _

theorem named_eq_ok_iff {variants : List (String × α)} {name : String} {a : α} :
    named variants name = .ok a ↔ variants.lookup name = some a := by
  rw [named]
  cases variants.lookup name <;> simp

theorem variant_eq_ok_iff {variants : List (String × α)} {a : α} :
    variant variants v = .ok a ↔
      ∃ name, variants.lookup name = some a ∧ (v = .str name ∨ v = .obj [(name, .null)]) := by
  fun_cases variant with
  | case1 name => simp [named_eq_ok_iff]
  | case2 name content =>
    cases content <;> cases hname : variants.lookup name <;> simp [bind, Except.bind, named, hname]
  | case3 ms hone => simpa using fun name _ => hone name .null
  | case4 v hname hone => simpa using fun name _ => ⟨hname name, hone name .null⟩

theorem nullable_of_ne_null (h : v ≠ .null) : nullable read v = some <$> read v := by
  cases v with
  | null => exact absurd rfl h
  | _ => rfl

end Reader

namespace Draft

theorem map_eq_complete_iff {f : α → β} {d : Draft α} {b : β} :
    f <$> d = .complete b ↔ ∃ a, d = .complete a ∧ f a = b := by
  cases d <;> simp [Functor.map, Draft.map]

theorem seq_eq_complete_iff {f : Draft (α → β)} {d : Draft α} {b : β} :
    f <*> d = .complete b ↔ ∃ g a, f = .complete g ∧ d = .complete a ∧ g a = b := by
  cases f <;> cases d <;> simp [Seq.seq, Draft.seq, Draft.map]

theorem ofRead_eq_complete_iff {name : String} {x : Except Fault α} {a : α} :
    ofRead name x = .complete a ↔ x = .ok a := by
  cases x <;> simp [ofRead]

end Draft

namespace Members

variable {members : Members} {name : String} {read : Reader α}

/-- The value of a member that may be left out. Null leaves it out as well. -/
def given (members : Members) (name : String) : Option Json :=
  match members name with
  | some .null => none
  | found => found

theorem given_eq_some_iff {v : Json} :
    members.given name = some v ↔ members name = some v ∧ v ≠ .null := by
  rw [given]
  split
  · rename_i h
    simp [h, eq_comm]
  · rename_i h
    exact ⟨fun hv => ⟨hv, fun hnull => h (hnull ▸ hv)⟩, And.left⟩

theorem given_eq_none_iff :
    members.given name = none ↔ members name = none ∨ members name = some .null := by
  rw [given]
  split
  · rename_i h
    simp [h]
  · rename_i h
    exact ⟨.inl, fun hnone => hnone.resolve_right h⟩

theorem required_eq_complete_iff {a : α} :
    members.required name read = .complete a ↔ ∃ v, members name = some v ∧ read v = .ok a := by
  rw [required]
  cases members name <;> simp [Draft.ofRead_eq_complete_iff]

theorem optional_eq_complete_iff {o : Option α} :
    members.optional name read = .complete o ↔
      Option.Rel (fun v a => read v = .ok a) (members.given name) o := by
  cases hgiven : members.given name with
  | none =>
    have habsent : members.optional name read = .complete none := by
      rcases given_eq_none_iff.1 hgiven with h | h <;> simp [optional, h, Draft.ofRead, Reader.nullable]
    rw [habsent, Draft.complete.injEq]
    cases o <;> simp
  | some v =>
    obtain ⟨hv, hne⟩ := given_eq_some_iff.1 hgiven
    rw [optional, hv]
    simp only [Draft.ofRead_eq_complete_iff, Reader.nullable_of_ne_null hne, Reader.map_eq_ok_iff]
    cases o <;> simp

theorem rel_given_cases {gives : Json → α → Prop} {o : Option α}
    (h : Option.Rel gives (members.given name) o) :
    (o = none ∧ (members name = none ∨ members name = some .null)) ∨
      ∃ v a, o = some a ∧ members name = some v ∧ v ≠ .null ∧ gives v a := by
  generalize hgiven : members.given name = found at h
  cases h with
  | none => exact .inl ⟨rfl, given_eq_none_iff.1 hgiven⟩
  | @some v a ha =>
    obtain ⟨hv, hne⟩ := given_eq_some_iff.1 hgiven
    exact .inr ⟨v, a, rfl, hv, hne, ha⟩

/-- A member that may be left out was left out, or it was read. -/
theorem optional_cases {o : Option α} (h : members.optional name read = .complete o) :
    (o = none ∧ (members name = none ∨ members name = some .null)) ∨
      ∃ v a, o = some a ∧ members name = some v ∧ v ≠ .null ∧ read v = .ok a :=
  rel_given_cases (optional_eq_complete_iff.1 h)

end Members

namespace RecordForm

theorem readObject_eq_ok_iff {form : RecordForm α} {v : Json} {a : α} :
    form.readObject v = .ok a ↔
      ∃ ms, v = .obj ms ∧ form.draft (fun name => ms.lookup name) = .complete a := by
  cases v with
  | obj ms =>
    rw [readObject, ofMembers]
    cases hdraft : form.draft fun name => ms.lookup name <;> simp [hdraft]
  | _ => simp [readObject]

end RecordForm

end WindowFlow
