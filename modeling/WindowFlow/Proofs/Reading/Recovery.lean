import WindowFlow.Proofs.Json.SameValue
import WindowFlow.Proofs.Reading.Success
/-!
Readers that recover what was written, in whatever order the members of objects have come to stand.
A reader of lists recovers lists where the reader of the elements recovers elements, and a record is
recovered member by member.
-/
namespace WindowFlow

open Json (SameValue)

variable {α β : Type}

theorem Json.SameValue.ne_null {v w : Json} (h : SameValue v w) (hv : v ≠ .null) : w ≠ .null := by
  rintro rfl
  cases h
  exact hv rfl

namespace Reader

variable {read : Reader α} {write : α → Json}

/-- Every value that is the same as a written one is read as what was written. -/
def Recovers (read : Reader α) (write : α → Json) : Prop :=
  ∀ a v, SameValue (write a) v → read v = .ok a

/-- What can be recovered was told apart when it was written. -/
theorem Recovers.eq_of_sameValue (h : Recovers read write) {a b : α}
    (hsame : SameValue (write a) (write b)) : a = b :=
  Except.ok.inj ((h a _ hsame).symm.trans (h b _ (.refl _)))

theorem Recovers.eq_of_rel (h : Recovers read write) {o p : Option α}
    (hrel : Option.Rel SameValue (o.map write) (p.map write)) : o = p := by
  cases o with
  | none =>
    have hp := Json.eq_none_of_rel_none hrel
    rw [Option.map_eq_none_iff.1 hp]
  | some a =>
    obtain ⟨v, hv, hsame⟩ := Json.exists_of_rel_some hrel
    obtain ⟨b, rfl, rfl⟩ := Option.map_eq_some_iff.1 hv
    rw [h.eq_of_sameValue hsame]

theorem recovers_string : Recovers string .str := by
  intro s v h
  cases h
  rfl

theorem recovers_boolean : Recovers boolean .bool := by
  intro b v h
  cases h
  rfl

theorem recovers_number : Recovers number .num := by
  intro n v h
  cases h
  rfl

theorem recovers_list (h : Recovers read write) :
    Recovers (list read) fun as => .arr (as.map write) := by
  intro as v hsame
  cases hsame with
  | arr hitems =>
    rw [List.forall₂_map_left_iff] at hitems
    exact mapM_eq_ok_iff.2 ((hitems.imp fun a v hv => h a v hv).flip)

theorem recovers_strings : Recovers (list string) Json.strings := recovers_list recovers_string

/-- An absent value that is written as null is recovered as absent. -/
theorem recovers_nullable (h : Recovers read write)
    (hnull : ∀ a, write a ≠ .null) :
    Recovers (nullable read) fun o => .orNull (o.map write) := by
  intro o v hsame
  cases o with
  | none =>
    cases hsame
    rfl
  | some a => rw [nullable_of_ne_null (hsame.ne_null (hnull a)), h a v hsame]; rfl

/-- The names of variants are recovered where no two variants share one. -/
theorem recovers_variant {variants : List (String × α)} {text : α → String}
    (h : ∀ a, variants.lookup (text a) = some a) :
    Recovers (variant variants) fun a => .str (text a) := by
  intro a v hsame
  cases hsame
  rw [variant, named, h]

end Reader

namespace Json

/-- An object that is the same as a written record holds what the record says of each member. -/
theorem lookup_rel_of_record {members : List (String × Option Json)} {v : Json}
    (hnames : (names members).Nodup) (h : SameValue (record members) v) :
    ∃ ns, v = .obj ns ∧ ∀ m ∈ members, Option.Rel SameValue m.2 (ns.lookup m.1) := by
  obtain ⟨ns, hv, hrel⟩ := SameValue.lookup_rel h (nodup_names_filterMap (fun _ o => o) hnames)
  refine ⟨ns, hv, fun m hm => ?_⟩
  have hvalue := hrel m.1
  rwa [lookup_record hnames hm] at hvalue

/-- Records of the same names that are the same value agree member by member. -/
theorem rel_of_sameValue_record {ms ns : List (String × Option Json)} (hms : (names ms).Nodup)
    (hnames : names ms = names ns) (h : SameValue (record ms) (record ns)) :
    List.Forall₂ (fun m n => Option.Rel SameValue m.2 n.2) ms ns := by
  obtain ⟨found, hfound, hrel⟩ := lookup_rel_of_record hms h
  have hns : (names ns).Nodup := hnames ▸ hms
  have hvalue : ∀ n ∈ ns, found.lookup n.1 = n.2 := by
    intro n hn
    rw [record, obj.injEq] at hfound
    rw [← hfound, lookup_record hns hn]
  have hpairs : List.Forall₂ (fun m n => m.1 = n.1) ms ns := by
    rw [names, names, ← List.forall₂_eq_eq_eq, List.forall₂_map_left_iff,
      List.forall₂_map_right_iff] at hnames
    exact hnames
  obtain ⟨hlen, hpairs⟩ := List.forall₂_iff_zip.1 hpairs
  refine List.forall₂_iff_zip.2 ⟨hlen, ?_⟩
  intro m n hmn
  obtain ⟨hm, hn⟩ := List.of_mem_zip hmn
  have hrel := hrel m hm
  rwa [hpairs hmn, hvalue n hn] at hrel

end Json

namespace Members

variable {read : Reader α} {write : α → Json}

theorem required_of_recovers (members : Members) (name : String) (h : Reader.Recovers read write)
    {a : α} (hrel : Option.Rel SameValue (some (write a)) (members name)) :
    members.required name read = .complete a := by
  obtain ⟨v, hv, hsame⟩ := Json.exists_of_rel_some hrel
  exact required_eq_complete_iff.2 ⟨v, hv, h a v hsame⟩

theorem optional_of_recovers (members : Members) (name : String) (h : Reader.Recovers read write)
    (hnull : ∀ a, write a ≠ .null) {o : Option α}
    (hrel : Option.Rel SameValue (o.map write) (members name)) :
    members.optional name read = .complete o := by
  rw [optional_eq_complete_iff]
  cases o with
  | none =>
    rw [given_eq_none_iff.2 (.inl (Json.eq_none_of_rel_none hrel))]
    exact .none
  | some a =>
    obtain ⟨v, hv, hsame⟩ := Json.exists_of_rel_some hrel
    rw [given_eq_some_iff.2 ⟨hv, hsame.ne_null (hnull a)⟩]
    exact .some (h a v hsame)

end Members

end WindowFlow
