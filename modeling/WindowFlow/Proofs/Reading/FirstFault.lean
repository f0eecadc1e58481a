import Mathlib.Data.List.Nodup
import Mathlib.Data.String.Basic
import WindowFlow.Proofs.Reading.Success
/-!
Which fault is reported. A list reports the fault of its leftmost element that has one. Of the
members of an object that cannot be read the one with the least name is reported, and only where all
that is present can be read, the first required member that is absent. What a place reports is a
relation between values and faults that is told from the relations of the places within it, so one
law for each kind of place gives the fault of a whole document.
-/
namespace WindowFlow

/-- A member as a record lists it, and the faults of values under its name. -/
structure Field where
  name : String
  mandatory : Bool
  faulty : Json → Fault → Prop

namespace Field

def required (name : String) (faulty : Json → Fault → Prop) : Field := ⟨name, true, faulty⟩

/-- Null stands for an absent member where the member may be left out. -/
def optional (name : String) (faulty : Json → Fault → Prop) : Field :=
  ⟨name, false, fun v fault => v ≠ .null ∧ faulty v fault⟩

/-- The member has to be there and is not. -/
def isMissing (members : Members) (field : Field) : Bool :=
  field.mandatory && (members field.name).isNone

/-- There is a value for the member, and it has a fault. -/
def IsFaulty (members : Members) (field : Field) (fault : Fault) : Prop :=
  ∃ v, members field.name = some v ∧ field.faulty v fault

end Field

namespace Json

/-- The fault of a list is that of the leftmost element that has one. -/
inductive FaultyList (faulty : Json → Fault → Prop) : Json → Fault → Prop where
  | item {before after : List Json} {v : Json} {fault : Fault}
    (hbefore : ∀ w ∈ before, ∀ other, ¬ faulty w other) (hfault : faulty v fault) :
    FaultyList faulty (.arr (before ++ v :: after)) fault
  | kind {v : Json} (hkind : ∀ items, v ≠ .arr items) : FaultyList faulty v (.wrongType v .sequence)

/-- The fault of a record is that of the least name under which there is one. Without any, it is the
first required member that is missing, in the order in which the record lists them. -/
inductive FaultyRecord (fields : List Field) : Json → Fault → Prop where
  | unreadable {members : List (String × Json)} {field : Field} {fault : Fault}
    (hfield : field ∈ fields) (hfault : field.IsFaulty (fun name => members.lookup name) fault)
    (hleast : ∀ other ∈ fields, ∀ fault, other.IsFaulty (fun name => members.lookup name) fault →
      field.name ≤ other.name) :
    FaultyRecord fields (.obj members) fault
  | missing {members : List (String × Json)} {before after : List Field} {field : Field}
    (hreadable : ∀ other ∈ fields, ∀ fault, ¬ other.IsFaulty (fun name => members.lookup name) fault)
    (hfields : fields = before ++ field :: after)
    (hmissing : field.isMissing fun name => members.lookup name)
    (hbefore : ∀ other ∈ before, ¬ other.isMissing fun name => members.lookup name) :
    FaultyRecord fields (.obj members) (.missingMember field.name)
  | kind {v : Json} (hkind : ∀ members, v ≠ .obj members) :
    FaultyRecord fields v (.wrongType v .map)

end Json

open Json (FaultyList FaultyRecord)

variable {α β : Type}

namespace Reader

variable {read : Reader α} {faulty : Json → Fault → Prop}

/-- The reader reports just the faults of this relation, and reads what has none. -/
def Reports (read : Reader α) (faulty : Json → Fault → Prop) : Prop :=
  ∀ v fault, read v = .error fault ↔ faulty v fault

/-- What a reader says of a value is all that there is to say of it. -/
def Fails (read : Reader α) (v : Json) (fault : Fault) : Prop := read v = .error fault

theorem reports_fails (read : Reader α) : read.Reports read.Fails := fun _ _ => Iff.rfl

theorem Reports.unique (h : read.Reports faulty) {v : Json} {fault other : Fault}
    (hfault : faulty v fault) (hother : faulty v other) : fault = other :=
  Except.error.inj (((h v fault).2 hfault).symm.trans ((h v other).2 hother))

theorem Reports.exists_ok_iff (h : read.Reports faulty) {v : Json} :
    (∃ a, read v = .ok a) ↔ ∀ fault, ¬ faulty v fault := by
  simp only [← h v]
  cases read v <;> simp

theorem reports_nullable (h : read.Reports faulty) :
    (nullable read).Reports fun v fault => v ≠ .null ∧ faulty v fault := by
  intro v fault
  by_cases hnull : v = .null
  · subst hnull
    simp [nullable]
  · simp only [nullable_of_ne_null hnull, ← h v]
    cases read v <;> simp [Functor.map, Except.map, hnull]

theorem mapM_append_eq_error {before after : List Json} {v : Json} {fault : Fault}
    (hbefore : ∀ w ∈ before, ∃ a, read w = .ok a) (hv : read v = .error fault) :
    (before ++ v :: after).mapM read = .error fault := by
  induction before with
  | nil =>
    rw [List.nil_append, List.mapM_cons, hv]
    rfl
  | cons w rest ih =>
    obtain ⟨⟨a, ha⟩, hrest⟩ := List.forall_mem_cons.1 hbefore
    rw [List.cons_append, List.mapM_cons, ha, ih hrest]
    rfl

/-- Reading stops at the leftmost element that cannot be read. -/
theorem exists_of_mapM_eq_error {items : List Json} {fault : Fault}
    (h : items.mapM read = .error fault) : ∃ before v after, items = before ++ v :: after ∧
      (∀ w ∈ before, ∃ a, read w = .ok a) ∧ read v = .error fault := by
  induction items with
  | nil => cases h
  | cons v rest ih =>
    rw [List.mapM_cons] at h
    cases hv : read v with
    | error found =>
      rw [hv] at h
      cases h
      exact ⟨[], v, rest, rfl, by simp, hv⟩
    | ok a =>
      have hrest : rest.mapM read = .error fault := by
        rw [hv] at h
        cases hmap : rest.mapM read <;> rw [hmap] at h <;> cases h
        rfl
      obtain ⟨before, w, after, rfl, hbefore, hw⟩ := ih hrest
      exact ⟨v :: before, w, after, rfl, List.forall_mem_cons.2 ⟨⟨a, hv⟩, hbefore⟩, hw⟩

theorem reports_list (h : read.Reports faulty) : (list read).Reports (FaultyList faulty) := by
  intro v fault
  constructor
  · intro hread
    cases v with
    | arr items =>
      obtain ⟨before, v, after, rfl, hbefore, hv⟩ := exists_of_mapM_eq_error hread
      exact .item (fun w hw => h.exists_ok_iff.1 (hbefore w hw)) ((h v fault).1 hv)
    | _ =>
      cases hread
      exact .kind (by simp)
  · intro hfaulty
    cases hfaulty with
    | item hbefore hfault =>
      exact mapM_append_eq_error (fun w hw => h.exists_ok_iff.2 (hbefore w hw)) ((h _ _).2 hfault)
    | kind hkind =>
      cases v with
      | arr items => exact absurd rfl (hkind items)
      | _ => rfl

end Reader

namespace Draft

/-- The absent member that counts, once nothing is unreadable. -/
def absent? : Draft α → Option String
  | .incomplete absent => some absent
  | _ => none

/-- The draft of a record over its members: every fault of a member is gathered, and the absent
member is the first of those that have to be there. -/
structure Gathers (d : Draft α) (fields : List Field) (members : Members) : Prop where
  mem_faults : ∀ name fault, (name, fault) ∈ d.faults ↔
    ∃ field ∈ fields, field.name = name ∧ field.IsFaulty members fault
  absent?_eq : d.faults = [] → d.absent? = (fields.find? (Field.isMissing members)).map Field.name
  unique : ∀ field ∈ fields, ∀ v fault other, field.faulty v fault → field.faulty v other →
    fault = other

variable {fields others : List Field} {members : Members}

theorem Gathers.map {d : Draft α} (h : d.Gathers fields members) (f : α → β) :
    (f <$> d).Gathers fields members := by
  have hfaults : (f <$> d).faults = d.faults := by cases d <;> rfl
  have habsent : (f <$> d).absent? = d.absent? := by cases d <;> rfl
  exact ⟨fun name fault => hfaults ▸ h.mem_faults name fault,
    fun hnone => habsent ▸ h.absent?_eq (hfaults ▸ hnone), h.unique⟩

/-- Of two drafts that are joined, the one on the left lists its members first. -/
theorem Gathers.seq {f : Draft (α → β)} {d : Draft α} (hf : f.Gathers fields members)
    (hd : d.Gathers others members) : (f <*> d).Gathers (fields ++ others) members := by
  have hfaults : (f <*> d).faults = f.faults ++ d.faults := by cases f <;> cases d <;> rfl
  refine ⟨?_, ?_, ?_⟩
  · intro name fault
    rw [hfaults, List.mem_append, hf.mem_faults, hd.mem_faults]
    simp only [List.mem_append, or_and_right, exists_or]
  · intro hnone
    rw [hfaults, List.append_eq_nil_iff] at hnone
    obtain ⟨hleft, hright⟩ := hnone
    have habsent : (f <*> d).absent? = f.absent?.or d.absent? := by
      cases f <;> cases d <;> simp_all [Seq.seq, Draft.seq, Draft.map, absent?, faults]
    rw [habsent, hf.absent?_eq hleft, hd.absent?_eq hright, List.find?_append, Option.map_or]
  · intro field hfield
    rcases List.mem_append.1 hfield with hfield | hfield
    · exact hf.unique field hfield
    · exact hd.unique field hfield

end Draft

namespace Members

variable {members : Members} {name : String} {read : Reader α} {faulty : Json → Fault → Prop}

theorem gathers_ofRead (field : Field) {reading : Reader β} (h : reading.Reports field.faulty)
    {v : Json} (hv : members field.name = some v) :
    (Draft.ofRead field.name (reading v)).Gathers [field] members where
  mem_faults name fault := by
    have hfault : (name, fault) ∈ (Draft.ofRead field.name (reading v)).faults ↔
        field.name = name ∧ reading v = .error fault := by
      cases reading v <;> simp [Draft.ofRead, Draft.faults, eq_comm]
    simp [hfault, Field.IsFaulty, hv, h v fault]
  absent?_eq hnone := by
    have habsent : (Draft.ofRead field.name (reading v)).absent? = none := by
      cases reading v <;> rfl
    simp [habsent, Field.isMissing, hv]
  unique other hother v fault fault' := by
    obtain rfl := List.mem_singleton.1 hother
    exact h.unique

theorem gathers_of_eq_none (field : Field) {reading : Reader β} (h : reading.Reports field.faulty)
    (hnone : members field.name = none) {d : Draft α} (hfaults : d.faults = [])
    (habsent : d.absent? = if field.mandatory then some field.name else none) :
    d.Gathers [field] members where
  mem_faults name fault := by simp [hfaults, Field.IsFaulty, hnone]
  absent?_eq _ := by
    rw [habsent]
    cases hmandatory : field.mandatory <;> simp [Field.isMissing, hmandatory, hnone]
  unique other hother v fault fault' := by
    obtain rfl := List.mem_singleton.1 hother
    exact h.unique

theorem gathers_required (h : read.Reports faulty) :
    (members.required name read).Gathers [.required name faulty] members := by
  rw [required]
  split
  · rename_i hnone
    exact gathers_of_eq_none (.required name faulty) h hnone rfl rfl
  · rename_i v hv
    exact gathers_ofRead (.required name faulty) h hv

theorem gathers_optional (h : read.Reports faulty) :
    (members.optional name read).Gathers [.optional name faulty] members := by
  rw [optional]
  split
  · rename_i hnone
    exact gathers_of_eq_none (.optional name faulty) (Reader.reports_nullable h) hnone rfl rfl
  · rename_i v hv
    exact gathers_ofRead (.optional name faulty) (Reader.reports_nullable h) hv

end Members

theorem leastNamed_mem (first : String × Fault) (others : List (String × Fault)) :
    leastNamed first others ∈ first :: others := by
  induction others generalizing first with
  | nil => exact List.mem_singleton_self first
  | cons other rest ih =>
    rw [leastNamed]
    split
    · exact List.mem_cons_of_mem first (ih other)
    · rcases List.mem_cons.1 (ih first) with h | h
      · rw [h]
        exact List.mem_cons_self
      · exact List.mem_cons_of_mem first (List.mem_cons_of_mem other h)

theorem leastNamed_le (first : String × Fault) (others : List (String × Fault)) :
    ∀ other ∈ first :: others, (leastNamed first others).1 ≤ other.1 := by
  induction others generalizing first with
  | nil =>
    intro other hother
    rw [List.mem_singleton.1 hother]
    exact String.le_refl _
  | cons other rest ih =>
    rw [leastNamed]
    split
    · rename_i hlt
      obtain ⟨hother, hrest⟩ := List.forall_mem_cons.1 (ih other)
      exact List.forall_mem_cons.2 ⟨String.le_trans hother (le_of_lt hlt),
        List.forall_mem_cons.2 ⟨hother, hrest⟩⟩
    · rename_i hle
      obtain ⟨hfirst, hrest⟩ := List.forall_mem_cons.1 (ih first)
      exact List.forall_mem_cons.2 ⟨hfirst,
        List.forall_mem_cons.2 ⟨String.le_trans hfirst (String.not_lt.1 hle), hrest⟩⟩

namespace RecordForm

variable {form : RecordForm α} {fields : List Field} {members : List (String × Json)} {fault : Fault}

theorem faultyRecord_of_ofMembers_eq_error
    (h : (form.draft (fun name => members.lookup name)).Gathers fields fun name =>
      members.lookup name)
    (hread : form.ofMembers members = .error fault) : FaultyRecord fields (.obj members) fault := by
  rw [ofMembers] at hread
  generalize form.draft (fun name => members.lookup name) = d at h hread
  cases d with
  | complete a => cases hread
  | incomplete absent =>
    cases hread
    have hreadable : ∀ other ∈ fields, ∀ fault,
        ¬ other.IsFaulty (fun name => members.lookup name) fault := by
      intro other hother fault hfault
      exact List.not_mem_nil ((h.mem_faults _ _).2 ⟨other, hother, rfl, hfault⟩)
    obtain ⟨field, hfind, rfl⟩ := Option.map_eq_some_iff.1 (h.absent?_eq rfl).symm
    obtain ⟨hmissing, before, after, hfields, hbefore⟩ := List.find?_eq_some_iff_append.1 hfind
    exact .missing hreadable hfields hmissing fun other hother => by simpa using hbefore other hother
  | unreadable first others =>
    cases hread
    obtain ⟨field, hfield, hname, hfault⟩ := (h.mem_faults _ _).1 (leastNamed_mem first others)
    refine .unreadable hfield hfault ?_
    intro other hother fault hofault
    rw [hname]
    exact leastNamed_le first others _ ((h.mem_faults _ _).2 ⟨other, hother, rfl, hofault⟩)

theorem ofMembers_eq_error_of_faultyRecord (hnames : (fields.map Field.name).Nodup)
    (h : (form.draft (fun name => members.lookup name)).Gathers fields fun name =>
      members.lookup name)
    (hfaulty : FaultyRecord fields (.obj members) fault) : form.ofMembers members = .error fault := by
  rw [ofMembers]
  generalize form.draft (fun name => members.lookup name) = d at h
  cases hfaulty with
  | @unreadable _ field _ hfield hfault hleast =>
    have hmem := (h.mem_faults _ _).2 ⟨field, hfield, rfl, hfault⟩
    cases d with
    | complete a => exact absurd hmem List.not_mem_nil
    | incomplete absent => exact absurd hmem List.not_mem_nil
    | unreadable first others =>
      obtain ⟨other, hother, hname, hofault⟩ := (h.mem_faults _ _).1 (leastNamed_mem first others)
      have hle : other.name ≤ field.name := hname ▸ leastNamed_le first others _ hmem
      have hge : field.name ≤ other.name := hleast other hother _ hofault
      obtain rfl : field = other :=
        List.inj_on_of_nodup_map hnames hfield hother (String.le_antisymm hge hle)
      obtain ⟨v, hv, hfault⟩ := hfault
      obtain ⟨w, hw, hofault⟩ := hofault
      cases hv.symm.trans hw
      exact congrArg Except.error (h.unique field hfield v _ _ hofault hfault)
  | @missing _ before after field hreadable hfields hmissing hbefore =>
    have hnone : d.faults = [] := by
      rw [List.eq_nil_iff_forall_not_mem]
      rintro ⟨name, fault⟩ hmem
      obtain ⟨other, hother, -, hofault⟩ := (h.mem_faults name fault).1 hmem
      exact hreadable other hother fault hofault
    have hfind : fields.find? (Field.isMissing fun name => members.lookup name) = some field :=
      List.find?_eq_some_iff_append.2 ⟨hmissing, before, after, hfields,
        fun other hother => by simpa using hbefore other hother⟩
    have habsent := h.absent?_eq hnone
    rw [hfind] at habsent
    cases d with
    | incomplete absent =>
      cases habsent
      rfl
    | complete a => cases habsent
    | unreadable first others => cases hnone
  | kind hkind => exact absurd rfl (hkind members)

theorem reports_readObject (hnames : (fields.map Field.name).Nodup)
    (h : ∀ members : Members, (form.draft members).Gathers fields members) :
    form.readObject.Reports (FaultyRecord fields) := by
  intro v fault
  constructor
  · intro hread
    cases v with
    | obj members => exact faultyRecord_of_ofMembers_eq_error (h _) hread
    | _ =>
      cases hread
      exact .kind (by simp)
  · intro hfaulty
    cases v with
    | obj members => exact ofMembers_eq_error_of_faultyRecord hnames (h _) hfaulty
    | _ =>
      cases hfaulty
      rfl

end RecordForm

end WindowFlow
