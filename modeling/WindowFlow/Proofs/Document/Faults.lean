import WindowFlow.Facet.Reader
import WindowFlow.Proofs.Reading.FirstFault
import WindowFlow.Window.Node
/-!
The fault that is reported for a document. Every kind of place has its faults, told from those of
the places within it, and what is found at the innermost place is reported as it is. The document
adds its own kind to the text, once.
-/
namespace WindowFlow

open Json (FaultyList FaultyRecord)
open Reader (reports_fails reports_list)
open Members (gathers_required gathers_optional)

def SortKey.Faulty : Json → Fault → Prop :=
  FaultyRecord [.required "field" Reader.string.Fails, .required "order" Direction.read.Fails]

def Column.Faulty : Json → Fault → Prop :=
  FaultyRecord [
    .required "op" Reader.string.Fails,
    .optional "field" Reader.string.Fails,
    .optional "as" Reader.string.Fails,
    .optional "param" Reader.number.Fails]

/-- A frame is looked at as far as its second bound. How many bounds there are counts only where
these can be read. -/
inductive Frame.Faulty : Json → Fault → Prop where
  | bound {items : List Json} {fault : Fault}
    (hfault : FaultyList (Reader.nullable .bound).Fails (.arr (items.take 2)) fault) :
    Faulty (.arr items) fault
  | short {items : List Json}
    (hread : ∀ fault, ¬ FaultyList (Reader.nullable .bound).Fails (.arr (items.take 2)) fault)
    (hlength : items.length < 2) : Faulty (.arr items) (.tooShort items.length .frame 2)
  | long {items : List Json}
    (hread : ∀ fault, ¬ FaultyList (Reader.nullable .bound).Fails (.arr (items.take 2)) fault)
    (hlength : 2 < items.length) : Faulty (.arr items) (.tooLong items.length)
  | kind {v : Json} (hkind : ∀ items, v ≠ .arr items) : Faulty v (.wrongType v .frame)

def Transform.Faulty : Json → Fault → Prop :=
  FaultyRecord [
    .required "window" (FaultyList Column.Faulty),
    .optional "ignorePeers" Reader.boolean.Fails,
    .optional "sort" (FaultyList SortKey.Faulty),
    .optional "groupby" (FaultyList Reader.string.Fails),
    .required "frame" Frame.Faulty]

theorem SortKey.reports : form.readObject.Reports Faulty :=
  RecordForm.reports_readObject (by decide) fun _ =>
    ((gathers_required (reports_fails _)).map _).seq (gathers_required (reports_fails _))

theorem Column.reports : form.readObject.Reports Faulty :=
  RecordForm.reports_readObject (by decide) fun _ =>
    ((((gathers_required (reports_fails _)).map _).seq (gathers_optional (reports_fails _))).seq
      (gathers_optional (reports_fails _))).seq (gathers_optional (reports_fails _))

namespace Frame

variable {items : List Json}

theorem read_arr_of_error {fault : Fault}
    (h : (items.take 2).mapM (Reader.nullable .bound) = .error fault) :
    Frame.read (.arr items) = .error fault := by
  match items with
  | [] => cases h
  | [a] =>
    cases ha : Reader.nullable .bound a <;>
      simp_all [Frame.read, bind, Except.bind, pure, Except.pure]
  | a :: b :: rest =>
    cases ha : Reader.nullable .bound a <;> cases hb : Reader.nullable .bound b <;>
      simp_all [Frame.read, bind, Except.bind, pure, Except.pure]

/-- Where the bounds can be read, what is left to look at is how many there are. -/
theorem read_arr_of_ok {bounds : List (Option Int64)}
    (h : (items.take 2).mapM (Reader.nullable .bound) = .ok bounds) :
    (items.length < 2 → Frame.read (.arr items) = .error (.tooShort items.length .frame 2)) ∧
      (items.length = 2 → ∃ f, Frame.read (.arr items) = .ok f) ∧
      (2 < items.length → Frame.read (.arr items) = .error (.tooLong items.length)) := by
  match items with
  | [] => exact ⟨fun _ => rfl, by simp, by simp⟩
  | [a] =>
    cases ha : Reader.nullable .bound a <;>
      simp_all [Frame.read, bind, Except.bind, pure, Except.pure]
  | a :: b :: rest =>
    cases ha : Reader.nullable .bound a <;> cases hb : Reader.nullable .bound b <;>
      simp_all [Frame.read, bind, Except.bind, pure, Except.pure]
    cases rest <;> simp

theorem reports : Frame.read.Reports Faulty := by
  intro v fault
  cases v with
  | arr items =>
    have hbounds := reports_list (reports_fails (Reader.nullable .bound)) (.arr (items.take 2))
    cases hread : (items.take 2).mapM (Reader.nullable .bound) with
    | error found =>
      have hfound := (hbounds found).1 hread
      rw [read_arr_of_error hread]
      constructor
      · intro h
        cases h
        exact .bound hfound
      · intro h
        cases h with
        | bound hfault =>
          exact congrArg Except.error (Except.error.inj (hread.symm.trans ((hbounds fault).2 hfault)))
        | short hnone => exact absurd hfound (hnone found)
        | long hnone => exact absurd hfound (hnone found)
        | kind hkind => exact absurd rfl (hkind items)
    | ok bounds =>
      have hnone : ∀ fault,
          ¬ FaultyList (Reader.nullable .bound).Fails (.arr (items.take 2)) fault := by
        intro fault hfault
        cases hread.symm.trans ((hbounds fault).2 hfault)
      obtain ⟨hshort, htwo, hlong⟩ := read_arr_of_ok hread
      constructor
      · intro h
        rcases Nat.lt_trichotomy items.length 2 with hlength | hlength | hlength
        · cases (hshort hlength).symm.trans h
          exact .short hnone hlength
        · obtain ⟨f, hf⟩ := htwo hlength
          cases hf.symm.trans h
        · cases (hlong hlength).symm.trans h
          exact .long hnone hlength
      · intro h
        cases h with
        | bound hfault => exact absurd hfault (hnone fault)
        | short _ hlength => exact hshort hlength
        | long _ hlength => exact hlong hlength
        | kind hkind => exact absurd rfl (hkind items)
  | _ =>
    constructor
    · intro h
      cases h
      exact .kind (by simp)
    · intro h
      cases h
      rfl

end Frame

theorem Transform.reports : form.readObject.Reports Faulty :=
  RecordForm.reports_readObject (by decide) fun _ =>
    (((((gathers_required (reports_list Column.reports)).map _).seq
      (gathers_optional (reports_fails _))).seq
      (gathers_optional (reports_list SortKey.reports))).seq
      (gathers_optional (reports_list (reports_fails _)))).seq (gathers_required Frame.reports)

def Ranking.Faulty : Json → Fault → Prop :=
  FaultyRecord [
    .optional "op" Reader.string.Fails,
    .optional "field" Reader.string.Fails,
    .optional "order" Direction.read.Fails]

/-- The kind of a sort says what its faults are. A list has none, whatever it holds. -/
inductive CellOrder.Faulty : Json → Fault → Prop where
  | name {s : String} {fault : Fault} (hfault : Direction.read.Fails (.str s) fault) :
    Faulty (.str s) fault
  | ranking {sort : List (String × Json)} {fault : Fault} (hfault : Ranking.Faulty (.obj sort) fault) :
    Faulty (.obj sort) fault
  | null : Faulty .null (.unreadableSort .null)
  | bool (b : Bool) : Faulty (.bool b) (.unreadableSort (.bool b))
  | num (n : Num) : Faulty (.num n) (.unreadableSort (.num n))

def Channel.Faulty : Json → Fault → Prop :=
  FaultyRecord [
    .required "field" Reader.string.Fails,
    .required "type" Measure.read.Fails,
    .optional "sort" CellOrder.Faulty]

def Facet.Faulty : Json → Fault → Prop :=
  FaultyRecord [
    .optional "row" Channel.Faulty,
    .optional "column" Channel.Faulty,
    .optional "facet" Channel.Faulty]

theorem Ranking.reports : form.readObject.Reports Faulty :=
  RecordForm.reports_readObject (by decide) fun _ =>
    (((gathers_optional (reports_fails _)).map _).seq (gathers_optional (reports_fails _))).seq
      (gathers_optional (reports_fails _))

theorem CellOrder.reports : read.Reports Faulty := by
  intro v fault
  constructor
  · intro h
    cases v with
    | str s => exact .name (Reader.map_eq_error_iff.1 h)
    | arr values => cases h
    | obj sort => exact .ranking ((Ranking.reports _ fault).1 (Reader.map_eq_error_iff.1 h))
    | null =>
      cases h
      exact .null
    | bool b =>
      cases h
      exact .bool b
    | num n =>
      cases h
      exact .num n
  · intro h
    cases h with
    | name hfault => exact Reader.map_eq_error_iff.2 hfault
    | ranking hfault => exact Reader.map_eq_error_iff.2 ((Ranking.reports _ fault).2 hfault)
    | _ => rfl

theorem Channel.reports : form.readObject.Reports Faulty :=
  RecordForm.reports_readObject (by decide) fun _ =>
    (((gathers_required (reports_fails _)).map _).seq (gathers_required (reports_fails _))).seq
      (gathers_optional CellOrder.reports)

theorem Facet.reports : form.readObject.Reports Faulty :=
  RecordForm.reports_readObject (by decide) fun _ =>
    (((gathers_optional Channel.reports).map _).seq (gathers_optional Channel.reports)).seq
      (gathers_optional Channel.reports)

/-- A document is refused for the first fault that is met in it, by visiting objects in name order
and lists from the left, and is read where there is none. The records, lists and sorts within a
document are refused for the same faults where they are read alone, and the text of a fault becomes
part of the document's own as it is. -/
theorem first_fault_is_reported :
    (∀ v e, Node.ofJson v = .error e ↔ ∃ fault, Transform.Faulty v fault ∧ e = .transform fault ∧
        e.message = "invalid window transform: " ++ fault.message) ∧
      (∀ v, (∃ n, Node.ofJson v = .ok n) ↔ ∀ fault, ¬ Transform.Faulty v fault) ∧
      (∀ v e, Facet.ofJson v = .error e ↔ ∃ fault, Facet.Faulty v fault ∧ e = .facet fault ∧
        e.message = "invalid facet mapping: " ++ fault.message) ∧
      (∀ v, (∃ f, Facet.ofJson v = .ok f) ↔ ∀ fault, ¬ Facet.Faulty v fault) ∧
      Transform.form.readObject.Reports Transform.Faulty ∧
      (Reader.list Column.form.readObject).Reports (FaultyList Column.Faulty) ∧
      Column.form.readObject.Reports Column.Faulty ∧
      (Reader.list SortKey.form.readObject).Reports (FaultyList SortKey.Faulty) ∧
      SortKey.form.readObject.Reports SortKey.Faulty ∧
      Frame.read.Reports Frame.Faulty ∧
      Facet.form.readObject.Reports Facet.Faulty ∧
      Channel.form.readObject.Reports Channel.Faulty ∧
      CellOrder.read.Reports CellOrder.Faulty ∧
      Ranking.form.readObject.Reports Ranking.Faulty := by
  refine ⟨?_, ?_, ?_, ?_, Transform.reports, reports_list Column.reports, Column.reports,
    reports_list SortKey.reports, SortKey.reports, Frame.reports, Facet.reports, Channel.reports,
    CellOrder.reports, Ranking.reports⟩
  · intro v e
    refine Node.ofJson_eq_error_iff.trans (exists_congr fun fault => ?_)
    refine and_congr (Transform.reports v fault) ⟨?_, And.left⟩
    rintro rfl
    exact ⟨rfl, rfl⟩
  · intro v
    rw [← Transform.reports.exists_ok_iff]
    simp [Node.ofJson_eq_ok_iff]
  · intro v e
    refine Facet.ofJson_eq_error_iff.trans (exists_congr fun fault => ?_)
    refine and_congr (Facet.reports v fault) ⟨?_, And.left⟩
    rintro rfl
    exact ⟨rfl, rfl⟩
  · intro v
    rw [← Facet.reports.exists_ok_iff]
    simp only [Facet.ofJson_eq_ok_iff]

/-- Three faults of members are met in name order, and the list among them from the left. That a
member is missing does not count. -/
example : Node.ofJson (.obj [
    ("window", .arr [.null]),
    ("sort", .bool true),
    ("groupby", .arr [.str "region", .num (.ofInt64 5), .null])]) =
      .error (.transform (.wrongType (.num (.ofInt64 5)) .string)) := by
  rfl

end WindowFlow
