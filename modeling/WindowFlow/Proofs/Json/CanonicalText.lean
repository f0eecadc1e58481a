import WindowFlow.Proofs.Json.NumberText
import WindowFlow.Proofs.Json.QuotedText
import WindowFlow.Proofs.Json.SameValue
/-!
Canonical texts read back. A value is taken off the front of a text that starts with its canonical
text, with its members in name order; so values with one text are the same up to that order.
-/
namespace WindowFlow.Json

/-- What may stand behind a value: nothing, or a mark that ends or continues a list. -/
def Ends (text : List Char) : Prop := ∀ c ∈ text.head?, c = ',' ∨ c = ']' ∨ c = '\x7d'

theorem ends_nil : Ends [] := fun _ h => absurd h (Option.not_mem_none _)

theorem Ends.endsNumber {text : List Char} (h : Ends text) : EndsNumber text := by
  intro c hc
  obtain rfl | rfl | rfl := h c hc <;> decide

theorem skipBlanks_cons {c : Char} (h : isBlank c = false) (text : List Char) :
    skipBlanks (c :: text) = c :: text := by
  rw [skipBlanks, List.dropWhile_cons, if_neg (by simp [h])]

theorem not_isBlank_of_isDigit {c : Char} (h : c.isDigit) : isBlank c = false := by
  by_contra hblank
  simp only [isBlank, Bool.not_eq_false, Bool.or_eq_true, decide_eq_true_eq] at hblank
  obtain ((rfl | rfl) | rfl) | rfl := hblank <;> exact absurd h (by decide)

/-- The text of a value starts neither with a blank nor with the end of a list. -/
theorem chars_leads (v : Json) : ∃ c rest, v.chars = c :: rest ∧ isBlank c = false ∧ c ≠ ']' := by
  cases v with
  | null => exact ⟨_, _, rfl, by decide, by decide⟩
  | bool b => cases b <;> exact ⟨_, _, rfl, by decide, by decide⟩
  | num n =>
    obtain ⟨c, rest, hchars, hc⟩ := numChars_leads n
    refine ⟨c, rest, by rw [chars, hchars], ?_⟩
    obtain rfl | hc := hc
    · decide
    · exact ⟨not_isBlank_of_isDigit hc, by rintro rfl; exact absurd hc (by decide)⟩
  | str s => exact ⟨_, _, rfl, by decide, by decide⟩
  | arr items => exact ⟨_, _, rfl, by decide, by decide⟩
  | obj ms => exact ⟨_, _, rfl, by decide, by decide⟩

theorem takeValue_num (fuel : ℕ) (n : Num) {text : List Char} (h : Ends text) :
    takeValue (fuel + 1) (n.chars ++ text) = some (.num n, text) := by
  obtain ⟨c, rest, hchars, hc⟩ := numChars_leads n
  have hmark : ∀ d : Char, d ≠ '-' → d.isDigit = false → c ≠ d := by
    rintro d hdash hdigit rfl
    obtain hc | hc := hc
    · exact hdash hc
    · exact absurd hc (by simp [hdigit])
  have hblank : isBlank c = false := by
    obtain rfl | hc := hc
    · decide
    · exact not_isBlank_of_isDigit hc
  have hskip : skipBlanks (n.chars ++ text) = c :: (rest ++ text) := by
    rw [hchars, List.cons_append, skipBlanks_cons hblank]
  have htake := takeNumber_chars n h.endsNumber
  rw [hchars, List.cons_append] at htake
  rw [takeValue.eq_def]
  simp only [hskip]
  split
  case h_7 => rw [htake]; rfl
  all_goals
    rename_i heq
    exact absurd (List.cons.inj heq).1 (hmark _ (by decide) (by decide))

theorem separated_cons_cons (x y : List Char) (rest : List (List Char)) :
    separated (x :: y :: rest) = x ++ ',' :: separated (y :: rest) := by
  rw [separated, List.intercalate_cons_cons, List.append_assoc]
  rfl

/-- A value that reads back from its text, given twice its length as fuel. -/
def ReadsBack (v : Json) : Prop :=
  ∀ fuel text, 2 * v.chars.length ≤ fuel → Ends text →
    takeValue fuel (v.chars ++ text) = some (v.sorted, text)

theorem ends_cons {c : Char} (h : c = ',' ∨ c = ']' ∨ c = '\x7d') (text : List Char) :
    Ends (c :: text) := fun _ hc => Option.some.inj hc ▸ h

/-- The mark behind an item tells the last one from the others. -/
theorem takeItems_separated {items : List Json} (hne : items ≠ []) (h : ∀ v ∈ items, v.ReadsBack)
    {fuel : ℕ} (hfuel : 2 * (separated (items.map chars)).length < fuel) (text : List Char) :
    takeItems fuel (separated (items.map chars) ++ ']' :: text) =
      some (items.map sorted, text) := by
  induction items generalizing fuel with
  | nil => exact absurd rfl hne
  | cons v rest ih =>
    obtain ⟨hv, hrest⟩ := List.forall_mem_cons.1 h
    obtain ⟨fuel, rfl⟩ : ∃ n, fuel = n + 1 := ⟨fuel - 1, by omega⟩
    rw [takeItems]
    cases rest with
    | nil =>
      have hlast : separated ([v].map chars) = v.chars := List.intercalate_singleton
      rw [hlast] at hfuel ⊢
      rw [hv fuel _ (by omega) (ends_cons (by decide) text)]
      simp only [bind, Option.bind_some, skipBlanks_cons (show isBlank ']' = false by decide)]
      rfl
    | cons w more =>
      rw [List.map_cons, List.map_cons, separated_cons_cons, ← List.map_cons] at hfuel ⊢
      rw [List.length_append, List.length_cons] at hfuel
      have hshort : 2 * (separated ((w :: more).map chars)).length < fuel := by omega
      have htake := ih (List.cons_ne_nil w more) hrest hshort
      rw [List.append_assoc, List.cons_append, hv fuel _ (by omega) (ends_cons (by decide) _)]
      simp only [bind, Option.bind_some, skipBlanks_cons (show isBlank ',' = false by decide), htake]
      rfl

/-- The text of a member inside the text of its object. -/
def memberText (m : String × Json) : List Char := memberChars (m.1, m.2.chars)

theorem length_lt_memberText (m : String × Json) : m.2.chars.length < (memberText m).length := by
  simp only [memberText, memberChars, List.length_append, List.length_cons]
  omega

/-- The first member of a text is read and set, and the mark behind it tells whether more come. -/
theorem takeMembers_memberText {m : String × Json} (h : m.2.ReadsBack) {fuel : ℕ}
    (hfuel : 2 * m.2.chars.length ≤ fuel) (before : List (String × Json)) {text : List Char}
    (htext : Ends text) :
    takeMembers (fuel + 1) before (memberText m ++ text) =
      match skipBlanks text with
      | '\x7d' :: rest => some (setMember m.1 m.2.sorted before, rest)
      | ',' :: rest => takeMembers fuel (setMember m.1 m.2.sorted before) rest
      | _ => none := by
  have hchars : memberText m ++ text =
      '"' :: (m.1.toList.flatMap escape ++ '"' :: (':' :: (m.2.chars ++ text))) := by
    simp [memberText, memberChars, quote]
  rw [hchars, takeMembers, skipBlanks_cons (by decide)]
  simp only [bind, unquote_escape, Option.bind_some,
    skipBlanks_cons (show isBlank ':' = false by decide), h fuel text hfuel htext]
  rfl

/-- Where no member before it has its name, a member is set at the end. -/
theorem setMember_eq_concat {m : String × Json} {before rest : List (String × Json)}
    (hnames : (names (before ++ m :: rest)).Nodup) (v : Json) :
    setMember m.1 v before = before ++ [(m.1, v)] := by
  rw [names_append, names_cons, List.nodup_append] at hnames
  exact setMember_of_not_mem fun hmem => hnames.2.2 _ hmem _ List.mem_cons_self rfl

theorem takeMembers_separated {ms : List (String × Json)} (hne : ms ≠ [])
    (h : ∀ m ∈ ms, m.2.ReadsBack) {before : List (String × Json)}
    (hnames : (names (before ++ ms)).Nodup) {fuel : ℕ}
    (hfuel : 2 * (separated (ms.map memberText)).length < fuel) (text : List Char) :
    takeMembers fuel before (separated (ms.map memberText) ++ '\x7d' :: text) =
      some (before ++ ms.map fun m => (m.1, m.2.sorted), text) := by
  induction ms generalizing fuel before with
  | nil => exact absurd rfl hne
  | cons m rest ih =>
    obtain ⟨hm, hrest⟩ := List.forall_mem_cons.1 h
    obtain ⟨fuel, rfl⟩ : ∃ n, fuel = n + 1 := ⟨fuel - 1, by omega⟩
    have hlength := length_lt_memberText m
    have hset := setMember_eq_concat hnames m.2.sorted
    cases rest with
    | nil =>
      have hlast : separated ([m].map memberText) = memberText m := List.intercalate_singleton
      rw [hlast] at hfuel ⊢
      rw [takeMembers_memberText hm (by omega) before (ends_cons (by decide) text),
        skipBlanks_cons (by decide), hset]
      rfl
    | cons n more =>
      rw [List.map_cons, List.map_cons, separated_cons_cons, ← List.map_cons] at hfuel ⊢
      rw [List.length_append, List.length_cons] at hfuel
      have hbefore : (names ((before ++ [(m.1, m.2.sorted)]) ++ n :: more)).Nodup := by
        simpa using hnames
      have hshort : 2 * (separated ((n :: more).map memberText)).length < fuel := by omega
      have htake := ih (List.cons_ne_nil n more) hrest hbefore hshort
      rw [List.append_assoc, List.cons_append,
        takeMembers_memberText hm (by omega) before (ends_cons (by decide) _),
        skipBlanks_cons (by decide), hset]
      refine htake.trans ?_
      rw [List.append_assoc]
      rfl

theorem chars_arr (items : List Json) :
    (arr items).chars = '[' :: separated (items.map chars) ++ [']'] := by
  rw [chars, itemTexts_eq_map]

theorem chars_obj (ms : List (String × Json)) :
    (obj ms).chars = '\x7b' :: separated ((sortByName ms).map memberText) ++ ['\x7d'] := by
  rw [chars, memberTexts_eq_map, sortByName_map, List.map_map]
  rfl

theorem length_chars_pos (v : Json) : 0 < v.chars.length := by
  obtain ⟨c, rest, h, -⟩ := chars_leads v
  rw [h, List.length_cons]
  exact Nat.succ_pos _

theorem readsBack_of_succ {v : Json}
    (h : ∀ fuel text, 2 * v.chars.length ≤ fuel + 1 → Ends text →
      takeValue (fuel + 1) (v.chars ++ text) = some (v.sorted, text)) : v.ReadsBack := by
  intro fuel text hfuel htext
  have hpos := length_chars_pos v
  obtain ⟨fuel, rfl⟩ : ∃ n, fuel = n + 1 := ⟨fuel - 1, by omega⟩
  exact h fuel text hfuel htext

theorem readsBack_arr {items : List Json} (h : ∀ v ∈ items, v.ReadsBack) :
    (arr items).ReadsBack := by
  refine readsBack_of_succ fun fuel text hfuel _ => ?_
  rw [chars_arr, List.length_append, List.length_cons] at hfuel
  rw [chars_arr, sorted_arr, List.cons_append, List.cons_append, List.append_assoc,
    List.singleton_append, takeValue, skipBlanks_cons (by decide)]
  rw [List.length_singleton] at hfuel
  cases items with
  | nil => rfl
  | cons v rest =>
    obtain ⟨c, more, hlead, hblank, hclose⟩ := chars_leads v
    obtain ⟨tail, htail⟩ : ∃ tail, separated ((v :: rest).map chars) = c :: tail :=
      ⟨_, by rw [List.map_cons, hlead, separated, List.intercalate_cons_cons_left]⟩
    have hshort : 2 * (separated ((v :: rest).map chars)).length < fuel := by omega
    have htake := takeItems_separated (List.cons_ne_nil v rest) h hshort text
    rw [htail, List.cons_append] at htake
    simp only [htail, List.cons_append, skipBlanks_cons hblank]
    split
    · rename_i heq
      exact absurd (List.cons.inj heq).1 hclose
    · rw [htake]
      rfl

theorem readsBack_obj {ms : List (String × Json)} (hnames : (names ms).Nodup)
    (h : ∀ m ∈ ms, m.2.ReadsBack) : (obj ms).ReadsBack := by
  refine readsBack_of_succ fun fuel text hfuel _ => ?_
  rw [chars_obj, List.length_append, List.length_cons] at hfuel
  rw [chars_obj, sorted_obj, List.cons_append, List.cons_append, List.append_assoc,
    List.singleton_append, takeValue, skipBlanks_cons (by decide)]
  rw [List.length_singleton] at hfuel
  have hsorted : ∀ m ∈ sortByName ms, m.2.ReadsBack := fun m hm =>
    h m ((sortByName_perm ms).mem_iff.1 hm)
  have hnodup : (names ([] ++ sortByName ms)).Nodup := nodup_names_sortByName hnames
  cases hms : sortByName ms with
  | nil => rfl
  | cons m rest =>
    rw [hms] at hsorted hnodup hfuel
    obtain ⟨tail, htail⟩ : ∃ tail, separated ((m :: rest).map memberText) = '"' :: tail := by
      have hlead : ∃ more, memberText m = '"' :: more := ⟨_, rfl⟩
      obtain ⟨more, hlead⟩ := hlead
      exact ⟨_, by rw [List.map_cons, hlead, separated, List.intercalate_cons_cons_left]⟩
    have hshort : 2 * (separated ((m :: rest).map memberText)).length < fuel := by omega
    have htake := takeMembers_separated (List.cons_ne_nil m rest) hsorted hnodup hshort text
    rw [htail, List.cons_append] at htake
    simp only [htail, List.cons_append, skipBlanks_cons (show isBlank '"' = false by decide)]
    exact congrArg (Option.map fun p => (obj p.1, p.2)) htake

theorem readsBack {v : Json} (h : v.DistinctNames) : v.ReadsBack := by
  induction v with
  | null => exact readsBack_of_succ fun _ _ _ _ => rfl
  | bool b => exact readsBack_of_succ fun _ _ _ _ => by cases b <;> rfl
  | num n => exact readsBack_of_succ fun fuel _ _ htext => takeValue_num fuel n htext
  | str s =>
    refine readsBack_of_succ fun fuel text _ _ => ?_
    rw [chars, quote, List.cons_append, List.cons_append, List.append_assoc, List.singleton_append,
      takeValue, skipBlanks_cons (by decide)]
    simp only [unquote_escape]
    rfl
  | arr items ih =>
    exact readsBack_arr fun v hv => ih v hv (distinctNames_arr_iff.1 h v hv)
  | obj ms ih =>
    obtain ⟨hnames, hvalues⟩ := distinctNames_obj_iff.1 h
    exact readsBack_obj hnames fun m hm => ih m hm (hvalues m hm)

/-- A canonical text is read as the value with its members in name order. -/
theorem parse_canonical {v : Json} (h : v.DistinctNames) : parse? v.canonical = some v.sorted := by
  have htake := readsBack h (2 * v.chars.length + 2) [] (by omega) ends_nil
  rw [List.append_nil] at htake
  rw [parse?]
  simp only [canonical, String.toList_ofList, htake]
  rfl

theorem sameValue_of_canonical_eq {v w : Json} (hv : v.DistinctNames) (hw : w.DistinctNames)
    (h : v.canonical = w.canonical) : SameValue v w := by
  have hsorted : some v.sorted = some w.sorted :=
    calc some v.sorted
      _ = parse? v.canonical := (parse_canonical hv).symm
      _ = parse? w.canonical := by rw [h]
      _ = some w.sorted := parse_canonical hw
  exact sameValue_of_sorted_eq (Option.some.inj hsorted)

theorem SameValue.canonical_eq {v w : Json} (h : SameValue v w) (hv : v.DistinctNames) :
    v.canonical = w.canonical := by
  rw [canonical, canonical, ← chars_sorted v, h.sorted_eq hv, chars_sorted]

/-- Of values whose objects have distinct names, those with one canonical text are the same but for
the order of members, and the text does not depend on that order. -/
theorem canonical_eq_iff {v w : Json} (hv : v.DistinctNames) (hw : w.DistinctNames) :
    v.canonical = w.canonical ↔ SameValue v w :=
  ⟨sameValue_of_canonical_eq hv hw, fun h => h.canonical_eq hv⟩

def layered : Json :=
  .obj [("rows", .arr []), ("frame", .obj [("to", .bool true), ("from", .null)])]

def rearranged : Json :=
  .obj [("frame", .obj [("from", .null), ("to", .bool true)]), ("rows", .arr [])]

/-- Members may trade places at every level, but the two zeros of binary64 stay apart. -/
theorem rearranged_sameValue :
    SameValue layered rearranged ∧
      (num (.float .zero)).canonical ≠ (num (.float ⟨true, 0, by decide⟩)).canonical := by
  constructor
  · exact (canonical_eq_iff (by simp [layered]) (by simp [rearranged])).1 rfl
  · intro h
    nomatch (canonical_eq_iff (.num _) (.num _)).1 h

end WindowFlow.Json
