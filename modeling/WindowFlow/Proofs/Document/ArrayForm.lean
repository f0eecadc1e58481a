import WindowFlow.Facet.Reader
import WindowFlow.Proofs.Reading.Places
import WindowFlow.Proofs.Reading.Shape
import WindowFlow.Window.Node
/-!
Which arrays are read in place of records. Every record may be written as the array of its members,
in the order in which they are listed, but a document as a whole and the records inside another one
have to be objects.
-/
namespace WindowFlow

theorem SortKey.usesListed : form.UsesListed := by
  intro left right h
  simp only [form, List.forall_mem_cons] at h ⊢
  simp only [Members.required, h]

theorem Column.usesListed : form.UsesListed := by
  intro left right h
  simp only [form, List.forall_mem_cons] at h ⊢
  simp only [Members.required, Members.optional, h]

theorem Transform.usesListed : form.UsesListed := by
  intro left right h
  simp only [form, List.forall_mem_cons] at h ⊢
  simp only [Members.required, Members.optional, h]

theorem Ranking.usesListed : form.UsesListed := by
  intro left right h
  simp only [form, List.forall_mem_cons] at h ⊢
  simp only [Members.optional, h]

theorem Channel.usesListed : form.UsesListed := by
  intro left right h
  simp only [form, List.forall_mem_cons] at h ⊢
  simp only [Members.required, Members.optional, h]

theorem Facet.usesListed : form.UsesListed := by
  intro left right h
  simp only [form, List.forall_mem_cons] at h ⊢
  simp only [Members.optional, h]

theorem RecordForm.isObject_of_mem_list {α : Type} {form : RecordForm α} {items : List Json}
    {as : List α} (h : Reader.list form.readObject (.arr items) = .ok as) :
    ∀ item ∈ items, item.IsObject := by
  intro item hitem
  obtain ⟨_, hitems, hread⟩ := (Reader.accepts_list (fun _ => Iff.rfl) _).1 ⟨as, h⟩
  cases hitems
  obtain ⟨a, ha⟩ := hread item hitem
  exact isObject_of_readObject ha

/-- Columns and sort keys are read from objects, in whichever form their transform is. -/
theorem Transform.isObject_of_mem_entries {v : Json} {t : Transform} (h : form.read v = .ok t)
    {name : String} (hname : name ∈ ["window", "sort"]) {entries : List Json}
    (hentries : form.found v name = some (.arr entries)) : ∀ entry ∈ entries, entry.IsObject := by
  have hdraft := RecordForm.draft_found h
  simp only [form, Draft.seq_eq_complete_iff, Draft.map_eq_complete_iff] at hdraft
  obtain ⟨_, _, ⟨_, _, ⟨_, _, ⟨_, _, ⟨columns, hcolumns, rfl⟩, -, rfl⟩, hsort, rfl⟩, -, rfl⟩, -,
    rfl⟩ := hdraft
  rw [List.mem_pair] at hname
  rcases hname with rfl | rfl
  · obtain ⟨w, hw, hread⟩ := Members.required_eq_complete_iff.1 hcolumns
    cases hw.symm.trans hentries
    exact RecordForm.isObject_of_mem_list hread
  · obtain ⟨-, hnone | hnull⟩ | ⟨w, keys, -, hw, -, hread⟩ := Members.optional_cases hsort
    · cases hnone.symm.trans hentries
    · cases hnull.symm.trans hentries
    · cases hw.symm.trans hentries
      exact RecordForm.isObject_of_mem_list hread

/-- The same holds of the channels of a facet. -/
theorem Facet.found_channel_cases {v : Json} {f : Facet} (h : form.read v = .ok f) {name : String}
    (hname : name ∈ ["row", "column", "facet"]) {channel : Json}
    (hchannel : form.found v name = some channel) : channel = .null ∨ channel.IsObject := by
  have hdraft := RecordForm.draft_found h
  simp only [form, Draft.seq_eq_complete_iff, Draft.map_eq_complete_iff] at hdraft
  obtain ⟨_, wrapped, ⟨_, column, ⟨row, hrow, rfl⟩, hcolumn, rfl⟩, hwrapped, rfl⟩ := hdraft
  have hread : ∃ found,
      Members.optional (form.found v) name Channel.form.readObject = .complete found := by
    simp only [List.mem_cons, List.not_mem_nil, or_false] at hname
    rcases hname with rfl | rfl | rfl
    · exact ⟨row, hrow⟩
    · exact ⟨column, hcolumn⟩
    · exact ⟨wrapped, hwrapped⟩
  obtain ⟨found, hfound⟩ := hread
  obtain ⟨-, hnone | hnull⟩ | ⟨w, c, -, hw, -, hread⟩ := Members.optional_cases hfound
  · cases hnone.symm.trans hchannel
  · exact .inl (Option.some.inj (hchannel.symm.trans hnull))
  · cases hw.symm.trans hchannel
    exact .inr (RecordForm.isObject_of_readObject hread)

/-- An array in place of a sort lists the cells, in whichever form its channel is. -/
theorem Channel.order_of_found_arr {v : Json} {c : Channel} (h : form.read v = .ok c)
    {values : List Json} (hsort : form.found v "sort" = some (.arr values)) :
    c.order = some (.listed values) := by
  have hdraft := RecordForm.draft_found h
  simp only [form, Draft.seq_eq_complete_iff, Draft.map_eq_complete_iff] at hdraft
  obtain ⟨_, order, ⟨_, measure, ⟨field, -, rfl⟩, -, rfl⟩, horder, rfl⟩ := hdraft
  obtain ⟨-, hnone | hnull⟩ | ⟨w, order, rfl, hw, -, hread⟩ := Members.optional_cases horder
  · cases hnone.symm.trans hsort
  · cases hnull.symm.trans hsort
  · cases hw.symm.trans hsort
    cases hread
    rfl

/-- Of each record the array of its members is read as the object that names them, and no longer
array is read. As a whole document an array is refused, and so it is as a column, as a sort key and
as a channel, whichever form the record around it has; as a sort of cells it is the list of them. -/
theorem arrays_stand_for_records :
    (Transform.form.read.ReadsByPlace ["window", "ignorePeers", "sort", "groupby", "frame"] ∧
      Column.form.read.ReadsByPlace ["op", "field", "as", "param"] ∧
      SortKey.form.read.ReadsByPlace ["field", "order"] ∧
      Ranking.form.read.ReadsByPlace ["op", "field", "order"] ∧
      Channel.form.read.ReadsByPlace ["field", "type", "sort"] ∧
      Facet.form.read.ReadsByPlace ["row", "column", "facet"]) ∧
    (∀ items, Node.ofJson (.arr items) = .error (.transform (.wrongType (.arr items) .map)) ∧
      Facet.ofJson (.arr items) = .error (.facet (.wrongType (.arr items) .map))) ∧
    (∀ v t, Transform.form.read v = .ok t → ∀ name ∈ ["window", "sort"], ∀ entries,
      Transform.form.found v name = some (.arr entries) → ∀ entry ∈ entries, entry.IsObject) ∧
    (∀ v f, Facet.form.read v = .ok f → ∀ name ∈ ["row", "column", "facet"], ∀ channel,
      Facet.form.found v name = some channel → channel = .null ∨ channel.IsObject) ∧
    (∀ v c values, Channel.form.read v = .ok c → Channel.form.found v "sort" = some (.arr values) →
      c.order = some (.listed values)) ∧
    ∀ values, CellOrder.read (.arr values) = .ok (.listed values) := by
  refine ⟨⟨Transform.usesListed.readsByPlace, Column.usesListed.readsByPlace,
    SortKey.usesListed.readsByPlace, Ranking.usesListed.readsByPlace,
    Channel.usesListed.readsByPlace, Facet.usesListed.readsByPlace⟩, ?_, ?_, ?_, ?_, ?_⟩
  · exact fun items => ⟨rfl, rfl⟩
  · exact fun v t h name hname entries => Transform.isObject_of_mem_entries h hname
  · exact fun v f h name hname channel => Facet.found_channel_cases h hname
  · exact fun v c values h => Channel.order_of_found_arr h
  · exact fun values => rfl

/-- A lag without a field, by place, its parameter past the end; and a channel by place, its cells
listed. -/
theorem lag_and_years_by_place :
    Column.form.read (.obj [("op", .str "lag"), ("field", .null), ("as", .str "before")]) =
        .ok ⟨"lag", none, some "before", none⟩ ∧
      Column.form.read (.arr [.str "lag", .null, .str "before"]) =
        .ok ⟨"lag", none, some "before", none⟩ ∧
      ∃ c, Channel.form.read (.arr [.str "year", .str "temporal", .arr [.str "1932"]]) = .ok c ∧
        c.order = some (.listed [.str "1932"]) := by
  obtain ⟨⟨-, hcolumn, -⟩, -, -, -, hlisted, -⟩ := arrays_stand_for_records
  have hread : Channel.form.read (.arr [.str "year", .str "temporal", .arr [.str "1932"]]) =
      .ok ⟨"year", .temporal, some (.listed [.str "1932"])⟩ := rfl
  have hnamed : Column.form.read
      (.obj [("op", .str "lag"), ("field", .null), ("as", .str "before")]) =
        .ok ⟨"lag", none, some "before", none⟩ := rfl
  exact ⟨hnamed, (hcolumn.read_arr_iff _ (by decide) _).2 hnamed, _, hread,
    hlisted _ _ _ hread rfl⟩

end WindowFlow
