import WindowFlow.Proofs.Facet.Derivation
/-!
The names of the columns that the windows of a facet compute. A name is glued from an operation, a
field and the field of a channel, and any of these may hold the glue. So a name can be taken apart
in more than one way, and different aggregates share a name where the one is the other cut at
another place, but nowhere else.
-/
namespace WindowFlow

/-- A text taken apart in two ways: one of the cuts comes first. -/
theorem append_cases {u v c d : String} (h : u ++ c = v ++ d) :
    (∃ s, v = u ++ s ∧ c = s ++ d) ∨ ∃ s, u = v ++ s ∧ d = s ++ c := by
  rw [← String.toList_inj, String.toList_append, String.toList_append,
    List.append_eq_append_iff] at h
  obtain ⟨s, hv, hc⟩ | ⟨s, hu, hd⟩ := h
  · exact .inl ⟨.ofList s, by simp [← String.toList_inj, hv], by simp [← String.toList_inj, hc]⟩
  · exact .inr ⟨.ofList s, by simp [← String.toList_inj, hu], by simp [← String.toList_inj, hd]⟩

/-- The glue has an underscore at either end and none inside. -/
theorem glue_cases {s t : String} (h : "_by_" = s ++ ("_" ++ t)) :
    s = "" ∧ t = "by_" ∨ s = "_by" ∧ t = "" := by
  simp only [← String.toList_inj, String.toList_append] at h ⊢
  generalize s.toList = before at h ⊢
  generalize t.toList = behind at h ⊢
  replace h : ['_', 'b', 'y', '_'] = before ++ '_' :: behind := h
  change before = [] ∧ behind = ['b', 'y', '_'] ∨ before = ['_', 'b', 'y'] ∧ behind = []
  rcases before with _ | ⟨x, _ | ⟨y, _ | ⟨z, _ | ⟨w, rest⟩⟩⟩⟩ <;> simp at h ⊢ <;> grind

/-- Where glue ends a text at two places, the piece between them ends in glue of its own, which may
share an underscore with the glue before it. -/
theorem piece_cases {u v t : String} (h : u ++ "_by_" = v ++ "_by_" ++ t) :
    u = v ∧ t = "" ∨ ∃ s, u = v ++ "_by" ++ s ∧ "_" ++ t = s ++ "_by_" := by
  have hglue : v ++ "_by_" ++ t = v ++ "_by" ++ ("_" ++ t) := by
    simp [← String.toList_inj]
  obtain ⟨s, hv, hs⟩ | hpiece := append_cases (h.trans hglue)
  · obtain ⟨rfl, rfl⟩ | ⟨rfl, rfl⟩ := glue_cases hs
    · exact .inr ⟨"", by simpa using hv.symm, rfl⟩
    · exact .inl ⟨(by simpa using hv.symm), rfl⟩
  · exact .inr hpiece

/-- Before an underscore stands nothing, or what begins with the one in front. -/
theorem underscore_cases {s t v : String} (h : "_" ++ t = s ++ ("_" ++ v)) :
    s = "" ∧ t = v ∨ ∃ piece, s = "_" ++ piece ∧ t = piece ++ "_" ++ v := by
  simp only [← String.toList_inj, String.toList_append] at h ⊢
  replace h : '_' :: t.toList = s.toList ++ '_' :: v.toList := h
  obtain ⟨hs, hv⟩ | ⟨piece, hs, ht⟩ := List.cons_eq_append_iff.1 h
  · exact .inl ⟨hs, (List.cons.inj hv).2.symm⟩
  · exact .inr ⟨.ofList piece, by simp [hs], by simp [ht]⟩

namespace CellAggregate

variable {a b : CellAggregate}

/-- The part of the name that stands before the field of the channel. -/
def stem (a : CellAggregate) : String :=
  match a.field with
  | some field => a.op ++ "_" ++ field
  | none => a.op

theorem name_eq (a : CellAggregate) : a.name = a.stem ++ "_by_" ++ a.cell := by
  obtain ⟨cell, op, field⟩ := a
  cases field <;> rfl

/-- A facet asks for no aggregate without a field but the count. -/
def IsAskable (a : CellAggregate) : Prop := a.field = none → a.op = "count"

/-- The parts of the second aggregate are those of the first one, cut elsewhere: the operation takes
a piece from the start of the field, or the field of the channel takes one from the end of what
stands before it. -/
inductive Recut : CellAggregate → CellAggregate → Prop where
  | op (cell op piece field : String) :
    Recut ⟨cell, op, some (piece ++ "_" ++ field)⟩ ⟨cell, op ++ "_" ++ piece, some field⟩
  | cell {a b : CellAggregate} (piece : String) (hstem : a.stem = b.stem ++ "_by" ++ piece)
    (hcell : "_" ++ b.cell = piece ++ "_by_" ++ a.cell) : Recut a b

/-- No glue but that between the parts: none in the operation, and none that would end in the field
of the channel. -/
def IsPlain (a : CellAggregate) : Prop :=
  '_' ∉ a.op.toList ∧ ¬ "_by_".toList <:+: ("_" ++ a.cell).toList

theorem Recut.name_eq (h : Recut a b) : a.name = b.name := by
  cases h with
  | op cell op piece field => simp [name, ← String.toList_inj]
  | cell piece hstem hcell =>
    calc a.name
      _ = b.stem ++ "_by" ++ piece ++ "_by_" ++ a.cell := by rw [CellAggregate.name_eq, hstem]
      _ = b.stem ++ "_by" ++ ("_" ++ b.cell) := by simp only [hcell, String.append_assoc]
      _ = b.name := by simp [CellAggregate.name_eq, ← String.toList_inj]

example : (CellAggregate.mk "site" "min" (some "hot_days")).name =
    (CellAggregate.mk "site" "min_hot" (some "days")).name := by
  decide

theorem Recut.not_isPlain (h : Recut a b) : ¬ b.IsPlain := by
  rintro ⟨hop, hcell⟩
  cases h with
  | op cell op piece field => exact hop (by simp)
  | cell piece _ hcut =>
    apply hcell
    rw [hcut, String.toList_append, String.toList_append]
    exact List.infix_append _ _ _

theorem count_ne_stem (op field : String) : "count" ≠ op ++ "_" ++ field := by
  intro h
  have hmem : '_' ∈ "count".toList := by
    rw [h]
    simp
  exact absurd hmem (by decide)

/-- Stems agree where they are the same, or where one operation takes a piece from the start of the
other's field. -/
theorem recut_of_stem_eq (ha : a.IsAskable) (hb : b.IsAskable) (hcell : a.cell = b.cell)
    (hstem : a.stem = b.stem) : a = b ∨ Recut a b ∨ Recut b a := by
  obtain ⟨cell, op, field⟩ := a
  obtain ⟨_, op', field'⟩ := b
  obtain rfl : cell = _ := hcell
  cases field with
  | none =>
    cases field' with
    | none => exact .inl (by simpa [stem] using hstem)
    | some field' => exact absurd (ha rfl ▸ hstem) (count_ne_stem op' field')
  | some field =>
    cases field' with
    | none => exact absurd (hb rfl ▸ hstem.symm) (count_ne_stem op field)
    | some field' =>
      simp only [stem, String.append_assoc] at hstem
      obtain ⟨s, hop, hfield⟩ | ⟨s, hop, hfield⟩ := append_cases hstem
      · obtain ⟨rfl, rfl⟩ | ⟨piece, rfl, rfl⟩ := underscore_cases hfield
        · exact .inl (by rw [hop, String.append_empty])
        · rw [hop, ← String.append_assoc]
          exact .inr (.inl (.op cell op piece field'))
      · obtain ⟨rfl, rfl⟩ | ⟨piece, rfl, rfl⟩ := underscore_cases hfield
        · exact .inl (by rw [hop, String.append_empty])
        · rw [hop, ← String.append_assoc]
          exact .inr (.inr (.op cell op' piece field))

/-- The field of one channel takes nothing, or a piece of what stands before the other's. -/
theorem recut_of_cell_eq {t : String} (hcell : b.cell = t ++ a.cell)
    (hstem : a.stem ++ "_by_" = b.stem ++ "_by_" ++ t) :
    (a.cell = b.cell ∧ a.stem = b.stem) ∨ Recut a b := by
  obtain ⟨hsame, rfl⟩ | ⟨piece, hpiece, ht⟩ := piece_cases hstem
  · exact .inl ⟨by rw [hcell, String.empty_append], hsame⟩
  · refine .inr (.cell piece hpiece ?_)
    rw [hcell, ← String.append_assoc, ht]

theorem name_eq_iff (ha : a.IsAskable) (hb : b.IsAskable) :
    a.name = b.name ↔ a = b ∨ Recut a b ∨ Recut b a := by
  constructor
  · intro h
    rw [name_eq, name_eq] at h
    obtain ⟨t, hstem, hcell⟩ | ⟨t, hstem, hcell⟩ := append_cases h
    · obtain ⟨hsame, hstem⟩ | hcut := recut_of_cell_eq hcell hstem
      · exact recut_of_stem_eq ha hb hsame.symm hstem.symm
      · exact .inr (.inr hcut)
    · obtain ⟨hsame, hstem⟩ | hcut := recut_of_cell_eq hcell hstem
      · exact recut_of_stem_eq ha hb hsame hstem
      · exact .inr (.inl hcut)
  · rintro (rfl | h | h)
    · rfl
    · exact h.name_eq
    · exact h.name_eq.symm

/-- Between plain aggregates names decide. -/
theorem eq_of_name_eq (ha : a.IsAskable) (hb : b.IsAskable) (haplain : a.IsPlain)
    (hbplain : b.IsPlain) (h : a.name = b.name) : a = b := by
  obtain heq | hcut | hcut := (name_eq_iff ha hb).1 h
  · exact heq
  · exact absurd hbplain hcut.not_isPlain
  · exact absurd haplain hcut.not_isPlain

end CellAggregate

/-- The runtime step of the node computes the aggregate, and nothing else. -/
structure Node.Computes (n : Node) (a : CellAggregate) : Prop where
  ops : n.assemble.ops = [a.op]
  fields : n.assemble.fields = [a.field]
  partition : n.assemble.partition = some [a.cell]

theorem Node.Computes.unique {n : Node} {a b : CellAggregate} (ha : n.Computes a)
    (hb : n.Computes b) : a = b := by
  obtain ⟨cell, op, field⟩ := a
  obtain ⟨cell', op', field'⟩ := b
  have hop := ha.ops.symm.trans hb.ops
  have hfield := ha.fields.symm.trans hb.fields
  have hcell := ha.partition.symm.trans hb.partition
  simp_all

theorem CellOrder.isAggregate_of_aggregate? {order : CellOrder} {r : Ranking}
    (h : order.aggregate? = some r) : r.IsAggregate := by
  cases order with
  | ranked ranking =>
    rw [aggregate?] at h
    split at h
    · rename_i hagg
      cases h
      exact hagg
    · cases h
  | _ => cases h

namespace Facet

/-- Each window computes one aggregate, under its name. -/
theorem exists_computes {f : Facet} {n : Node} (hn : n ∈ f.windows) :
    ∃ a : CellAggregate, n.Computes a ∧ n.assemble.names = [a.name] ∧ a.IsAskable := by
  obtain ⟨⟨name, channel⟩, -, hwindow⟩ := List.mem_filterMap.1 hn
  replace hwindow : channel.window? = some n := hwindow
  rw [Channel.window?_eq, Option.map_eq_some_iff] at hwindow
  obtain ⟨r, hr, rfl⟩ := hwindow
  obtain ⟨order, -, horder⟩ := Option.bind_eq_some_iff.1 hr
  refine ⟨⟨channel.field, r.aggregate, r.field⟩, ⟨rfl, rfl, rfl⟩, rfl, fun hfield => ?_⟩
  obtain hsome | hcount := CellOrder.isAggregate_of_aggregate? horder
  · exact absurd hfield (Option.isSome_iff_ne_none.1 hsome)
  · exact hcount

/-- Windows of one facet write the same column where they compute the same aggregate, or where the
one's parts are those of the other cut elsewhere. Parts that hold no glue of their own cannot be cut
elsewhere, so the name of their column tells them apart. -/
theorem shared_names_iff (f : Facet) :
    (∀ n ∈ f.windows, ∃ a : CellAggregate, n.Computes a ∧ n.assemble.names = [a.name]) ∧
      ∀ m ∈ f.windows, ∀ n ∈ f.windows, ∀ a b : CellAggregate, m.Computes a → n.Computes b →
        (m.assemble.names = n.assemble.names ↔ a = b ∨ a.Recut b ∨ b.Recut a) ∧
        (a.IsPlain → b.IsPlain → m.assemble.names = n.assemble.names → a = b) := by
  refine ⟨fun n hn => ?_, fun m hm n hn a b hma hnb => ?_⟩
  · obtain ⟨a, hcomputes, hnames, -⟩ := exists_computes hn
    exact ⟨a, hcomputes, hnames⟩
  · obtain ⟨a', hma', hmnames, ha⟩ := exists_computes hm
    obtain ⟨b', hnb', hnnames, hb⟩ := exists_computes hn
    cases hma.unique hma'
    cases hnb.unique hnb'
    have hnames : m.assemble.names = n.assemble.names ↔ a.name = b.name := by
      rw [hmnames, hnnames, List.singleton_inj]
    rw [hnames]
    exact ⟨CellAggregate.name_eq_iff ha hb, CellAggregate.eq_of_name_eq ha hb⟩

/-- A facet with a row for each site, by the least yield of a year, and a column for each year of a
site, by the least yield. Both minima are written to the same column. -/
def rankedTwice : Facet where
  row := some ⟨"site", .nominal, some (.ranked ⟨some "min", some "yield_by_year", none⟩)⟩
  column := some ⟨"year_by_site", .nominal, some (.ranked ⟨some "min", some "yield", none⟩)⟩
  wrapped := none

theorem not_forall_eq_of_shared_name :
    ¬ ∀ f : Facet, ∀ m ∈ f.windows, ∀ n ∈ f.windows, m.assemble.names = n.assemble.names →
      m.assemble.ops = n.assemble.ops ∧ m.assemble.fields = n.assemble.fields ∧
        m.assemble.partition = n.assemble.partition := by
  intro h
  obtain ⟨rows, columns, hwindows, hnames, hfields⟩ :
      ∃ rows columns, rankedTwice.windows = [rows, columns] ∧
        rows.assemble.names = columns.assemble.names ∧
        rows.assemble.fields ≠ columns.assemble.fields :=
    ⟨_, _, rfl, by decide, by decide⟩
  refine hfields (h rankedTwice rows ?_ columns ?_ hnames).2.1
  · simp [hwindows]
  · simp [hwindows]

end Facet

end WindowFlow
