import WindowFlow.Proofs.Reading.Recovery
import WindowFlow.Window.Node
/-!
Window transforms are recovered from their written form, with all that their authors left out still
left out. The transform of a node is recovered as that node.
-/
namespace WindowFlow

open Json (SameValue)

theorem Direction.recovers : Direction.read.Recovers fun d => .str d.text :=
  Reader.recovers_variant fun d => by cases d <;> rfl

theorem Reader.recovers_directions :
    (Reader.list Direction.read).Recovers fun ds => Json.strings (ds.map Direction.text) := by
  intro ds v h
  simp only [Json.strings, List.map_map] at h
  exact recovers_list Direction.recovers ds v h

theorem Reader.recovers_bound : Reader.bound.Recovers fun n => .num (.ofInt64 n) := by
  intro n v h
  cases h
  exact bound_eq_ok_iff.2 rfl

theorem Frame.recovers : Frame.read.Recovers Frame.toJson := by
  rintro ⟨start, stop⟩ v h
  have hbounds := Reader.recovers_nullable Reader.recovers_bound (by simp)
  cases h with
  | arr hitems =>
    obtain - | ⟨ha, _ | ⟨hb, _ | _⟩⟩ := hitems
    rw [Frame.read, hbounds start _ ha, hbounds stop _ hb]
    rfl

theorem SortKey.recovers : SortKey.form.readObject.Recovers SortKey.toJson := by
  intro k v h
  rw [toJson_eq_record] at h
  obtain ⟨ns, rfl, hrel⟩ := Json.lookup_rel_of_record (by simp) h
  obtain ⟨hfield, horder⟩ := by simpa using hrel
  let found : Members := fun name => ns.lookup name
  have hfield := Members.required_of_recovers found "field" Reader.recovers_string hfield
  have horder := Members.required_of_recovers found "order" Direction.recovers horder
  refine RecordForm.readObject_eq_ok_iff.2 ⟨ns, rfl, ?_⟩
  simp only [SortKey.form]
  rw [hfield, horder]
  rfl

theorem Column.recovers : Column.form.readObject.Recovers Column.toJson := by
  intro c v h
  obtain ⟨ns, rfl, hrel⟩ := Json.lookup_rel_of_record (by simp) h
  obtain ⟨hop, hfield, hlabel, hparam⟩ := by simpa using hrel
  let found : Members := fun name => ns.lookup name
  have hop := Members.required_of_recovers found "op" Reader.recovers_string hop
  have hfield := Members.optional_of_recovers found "field" Reader.recovers_string (by simp) hfield
  have hlabel := Members.optional_of_recovers found "as" Reader.recovers_string (by simp) hlabel
  have hparam := Members.optional_of_recovers found "param" Reader.recovers_number (by simp) hparam
  refine RecordForm.readObject_eq_ok_iff.2 ⟨ns, rfl, ?_⟩
  simp only [Column.form]
  rw [hop, hfield, hlabel, hparam]
  rfl

theorem Transform.recovers : Transform.form.readObject.Recovers Transform.toJson := by
  intro t v h
  obtain ⟨ns, rfl, hrel⟩ := Json.lookup_rel_of_record (by simp) h
  obtain ⟨hcolumns, hpeers, hsort, hpartition, hframe⟩ := by simpa using hrel
  let found : Members := fun name => ns.lookup name
  have hcolumns := Members.required_of_recovers found "window"
    (Reader.recovers_list Column.recovers) hcolumns
  have hpeers := Members.optional_of_recovers found "ignorePeers" Reader.recovers_boolean (by simp)
    hpeers
  have hsort := Members.optional_of_recovers found "sort" (Reader.recovers_list SortKey.recovers)
    (by simp) hsort
  have hpartition := Members.optional_of_recovers found "groupby"
    (Reader.recovers_list Reader.recovers_string) (by simp) hpartition
  have hframe := Members.required_of_recovers found "frame" Frame.recovers hframe
  refine RecordForm.readObject_eq_ok_iff.2 ⟨ns, rfl, ?_⟩
  simp only [Transform.form]
  rw [hcolumns, hpeers, hsort, hpartition, hframe]
  rfl

theorem Transform.readObject_toJson (t : Transform) : form.readObject t.toJson = .ok t :=
  recovers t _ (.refl _)

theorem Node.ofJson_toJson (t : Transform) : ofJson t.toJson = .ok (ofTransform t) := by
  rw [ofJson, t.readObject_toJson]

/-- Reading undoes writing, for transforms as authored and for nodes. Nothing is lost: parameters
keep their kinds, what is absent stays absent, and a node comes back with its normal form. -/
theorem reading_undoes_writing (t : Transform) (n : Node) :
    Transform.form.read t.toJson = .ok t ∧
      Node.ofJson t.toJson = .ok (.ofTransform t) ∧
      Node.ofJson n.transform.toJson = .ok n := by
  refine ⟨t.readObject_toJson, Node.ofJson_toJson t, ?_⟩
  rw [Node.ofJson_toJson, Node.ofTransform_transform]

end WindowFlow
