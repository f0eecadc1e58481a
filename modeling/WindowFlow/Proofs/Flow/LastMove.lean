import WindowFlow.Proofs.Flow.Reachable
/-!
A node that is moved again. The first move changes the paths of all that hangs below the node, but
not whether a path leads through it, so a later move is refused or not as if the first had not been
made, and it leaves no trace of the first.
-/
namespace WindowFlow

namespace Forest

variable {α : Type} {g : Forest α} {id : NodeId} {p : Option NodeId} {up : List NodeId}

/-- The second place takes the node off the list that the first one put it on. -/
theorem place_place (g : Forest α) (id : NodeId) (p q : Option NodeId) :
    (g.place id p).place id q = g.place id q := by
  have hhanded : ∀ i, (handed p [id] i).filter (· ≠ id) = [] := by
    intro i
    rw [List.filter_eq_nil_iff]
    simp
  rw [place, place, mapEntries_mapEntries]
  apply mapEntries_congr
  intro i e _
  rw [List.filter_append, hhanded, List.append_nil, List.filter_filter]
  split <;> simp

/-- Wherever a node is moved, what was below it stays below it, and nothing else gets there. -/
theorem isAbove_place (hg : g.WellFormed) (hlive : g.IsLive id) (hup : g.Way p up) (hnot : id ∉ up)
    {d : NodeId} (hd : g.IsLive d) : (g.place id p).isAbove id d = g.isAbove id d := by
  obtain ⟨l, hl⟩ := hg.way d hd
  rw [hl.isAbove_eq]
  by_cases hid : id ∈ l
  · have hsplit : id ∈ l.takeWhile (· ≠ id) ++ l.dropWhile (· ≠ id) := by
      rwa [List.takeWhile_append_dropWhile]
    have hrest : id ∈ l.dropWhile (· ≠ id) := by
      refine (List.mem_append.1 hsplit).resolve_left fun h => ?_
      simpa using List.mem_takeWhile_imp h
    have hmem : id ∈ up ++ l.dropWhile (· ≠ id) := List.mem_append_right up hrest
    rw [(hl.place_of_mem hlive hup hnot hid).isAbove_eq, decide_eq_true hid, decide_eq_true hmem]
  · rw [(hl.place_of_not_mem hlive hid).isAbove_eq]

end Forest

namespace Edit

open Forest

variable {α : Type} {g : Forest α} {id : NodeId} {p : Option NodeId} {up : List NodeId}

/-- A second move goes like the same move made first, and ends where that one ends. -/
theorem run_move_place (hg : g.WellFormed) (hlive : g.IsLive id) (hparent : g.HasPlace p)
    (hup : g.Way p up) (hnot : id ∉ up) (q : Option NodeId) :
    (move id q).run (g.place id p) =
      match (move id q).run g with
      | .ok _ g' => .ok () g'
      | .error err _ => .error err (g.place id p) := by
  have hplaced : (g.place id p).WellFormed := hg.place hlive hparent hup hnot
  have hlive' : (g.place id p).IsLive id := isLive_place.2 hlive
  cases q with
  | none => rw [run_move hg hlive (by simp), run_move hplaced hlive' (by simp), place_place]
  | some d =>
    by_cases hd : g.IsLive d
    · have hd' : (g.place id p).IsLive d := isLive_place.2 hd
      have hsame : (g.place id p).isAbove id d = g.isAbove id d :=
        isAbove_place hg hlive hup hnot hd
      cases habove : g.isAbove id d with
      | true =>
        rw [run_move_of_isAbove hlive hd habove,
          run_move_of_isAbove hlive' hd' (hsame.trans habove)]
      | false =>
        rw [run_move hg hlive, run_move hplaced hlive', place_place]
        · rintro _ ⟨⟩
          exact ⟨hd', hsame.trans habove⟩
        · rintro _ ⟨⟩
          exact ⟨hd, habove⟩
    · rw [run_move_of_parent_not_isLive hlive hd,
        run_move_of_parent_not_isLive hlive' (mt isLive_place.1 hd)]

end Edit

namespace Flow

open Forest

variable {g g₁ : Flow} {id : NodeId} {p : Option NodeId}

/-- Once a node has been moved, a move of it to any place is refused for the same reason or ends in
the same flow as it would without the first move; only a refusal leaves the node where the first
move put it. So a move that is made again changes nothing. -/
theorem last_move_decides (h : g.Reachable) (hfirst : (Edit.move id p).run g = .ok () g₁)
    (q : Option NodeId) :
    (∀ g₂, (Edit.move id q).run g₁ = .ok () g₂ ↔ (Edit.move id q).run g = .ok () g₂) ∧
      (∀ err g₂, (Edit.move id q).run g₁ = .error err g₂ ↔
        g₂ = g₁ ∧ (Edit.move id q).run g = .error err g) ∧
      (Edit.move id p).run g₁ = .ok () g₁ := by
  have hg := h.wellFormed
  obtain ⟨hlive, hparent, ⟨up, hup, hnot⟩, hplace⟩ | ⟨err, hrefused⟩ := Edit.move_cases hg id p
  · obtain rfl : g₁ = g.place id p := by
      rw [hplace, EStateM.Result.ok.injEq] at hfirst
      exact hfirst.2.symm
    have hagain := Edit.run_move_place hg hlive hparent hup hnot
    refine ⟨?_, ?_, ?_⟩
    · intro g₂
      rw [hagain]
      cases (Edit.move id q).run g <;> simp
    · intro err g₂
      rw [hagain]
      obtain ⟨-, -, -, hrun⟩ | ⟨err', hrun⟩ := Edit.move_cases hg id q
      · simp [hrun]
      · simp [hrun, and_comm, eq_comm]
    · rw [hagain, hfirst]
  · rw [hrefused] at hfirst
    cases hfirst

/-- Under the copy `5` the tree of `0` is still the tree of `0`, so nothing in it can take `0`,
while the old parent takes it back as it would have before. -/
theorem rewiring_move_back : (run rewiring).Reachable ∧
    ∃ g₁, (Edit.move 0 (some 5)).run (run rewiring) = .ok () g₁ ∧
      (Edit.move 0 (some 2)).run g₁ = .error (.cycle 0 2) g₁ ∧
      (∀ g₂, (Edit.move 0 (some 3)).run g₁ = .ok () g₂ ↔
        (Edit.move 0 (some 3)).run (run rewiring) = .ok () g₂) ∧
      (Edit.move 0 (some 5)).run g₁ = .ok () g₁ := by
  have hreach : (run rewiring).Reachable := ⟨rewiring, rfl⟩
  have hfirst : (Edit.move 0 (some 5)).run (run rewiring) =
      .ok () ((Edit.move 0 (some 5)).stop (run rewiring)) := rfl
  obtain ⟨-, hrefused, hagain⟩ := last_move_decides hreach hfirst (some 2)
  obtain ⟨hback, -, -⟩ := last_move_decides hreach hfirst (some 3)
  exact ⟨hreach, _, hfirst, (hrefused _ _).2 ⟨rfl, rfl⟩, hback, hagain⟩

end Flow

end WindowFlow
