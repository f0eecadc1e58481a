import WindowFlow.Json.Canonical
import WindowFlow.Json.Parse
/-!
A written string reads back. The escape of a character is taken off the front of a text in one
piece: the quote that ends the string is sought behind it, and it gives the character's number.
-/
namespace WindowFlow.Json

variable {c : Char}

theorem hexValue_digitChar : ∀ n, n < 16 → hexValue (Nat.digitChar n) = some n := by decide

/-- A character is escaped by one letter, by its number, or not at all. -/
theorem escape_cases (c : Char) :
    (∃ letter, escape c = ['\\', letter] ∧ letter ≠ 'u' ∧ shortEscape letter = some c) ∨
      (c.toNat < 0x20 ∧ escape c =
        ['\\', 'u', '0', '0', Nat.digitChar (c.toNat / 16), Nat.digitChar (c.toNat % 16)]) ∨
      (¬ c.toNat < 0x20 ∧ c ≠ '"' ∧ c ≠ '\\' ∧ escape c = [c]) := by
  unfold escape
  split
  case h_8 _ hquote hback _ _ _ _ _ =>
    split
    · exact .inr (.inl ⟨‹_›, rfl⟩)
    · exact .inr (.inr ⟨‹_›, hquote, hback, rfl⟩)
  all_goals exact .inl ⟨_, rfl, by decide, rfl⟩

theorem splitAtQuote_cons (hquote : c ≠ '"') (hback : c ≠ '\\') (text : List Char) :
    splitAtQuote (c :: text) = (splitAtQuote text).map fun p => (c :: p.1, p.2) := by
  rw [splitAtQuote.eq_def]
  split
  · contradiction
  · rename_i h
    exact absurd (List.cons.inj h).1 hquote
  · rename_i h
    exact absurd (List.cons.inj h).1 hback
  · rename_i h
    cases h
    rfl

theorem splitAtQuote_escape (c : Char) (text : List Char) :
    splitAtQuote (escape c ++ text) =
      (splitAtQuote text).map fun p => (escape c ++ p.1, p.2) := by
  obtain ⟨letter, heq, -, -⟩ | ⟨hcontrol, heq⟩ | ⟨-, hquote, hback, heq⟩ := escape_cases c
  · rw [heq]
    rfl
  · have hdigit : ∀ n, Nat.digitChar n ≠ '"' ∧ Nat.digitChar n ≠ '\\' := fun _ =>
      ⟨Nat.digitChar_ne _ (by decide), Nat.digitChar_ne _ (by decide)⟩
    rw [heq]
    simp only [List.cons_append, List.nil_append, splitAtQuote]
    rw [splitAtQuote_cons (by decide) (by decide), splitAtQuote_cons (by decide) (by decide),
      splitAtQuote_cons (hdigit _).1 (hdigit _).2, splitAtQuote_cons (hdigit _).1 (hdigit _).2]
    cases splitAtQuote text <;> rfl
  · rw [heq]
    exact splitAtQuote_cons hquote hback text

theorem codes_cons (hback : c ≠ '\\') (hplain : ¬ c.toNat < 0x20) (text : List Char) :
    codes (c :: text) = (codes text).map (c.toNat :: ·) := by
  rw [codes.eq_def]
  split
  · contradiction
  · rename_i h
    exact absurd (List.cons.inj h).1 hback
  · rename_i h
    exact absurd (List.cons.inj h).1 hback
  · rename_i h
    cases h
    rw [if_neg hplain]

theorem codes_escape (c : Char) (text : List Char) :
    codes (escape c ++ text) = (codes text).map (c.toNat :: ·) := by
  obtain ⟨letter, heq, hnot, hletter⟩ | ⟨hcontrol, heq⟩ | ⟨hplain, -, hback, heq⟩ := escape_cases c
  · rw [heq]
    rw [List.cons_append, List.cons_append, List.nil_append, codes.eq_3]
    · rw [hletter]
      cases codes text <;> rfl
    · intro _ _ _ _ _ hletter
      exact absurd hletter hnot
  · rw [heq]
    have hhigh : hexValue (Nat.digitChar (c.toNat / 16)) = some (c.toNat / 16) :=
      hexValue_digitChar _ (by omega)
    have hlow : hexValue (Nat.digitChar (c.toNat % 16)) = some (c.toNat % 16) :=
      hexValue_digitChar _ (by omega)
    have hzero : hexValue '0' = some 0 := by decide
    have hnumber : 256 * (16 * 0 + 0) + (16 * (c.toNat / 16) + c.toNat % 16) = c.toNat := by omega
    simp only [List.cons_append, List.nil_append, codes, hzero, hhigh, hlow]
    simp only [bind, Option.bind_some, hnumber]
    cases codes text <;> rfl
  · rw [heq]
    exact codes_cons hback hplain text

theorem joinSurrogates_map_toNat (cs : List Char) :
    joinSurrogates (cs.map Char.toNat) = some cs := by
  induction cs with
  | nil => rfl
  | cons c rest ih =>
    have hvalid : c.toNat.isValidChar := c.valid
    rw [List.map_cons, joinSurrogates.eq_def]
    simp only [if_pos hvalid, ih, Char.ofNat_toNat, Option.map_some]

/-- A written string is read back, and what follows it is left. -/
theorem unquote_escape (s : String) (rest : List Char) :
    unquote (s.toList.flatMap escape ++ '"' :: rest) = some (s, rest) := by
  have hsplit : ∀ cs : List Char, splitAtQuote (cs.flatMap escape ++ '"' :: rest) =
      some (cs.flatMap escape, rest) := by
    intro cs
    induction cs with
    | nil => rfl
    | cons c cs ih => rw [List.flatMap_cons, List.append_assoc, splitAtQuote_escape, ih]; rfl
  have hcodes : ∀ cs : List Char, codes (cs.flatMap escape) = some (cs.map Char.toNat) := by
    intro cs
    induction cs with
    | nil => rfl
    | cons c cs ih => rw [List.flatMap_cons, codes_escape, ih]; rfl
  rw [unquote, hsplit]
  simp only [bind, Option.bind_some, hcodes, joinSurrogates_map_toNat, String.ofList_toList]
  rfl

end WindowFlow.Json
