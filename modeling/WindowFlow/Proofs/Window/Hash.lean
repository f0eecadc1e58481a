import Mathlib.Algebra.BigOperators.Fin
import Mathlib.Tactic.Ring
import WindowFlow.Proofs.Window.Identity
/-!
The digest of a text as a number, and where two texts have one digest. The units of a text are the
digits of a number in base 31, and the digest is what a signed word of 32 bits keeps of it. Each
unit is absorbed reversibly, since 31 is odd, and what stands in front of a text adds the same to
the digests of all texts of one length. So whatever texts of one length have around them alike can
be taken off, and a single unit that differs is seen in the digest. The hash of a node is the digest
of its text and no more, so nodes whose texts differ in one unit have two hashes.
-/
namespace WindowFlow

namespace Text

variable {us vs : List UInt16} {h k : Int32} {u v : UInt16} {p a b s t : String}

theorem mul_thirty_one_inj : h * 31 = k * 31 ↔ h = k := by
  constructor
  · intro heq
    have hinv : (31 : Int32) * -1108378657 = 1 := by decide
    calc h
      _ = h * 31 * -1108378657 := by rw [Int32.mul_assoc, hinv, Int32.mul_one]
      _ = k * 31 * -1108378657 := by rw [heq]
      _ = k := by rw [Int32.mul_assoc, hinv, Int32.mul_one]
  · rintro rfl
    rfl

theorem ofNat_unit_inj : Int32.ofNat u.toNat = Int32.ofNat v.toNat ↔ u = v := by
  constructor
  · intro heq
    have hint := congrArg Int32.toInt heq
    have hu := u.toNat_lt
    have hv := v.toNat_lt
    rw [Int32.toInt_ofNat_of_lt (by omega), Int32.toInt_ofNat_of_lt (by omega)] at hint
    exact UInt16.toNat_inj.1 (Int.ofNat_inj.1 hint)
  · rintro rfl
    rfl

theorem absorb_left_inj : absorb h u = absorb k u ↔ h = k := by
  rw [absorb, absorb, Int32.add_left_inj, mul_thirty_one_inj]

theorem absorb_right_inj : absorb h u = absorb h v ↔ u = v := by
  rw [absorb, absorb, Int32.add_right_inj, ofNat_unit_inj]

/-- Units that follow alike neither make nor mend a difference. -/
theorem foldl_absorb_inj : us.foldl absorb h = us.foldl absorb k ↔ h = k := by
  induction us generalizing h k with
  | nil => rfl
  | cons u us ih => rw [List.foldl_cons, List.foldl_cons, ih, absorb_left_inj]

/-- The number with these digits in base 31, the leading one first. -/
def inBase31 (us : List UInt16) : Nat :=
  ∑ i : Fin us.length, us[i].toNat * 31 ^ (us.length - 1 - i)

theorem inBase31_cons (u : UInt16) (us : List UInt16) :
    inBase31 (u :: us) = u.toNat * 31 ^ us.length + inBase31 us := by
  rw [inBase31, inBase31]
  simp [Fin.sum_univ_succ, Nat.sub_sub, Nat.add_comm]

/-- Digits that follow move those before them up by their number. -/
theorem foldl_absorb_ofInt (us : List UInt16) (n : Int) :
    us.foldl absorb (Int32.ofInt n) = Int32.ofInt (n * 31 ^ us.length + inBase31 us) := by
  induction us generalizing n with
  | nil => simp [inBase31]
  | cons u us ih =>
    have hstep : absorb (Int32.ofInt n) u = Int32.ofInt (n * 31 + u.toNat) := by
      rw [absorb, Int32.ofInt_add, Int32.ofInt_mul]
      rfl
    rw [List.foldl_cons, hstep, ih, inBase31_cons, List.length_cons]
    congr 1
    push_cast
    ring

theorem foldl_absorb_zero (us : List UInt16) :
    us.foldl absorb 0 = Int32.ofInt (inBase31 us) := by
  have hfold := foldl_absorb_ofInt us 0
  rwa [zero_mul, zero_add] at hfold

/-- The value before the digits adds a part that depends on how many digits follow, not on which. -/
theorem foldl_absorb_eq_add (us : List UInt16) (h : Int32) :
    us.foldl absorb h = Int32.ofInt (h.toInt * 31 ^ us.length) + us.foldl absorb 0 := by
  calc us.foldl absorb h
    _ = us.foldl absorb (Int32.ofInt h.toInt) := by rw [Int32.ofInt_toInt]
    _ = Int32.ofInt (h.toInt * 31 ^ us.length) + Int32.ofInt (inBase31 us) := by
      rw [foldl_absorb_ofInt, Int32.ofInt_add]
    _ = Int32.ofInt (h.toInt * 31 ^ us.length) + us.foldl absorb 0 := by rw [foldl_absorb_zero]

theorem toInt_digest (s : String) :
    (digest s).toInt = (inBase31 (utf16 s) : Int).bmod (2 ^ 32) := by
  have hsize : Int32.size = 2 ^ 32 := by norm_num [Int32.size]
  rw [digest, foldl_absorb_zero, Int32.toInt_ofInt, hsize]

/-- A surrogate pair is two digits. -/
example : inBase31 (utf16 "😀") = 0xD83D * 31 + 0xDE00 := by decide

theorem foldl_absorb_eq_iff (hlen : us.length = vs.length) :
    us.foldl absorb h = vs.foldl absorb h ↔ us.foldl absorb 0 = vs.foldl absorb 0 := by
  rw [foldl_absorb_eq_add us, foldl_absorb_eq_add vs, hlen, Int32.add_right_inj]

/-- Whether texts of one length have one digest does not depend on what stands around them. -/
theorem digest_append_inj (hlen : (utf16 a).length = (utf16 b).length) :
    digest (p ++ a ++ s) = digest (p ++ b ++ s) ↔ digest a = digest b := by
  rw [digest_append (p ++ a), digest_append (p ++ b), foldl_absorb_inj, digest_append,
    digest_append, foldl_absorb_eq_iff hlen, digest, digest]

/-- The texts have as many units, and all of them but one are the same. -/
def DifferInOneUnit (s t : String) : Prop :=
  ∃ before u v behind, u ≠ v ∧ utf16 s = before ++ u :: behind ∧ utf16 t = before ++ v :: behind

theorem DifferInOneUnit.digest_ne (hst : DifferInOneUnit s t) : digest s ≠ digest t := by
  obtain ⟨before, u, v, behind, hne, hs, ht⟩ := hst
  rw [digest, digest, hs, ht, List.foldl_append, List.foldl_append, List.foldl_cons,
    List.foldl_cons, ne_eq, foldl_absorb_inj, absorb_right_inj]
  exact hne

/-- Two units that differ may make up for one another. -/
example : digest "Aa" = digest "BB" := by decide

/-- The units of such texts differ at one place and at no other. -/
theorem DifferInOneUnit.existsUnique (h : DifferInOneUnit s t) :
    (utf16 s).length = (utf16 t).length ∧ ∃! i : Nat, (utf16 s)[i]? ≠ (utf16 t)[i]? := by
  obtain ⟨before, u, v, behind, hne, hs, ht⟩ := h
  rw [hs, ht]
  refine ⟨by simp, before.length, by simpa using hne, fun i hi => ?_⟩
  by_contra hother
  refine hi ?_
  rcases Nat.lt_or_gt_of_ne hother with hlt | hgt
  · rw [List.getElem?_append_left hlt, List.getElem?_append_left hlt]
  · obtain ⟨k, rfl⟩ := Nat.exists_eq_add_of_lt hgt
    have hk : before.length + k + 1 - before.length = k + 1 := by omega
    rw [List.getElem?_append_right (Nat.le_of_lt hgt),
      List.getElem?_append_right (Nat.le_of_lt hgt), hk, List.getElem?_cons_succ,
      List.getElem?_cons_succ]

theorem differInOneUnit_iff :
    DifferInOneUnit s t ↔
      (utf16 s).length = (utf16 t).length ∧ ∃! i : Nat, (utf16 s)[i]? ≠ (utf16 t)[i]? := by
  refine ⟨DifferInOneUnit.existsUnique, ?_⟩
  rintro ⟨hlen, i, hi, hunique⟩
  have hs : i < (utf16 s).length := by
    by_contra hbehind
    exact hi (by rw [List.getElem?_eq_none (by omega), List.getElem?_eq_none (by omega)])
  have ht : i < (utf16 t).length := hlen ▸ hs
  have hne : (utf16 s)[i] ≠ (utf16 t)[i] := fun heq =>
    hi (by rw [List.getElem?_eq_getElem hs, List.getElem?_eq_getElem ht, heq])
  have hset : utf16 t = (utf16 s).set i (utf16 t)[i] := by
    refine List.ext_getElem? fun j => ?_
    by_cases hj : i = j
    · rw [← hj, List.getElem?_set_self hs, List.getElem?_eq_getElem ht]
    · rw [List.getElem?_set_ne hj]
      by_contra hdiffer
      exact hj (hunique j (Ne.symm hdiffer)).symm
  rw [List.set_eq_take_append_cons_drop, if_pos hs] at hset
  refine ⟨(utf16 s).take i, (utf16 s)[i], (utf16 t)[i], (utf16 s).drop (i + 1), hne, ?_, hset⟩
  rw [List.getElem_cons_drop, List.take_append_drop]

end Text

open Text (digest utf16 inBase31)

namespace Node

variable {m n : Node}

theorem text_eq_iff : m.text = n.text ↔ m = n := by
  rw [text, text, Transform.canonical_toJson_eq_iff]
  exact ⟨eq_of_transform_eq, congrArg transform⟩

/-- A hash says no more than the digest that it holds. -/
theorem hash_eq_iff : m.hash = n.hash ↔ Text.digest m.text = Text.digest n.text := by
  refine (String.append_right_inj "WindowTransform ").trans ?_
  rw [String.ofList_inj, Json.intChars_injective.eq_iff, Int32.toInt_inj]

end Node

/-- The digest of a text is the signed word of 32 bits that its units stand for as digits in base
31. So what texts of one length have in front and behind alike neither makes nor mends a difference,
and texts of one length that differ in just one unit have two digests. Nodes with such texts have
two hashes. -/
theorem digests_are_words_in_base31 (p a b s t : String) (m n : Node) :
    (digest s).toInt = (inBase31 (utf16 s) : Int).bmod (2 ^ 32) ∧
      ((utf16 a).length = (utf16 b).length →
        (digest (p ++ a ++ s) = digest (p ++ b ++ s) ↔ digest a = digest b)) ∧
      ((utf16 s).length = (utf16 t).length → (∃! i : Nat, (utf16 s)[i]? ≠ (utf16 t)[i]?) →
        digest s ≠ digest t) ∧
      ((utf16 m.text).length = (utf16 n.text).length →
        (∃! i : Nat, (utf16 m.text)[i]? ≠ (utf16 n.text)[i]?) → m.hash ≠ n.hash) := by
  refine ⟨Text.toInt_digest s, Text.digest_append_inj, fun hlen hone => ?_, fun hlen hone => ?_⟩
  · exact (Text.differInOneUnit_iff.2 ⟨hlen, hone⟩).digest_ne
  · rw [ne_eq, Node.hash_eq_iff]
    exact (Text.differInOneUnit_iff.2 ⟨hlen, hone⟩).digest_ne

/-- Texts that differ in a digit have two digests, and so have four tiles and five; `Aa` and `BB`
have one digest in any place. -/
theorem four_and_five_tiles_apart :
    let four := Node.ofTransform (.tiles none (.whole 4 (by decide)))
    let five := Node.ofTransform (.tiles none (.whole 5 (by decide)))
    (digest "r4").toInt = (inBase31 (utf16 "r4") : Int).bmod (2 ^ 32) ∧
      digest ("c" ++ "Aa" ++ "r4") = digest ("c" ++ "BB" ++ "r4") ∧ digest "r4" ≠ digest "r5" ∧
      four.hash ≠ five.hash := by
  intro four five
  obtain ⟨hword, hplace, htexts, hnodes⟩ :=
    digests_are_words_in_base31 "c" "Aa" "BB" "r4" "r5" four five
  have hdigits : Text.DifferInOneUnit "r4" "r5" :=
    ⟨utf16 "r", 0x34, 0x35, [], by decide, by decide, by decide⟩
  have htiles : Text.DifferInOneUnit four.text five.text :=
    ⟨(utf16 four.text).take 76, 0x34, 0x35, (utf16 four.text).drop 77, by decide, by decide +kernel,
      by decide +kernel⟩
  obtain ⟨hlen, hone⟩ := hdigits.existsUnique
  obtain ⟨hlen', hone'⟩ := htiles.existsUnique
  exact ⟨hword, (hplace (by decide)).2 (by decide), htexts hlen hone, hnodes hlen' hone'⟩

end WindowFlow
