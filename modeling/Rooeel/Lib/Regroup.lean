import Mathlib.Data.Fintype.BigOperators
import Mathlib.Data.List.GetD
import Mathlib.SetTheory.Cardinal.Finite

/-!
# Regrouping the bits of words

The words of a list, all of one width, are written as bits one after the other (`bitString`), and
the bits are read as words of another width (`words`). As long as the bits suffice, every list of
the new words comes from the same number of lists of the old ones (`card_regroup`).
-/

namespace Regroup

variable {w : Nat}

/-! ## One word -/

/-- The bits of a word, the highest first. -/
def bits (x : BitVec w) : List Bool := List.ofFn fun i : Fin w => x.getMsbD i

/-- The word at the front of a list of bits. Bits that are missing are zero. -/
def word (w : Nat) (l : List Bool) : BitVec w :=
  (BitVec.ofBoolListBE (List.ofFn fun i : Fin w => l.getD i false)).cast List.length_ofFn

@[simp] theorem length_bits (x : BitVec w) : (bits x).length = w := List.length_ofFn

theorem getElem_bits (x : BitVec w) {i : Nat} (hi : i < (bits x).length) :
    (bits x)[i] = x.getMsbD i := List.getElem_ofFn _

theorem getMsbD_word (l : List Bool) {i : Nat} (hi : i < w) :
    (word w l).getMsbD i = l.getD i false := by
  unfold word
  rw [BitVec.getMsbD_cast, BitVec.getMsbD_ofBoolListBE,
    List.getD_eq_getElem _ _ (by rw [List.length_ofFn]; exact hi), List.getElem_ofFn]

theorem bits_word {l : List Bool} (h : w ≤ l.length) : bits (word w l) = l.take w := by
  apply List.ext_getElem
  · rw [length_bits, List.length_take, Nat.min_eq_left h]
  · intro i hi hi'
    have hWidth : i < w := by
      rw [length_bits] at hi
      exact hi
    rw [getElem_bits, getMsbD_word l hWidth, List.getElem_take, List.getD_eq_getElem _ _ (by omega)]

theorem word_bits_append (x : BitVec w) (l : List Bool) : word w (bits x ++ l) = x := by
  apply BitVec.eq_of_getMsbD_eq
  intro i hi
  have hLength : i < (bits x).length := by
    rw [length_bits]
    exact hi
  rw [getMsbD_word _ hi, List.getD_append _ _ _ _ hLength, List.getD_eq_getElem _ _ hLength,
    getElem_bits]

/-! ## Lists of words -/

/-- The bits of the words, one after the other. -/
def bitString (ws : List (BitVec w)) : List Bool := ws.flatMap bits

/-- The first `k` words of width `w`. -/
def words (w k : Nat) (l : List Bool) : List (BitVec w) :=
  (List.range k).map fun i => word w (l.drop (w * i))

@[simp] theorem length_words (k : Nat) (l : List Bool) : (words w k l).length = k := by
  unfold words
  rw [List.length_map, List.length_range]

theorem bitString_cons (x : BitVec w) (ws : List (BitVec w)) :
    bitString (x :: ws) = bits x ++ bitString ws := rfl

theorem length_bitString (ws : List (BitVec w)) : (bitString ws).length = w * ws.length := by
  induction ws with
  | nil => rfl
  | cons x ws ih =>
    rw [bitString_cons, List.length_append, length_bits, ih, List.length_cons, Nat.mul_succ,
      Nat.add_comm]

theorem take_words {n k : Nat} (h : n ≤ k) (l : List Bool) :
    (words w k l).take n = words w n l := by
  unfold words
  rw [← List.map_take, List.take_range, Nat.min_eq_left h]

theorem words_succ (k : Nat) (l : List Bool) :
    words w (k + 1) l = words w k l ++ [word w (l.drop (w * k))] := by
  unfold words
  rw [List.range_succ, List.map_append]
  rfl

theorem bitString_words {k : Nat} {l : List Bool} (h : w * k ≤ l.length) :
    bitString (words w k l) = l.take (w * k) := by
  induction k with
  | zero => rfl
  | succ k ih =>
    rw [Nat.mul_succ] at h
    have hLast : bits (word w (l.drop (w * k))) = (l.drop (w * k)).take w :=
      bits_word (by rw [List.length_drop]; omega)
    rw [words_succ, bitString, List.flatMap_append, ← bitString, ih (by omega), Nat.mul_succ,
      List.take_add, ← hLast]
    exact congrArg _ (List.append_nil _)

theorem bitString_words_all {k : Nat} {l : List Bool} (h : l.length = w * k) :
    bitString (words w k l) = l := by
  rw [bitString_words h.ge, ← h, List.take_length]

/-- Words are read back. -/
theorem words_bitString (ws : List (BitVec w)) : words w ws.length (bitString ws) = ws := by
  induction ws with
  | nil => rfl
  | cons x ws ih =>
    have hDrop (i : Nat) : (bitString (x :: ws)).drop (w * (i + 1)) =
        (bitString ws).drop (w * i) := by
      rw [bitString_cons, Nat.mul_succ, Nat.add_comm, ← List.drop_drop]
      congr 1
      rw [List.drop_append_of_le_length (by rw [length_bits]), List.drop_of_length_le (by
        rw [length_bits]), List.nil_append]
    rw [List.length_cons, words, List.range_succ_eq_map, List.map_cons, List.map_map]
    refine congrArg₂ List.cons ?_ ?_
    · rw [Nat.mul_zero, List.drop_zero, bitString_cons, word_bits_append]
    · conv_rhs => rw [← ih]
      refine List.map_congr_left fun i _ => ?_
      exact congrArg (word w) (hDrop i)

/-! ## Counting -/

theorem bitString_inj {vs ws : List (BitVec w)} (hLength : vs.length = ws.length)
    (h : bitString vs = bitString ws) : vs = ws := by
  rw [← words_bitString vs, ← words_bitString ws, h, hLength]

/-- Reading some words fixes the front of the bits. -/
theorem words_eq_iff {k : Nat} {l : List Bool} (h : w * k ≤ l.length) {ws : List (BitVec w)}
    (hLength : ws.length = k) : words w k l = ws ↔ l.take (w * k) = bitString ws := by
  rw [← bitString_words h]
  constructor
  · rintro rfl
    rfl
  · intro hBits
    exact bitString_inj ((length_words k l).trans hLength.symm) hBits

/-- Lists of words and lists of bits. -/
def bitStringEquiv (w k : Nat) (P : List Bool → Prop) :
    {ws : List (BitVec w) // ws.length = k ∧ P (bitString ws)} ≃
      {l : List Bool // l.length = w * k ∧ P l} where
  toFun ws := ⟨bitString ws.1, by rw [length_bitString, ws.2.1], ws.2.2⟩
  invFun l := ⟨words w k l.1, length_words k l.1, by
    rw [bitString_words_all l.2.1]
    exact l.2.2⟩
  left_inv := by
    rintro ⟨ws, rfl, _⟩
    exact Subtype.ext (words_bitString ws)
  right_inv := by
    rintro ⟨l, hLength, _⟩
    exact Subtype.ext (bitString_words_all hLength)

/-- Bits behind a given front. -/
def extensionEquiv (front : List Bool) (m : Nat) :
    {l : List Bool // l.length = front.length + m ∧ l.take front.length = front} ≃
      List.Vector Bool m where
  toFun l := ⟨l.1.drop front.length, by rw [List.length_drop, l.2.1, Nat.add_sub_cancel_left]⟩
  invFun r := ⟨front ++ r.1, by rw [List.length_append, r.2], List.take_left⟩
  left_inv := by
    rintro ⟨l, _, hFront⟩
    have hSplit := List.take_append_drop front.length l
    rw [hFront] at hSplit
    exact Subtype.ext hSplit
  right_inv := by
    rintro ⟨r, _⟩
    exact Subtype.ext List.drop_left

/-- **Regrouping is even.** Every list of `n` words of width `v` is read from the same number of
lists of `k` words of width `w`, which is two to the number of bits that are not read. -/
theorem card_regroup {v w n k : Nat} (h : v * n ≤ w * k) {vs : List (BitVec v)}
    (hLength : vs.length = n) :
    Nat.card {ws : List (BitVec w) // ws.length = k ∧ words v n (bitString ws) = vs} =
      2 ^ (w * k - v * n) := by
  have hFront : (bitString vs).length = v * n := by
    rw [length_bitString, hLength]
  have hRead (l : List Bool) :
      (l.length = w * k ∧ words v n l = vs) ↔
        l.length = (bitString vs).length + (w * k - v * n) ∧
          l.take (bitString vs).length = bitString vs := by
    rw [hFront, Nat.add_sub_cancel' h]
    refine and_congr_right fun hBits => ?_
    exact words_eq_iff (by rw [hBits]; exact h) hLength
  calc
    Nat.card {ws : List (BitVec w) // ws.length = k ∧ words v n (bitString ws) = vs}
      = Nat.card {l : List Bool // l.length = w * k ∧ words v n l = vs} :=
        Nat.card_congr (bitStringEquiv w k fun l => words v n l = vs)
    _ = Nat.card (List.Vector Bool (w * k - v * n)) :=
        Nat.card_congr ((Equiv.subtypeEquivRight hRead).trans (extensionEquiv _ _))
    _ = 2 ^ (w * k - v * n) := by
        rw [Nat.card_eq_fintype_card, card_vector, Fintype.card_bool]

end Regroup
