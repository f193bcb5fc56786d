import Rooeel.Lib.Regroup
import Mathlib.Data.Rat.Floor
import Mathlib.Data.Set.List

/-!
# Random passwords

`PasswordService.generateRandom` writes random bytes in `base64url` and keeps the first characters.
The bytes always have the bits for these characters (`six_mul_le`), so the last one that is kept
is never the padded one, and no password is more likely than another (`generateRandom_even`).
-/

namespace Rooeel

open Regroup

/-! ## The encoding -/

def base64urlAlphabet : List Char :=
  ['A', 'B', 'C', 'D', 'E', 'F', 'G', 'H', 'I', 'J', 'K', 'L', 'M', 'N', 'O', 'P', 'Q', 'R', 'S',
    'T', 'U', 'V', 'W', 'X', 'Y', 'Z', 'a', 'b', 'c', 'd', 'e', 'f', 'g', 'h', 'i', 'j', 'k', 'l',
    'm', 'n', 'o', 'p', 'q', 'r', 's', 't', 'u', 'v', 'w', 'x', 'y', 'z', '0', '1', '2', '3', '4',
    '5', '6', '7', '8', '9', '-', '_']

theorem nodup_base64urlAlphabet : base64urlAlphabet.Nodup := by decide +kernel

def base64urlChar (x : BitVec 6) : Char := base64urlAlphabet.get ⟨x.toNat, x.isLt⟩

/-- `toString('base64url')`: groups of six bits, the last one filled up with zeros, and no
padding. -/
def base64url (bytes : List (BitVec 8)) : String :=
  String.ofList ((words 6 ((8 * bytes.length + 5) / 6) (bitString bytes)).map base64urlChar)

example : base64url [0x4d#8, 0x61#8, 0x6e#8] = "TWFu" ∧ base64url [0x4d#8, 0x61#8] = "TWE" ∧
    base64url [0xff#8] = "_w" := by decide

theorem base64urlChar_mem (x : BitVec 6) : base64urlChar x ∈ base64urlAlphabet :=
  List.get_mem _ _

theorem base64urlChar_injective : Function.Injective base64urlChar := by
  intro x y h
  have hIndex := List.nodup_iff_injective_get.mp nodup_base64urlAlphabet h
  exact BitVec.eq_of_toNat_eq (congrArg Fin.val hIndex)

theorem exists_base64urlChar {c : Char} (h : c ∈ base64urlAlphabet) :
    ∃ x, base64urlChar x = c := by
  obtain ⟨i, rfl⟩ := List.get_of_mem h
  have hLess : i.val < 2 ^ 6 := i.isLt
  have hToNat : (BitVec.ofNat 6 i.val).toNat = i.val := Nat.mod_eq_of_lt hLess
  exact ⟨BitVec.ofNat 6 i.val, congrArg base64urlAlphabet.get (Fin.ext hToNat)⟩

/-- A text over the alphabet is written by one list of groups. -/
theorem exists_groups {text : List Char} (h : ∀ c ∈ text, c ∈ base64urlAlphabet) :
    ∃ groups : List (BitVec 6), groups.map base64urlChar = text := by
  have hRange : text ∈ Set.range (List.map base64urlChar) := by
    rw [Set.range_list_map]
    exact fun c hc => exists_base64urlChar (h c hc)
  exact hRange

/-! ## The password -/

/-- The number of random bytes. -/
def byteCount (length : Nat) : Nat := ⌈(length : ℚ) * 0.75⌉₊

/-- `generateRandom`, when the random bytes are `bytes`. -/
def generateRandom (length : Nat) (bytes : List (BitVec 8)) : String :=
  String.ofList ((base64url bytes).toList.take length)

theorem byteCount_eq (length : Nat) : byteCount length = (3 * length + 3) / 4 := by
  refine eq_of_forall_ge_iff fun m => ?_
  rw [byteCount, Nat.ceil_le]
  have hCast : (length : ℚ) * 0.75 ≤ m ↔ 3 * length ≤ 4 * m := by
    rw [← @Nat.cast_le ℚ]
    push_cast
    constructor
    · intro h
      linarith
    · intro h
      linarith
  rw [hCast]
  omega

/-- The characters that are kept have their bits. -/
theorem six_mul_le (length : Nat) : 6 * length ≤ 8 * byteCount length := by
  rw [byteCount_eq]
  omega

/-- Only groups without padding are kept. -/
theorem generateRandom_eq {length : Nat} {bytes : List (BitVec 8)}
    (h : bytes.length = byteCount length) :
    generateRandom length bytes =
      String.ofList ((words 6 length (bitString bytes)).map base64urlChar) := by
  have hBits := six_mul_le length
  unfold generateRandom base64url
  rw [String.toList_ofList, ← List.map_take, take_words (by omega)]

/-- **Random passwords are even.** A password has the length that is asked for and is written in
the alphabet, and every such text is the password for the same number of random bytes. -/
theorem generateRandom_even (length : Nat) :
    (∀ bytes : List (BitVec 8), bytes.length = byteCount length →
      (generateRandom length bytes).length = length ∧
      ∀ c ∈ (generateRandom length bytes).toList, c ∈ base64urlAlphabet) ∧
    ∀ password : String, password.length = length →
      (∀ c ∈ password.toList, c ∈ base64urlAlphabet) →
      Nat.card {bytes : List (BitVec 8) //
        bytes.length = byteCount length ∧ generateRandom length bytes = password} =
        2 ^ (8 * byteCount length - 6 * length) := by
  constructor
  · intro bytes hBytes
    rw [generateRandom_eq hBytes]
    constructor
    · rw [String.length_ofList, List.length_map, length_words]
    · intro c hc
      rw [String.toList_ofList] at hc
      obtain ⟨x, -, rfl⟩ := List.mem_map.mp hc
      exact base64urlChar_mem x
  · intro password hLength hAlphabet
    obtain ⟨groups, hGroups⟩ := exists_groups hAlphabet
    have hCount : groups.length = length := by
      rw [← hLength, ← String.length_toList, ← hGroups, List.length_map]
    have hPassword (bytes : List (BitVec 8)) :
        (bytes.length = byteCount length ∧ generateRandom length bytes = password) ↔
          bytes.length = byteCount length ∧ words 6 length (bitString bytes) = groups := by
      refine and_congr_right fun hBytes => ?_
      rw [generateRandom_eq hBytes, ← String.toList_inj, String.toList_ofList, ← hGroups]
      exact (List.map_injective_iff.mpr base64urlChar_injective).eq_iff
    rw [Nat.card_congr (Equiv.subtypeEquivRight hPassword)]
    exact card_regroup (six_mul_le length) hCount

/-- A password of the usual length comes from one choice of the bytes, one of thirteen characters
from four. -/
theorem generateRandom_even_twelve :
    Nat.card {bytes : List (BitVec 8) //
      bytes.length = byteCount 12 ∧ generateRandom 12 bytes = "aB3-_xYz09Qq"} = 1 ∧
    Nat.card {bytes : List (BitVec 8) //
      bytes.length = byteCount 13 ∧ generateRandom 13 bytes = "aB3-_xYz09Qqe"} = 4 := by
  have hTwelve : 8 * byteCount 12 - 6 * 12 = 0 := by rw [byteCount_eq]
  have hThirteen : 8 * byteCount 13 - 6 * 13 = 2 := by rw [byteCount_eq]
  constructor
  · rw [(generateRandom_even 12).2 _ (by decide) (by simp [base64urlAlphabet]), hTwelve]
    rfl
  · rw [(generateRandom_even 13).2 _ (by decide) (by simp [base64urlAlphabet]), hThirteen]
    rfl

end Rooeel
