import Mathlib.Data.List.Basic
import Mathlib.Tactic.Common

/-!
Bytes that join several parts: what stands before a separator is known when the separator is not in it.
-/

namespace MapBackend.Library

/-! ## Separators -/

theorem separated_unique {α : Type*} {mark : α} {a b r s : List α} (first : mark ∉ a) (second : mark ∉ b)
    (same : a ++ mark :: r = b ++ mark :: s) : a = b ∧ r = s := by
  induction a generalizing b with
  | nil =>
    cases b with
    | nil => exact ⟨rfl, (List.cons.inj same).2⟩
    | cons => exact absurd ((List.cons.inj same).1 ▸ List.mem_cons_self) second
  | cons x _ ih =>
    cases b with
    | nil => exact absurd ((List.cons.inj same).1 ▸ List.mem_cons_self) first
    | cons =>
      obtain ⟨rfl, tails⟩ := List.cons.inj same
      obtain ⟨rfl, rfl⟩ := ih (fun mem => first (List.mem_cons_of_mem x mem)) (fun mem => second (List.mem_cons_of_mem x mem)) tails
      exact ⟨rfl, rfl⟩

/-! ## UTF-8 -/

def utf8Bytes (text : List Char) : List UInt8 := text.flatMap String.utf8EncodeChar

theorem utf8Bytes_injective {s t : List Char} (same : utf8Bytes s = utf8Bytes t) : s = t := by
  have bytes : s.utf8Encode = t.utf8Encode := congrArg List.toByteArray same
  have texts : String.ofList s = String.ofList t := String.toByteArray_inj.mp bytes
  rw [← String.toList_ofList (l := s), texts, String.toList_ofList]

theorem byte_ne_zero {n : ℕ} (positive : 0 < n) (small : n < 256) : (0 : UInt8) ≠ UInt8.ofNat n := by
  intro zero
  have values := congrArg UInt8.toNat zero
  rw [UInt8.toNat_ofNat', Nat.mod_eq_of_lt small] at values
  exact Nat.ne_of_lt positive values

theorem zero_notMem_utf8EncodeChar {c : Char} (visible : 0 < c.toNat) : (0 : UInt8) ∉ String.utf8EncodeChar c := by
  have positive : 0 < c.val.toNat := visible
  unfold String.utf8EncodeChar
  dsimp only
  split_ifs with one two three
  · exact List.not_mem_cons_of_ne_of_not_mem (byte_ne_zero positive (by omega)) List.not_mem_nil
  · simp only [List.mem_cons, List.not_mem_nil, or_false, not_or]
    exact ⟨byte_ne_zero (by omega) (by omega), byte_ne_zero (by omega) (by omega)⟩
  · simp only [List.mem_cons, List.not_mem_nil, or_false, not_or]
    exact ⟨byte_ne_zero (by omega) (by omega), byte_ne_zero (by omega) (by omega), byte_ne_zero (by omega) (by omega)⟩
  · simp only [List.mem_cons, List.not_mem_nil, or_false, not_or]
    exact ⟨byte_ne_zero (by omega) (by omega), byte_ne_zero (by omega) (by omega), byte_ne_zero (by omega) (by omega),
      byte_ne_zero (by omega) (by omega)⟩

theorem zero_notMem_utf8Bytes {text : List Char} (visible : ∀ c ∈ text, 0 < c.toNat) : (0 : UInt8) ∉ utf8Bytes text := by
  intro mem
  obtain ⟨c, known, inside⟩ := List.mem_flatMap.mp mem
  exact zero_notMem_utf8EncodeChar (visible c known) inside

/-! ## Hexadecimal digits -/

def isHexDigit (c : Char) : Bool := (48 ≤ c.toNat && c.toNat ≤ 57) || (97 ≤ c.toNat && c.toNat ≤ 102)

def hexNibble (c : Char) : ℕ := if c.toNat ≤ 57 then c.toNat - 48 else c.toNat - 87

def fromHex : List Char → List UInt8
  | high :: low :: rest => UInt8.ofNat (16 * hexNibble high + hexNibble low) :: fromHex rest
  | _ => []

theorem hexNibble_lt {c : Char} (digit : isHexDigit c = true) : hexNibble c < 16 := by
  simp only [isHexDigit, Bool.or_eq_true, Bool.and_eq_true, decide_eq_true_eq] at digit
  unfold hexNibble
  split <;> omega

theorem hexNibble_injective {c d : Char} (first : isHexDigit c = true) (second : isHexDigit d = true)
    (same : hexNibble c = hexNibble d) : c = d := by
  simp only [isHexDigit, Bool.or_eq_true, Bool.and_eq_true, decide_eq_true_eq] at first second
  apply Char.toNat_inj.mp
  unfold hexNibble at same
  split at same <;> split at same <;> omega

theorem exists_pair {text : List Char} {n : ℕ} (size : text.length = 2 * (n + 1)) :
    ∃ high low rest, text = high :: low :: rest ∧ rest.length = 2 * n := by
  match text, size with
  | high :: low :: rest, size => exact ⟨high, low, rest, rfl, by simp only [List.length_cons] at size; omega⟩

theorem length_fromHex {text : List Char} {n : ℕ} (size : text.length = 2 * n) : (fromHex text).length = n := by
  induction n generalizing text with
  | zero =>
    rw [List.length_eq_zero_iff.mp size]
    rfl
  | succ _ ih =>
    obtain ⟨_, _, _, rfl, short⟩ := exists_pair size
    rw [fromHex, List.length_cons, ih short]

theorem fromHex_injective {s t : List Char} {n : ℕ} (first : s.all isHexDigit = true) (second : t.all isHexDigit = true)
    (size : s.length = 2 * n) (other : t.length = 2 * n) (same : fromHex s = fromHex t) : s = t := by
  induction n generalizing s t with
  | zero => rw [List.length_eq_zero_iff.mp size, List.length_eq_zero_iff.mp other]
  | succ _ ih =>
    obtain ⟨a, b, u, rfl, short⟩ := exists_pair size
    obtain ⟨c, d, v, rfl, brief⟩ := exists_pair other
    simp only [List.all_cons, Bool.and_eq_true] at first second
    obtain ⟨bytes, rests⟩ := List.cons.inj same
    have high := hexNibble_lt first.1
    have low := hexNibble_lt first.2.1
    have high' := hexNibble_lt second.1
    have low' := hexNibble_lt second.2.1
    have values := congrArg UInt8.toNat bytes
    rw [UInt8.toNat_ofNat', UInt8.toNat_ofNat', Nat.mod_eq_of_lt (by omega), Nat.mod_eq_of_lt (by omega)] at values
    rw [hexNibble_injective first.1 second.1 (by omega), hexNibble_injective first.2.1 second.2.1 (by omega),
      ih first.2.2 second.2.2 short brief rests]

end MapBackend.Library
