import Mathlib.Data.List.TakeWhile
import Mathlib.Data.Rat.Defs
import Mathlib.Tactic.Common

/-!
Decimal floating point numbers as a sign, a coefficient and an exponent, the text that shows one, and
the numbers that a text denotes.
-/

namespace MapBackend.Library

inductive Decimal where
  | finite (negative : Bool) (coefficient : ℕ) (exponent : ℤ)
  | infinity (negative : Bool)
  | nan (negative signaling : Bool) (payload : ℕ)
  deriving DecidableEq

namespace Decimal

def isFinite : Decimal → Bool
  | .finite _ _ _ => true
  | _ => false

def value : Decimal → ℚ
  | .finite negative coefficient exponent =>
    (if negative then -1 else 1) * coefficient * (if 0 ≤ exponent then 10 ^ exponent.toNat else 1 / 10 ^ (-exponent).toNat)
  | _ => 0

def representable : Decimal → Bool
  | .finite _ coefficient exponent =>
    decide (-1999999999999999997 ≤ exponent) &&
      decide (exponent + (Nat.toDigits 10 coefficient).length ≤ 1000000000000000000)
  | _ => true

/-! ## The text of a number -/

def signText (negative : Bool) : List Char := if negative then ['-'] else []

def exponentText (n : ℤ) : List Char :=
  'E' :: (if n < 0 then '-' else '+') :: Nat.toDigits 10 n.natAbs

/-- The digits with the point after this many of them, zeros in front where it stands before them. -/
def pointed (digits : List Char) (place : ℤ) : List Char :=
  if place ≤ 0 then '0' :: '.' :: (List.replicate (-place).toNat '0' ++ digits)
  else if digits.length ≤ place then digits ++ List.replicate (place.toNat - digits.length) '0'
  else digits.take place.toNat ++ '.' :: digits.drop place.toNat

def shown : Decimal → List Char
  | .finite negative coefficient exponent =>
    let digits := Nat.toDigits 10 coefficient
    let left := exponent + digits.length
    signText negative ++
      if exponent ≤ 0 ∧ -6 < left then pointed digits left
      else pointed digits 1 ++ if left = 1 then [] else exponentText (left - 1)
  | .infinity negative => signText negative ++ "Infinity".toList
  | .nan negative signaling payload =>
    signText negative ++ (if signaling then ['s'] else []) ++ "NaN".toList ++ if payload = 0 then [] else Nat.toDigits 10 payload

/-! ## The number of a text -/

def readInteger : List Char → Option ℤ
  | '-' :: rest => if rest ≠ [] ∧ rest.all Char.isDigit then some (-(Nat.ofDigitChars 10 rest 0 : ℤ)) else none
  | '+' :: rest => if rest ≠ [] ∧ rest.all Char.isDigit then some (Nat.ofDigitChars 10 rest 0 : ℤ) else none
  | rest => if rest ≠ [] ∧ rest.all Char.isDigit then some (Nat.ofDigitChars 10 rest 0 : ℤ) else none

def readExponent : List Char → Option ℤ
  | [] => some 0
  | c :: rest => if c = 'e' ∨ c = 'E' then readInteger rest else none

def splitNumber (text : List Char) : List Char × List Char × List Char :=
  let whole := text.takeWhile Char.isDigit
  match text.dropWhile Char.isDigit with
  | '.' :: rest => (whole, rest.takeWhile Char.isDigit, rest.dropWhile Char.isDigit)
  | rest => (whole, [], rest)

def readFinite (negative : Bool) (text : List Char) : Option Decimal :=
  let (whole, fraction, rest) := splitNumber text
  if whole ++ fraction = [] then none
  else (readExponent rest).map fun exponent =>
    .finite negative (Nat.ofDigitChars 10 (whole ++ fraction) 0) (exponent - fraction.length)

def readSpecial (negative : Bool) (text : List Char) : Option Decimal :=
  let lower := text.map Char.toLower
  if lower = "inf".toList ∨ lower = "infinity".toList then some (.infinity negative)
  else if "nan".toList.isPrefixOf lower && (lower.drop 3).all Char.isDigit then
    some (.nan negative false (Nat.ofDigitChars 10 (lower.drop 3) 0))
  else if "snan".toList.isPrefixOf lower && (lower.drop 4).all Char.isDigit then
    some (.nan negative true (Nat.ofDigitChars 10 (lower.drop 4) 0))
  else none

def readUnsigned (negative : Bool) (text : List Char) : Option Decimal :=
  match readFinite negative text with
  | some number => some number
  | none => readSpecial negative text

def read : List Char → Option Decimal
  | '-' :: rest => readUnsigned true rest
  | '+' :: rest => readUnsigned false rest
  | rest => readUnsigned false rest

/-! ## The text is read back -/

theorem digits_isDigit (n : ℕ) : ∀ c ∈ Nat.toDigits 10 n, c.isDigit = true :=
  fun _ mem => Nat.isDigit_of_mem_toDigits (by decide) (by decide) mem

theorem zeros_isDigit (n : ℕ) : ∀ c ∈ List.replicate n '0', c.isDigit = true := by
  intro c mem
  rw [List.eq_of_mem_replicate mem]
  rfl

theorem splitNumber_whole {whole rest : List Char} (digits : ∀ c ∈ whole, c.isDigit = true)
    (stops : ∀ c ∈ rest.head?, c.isDigit = false ∧ c ≠ '.') : splitNumber (whole ++ rest) = (whole, [], rest) := by
  unfold splitNumber
  rw [List.takeWhile_append_of_pos digits, List.dropWhile_append_of_pos digits]
  cases rest with
  | nil => simp
  | cons c =>
    obtain ⟨other, point⟩ := stops c rfl
    rw [List.takeWhile_cons_of_neg (by rw [other]; decide), List.dropWhile_cons_of_neg (by rw [other]; decide), List.append_nil]
    split
    · next same =>
      cases same
      exact absurd rfl point
    · rfl

theorem splitNumber_point {whole fraction rest : List Char} (digits : ∀ c ∈ whole, c.isDigit = true)
    (more : ∀ c ∈ fraction, c.isDigit = true) (stops : ∀ c ∈ rest.head?, c.isDigit = false) :
    splitNumber (whole ++ '.' :: (fraction ++ rest)) = (whole, fraction, rest) := by
  have point : ('.' : Char).isDigit = false := rfl
  unfold splitNumber
  rw [List.takeWhile_append_of_pos digits, List.dropWhile_append_of_pos digits,
    List.takeWhile_cons_of_neg (by rw [point]; decide), List.dropWhile_cons_of_neg (by rw [point]; decide), List.append_nil]
  change (whole, (fraction ++ rest).takeWhile Char.isDigit, (fraction ++ rest).dropWhile Char.isDigit) = _
  rw [List.takeWhile_append_of_pos more, List.dropWhile_append_of_pos more]
  cases rest with
  | nil => simp
  | cons c =>
    have other := stops c rfl
    rw [List.takeWhile_cons_of_neg (by rw [other]; decide), List.dropWhile_cons_of_neg (by rw [other]; decide), List.append_nil]

theorem readInteger_exponent (n : ℤ) : readExponent (exponentText n) = some n := by
  have digits : (Nat.toDigits 10 n.natAbs).all Char.isDigit = true := List.all_eq_true.mpr (digits_isDigit _)
  have written : Nat.toDigits 10 n.natAbs ≠ [] := Nat.toDigits_ne_nil
  unfold exponentText
  change (if 'E' = 'e' ∨ 'E' = 'E' then readInteger ((if n < 0 then '-' else '+') :: Nat.toDigits 10 n.natAbs) else none) = _
  rw [if_pos (Or.inr rfl)]
  by_cases negative : n < 0
  · rw [if_pos negative, readInteger, if_pos ⟨written, digits⟩, Nat.ofDigitChars_ten_toDigits]
    exact congrArg some (by omega)
  · rw [if_neg negative, readInteger, if_pos ⟨written, digits⟩, Nat.ofDigitChars_ten_toDigits]
    exact congrArg some (by omega)

theorem ofDigitChars_zeros (n : ℕ) (digits : List Char) :
    Nat.ofDigitChars 10 ('0' :: (List.replicate n '0' ++ digits)) 0 = Nat.ofDigitChars 10 digits 0 := by
  rw [← List.cons_append, ← List.replicate_succ, Nat.ofDigitChars_append, Nat.ofDigitChars_replicate_zero, Nat.mul_zero]

theorem readFinite_pointed {negative : Bool} {digits rest : List Char} {place exponent : ℤ}
    (isDigit : ∀ c ∈ digits, c.isDigit = true) (written : digits ≠ []) (inside : place ≤ digits.length)
    (stops : ∀ c ∈ rest.head?, c.isDigit = false ∧ c ≠ '.') (tail : readExponent rest = some exponent) :
    readFinite negative (pointed digits place ++ rest) =
      some (.finite negative (Nat.ofDigitChars 10 digits 0) (exponent - (digits.length - place))) := by
  unfold readFinite pointed
  by_cases front : place ≤ 0
  · rw [if_pos front]
    have fraction : ∀ c ∈ List.replicate (-place).toNat '0' ++ digits, c.isDigit = true := by
      intro c mem
      rcases List.mem_append.mp mem with zero | digit
      · exact zeros_isDigit _ c zero
      · exact isDigit c digit
    have zero : ∀ c ∈ ['0'], c.isDigit = true := fun c mem => (List.mem_singleton.mp mem) ▸ rfl
    have split := splitNumber_point zero fraction fun c head => (stops c head).1
    simp only [List.cons_append, List.nil_append] at split ⊢
    rw [split]
    simp only [tail, Option.map_some, List.cons_append, List.nil_append]
    rw [if_neg (List.cons_ne_nil _ _), ofDigitChars_zeros, List.length_append, List.length_replicate]
    congr 2
    omega
  · rw [if_neg front]
    by_cases whole : (digits.length : ℤ) ≤ place
    · have none_left : place.toNat - digits.length = 0 := by omega
      rw [if_pos whole, none_left, List.replicate_zero, List.append_nil, splitNumber_whole isDigit stops]
      simp only [List.append_nil, if_neg written, tail, Option.map_some, List.length_nil]
      congr 2
      omega
    · rw [if_neg whole, List.append_assoc, List.cons_append,
        splitNumber_point (fun c mem => isDigit c (List.mem_of_mem_take mem)) (fun c mem => isDigit c (List.mem_of_mem_drop mem))
          fun c head => (stops c head).1]
      simp only [List.take_append_drop, if_neg written, tail, Option.map_some, List.length_drop]
      congr 2
      omega

theorem read_digit {text : List Char} (starts : ∀ c ∈ text.head?, c.isDigit = true) : read text = readUnsigned false text := by
  unfold read
  split
  · exact absurd (starts '-' rfl) (by decide)
  · exact absurd (starts '+' rfl) (by decide)
  · rfl

theorem pointed_head {digits : List Char} (isDigit : ∀ c ∈ digits, c.isDigit = true) (written : digits ≠ []) (place : ℤ)
    (rest : List Char) : ∀ c ∈ (pointed digits place ++ rest).head?, c.isDigit = true := by
  obtain ⟨first, _, rfl⟩ := List.exists_cons_of_ne_nil written
  have digit := isDigit first List.mem_cons_self
  intro c head
  unfold pointed at head
  split at head
  · cases head
    rfl
  · split at head
    · cases head
      exact digit
    · next front inside =>
      obtain ⟨k, positive⟩ : ∃ k, place.toNat = k + 1 := ⟨place.toNat - 1, by omega⟩
      rw [positive] at head
      cases head
      exact digit

theorem read_shown (negative : Bool) (coefficient : ℕ) (exponent : ℤ) :
    read (shown (.finite negative coefficient exponent)) = some (.finite negative coefficient exponent) := by
  have isDigit := digits_isDigit coefficient
  have written : Nat.toDigits 10 coefficient ≠ [] := Nat.toDigits_ne_nil
  have positive : 0 < (Nat.toDigits 10 coefficient).length := List.length_pos_iff.mpr written
  have same : Nat.ofDigitChars 10 (Nat.toDigits 10 coefficient) 0 = coefficient := Nat.ofDigitChars_ten_toDigits
  unfold shown
  dsimp only
  generalize Nat.toDigits 10 coefficient = digits at *
  -- the unsigned text is a pointed coefficient and an exponent
  have body : ∃ place rest, (if exponent ≤ 0 ∧ -6 < exponent + digits.length then pointed digits (exponent + digits.length)
      else pointed digits 1 ++ if exponent + digits.length = 1 then [] else exponentText (exponent + digits.length - 1)) =
        pointed digits place ++ rest ∧ readFinite negative (pointed digits place ++ rest) =
          some (.finite negative coefficient exponent) := by
    by_cases plain : exponent ≤ 0 ∧ -6 < exponent + digits.length
    · refine ⟨exponent + digits.length, [], (if_pos plain).trans (List.append_nil _).symm, ?_⟩
      have read_back := @readFinite_pointed negative digits [] (exponent + digits.length) 0 isDigit written (by omega)
        (fun c head => nomatch head) rfl
      rw [read_back, same]
      congr 2
      omega
    · have scientific : exponent + digits.length ≠ 1 := by omega
      refine ⟨1, exponentText (exponent + digits.length - 1), (if_neg plain).trans (by rw [if_neg scientific]), ?_⟩
      have read_back := @readFinite_pointed negative digits (exponentText (exponent + digits.length - 1)) 1 _ isDigit written
        (by omega) (fun c head => by cases head; exact ⟨rfl, by decide⟩) (readInteger_exponent _)
      rw [read_back, same]
      congr 2
      omega
  obtain ⟨place, rest, text, number⟩ := body
  rw [text]
  cases negative with
  | false =>
    rw [signText, if_neg (by decide), List.nil_append, read_digit (pointed_head isDigit written place rest), readUnsigned, number]
  | true =>
    rw [signText, if_pos rfl, List.cons_append, List.nil_append, read, readUnsigned, number]

def isNumeric (c : Char) : Bool := c.isDigit || c == '+' || c == '-' || c == '.' || c == 'E'

theorem numeric_of_digit {c : Char} (digit : c.isDigit = true) : isNumeric c = true := by simp [isNumeric, digit]

theorem pointed_numeric {digits : List Char} (isDigit : ∀ c ∈ digits, c.isDigit = true) (place : ℤ) :
    ∀ c ∈ pointed digits place, isNumeric c = true := by
  intro c mem
  unfold pointed at mem
  split at mem
  · rcases List.mem_cons.mp mem with rfl | mem
    · rfl
    · rcases List.mem_cons.mp mem with rfl | mem
      · rfl
      · rcases List.mem_append.mp mem with zero | digit
        · exact numeric_of_digit (zeros_isDigit _ c zero)
        · exact numeric_of_digit (isDigit c digit)
  · split at mem
    · rcases List.mem_append.mp mem with digit | zero
      · exact numeric_of_digit (isDigit c digit)
      · exact numeric_of_digit (zeros_isDigit _ c zero)
    · rcases List.mem_append.mp mem with digit | mem
      · exact numeric_of_digit (isDigit c (List.mem_of_mem_take digit))
      · rcases List.mem_cons.mp mem with rfl | digit
        · rfl
        · exact numeric_of_digit (isDigit c (List.mem_of_mem_drop digit))

theorem exponentText_numeric (n : ℤ) : ∀ c ∈ exponentText n, isNumeric c = true := by
  intro c mem
  unfold exponentText at mem
  rcases List.mem_cons.mp mem with rfl | mem
  · rfl
  · rcases List.mem_cons.mp mem with sign | digit
    · rw [sign]
      split <;> rfl
    · exact numeric_of_digit (digits_isDigit _ c digit)

theorem shown_numeric (negative : Bool) (coefficient : ℕ) (exponent : ℤ) :
    ∀ c ∈ shown (.finite negative coefficient exponent), isNumeric c = true := by
  have isDigit := digits_isDigit coefficient
  intro c mem
  unfold shown at mem
  rcases List.mem_append.mp mem with sign | mem
  · cases negative with
    | false => cases sign
    | true =>
      rw [List.mem_singleton.mp sign]
      rfl
  · split at mem
    · exact pointed_numeric isDigit _ c mem
    · rcases List.mem_append.mp mem with digit | mem
      · exact pointed_numeric isDigit _ c digit
      · split at mem
        · cases mem
        · exact exponentText_numeric _ c mem

/-! ## The words for what is not a number -/

theorem readFinite_word {negative : Bool} {c : Char} {rest : List Char} (letter : c.isDigit = false) (point : c ≠ '.') :
    readFinite negative (c :: rest) = none := by
  have split : splitNumber (c :: rest) = ([], [], c :: rest) :=
    @splitNumber_whole [] _ (fun d none => nomatch none) fun d head => by
      obtain rfl := Option.some.inj head
      exact ⟨letter, point⟩
  unfold readFinite
  rw [split]
  rfl

theorem readSpecial_infinite {negative : Bool} {text : List Char} {d : Decimal} (found : readSpecial negative text = some d) :
    d.isFinite = false := by
  unfold readSpecial at found
  dsimp only at found
  split at found
  · obtain rfl := Option.some.inj found
    rfl
  · split at found
    · obtain rfl := Option.some.inj found
      rfl
    · split at found
      · obtain rfl := Option.some.inj found
        rfl
      · cases found

theorem readUnsigned_word {negative : Bool} {c : Char} {rest : List Char} {d : Decimal} (letter : c.isDigit = false) (point : c ≠ '.')
    (found : readUnsigned negative (c :: rest) = some d) : d.isFinite = false := by
  unfold readUnsigned at found
  rw [readFinite_word letter point] at found
  exact readSpecial_infinite found

theorem shown_special {d : Decimal} (special : d.isFinite = false) :
    ∃ sign c rest, d.shown = signText sign ++ c :: rest ∧ c.isDigit = false ∧ c ≠ '.' ∧ c ≠ '+' ∧ c ≠ '-' ∧
      ∀ e ∈ d.shown, e.toNat < 128 ∧ 44 < e.toNat ∧ e ≠ '_' := by
  have plain (negative : Bool) (word : List Char) (letters : ∀ e ∈ word, e.toNat < 128 ∧ 44 < e.toNat ∧ e ≠ '_') :
      ∀ e ∈ signText negative ++ word, e.toNat < 128 ∧ 44 < e.toNat ∧ e ≠ '_' := by
    intro e mem
    rcases List.mem_append.mp mem with sign | letter
    · cases negative with
      | false => cases sign
      | true =>
        rw [List.mem_singleton.mp sign]
        decide
    · exact letters e letter
  have digits (n : ℕ) : ∀ e ∈ Nat.toDigits 10 n, e.toNat < 128 ∧ 44 < e.toNat ∧ e ≠ '_' := by
    intro e mem
    have range : 48 ≤ e.toNat ∧ e.toNat ≤ 57 := Char.isDigit_iff_toNat.mp (digits_isDigit n e mem)
    refine ⟨by omega, by omega, fun same => ?_⟩
    rw [same] at range
    revert range
    decide
  cases d with
  | finite => cases special
  | infinity negative =>
    refine ⟨negative, 'I', "nfinity".toList, rfl, rfl, by decide, by decide, by decide, plain negative _ fun e mem => ?_⟩
    have all : "Infinity".toList.all (fun e => e.toNat < 128 && 44 < e.toNat && e != '_') = true := by decide
    simpa [and_assoc] using List.all_eq_true.mp all e mem
  | nan negative signaling payload =>
    have tail : ∀ e ∈ "NaN".toList ++ (if payload = 0 then [] else Nat.toDigits 10 payload),
        e.toNat < 128 ∧ 44 < e.toNat ∧ e ≠ '_' := by
      intro e mem
      rcases List.mem_append.mp mem with word | number
      · have all : "NaN".toList.all (fun e => e.toNat < 128 && 44 < e.toNat && e != '_') = true := by decide
        simpa [and_assoc] using List.all_eq_true.mp all e word
      · split at number
        · cases number
        · exact digits payload e number
    have text : shown (.nan negative signaling payload) = signText negative ++ ((if signaling then ['s'] else []) ++
        ("NaN".toList ++ if payload = 0 then [] else Nat.toDigits 10 payload)) := by
      simp only [shown, List.append_assoc]
    rw [text]
    cases signaling with
    | false => exact ⟨negative, 'N', _, rfl, rfl, by decide, by decide, by decide, plain negative _ tail⟩
    | true =>
      refine ⟨negative, 's', _, rfl, rfl, by decide, by decide, by decide, plain negative _ fun e mem => ?_⟩
      rcases List.mem_cons.mp mem with rfl | mem
      · decide
      · exact tail e mem

theorem read_shown_special {d e : Decimal} (special : d.isFinite = false) (found : read d.shown = some e) : e.isFinite = false := by
  obtain ⟨sign, c, _, text, letter, point, plus, minus, -⟩ := shown_special special
  rw [text] at found
  cases sign with
  | true =>
    rw [signText, if_pos rfl] at found
    exact readUnsigned_word letter point found
  | false =>
    rw [signText, if_neg (by decide), List.nil_append] at found
    unfold read at found
    split at found
    · next same => exact absurd (List.cons_eq_cons.mp same).1 minus
    · next same => exact absurd (List.cons_eq_cons.mp same).1 plus
    · exact readUnsigned_word letter point found

end Decimal

end MapBackend.Library
