import MapBackend.AIAgent.ProviderOperations
import MapBackend.Library.Decimals

/-!
The decimal numbers that Python reads from a text.
-/

namespace MapBackend.Core
open MapBackend.Library

abbrev PyDecimal := {d : Decimal // d.representable = true}

/-- A character of a number: a decimal digit of any script is the one of its value. -/
def asciiOf (c : Char) : Option Char :=
  if c.toNat < 128 then some c else (AIAgent.digitValue c).map Nat.digitChar

/-- `Decimal(text)`. Outer blanks and all underscores do not count. -/
def decimalOf (text : Text) : Option PyDecimal :=
  match (((Url.strip text).filter fun c => c != '_').mapM asciiOf).bind Decimal.read with
  | none => none
  | some d => if valid : d.representable = true then some ⟨d, valid⟩ else none

theorem numeric_plain {c : Char} (numeric : Decimal.isNumeric c = true) :
    c.toNat < 128 ∧ Url.isSpace c = false ∧ (c != '_') = true := by
  have range : 48 ≤ c.toNat ∧ c.toNat ≤ 57 ∨ c.toNat = 43 ∨ c.toNat = 45 ∨ c.toNat = 46 ∨ c.toNat = 69 := by
    simp only [Decimal.isNumeric, Bool.or_eq_true, beq_iff_eq] at numeric
    rcases numeric with (((digit | rfl) | rfl) | rfl) | rfl
    · exact .inl (Char.isDigit_iff_toNat.mp digit)
    all_goals decide
  refine ⟨by omega, ?_, bne_iff_ne.mpr fun same => ?_⟩
  · simp only [Url.isSpace, Bool.or_eq_false_iff, Bool.and_eq_false_iff, decide_eq_false_iff_not, beq_eq_false_iff_ne]
    omega
  · rw [same] at range
    revert range
    decide

theorem strip_plain {text : Text} (plain : ∀ c ∈ text, Url.isSpace c = false) : Url.strip text = text := by
  have left : text.dropWhile Url.isSpace = text := by
    cases text with
    | nil => rfl
    | cons c => exact List.dropWhile_cons_of_neg (by rw [plain c List.mem_cons_self]; decide)
  have right : text.reverse.dropWhile Url.isSpace = text.reverse := by
    cases shape : text.reverse with
    | nil => rfl
    | cons c =>
      have mem : c ∈ text := List.mem_reverse.mp (shape ▸ List.mem_cons_self)
      exact List.dropWhile_cons_of_neg (by rw [plain c mem]; decide)
  rw [Url.strip, left, Url.rstrip, right, List.reverse_reverse]

theorem mapM_ascii {text : Text} (ascii : ∀ c ∈ text, c.toNat < 128) : text.mapM asciiOf = some text := by
  induction text with
  | nil => rfl
  | cons c _ ih =>
    have own : asciiOf c = some c := if_pos (ascii c List.mem_cons_self)
    rw [List.mapM_cons, own, ih fun d mem => ascii d (List.mem_cons_of_mem _ mem)]
    rfl

theorem decimalOf_shown (d : PyDecimal) (finite : d.val.isFinite = true) : decimalOf d.val.shown = some d := by
  obtain ⟨d, valid⟩ := d
  cases d with
  | finite negative coefficient exponent =>
    have plain (c : Char) (mem : c ∈ Decimal.shown (.finite negative coefficient exponent)) :=
      numeric_plain (Decimal.shown_numeric negative coefficient exponent c mem)
    have read := Decimal.read_shown negative coefficient exponent
    generalize Decimal.shown (.finite negative coefficient exponent) = text at plain read
    unfold decimalOf
    rw [strip_plain fun c mem => (plain c mem).2.1, List.filter_eq_self.mpr fun c mem => (plain c mem).2.2,
      mapM_ascii fun c mem => (plain c mem).1, Option.bind_some, read]
    exact dif_pos valid
  | infinity => cases finite
  | nan => cases finite

theorem decimalOf_shown_special {d e : PyDecimal} (special : d.val.isFinite = false) (found : decimalOf d.val.shown = some e) :
    e.val.isFinite = false := by
  obtain ⟨-, -, -, -, -, -, -, -, plain⟩ := Decimal.shown_special special
  have solid : ∀ c ∈ d.val.shown, Url.isSpace c = false := by
    intro c mem
    obtain ⟨_, _, -⟩ := plain c mem
    simp only [Url.isSpace, Bool.or_eq_false_iff, Bool.and_eq_false_iff, decide_eq_false_iff_not, beq_eq_false_iff_ne]
    omega
  unfold decimalOf at found
  rw [strip_plain solid, List.filter_eq_self.mpr fun c mem => bne_iff_ne.mpr (plain c mem).2.2,
    mapM_ascii fun c mem => (plain c mem).1, Option.bind_some] at found
  cases number : Decimal.read d.val.shown with
  | none =>
    rw [number] at found
    cases found
  | some =>
    rw [number] at found
    dsimp only at found
    split at found
    · obtain rfl := Option.some.inj found
      exact Decimal.read_shown_special special number
    · cases found

end MapBackend.Core
