import MapBackend.Products.SourcePrice
import Mathlib.Data.Nat.Digits.Defs

/-!
How shops write an amount: groups of thousands, a decimal comma or point and a currency behind it.
-/

namespace MapBackend.Products.Sources
open MapBackend.Library MapBackend.Core Import

inductive Grouping where
  | plain | space | noBreakSpace | comma | dot
  deriving DecidableEq

namespace Grouping

def text : Grouping → Text
  | plain => []
  | space => [' ']
  | noBreakSpace => ['\u00a0']
  | comma => [',']
  | dot => ['.']

def pointed : Grouping → Bool
  | comma | dot => true
  | plain | space | noBreakSpace => false

end Grouping

def grouped (separator : Text) : List Char → Text
  | [] => []
  | [digit] => [digit]
  | digit :: next :: rest =>
    if (next :: rest).length % 3 = 0 then digit :: (separator ++ grouped separator (next :: rest))
    else digit :: grouped separator (next :: rest)

def pointText (point : Char) (fraction : Text) : Text := if fraction = [] then [] else point :: fraction

structure PriceLayout where
  whole : ℕ
  grouping : Grouping
  point : Char
  fraction : List (Fin 10)
  suffix : Text
  isPoint : isPoint point = true
  short : fraction.length ≤ 2
  currency : ∀ c ∈ suffix, isDecimalDigit c = false

namespace PriceLayout

variable (layout : PriceLayout)

def fractionDigits : List Char := layout.fraction.map fun (digit : Fin 10) => Nat.digitChar digit.val

def fractionText : Text := pointText layout.point layout.fractionDigits

def written : Text := grouped layout.grouping.text (Nat.toDigits 10 layout.whole) ++ layout.fractionText ++ layout.suffix

def cents : ℕ := Nat.ofDigitChars 10 (Nat.toDigits 10 layout.whole ++ layout.fractionDigits) 0 * 10 ^ (2 - layout.fraction.length)

def amount : Decimal := .finite false layout.cents (-2)

def Readable : Prop := layout.whole < 10 ^ 26 ∧ (layout.grouping.pointed = true → layout.whole < 1000)

end PriceLayout

/-! ## Rounding whole hundredths -/

theorem roundHalfEven_natCast (n : ℕ) : Double.roundHalfEven n = n :=
  le_antisymm (Double.roundHalfEven_le (by norm_cast)) (Double.le_roundHalfEven (by norm_cast))

theorem quantizeCents_short (coefficient places : ℕ) (short : places ≤ 2) :
    quantizeCents (.finite false coefficient (-(places : ℤ))) =
      if coefficient * 10 ^ (2 - places) < 10 ^ 28 then some (.finite false (coefficient * 10 ^ (2 - places)) (-2)) else none := by
  have hundredths : (Decimal.finite false coefficient (-(places : ℤ))).value * 100 = ((coefficient * 10 ^ (2 - places) : ℕ) : ℚ) := by
    match places, short with
    | 0, _ => simp [Decimal.value]
    | 1, _ => norm_num [Decimal.value]; ring
    | 2, _ => norm_num [Decimal.value, show Int.toNat 2 = 2 from rfl]; ring
  rw [quantizeCents, hundredths, roundHalfEven_natCast, Int.toNat_natCast]

/-! ## Reading digits -/

section Reading

variable {whole fraction blanks core : Text}

theorem strip_append_blanks (plain : ∀ c ∈ core, Url.isSpace c = false) (written : core ≠ [])
    (blank : ∀ c ∈ blanks, Url.isSpace c = true) : Url.strip (core ++ blanks) = core := by
  have kept := strip_plain plain
  obtain ⟨first, rest, rfl⟩ := List.exists_cons_of_ne_nil written
  have solid := plain first List.mem_cons_self
  have left : (first :: rest ++ blanks).dropWhile Url.isSpace = first :: rest ++ blanks :=
    List.dropWhile_cons_of_neg (by rw [solid]; decide)
  have front : (first :: rest).dropWhile Url.isSpace = first :: rest := List.dropWhile_cons_of_neg (by rw [solid]; decide)
  rw [Url.strip, front] at kept
  rw [Url.strip, left, Url.rstrip, List.reverse_append,
    List.dropWhile_append_of_pos (fun c mem => blank c (List.mem_reverse.mp mem))]
  exact kept

/-- The digits before and after the point, with the point when there are digits after it. -/
def decimalText (whole fraction : Text) : Text := whole ++ if fraction = [] then [] else '.' :: fraction

theorem decimalText_chars (digits : ∀ c ∈ whole, c.isDigit = true) (more : ∀ c ∈ fraction, c.isDigit = true) :
    ∀ c ∈ decimalText whole fraction, c.isDigit = true ∨ c = '.' := by
  intro c mem
  rcases List.mem_append.mp mem with front | behind
  · exact .inl (digits c front)
  · split at behind
    · cases behind
    · rcases List.mem_cons.mp behind with point | later
      · exact .inr point
      · exact .inl (more c later)

theorem readFinite_decimalText (digits : ∀ c ∈ whole, c.isDigit = true) (more : ∀ c ∈ fraction, c.isDigit = true)
    (written : whole ≠ []) : Decimal.readFinite false (decimalText whole fraction) =
      some (.finite false (Nat.ofDigitChars 10 (whole ++ fraction) 0) (-(fraction.length : ℤ))) := by
  have nonempty : whole ++ fraction ≠ [] := by simp [written]
  have ends : ∀ c ∈ ([] : Text).head?, c.isDigit = false ∧ c ≠ '.' := fun c head => by cases head
  unfold Decimal.readFinite decimalText
  by_cases short : fraction = []
  · subst short
    have split := Decimal.splitNumber_whole digits ends
    rw [List.append_nil] at split
    rw [if_pos rfl, List.append_nil, split]
    simp only [List.append_nil, if_neg written, Decimal.readExponent, Option.map_some]
    rfl
  · have split := Decimal.splitNumber_point digits more fun c head => (ends c head).1
    rw [List.append_nil] at split
    rw [if_neg short, split]
    simp only [if_neg nonempty, Decimal.readExponent, Option.map_some, Int.zero_sub]

theorem representable_of_lt {coefficient places : ℕ} (short : places ≤ 2) (small : coefficient < 10 ^ 28) :
    Decimal.representable (.finite false coefficient (-(places : ℤ))) = true := by
  have length := Nat.toDigits_length 10 coefficient 28 (by decide) small
  simp only [Decimal.representable, Bool.and_eq_true, decide_eq_true_eq]
  omega

theorem parsePriceText_digits {raw : Text} (normal : normalizedPrice raw = decimalText whole fraction ++ blanks)
    (digits : ∀ c ∈ whole, c.isDigit = true) (more : ∀ c ∈ fraction, c.isDigit = true) (written : whole ≠ [])
    (blank : ∀ c ∈ blanks, Url.isSpace c = true) (short : fraction.length ≤ 2) :
    parsePriceText raw = .ok (if Nat.ofDigitChars 10 (whole ++ fraction) 0 * 10 ^ (2 - fraction.length) < 10 ^ 28
      then some (.finite false (Nat.ofDigitChars 10 (whole ++ fraction) 0 * 10 ^ (2 - fraction.length)) (-2)) else none) := by
  have chars := decimalText_chars digits more
  have plain : ∀ c ∈ decimalText whole fraction, Url.isSpace c = false ∧ c.toNat < 128 ∧ c ≠ '_' := by
    intro c mem
    rcases chars c mem with digit | rfl
    · exact digit_not_space digit
    · decide
  have nonempty : decimalText whole fraction ≠ [] := by simp [decimalText, written]
  have starts : ∀ c ∈ (decimalText whole fraction).head?, c.isDigit = true := by
    obtain ⟨first, _, rfl⟩ := List.exists_cons_of_ne_nil written
    intro c head
    obtain rfl := Option.some.inj head
    exact digits first List.mem_cons_self
  have read : Decimal.read (decimalText whole fraction) =
      some (.finite false (Nat.ofDigitChars 10 (whole ++ fraction) 0) (-(fraction.length : ℤ))) := by
    rw [Decimal.read_digit starts, Decimal.readUnsigned, readFinite_decimalText digits more written]
  unfold parsePriceText decimalOf
  rw [normal, strip_append_blanks (fun c mem => (plain c mem).1) nonempty blank,
    List.filter_eq_self.mpr fun c mem => bne_iff_ne.mpr (plain c mem).2.2, mapM_ascii fun c mem => (plain c mem).2.1,
    Option.bind_some, read]
  dsimp only
  have rounded := quantizeCents_short (Nat.ofDigitChars 10 (whole ++ fraction) 0) fraction.length short
  generalize Nat.ofDigitChars 10 (whole ++ fraction) 0 = coefficient at *
  by_cases small : coefficient * 10 ^ (2 - fraction.length) < 10 ^ 28
  · have held : coefficient < 10 ^ 28 := lt_of_le_of_lt (Nat.le_mul_of_pos_right _ (by positivity)) small
    rw [if_pos small] at rounded
    rw [dif_pos (representable_of_lt short held), Option.bind_some, rounded, if_pos small]
    simp [nonnegative]
  · rw [if_neg small] at rounded
    rw [if_neg small]
    split_ifs
    · rw [Option.bind_some, rounded]
    · rfl

end Reading

/-! ## The number of a layout -/

section Match

variable {separator text : Text}

theorem fraction_digits (fraction : List (Fin 10)) :
    ∀ c ∈ fraction.map (fun (digit : Fin 10) => Nat.digitChar digit.val), c.isDigit = true := by
  have each : ∀ digit : Fin 10, (Nat.digitChar digit.val).isDigit = true := by decide
  intro c mem
  obtain ⟨digit, -, rfl⟩ := List.mem_map.mp mem
  exact each digit

theorem body_of_digit {c : Char} (digit : c.isDigit = true) : isNumberBody c = true := by
  simp [isNumberBody, isDecimalDigit_of_digit digit]

theorem body_not_point {c : Char} (point : isPoint c = true) : isNumberBody c = false := by
  rcases Bool.or_eq_true_iff.mp point with dot | comma
  · rw [beq_iff_eq.mp dot]; decide
  · rw [beq_iff_eq.mp comma]; decide

theorem space_of_body {c : Char} (currency : isDecimalDigit c = false) (body : isNumberBody c = true) : Url.isSpace c = true := by
  have hard : Url.isSpace '\u00a0' = true := by decide
  unfold isNumberBody at body
  rw [currency, Bool.false_or, Bool.or_eq_true_iff] at body
  rcases body with space | same
  · exact space
  · exact beq_iff_eq.mp same ▸ hard

theorem fractionMatch_currency (currency : ∀ c ∈ text, isDecimalDigit c = false) : fractionMatch text = [] := by
  unfold fractionMatch
  split
  · next point digit rest =>
    rw [currency digit (by simp), Bool.and_false, if_neg Bool.false_ne_true]
  · rfl

theorem fractionMatch_point {point : Char} {fraction suffix : Text} (isPoint : isPoint point = true)
    (digits : ∀ c ∈ fraction, c.isDigit = true) (some : fraction ≠ []) (short : fraction.length ≤ 2)
    (ends : fraction.length = 2 ∨ ∀ c ∈ suffix, isDecimalDigit c = false) :
    fractionMatch (point :: (fraction ++ suffix)) = point :: fraction := by
  have decimal : ∀ c ∈ fraction, isDecimalDigit c = true := fun c mem => isDecimalDigit_of_digit (digits c mem)
  match fraction, some, short with
  | [first], _, _ =>
    have own := decimal first (by simp)
    have stop : (suffix.take 1).takeWhile isDecimalDigit = [] := by
      cases suffix with
      | nil => rfl
      | cons next =>
        have other : isDecimalDigit next = false := (ends.resolve_left (by simp)) next List.mem_cons_self
        exact List.takeWhile_cons_of_neg (by rw [other]; decide)
    have both : (Sources.isPoint point && isDecimalDigit first) = true := by rw [isPoint, own]; rfl
    exact (if_pos both).trans (congrArg (point :: first :: ·) stop)
  | [first, second], _, _ =>
    have own := decimal first (by simp)
    have next := decimal second (by simp)
    have both : (Sources.isPoint point && isDecimalDigit first) = true := by rw [isPoint, own]; rfl
    exact (if_pos both).trans (congrArg (point :: first :: ·) (List.takeWhile_cons_of_pos next))

theorem searchPrice_body {body rest : Text} (starts : ∀ c ∈ body.head?, c.isDigit = true) (some : body ≠ [])
    (inside : ∀ c ∈ body, isNumberBody c = true) : searchPrice (body ++ rest) =
      .some (body ++ (rest.takeWhile isNumberBody ++ fractionMatch (rest.dropWhile isNumberBody))) := by
  obtain ⟨first, others, rfl⟩ := List.exists_cons_of_ne_nil some
  have digit : first.isDigit = true := starts first rfl
  have later : ∀ c ∈ others, isNumberBody c = true := fun c mem => inside c (List.mem_cons_of_mem _ mem)
  have unsigned : priceMatch (first :: (others ++ rest)) = unsignedMatch (first :: (others ++ rest)) := by
    unfold priceMatch
    split
    · next same => exact absurd ((List.cons.inj same).1 ▸ digit) (by decide)
    · rfl
  rw [List.cons_append, searchPrice, unsigned, unsignedMatch, if_pos (isDecimalDigit_of_digit digit),
    List.takeWhile_append_of_pos later, List.dropWhile_append_of_pos later]
  simp only [List.cons_append, List.append_assoc]

end Match

/-! ## Groups of thousands -/

section Groups

variable {separator : Text}

variable {digits : List Char}

theorem grouped_mem {c : Char} (mem : c ∈ grouped separator digits) : c ∈ digits ∨ c ∈ separator := by
  fun_induction grouped separator digits with
  | case1 => exact .inl mem
  | case2 digit => exact .inl mem
  | case3 digit next rest third ih =>
    rcases List.mem_cons.mp mem with rfl | mem
    · exact .inl List.mem_cons_self
    · rcases List.mem_append.mp mem with between | behind
      · exact .inr between
      · exact (ih behind).imp_left (List.mem_cons_of_mem _)
  | case4 digit next rest third ih =>
    rcases List.mem_cons.mp mem with rfl | behind
    · exact .inl List.mem_cons_self
    · exact (ih behind).imp_left (List.mem_cons_of_mem _)

theorem grouped_head (digits : List Char) : (grouped separator digits).head? = digits.head? := by
  fun_cases grouped separator digits <;> rfl

theorem grouped_filter {keep : Char → Bool} (dropped : ∀ c ∈ separator, keep c = false)
    (kept : ∀ c ∈ digits, keep c = true) : (grouped separator digits).filter keep = digits := by
  fun_induction grouped separator digits with
  | case1 => rfl
  | case2 digit => exact List.filter_eq_self.mpr kept
  | case3 digit next rest third ih =>
    have gone : separator.filter keep = [] := List.filter_eq_nil_iff.mpr fun c mem => by rw [dropped c mem]; decide
    rw [List.filter_cons_of_pos (kept digit List.mem_cons_self), List.filter_append, gone, List.nil_append,
      ih fun c mem => kept c (List.mem_cons_of_mem _ mem)]
  | case4 digit next rest third ih =>
    rw [List.filter_cons_of_pos (kept digit List.mem_cons_self), ih fun c mem => kept c (List.mem_cons_of_mem _ mem)]

theorem grouped_short (short : digits.length ≤ 3) : grouped separator digits = digits := by
  fun_induction grouped separator digits with
  | case1 => rfl
  | case2 digit => rfl
  | case3 digit next rest third ih =>
    simp only [List.length_cons] at short third
    omega
  | case4 digit next rest third ih =>
    rw [ih (by simp only [List.length_cons] at short ⊢; omega)]

theorem grouped_long (long : 4 ≤ digits.length) : ∃ front first second rest tail,
    front ≠ [] ∧ rest ≠ [] ∧ digits = front ++ first :: second :: rest ∧
      grouped separator digits = front ++ (separator ++ first :: second :: tail) := by
  fun_induction grouped separator digits with
  | case1 => simp at long
  | case2 digit => simp at long
  | case3 digit next rest third ih =>
    match rest, third with
    | second :: third' :: more, third =>
      simp only [List.length_cons] at third
      refine ⟨[digit], next, second, third' :: more, grouped separator (third' :: more), by simp, by simp, rfl, ?_⟩
      rw [grouped, if_neg (by simp only [List.length_cons]; omega), grouped,
        if_neg (by simp only [List.length_cons]; omega)]
      rfl
  | case4 digit next rest third ih =>
    simp only [List.length_cons] at third long
    obtain ⟨front, first, second, others, tail, filled, more, same, parted⟩ :=
      ih (by simp only [List.length_cons]; omega)
    exact ⟨digit :: front, first, second, others, tail, by simp, more, by rw [same]; rfl, by rw [parted]; rfl⟩

end Groups

/-! ## What a layout is read as -/

theorem isKept_of_digit {c : Char} (digit : c.isDigit = true) : isKept c = true := by
  unfold isKept
  rw [Bool.and_eq_true, bne_iff_ne, bne_iff_ne]
  refine ⟨?_, ?_⟩
  · rintro rfl
    exact absurd digit (by decide)
  · rintro rfl
    exact absurd digit (by decide)

theorem commaToPoint_point {point : Char} (isPoint : isPoint point = true) :
    isKept point = true ∧ commaToPoint point = '.' := by
  rcases Bool.or_eq_true_iff.mp isPoint with dot | comma
  · rw [beq_iff_eq.mp dot]; decide
  · rw [beq_iff_eq.mp comma]; decide

def Plain (text : Text) : Prop := ',' ∉ text ∧ '.' ∉ text

theorem plain_digits {text : Text} (digits : ∀ c ∈ text, c.isDigit = true) : Plain text :=
  ⟨fun mem => absurd (digits ',' mem) (by decide), fun mem => absurd (digits '.' mem) (by decide)⟩

theorem plain_blanks {text : Text} (blank : ∀ c ∈ text, Url.isSpace c = true) : Plain text :=
  ⟨fun mem => absurd (blank ',' mem) (by decide), fun mem => absurd (blank '.' mem) (by decide)⟩

theorem Plain.map {text : Text} (plain : Plain text) : text.map commaToPoint = text := by
  refine (List.map_congr_left fun c mem => if_neg ?_).trans (List.map_id text)
  rintro rfl
  exact plain.1 mem

theorem pointText_map {point : Char} {fraction : Text} (isPoint : isPoint point = true) (digits : ∀ c ∈ fraction, c.isDigit = true) :
    ((pointText point fraction).filter isKept).map commaToPoint = pointText '.' fraction := by
  have kept : fraction.filter isKept = fraction := List.filter_eq_self.mpr fun c mem => isKept_of_digit (digits c mem)
  unfold pointText
  split
  · rfl
  · rw [List.filter_cons_of_pos (commaToPoint_point isPoint).1, kept, List.map_cons, (plain_digits digits).map,
      (commaToPoint_point isPoint).2]

theorem pointText_count {fraction : Text} (plain : Plain fraction) : (pointText '.' fraction).count '.' ≤ 1 := by
  unfold pointText
  split
  · simp
  · rw [List.count_cons_self, List.count_eq_zero.mpr plain.2]

section Normal

variable {body digits fraction blanks : Text} {point : Char}

theorem normalizedPrice_pointed (clean : body.filter isKept = digits) (digit : ∀ c ∈ digits, c.isDigit = true)
    (more : ∀ c ∈ fraction, c.isDigit = true) (isPoint : isPoint point = true) (blank : ∀ c ∈ blanks, Url.isSpace c = true) :
    ∃ rest, (∀ c ∈ rest, Url.isSpace c = true) ∧
      normalizedPrice (body ++ (pointText point fraction ++ blanks)) = decimalText digits fraction ++ rest := by
  have white : ∀ c ∈ blanks.filter isKept, Url.isSpace c = true := fun c mem => blank c (List.mem_of_mem_filter mem)
  have shape : ((body ++ (pointText point fraction ++ blanks)).filter isKept).map commaToPoint =
      digits ++ (pointText '.' fraction ++ blanks.filter isKept) := by
    rw [List.filter_append, List.filter_append, List.map_append, List.map_append, clean, (plain_digits digit).map,
      pointText_map isPoint more, (plain_blanks white).map]
  have few : (digits ++ (pointText '.' fraction ++ blanks.filter isKept)).count '.' ≤ 1 := by
    have one := pointText_count (plain_digits more)
    rw [List.count_append, List.count_append, List.count_eq_zero.mpr (plain_digits digit).2,
      List.count_eq_zero.mpr (plain_blanks white).2]
    omega
  refine ⟨blanks.filter isKept, white, ?_⟩
  unfold normalizedPrice
  dsimp only
  rw [shape, if_neg (by omega), decimalText, List.append_assoc]
  rfl

theorem parsePriceText_pointed (clean : body.filter isKept = digits) (digit : ∀ c ∈ digits, c.isDigit = true)
    (some : digits ≠ []) (more : ∀ c ∈ fraction, c.isDigit = true) (short : fraction.length ≤ 2) (isPoint : isPoint point = true)
    (blank : ∀ c ∈ blanks, Url.isSpace c = true) : parsePriceText (body ++ (pointText point fraction ++ blanks)) =
      .ok (if Nat.ofDigitChars 10 (digits ++ fraction) 0 * 10 ^ (2 - fraction.length) < 10 ^ 28
        then .some (.finite false (Nat.ofDigitChars 10 (digits ++ fraction) 0 * 10 ^ (2 - fraction.length)) (-2)) else none) := by
  obtain ⟨_, white, normal⟩ := normalizedPrice_pointed clean digit more isPoint blank
  exact parsePriceText_digits normal digit more some white short

end Normal

namespace PriceLayout

variable (layout : PriceLayout)

theorem wholeDigits : ∀ c ∈ Nat.toDigits 10 layout.whole, c.isDigit = true := Decimal.digits_isDigit layout.whole

theorem fractionDigits_digit : ∀ c ∈ layout.fractionDigits, c.isDigit = true := fraction_digits layout.fraction

theorem fractionDigits_length : layout.fractionDigits.length = layout.fraction.length := List.length_map ..

theorem whole_ne_nil : Nat.toDigits 10 layout.whole ≠ [] := Nat.toDigits_ne_nil

theorem number_rest : ∃ blanks, (∀ c ∈ blanks, Url.isSpace c = true) ∧
    (layout.fractionText ++ layout.suffix).takeWhile isNumberBody ++
        fractionMatch ((layout.fractionText ++ layout.suffix).dropWhile isNumberBody) = layout.fractionText ++ blanks := by
  unfold fractionText pointText
  by_cases none : layout.fractionDigits = []
  · refine ⟨layout.suffix.takeWhile isNumberBody, fun c mem => ?_, ?_⟩
    · exact space_of_body (layout.currency c ((List.takeWhile_sublist _).subset mem)) (List.mem_takeWhile_imp mem)
    · have behind : fractionMatch (layout.suffix.dropWhile isNumberBody) = [] :=
        fractionMatch_currency fun c mem => layout.currency c ((List.dropWhile_sublist _).subset mem)
      rw [if_pos none, List.nil_append, behind, List.append_nil, List.nil_append]
  · have stop : ¬ isNumberBody layout.point = true := by rw [body_not_point layout.isPoint]; decide
    have short : layout.fractionDigits.length ≤ 2 := layout.fractionDigits_length ▸ layout.short
    refine ⟨[], (fun c mem => by cases mem), ?_⟩
    rw [if_neg none, List.cons_append, List.takeWhile_cons_of_neg stop, List.dropWhile_cons_of_neg stop, List.nil_append,
      fractionMatch_point layout.isPoint layout.fractionDigits_digit none short (.inr layout.currency), List.append_nil]

def Together : Prop := ∀ c ∈ grouped layout.grouping.text (Nat.toDigits 10 layout.whole), isNumberBody c = true

theorem together_of_blanks (blanks : layout.grouping.pointed = false) : layout.Together := by
  intro c mem
  rcases grouped_mem mem with digit | between
  · exact body_of_digit (layout.wholeDigits c digit)
  · have each : ∀ grouping : Grouping, grouping.pointed = false → grouping.text.all isNumberBody = true := by
      intro grouping
      cases grouping <;> decide
    exact List.all_eq_true.mp (each layout.grouping blanks) c between

theorem filter_of_blanks (blanks : layout.grouping.pointed = false) :
    (grouped layout.grouping.text (Nat.toDigits 10 layout.whole)).filter isKept = Nat.toDigits 10 layout.whole := by
  have each : ∀ grouping : Grouping, grouping.pointed = false → (grouping.text.all fun c => !isKept c) = true := by
    intro grouping
    cases grouping <;> decide
  have dropped : ∀ c ∈ layout.grouping.text, isKept c = false := by
    simpa using List.all_eq_true.mp (each layout.grouping blanks)
  exact grouped_filter dropped fun c mem => isKept_of_digit (layout.wholeDigits c mem)

theorem grouped_of_small (small : layout.whole < 1000) :
    grouped layout.grouping.text (Nat.toDigits 10 layout.whole) = Nat.toDigits 10 layout.whole :=
  grouped_short (Nat.toDigits_length 10 layout.whole 3 (by decide) small)

theorem head_digit {text : Text} : ∀ c ∈ (grouped text (Nat.toDigits 10 layout.whole)).head?, c.isDigit = true := by
  intro c head
  rw [grouped_head] at head
  exact layout.wholeDigits c (List.mem_of_mem_head? head)

theorem grouped_ne_nil {text : Text} : grouped text (Nat.toDigits 10 layout.whole) ≠ [] := by
  intro none
  have same : (grouped text (Nat.toDigits 10 layout.whole)).head? = (Nat.toDigits 10 layout.whole).head? := grouped_head _
  rw [none, List.head?_nil] at same
  exact layout.whole_ne_nil (List.head?_eq_none_iff.mp same.symm)

theorem parse_together (texts : Texts) (together : layout.Together)
    (clean : (grouped layout.grouping.text (Nat.toDigits 10 layout.whole)).filter isKept = Nat.toDigits 10 layout.whole) :
    parseSourcePrice texts (.json (.text layout.written)) = .ok (if layout.cents < 10 ^ 28 then some layout.amount else none) := by
  obtain ⟨blanks, blank, behind⟩ := layout.number_rest
  have found : rawPrice texts (.json (.text layout.written)) =
      some (grouped layout.grouping.text (Nat.toDigits 10 layout.whole) ++ (layout.fractionText ++ blanks)) := by
    have search := @searchPrice_body _ (layout.fractionText ++ layout.suffix) layout.head_digit layout.grouped_ne_nil together
    rw [behind, ← List.append_assoc] at search
    exact search
  have short : layout.fractionDigits.length ≤ 2 := layout.fractionDigits_length ▸ layout.short
  have read := parsePriceText_pointed clean layout.wholeDigits layout.whole_ne_nil layout.fractionDigits_digit short
    layout.isPoint blank
  rw [layout.fractionDigits_length] at read
  unfold parseSourcePrice
  rw [found]
  exact read

theorem ofDigits_append (digits more : List Char) :
    Nat.ofDigitChars 10 (digits ++ more) 0 = 10 ^ more.length * Nat.ofDigitChars 10 digits 0 + Nat.ofDigitChars 10 more 0 := by
  rw [Nat.ofDigitChars_append, Nat.ofDigitChars_eq_ofDigitChars_zero]

theorem cents_between : layout.whole * 100 ≤ layout.cents ∧ layout.cents < (layout.whole + 1) * 100 := by
  have whole : Nat.ofDigitChars 10 (Nat.toDigits 10 layout.whole) 0 = layout.whole := Nat.ofDigitChars_ten_toDigits
  have value (digit : Fin 10) (rest : List Char) (start : ℕ) :
      Nat.ofDigitChars 10 (Nat.digitChar digit.val :: rest) start = Nat.ofDigitChars 10 rest (10 * start + digit.val) :=
    Nat.ofDigitChars_cons_digitChar_of_lt_ten digit.isLt
  unfold cents fractionDigits
  rw [Nat.ofDigitChars_append, whole]
  match layout.fraction, layout.short with
  | [], _ =>
    simp only [List.map_nil, Nat.ofDigitChars_nil, List.length_nil]
    omega
  | [first], _ =>
    simp only [List.map_cons, List.map_nil, value, Nat.ofDigitChars_nil, List.length_cons, List.length_nil]
    omega
  | [first, second], _ =>
    simp only [List.map_cons, List.map_nil, value, Nat.ofDigitChars_nil, List.length_cons, List.length_nil]
    omega

theorem cents_lt_iff : layout.cents < 10 ^ 28 ↔ layout.whole < 10 ^ 26 := by
  obtain ⟨_, _⟩ := layout.cents_between
  constructor <;> intro small <;> omega

theorem parse_pointed (texts : Texts) (pointed : layout.grouping.pointed = true) (large : 1000 ≤ layout.whole) :
    ∃ cents < layout.cents, parseSourcePrice texts (.json (.text layout.written)) =
      .ok (if cents < 10 ^ 28 then some (.finite false cents (-2)) else none) := by
  obtain ⟨point, isPoint, between⟩ : ∃ point, Sources.isPoint point = true ∧ layout.grouping.text = [point] := by
    revert pointed
    cases layout.grouping with
    | comma => exact fun _ => ⟨',', rfl, rfl⟩
    | dot => exact fun _ => ⟨'.', rfl, rfl⟩
    | plain => exact fun pointed => by cases pointed
    | space => exact fun pointed => by cases pointed
    | noBreakSpace => exact fun pointed => by cases pointed
  have long : 4 ≤ (Nat.toDigits 10 layout.whole).length := by
    by_contra short
    have small := (Nat.length_toDigits_le_iff (b := 10) (n := layout.whole) (k := 3) (by decide) (by decide)).mp (by omega)
    omega
  obtain ⟨front, first, second, rest, tail, filled, _, same, parted⟩ := @grouped_long [point] _ long
  have digits : ∀ c ∈ front ++ first :: second :: rest, c.isDigit = true := same ▸ layout.wholeDigits
  have frontDigits : ∀ c ∈ front, c.isDigit = true := fun c mem => digits c (List.mem_append_left _ mem)
  have kopecks : ∀ c ∈ [first, second], c.isDigit = true := by
    intro c mem
    refine digits c (List.mem_append_right _ ?_)
    rcases List.mem_cons.mp mem with rfl | mem
    · exact List.mem_cons_self
    · exact List.mem_cons_of_mem _ (List.mem_singleton.mp mem ▸ List.mem_cons_self)
  have starts : ∀ c ∈ front.head?, c.isDigit = true := fun c head => frontDigits c (List.mem_of_mem_head? head)
  have written : layout.written = front ++ point :: ([first, second] ++ (tail ++ (layout.fractionText ++ layout.suffix))) := by
    rw [PriceLayout.written, between, parted]
    simp only [List.append_assoc, List.cons_append, List.nil_append]
  have stop : ¬ isNumberBody point = true := by rw [body_not_point isPoint]; decide
  have search := @searchPrice_body _ (point :: ([first, second] ++ (tail ++ (layout.fractionText ++ layout.suffix))))
    starts filled fun c mem => body_of_digit (frontDigits c mem)
  rw [List.takeWhile_cons_of_neg stop, List.dropWhile_cons_of_neg stop, List.nil_append,
    fractionMatch_point isPoint kopecks (by simp) (by simp) (.inl rfl), ← written] at search
  have found : rawPrice texts (.json (.text layout.written)) = some (front ++ (pointText point [first, second] ++ [])) := search
  have clean : front.filter isKept = front := List.filter_eq_self.mpr fun c mem => isKept_of_digit (frontDigits c mem)
  have read := parsePriceText_pointed clean frontDigits filled kopecks (by simp) isPoint (List.forall_mem_nil _)
  refine ⟨Nat.ofDigitChars 10 (front ++ [first, second]) 0 * 10 ^ 0, ?_, ?_⟩
  · have whole : Nat.ofDigitChars 10 (front ++ [first, second] ++ rest) 0 = layout.whole := by
      rw [List.append_assoc]
      exact (congrArg (Nat.ofDigitChars 10 · 0) same.symm).trans Nat.ofDigitChars_ten_toDigits
    have least := layout.cents_between.1
    have power : 0 < 10 ^ rest.length := by positivity
    have scaled := Nat.le_mul_of_pos_left (Nat.ofDigitChars 10 (front ++ [first, second]) 0) power
    rw [ofDigits_append] at whole
    omega
  · unfold parseSourcePrice
    rw [found]
    exact read

theorem parse_iff (texts : Texts) : parseSourcePrice texts (.json (.text layout.written)) = .ok (some layout.amount) ↔
    layout.Readable := by
  rw [Readable, ← layout.cents_lt_iff]
  by_cases pointed : layout.grouping.pointed = true ∧ 1000 ≤ layout.whole
  · obtain ⟨_, less, read⟩ := layout.parse_pointed texts pointed.1 pointed.2
    rw [read]
    constructor
    · intro same
      split at same
      · cases same
        exact absurd less (lt_irrefl _)
      · cases same
    · exact fun readable => absurd (readable.2 pointed.1) (by omega)
  · have small : layout.grouping.pointed = true → layout.whole < 1000 := fun point => by
      by_contra large
      exact pointed ⟨point, by omega⟩
    have read : parseSourcePrice texts (.json (.text layout.written)) =
        .ok (if layout.cents < 10 ^ 28 then some layout.amount else none) := by
      cases point : layout.grouping.pointed with
      | false => exact layout.parse_together texts (layout.together_of_blanks point) (layout.filter_of_blanks point)
      | true =>
        have plain := layout.grouped_of_small (small point)
        refine layout.parse_together texts (fun c mem => ?_) ?_
        · exact body_of_digit (layout.wholeDigits c (plain ▸ mem))
        · rw [plain]
          exact List.filter_eq_self.mpr fun c mem => isKept_of_digit (layout.wholeDigits c mem)
    rw [read]
    constructor
    · intro same
      split at same
      · next fits => exact ⟨fits, small⟩
      · cases same
    · exact fun readable => by rw [if_pos readable.1]

end PriceLayout

/-- Layouts without a comma or point between thousands are read, and every value but NaN has no price or one
that is not below zero. -/
theorem prices_read (texts : Texts) :
    (∀ layout : PriceLayout, parseSourcePrice texts (.json (.text layout.written)) = .ok (some layout.amount) ↔ layout.Readable) ∧
    ∀ value, Shown value → ((∃ result, parseSourcePrice texts (.json value) = .ok result ∧ ∀ d ∈ result, IsPrice d) ↔
      value ≠ .special "nan".toList) := by
  refine ⟨fun layout => layout.parse_iff texts, fun value shown => ⟨?_, parseSourcePrice_ok texts shown⟩⟩
  rintro ⟨result, read, -⟩ rfl
  have raised : parseSourcePrice texts (.json (.special "nan".toList)) = .error .invalidOperation := parsePriceText_nan
  rw [raised] at read
  cases read

def noTexts : Texts := ⟨fun _ => [], fun _ => []⟩

theorem roubles_currency : ∀ c ∈ " руб".toList, isDecimalDigit c = false := by
  have all : (" руб".toList.all fun c => !isDecimalDigit c) = true := by decide
  simpa using List.all_eq_true.mp all

def roubles : PriceLayout := ⟨1234, .comma, '.', [5, 6], " руб".toList, by decide, by decide, roubles_currency⟩

theorem prices_read_negative : (∃ result, parseSourcePrice noTexts (.json (.int (-5))) = .ok result ∧ ∀ d ∈ result, IsPrice d) ↔
    SourceValue.int (-5) ≠ .special "nan".toList :=
  (prices_read noTexts).2 (.int (-5)) trivial

/-- The amount 1234.56 is read as 1.23, and NaN raises an error. -/
theorem group_read_as_kopecks : roubles.written = "1,234.56 руб".toList ∧ roubles.amount = .finite false 123456 (-2) ∧
    parseSourcePrice noTexts (.json (.text roubles.written)) = .ok (some (.finite false 123 (-2))) ∧
    ¬ (∀ layout : PriceLayout, parseSourcePrice noTexts (.json (.text layout.written)) = .ok (some layout.amount)) ∧
    parseSourcePrice noTexts (.json (.special "nan".toList)) = .error .invalidOperation := by
  have read : parseSourcePrice noTexts (.json (.text roubles.written)) = .ok (some (.finite false 123 (-2))) := by decide +kernel
  refine ⟨by decide +kernel, by decide +kernel, read, fun all => ?_, rfl⟩
  have other := read.symm.trans (all roubles)
  exact absurd other (by decide +kernel)

end MapBackend.Products.Sources
