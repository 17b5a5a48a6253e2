import MapBackend.WebResearch.PriceTexts

/-!
How `_decimal` reads a written amount.
-/

namespace MapBackend.WebResearch
open MapBackend.Library MapBackend.Core Products.Import Products.Sources

/-! ## What is left of a text -/

def isSolid (c : Char) : Bool := !Url.isSpace c && c != '\u00a0'

def isPricePart (c : Char) : Bool := isDecimalDigit c || c == '.'

def cleaned (text : Text) : Text := ((text.filter isSolid).map commaToPoint).filter isPricePart

theorem cleaned_append (first second : Text) : cleaned (first ++ second) = cleaned first ++ cleaned second := by
  simp only [cleaned, List.filter_append, List.map_append]

theorem cleaned_cons (c : Char) (text : Text) : cleaned (c :: text) = cleaned [c] ++ cleaned text := cleaned_append [c] text

theorem cleaned_point {c : Char} (point : isPoint c = true) : cleaned [c] = ['.'] := by
  rcases Bool.or_eq_true_iff.mp point with dot | comma
  · rw [beq_iff_eq.mp dot]
    rfl
  · rw [beq_iff_eq.mp comma]
    rfl

theorem cleaned_silent_char {c : Char} (silent : isDecimalDigit c = false) (other : isPoint c = false) : cleaned [c] = [] := by
  have same : commaToPoint c = c := by
    unfold commaToPoint
    split
    next comma =>
      rw [comma] at other
      cases other
    next => rfl
  have noPoint : (c == '.') = false := (Bool.or_eq_false_iff.mp other).1
  have dropped : ¬ isPricePart c = true := by
    rw [isPricePart, silent, noPoint]
    decide
  unfold cleaned
  by_cases kept : isSolid c = true
  · rw [List.filter_cons_of_pos kept, List.filter_nil, List.map_cons, same, List.map_nil, List.filter_cons_of_neg dropped, List.filter_nil]
  · rw [List.filter_cons_of_neg kept, List.filter_nil]
    rfl

variable {text : Text}

theorem cleaned_silent (silent : ∀ c ∈ text, isDecimalDigit c = false) : cleaned text = List.replicate (points text) '.' := by
  induction text with
  | nil => rfl
  | cons c _ ih =>
    obtain ⟨own, others⟩ := List.forall_mem_cons.mp silent
    rw [cleaned_cons, ih others]
    by_cases point : isPoint c = true
    · rw [cleaned_point point, points, points, List.countP_cons_of_pos point, List.replicate_succ]
      rfl
    · rw [cleaned_silent_char own (Bool.eq_false_iff.mpr point), points, points, List.countP_cons_of_neg point]
      rfl

theorem cleaned_digit {c : Char} (digit : c.isDigit = true) : cleaned [c] = [c] := by
  have solid := digit_not_space digit
  have same : commaToPoint c = c := by
    unfold commaToPoint
    split
    next comma =>
      rw [comma] at digit
      cases digit
    next => rfl
  have kept : isSolid c = true := by
    rw [isSolid, solid.1, Bool.not_false, Bool.true_and, bne_iff_ne]
    rintro rfl
    cases digit
  have left : isPricePart c = true := by rw [isPricePart, isDecimalDigit_of_digit digit, Bool.true_or]
  rw [cleaned, List.filter_cons_of_pos kept, List.filter_nil, List.map_cons, same, List.map_nil, List.filter_cons_of_pos left, List.filter_nil]

theorem cleaned_digits (digits : ∀ c ∈ text, c.isDigit = true) : cleaned text = text := by
  induction text with
  | nil => rfl
  | cons _ _ ih =>
    obtain ⟨own, others⟩ := List.forall_mem_cons.mp digits
    rw [cleaned_cons, cleaned_digit own, ih others]
    rfl

theorem cleaned_grouped {separator digits : Text} (all : ∀ c ∈ digits, c.isDigit = true) :
    cleaned (grouped separator digits) = grouped (cleaned separator) digits := by
  fun_induction grouped separator digits with
  | case1 => rfl
  | case2 digit => exact cleaned_digits all
  | case3 digit next rest third ih =>
    obtain ⟨own, others⟩ := List.forall_mem_cons.mp all
    rw [cleaned_cons, cleaned_digit own, cleaned_append, ih others, grouped, if_pos third]
    rfl
  | case4 digit next rest third ih =>
    obtain ⟨own, others⟩ := List.forall_mem_cons.mp all
    rw [cleaned_cons, cleaned_digit own, ih others, grouped, if_neg third]
    rfl

theorem grouped_getLast {separator digits : Text} : (grouped separator digits).getLast? = digits.getLast? := by
  fun_induction grouped separator digits with
  | case1 => rfl
  | case2 digit => rfl
  | case3 digit next rest third ih =>
    have more : grouped separator (next :: rest) ≠ [] := by
      intro none
      have head : (grouped separator (next :: rest)).head? = (next :: rest).head? := grouped_head _
      rw [none] at head
      cases head
    rw [List.getLast?_cons_of_ne_nil (by simp [more]), List.getLast?_append_of_ne_nil _ more, ih, List.getLast?_cons_cons]
  | case4 digit next rest third ih =>
    have more : grouped separator (next :: rest) ≠ [] := by
      intro none
      have head : (grouped separator (next :: rest)).head? = (next :: rest).head? := grouped_head _
      rw [none] at head
      cases head
    rw [List.getLast?_cons_of_ne_nil more, ih, List.getLast?_cons_cons]

/-! ## Digits and points as a number -/

def Pointed (text : Text) : Prop := ∀ c ∈ text, c.isDigit = true ∨ c = '.'

theorem Pointed.append {first second : Text} (one : Pointed first) (two : Pointed second) : Pointed (first ++ second) :=
  fun c mem => (List.mem_append.mp mem).elim (one c) (two c)

theorem pointed_digits (digits : ∀ c ∈ text, c.isDigit = true) : Pointed text := fun c mem => .inl (digits c mem)

theorem pointed_replicate (n : ℕ) : Pointed (List.replicate n '.') := fun _ mem => .inr (List.eq_of_mem_replicate mem)

theorem decimalOf_pointed (pointed : Pointed text) : decimalOf text =
    match Decimal.read text with
    | none => none
    | some d => if valid : d.representable = true then some ⟨d, valid⟩ else none := by
  have plain : ∀ c ∈ text, Url.isSpace c = false ∧ c.toNat < 128 ∧ c ≠ '_' := by
    intro c mem
    rcases pointed c mem with digit | rfl
    · exact digit_not_space digit
    · decide
  unfold decimalOf
  rw [strip_plain fun c mem => (plain c mem).1, List.filter_eq_self.mpr fun c mem => bne_iff_ne.mpr (plain c mem).2.2,
    mapM_ascii fun c mem => (plain c mem).2.1]
  exact Option.bind_some ..

theorem read_pointed (pointed : Pointed text) : Decimal.read text = Decimal.readFinite false text := by
  have unsigned : Decimal.read text = Decimal.readUnsigned false text := by
    unfold Decimal.read
    split
    · exact absurd (pointed '-' List.mem_cons_self) (by decide)
    · exact absurd (pointed '+' List.mem_cons_self) (by decide)
    · rfl
  have plain : ∀ c ∈ text, isLetterN c = false := by
    intro c mem
    rcases pointed c mem with digit | rfl
    · exact letter_of_priceChar (priceChar_of_digit (isDecimalDigit_of_digit digit))
    · rfl
  rw [unsigned, Decimal.readUnsigned]
  cases Decimal.readFinite false text with
  | some => rfl
  | none =>
    cases special : Decimal.readSpecial false text with
    | none => rfl
    | some =>
      obtain ⟨c, mem, letter⟩ := readSpecial_letter special
      rw [plain c mem] at letter
      cases letter

theorem pointed_split (pointed : Pointed text) (some : 0 < text.count '.') :
    ∃ front behind, text = front ++ '.' :: behind ∧ ∀ c ∈ front, c.isDigit = true := by
  induction text with
  | nil => simp at some
  | cons c rest ih =>
    rcases pointed c List.mem_cons_self with digit | rfl
    · have other : c ≠ '.' := by
        rintro rfl
        cases digit
      rw [List.count_cons_of_ne other] at some
      obtain ⟨front, behind, rfl, all⟩ := ih (fun d mem => pointed d (List.mem_cons_of_mem c mem)) some
      exact ⟨c :: front, behind, rfl, List.forall_mem_cons.mpr ⟨digit, all⟩⟩
    · exact ⟨[], rest, rfl, fun d mem => absurd mem List.not_mem_nil⟩

theorem digits_of_count (pointed : Pointed text) (none : text.count '.' = 0) : ∀ c ∈ text, c.isDigit = true := by
  intro c mem
  rcases pointed c mem with digit | rfl
  · exact digit
  · exact absurd mem (List.count_eq_zero.mp none)

theorem decimalOf_points (pointed : Pointed text) (two : 2 ≤ text.count '.') : decimalOf text = none := by
  obtain ⟨front, behind, rfl, digits⟩ := pointed_split pointed (by omega)
  have none : front.count '.' = 0 := List.count_eq_zero.mpr fun mem => absurd (digits '.' mem) (by decide)
  have again : 0 < behind.count '.' := by
    rw [List.count_append, none, List.count_cons_self] at two
    omega
  obtain ⟨middle, last, rfl, more⟩ := pointed_split (fun c mem => pointed c (List.mem_append_right _ (List.mem_cons_of_mem _ mem))) again
  have split := @Decimal.splitNumber_point front middle ('.' :: last) digits more fun c head => by
    cases head
    rfl
  rw [decimalOf_pointed pointed, read_pointed pointed, Decimal.readFinite, split]
  by_cases written : front ++ middle = []
  · simp only [if_pos written]
  · simp only [if_neg written, Decimal.readExponent]
    rfl

theorem decimalOf_point {front behind : Text} (digits : ∀ c ∈ front, c.isDigit = true) (more : ∀ c ∈ behind, c.isDigit = true)
    (written : front ++ behind ≠ []) (short : behind.length ≤ 1000) (small : Nat.ofDigitChars 10 (front ++ behind) 0 < 10 ^ 1000) :
    ∃ number, decimalOf (front ++ '.' :: behind) = some number ∧
      number.val = .finite false (Nat.ofDigitChars 10 (front ++ behind) 0) (-(behind.length : ℤ)) := by
  have pointed : Pointed (front ++ '.' :: behind) := (pointed_digits digits).append ((pointed_replicate 1).append (pointed_digits more))
  have split := @Decimal.splitNumber_point front behind [] digits more fun c head => by cases head
  rw [List.append_nil] at split
  have length := Nat.toDigits_length 10 _ 1000 (by decide) small
  have valid : Decimal.representable (.finite false (Nat.ofDigitChars 10 (front ++ behind) 0) (-(behind.length : ℤ))) = true := by
    simp only [Decimal.representable, Bool.and_eq_true, decide_eq_true_eq]
    omega
  rw [decimalOf_pointed pointed, read_pointed pointed, Decimal.readFinite, split]
  simp only [if_neg written, Decimal.readExponent, Option.map_some, Int.zero_sub]
  exact ⟨⟨_, valid⟩, dif_pos valid, rfl⟩

theorem decimalOf_whole {digits : Text} (all : ∀ c ∈ digits, c.isDigit = true) (written : digits ≠ [])
    (small : Nat.ofDigitChars 10 digits 0 < 10 ^ 1000) :
    ∃ number, decimalOf digits = some number ∧ number.val = .finite false (Nat.ofDigitChars 10 digits 0) 0 := by
  have split := @Decimal.splitNumber_whole digits [] all fun c head => by cases head
  rw [List.append_nil] at split
  have length := Nat.toDigits_length 10 _ 1000 (by decide) small
  have valid : Decimal.representable (.finite false (Nat.ofDigitChars 10 digits 0) 0) = true := by
    simp only [Decimal.representable, Bool.and_eq_true, decide_eq_true_eq]
    omega
  rw [decimalOf_pointed (pointed_digits all), read_pointed (pointed_digits all), Decimal.readFinite, split]
  simp only [List.append_nil, if_neg written, Decimal.readExponent, Option.map_some, List.length_nil, Nat.cast_zero, sub_zero]
  exact ⟨⟨_, valid⟩, dif_pos valid, rfl⟩

/-! ## The amount that is read -/

variable {lib : PageLibrary}

def boundedCents (number : Decimal) : Option ℕ :=
  if number.value ≤ 0 ∨ 99999999999999 / 100 < number.value then none else some (Double.roundHalfEven (number.value * 100)).toNat

theorem decimalCents_text (text : Text) :
    decimalCents lib (.text text) = (decimalOf (cleaned text)).bind fun number => boundedCents number.val := by
  have said : textOr lib (.text text) = text := by
    unfold textOr
    split
    next => rfl
    next empty =>
      have blank : text.isEmpty = true := by simpa [SourceValue.truthy] using empty
      exact (List.isEmpty_iff.mp blank).symm
  unfold decimalCents
  rw [said]
  dsimp only
  split
  next unread =>
    rw [show decimalOf (cleaned text) = none from unread, Option.bind_none]
  next number read =>
    rw [show decimalOf (cleaned text) = some number from read, Option.bind_some]
    rfl

theorem value_point (coefficient places : ℕ) :
    (Decimal.finite false coefficient (-(places : ℤ))).value = (coefficient : ℚ) / 10 ^ places := by
  cases places with
  | zero => simp [Decimal.value]
  | succ n =>
    have below : ¬ (0 : ℤ) ≤ -((n + 1 : ℕ) : ℤ) := by omega
    have power : (-(-((n + 1 : ℕ) : ℤ))).toNat = n + 1 := by omega
    simp only [Decimal.value, if_neg below, power, Bool.false_eq_true, if_false]
    ring

theorem boundedCents_exact {coefficient places : ℕ} (short : places ≤ 2) (positive : 0 < coefficient * 10 ^ (2 - places))
    (below : coefficient * 10 ^ (2 - places) ≤ maxCents) :
    boundedCents (.finite false coefficient (-(places : ℤ))) = some (coefficient * 10 ^ (2 - places)) := by
  have hundredths : (coefficient : ℚ) / 10 ^ places * 100 = ((coefficient * 10 ^ (2 - places) : ℕ) : ℚ) := by
    match places, short with
    | 0, _ => norm_num
    | 1, _ => norm_num; ring
    | 2, _ => norm_num
  have more : (0 : ℚ) < coefficient / 10 ^ places * 100 := by
    rw [hundredths]
    exact_mod_cast positive
  have less : (coefficient : ℚ) / 10 ^ places * 100 ≤ 99999999999999 := by
    rw [hundredths]
    exact_mod_cast below
  have inside : ¬ ((coefficient : ℚ) / 10 ^ places ≤ 0 ∨ (99999999999999 : ℚ) / 100 < coefficient / 10 ^ places) := by
    rintro (low | high)
    · linarith
    · linarith
  rw [boundedCents, value_point, if_neg inside, hundredths, roundHalfEven_natCast, Int.toNat_natCast]

theorem boundedCents_shifted {coefficient places : ℕ} (shifted : 1 ≤ places) (positive : 0 < coefficient) (below : coefficient * 100 ≤ maxCents) :
    ∃ cents, boundedCents (.finite false coefficient (-(places : ℤ))) = some cents ∧ cents < coefficient * 100 := by
  have some : (0 : ℚ) < coefficient := by exact_mod_cast positive
  have most : (coefficient : ℚ) * 100 ≤ 99999999999999 := by exact_mod_cast below
  have ten : (10 : ℚ) ≤ 10 ^ places := by
    calc (10 : ℚ) = 10 ^ 1 := (pow_one 10).symm
      _ ≤ 10 ^ places := pow_le_pow_right₀ (by norm_num) shifted
  have tenth : (coefficient : ℚ) / 10 ^ places ≤ coefficient / 10 := div_le_div_of_nonneg_left some.le (by norm_num) ten
  have filled : (0 : ℚ) < coefficient / 10 ^ places := by positivity
  have inside : ¬ ((coefficient : ℚ) / 10 ^ places ≤ 0 ∨ (99999999999999 : ℚ) / 100 < coefficient / 10 ^ places) := by
    rintro (low | high)
    · linarith
    · linarith
  have rounded : Double.roundHalfEven ((coefficient : ℚ) / 10 ^ places * 100) ≤ ((coefficient * 10 : ℕ) : ℤ) := by
    apply Double.roundHalfEven_le
    push_cast
    linarith
  refine ⟨_, by rw [boundedCents, value_point, if_neg inside], ?_⟩
  omega

/-! ## Layouts -/

theorem count_cleaned (text : Text) : (cleaned text).count '.' = points text := by
  induction text with
  | nil => rfl
  | cons c _ ih =>
    rw [cleaned_cons, List.count_append, ih]
    by_cases point : isPoint c = true
    · rw [cleaned_point point, points, points, List.countP_cons_of_pos point, List.count_singleton_self, Nat.add_comm]
    · have none : (cleaned [c]).count '.' = 0 := by
        apply List.count_eq_zero.mpr
        intro mem
        obtain ⟨d, there, same⟩ := List.mem_map.mp (List.mem_filter.mp mem).1
        obtain rfl := List.mem_singleton.mp (List.mem_filter.mp there).1
        unfold commaToPoint at same
        split at same
        next comma =>
          rw [comma] at point
          exact point rfl
        next =>
          rw [same] at point
          exact point rfl
      rw [none, points, points, List.countP_cons_of_neg point, Nat.zero_add]

section Layouts

variable (layout : PriceLayout)

def wholeText : Text := grouped layout.grouping.text (Nat.toDigits 10 layout.whole)

def digitsNumber : ℕ := Nat.ofDigitChars 10 (Nat.toDigits 10 layout.whole ++ layout.fractionDigits) 0

theorem cents_eq : layout.cents = digitsNumber layout * 10 ^ (2 - layout.fraction.length) := rfl

theorem separator_cleaned : cleaned layout.grouping.text = [] ∨ cleaned layout.grouping.text = ['.'] := by
  cases layout.grouping with
  | plain => exact .inl rfl
  | space => exact .inl rfl
  | noBreakSpace => exact .inl rfl
  | comma => exact .inr (cleaned_point rfl)
  | dot => exact .inr (cleaned_point rfl)

theorem cleaned_wholeText : cleaned (wholeText layout) = grouped (cleaned layout.grouping.text) (Nat.toDigits 10 layout.whole) :=
  cleaned_grouped layout.wholeDigits

theorem wholeText_pointed : Pointed (cleaned (wholeText layout)) := by
  intro c mem
  rw [cleaned_wholeText] at mem
  rcases grouped_mem mem with digit | between
  · exact .inl (layout.wholeDigits c digit)
  · rcases separator_cleaned layout with none | point
    · rw [none] at between
      cases between
    · rw [point] at between
      exact .inr (List.mem_singleton.mp between)

theorem wholeText_digits : (cleaned (wholeText layout)).filter Char.isDigit = Nat.toDigits 10 layout.whole := by
  rw [cleaned_wholeText]
  apply grouped_filter
  · intro c mem
    rcases separator_cleaned layout with none | point
    · rw [none] at mem
      cases mem
    · rw [point] at mem
      rw [List.mem_singleton.mp mem]
      rfl
  · exact layout.wholeDigits

theorem wholeText_plain (none : points (wholeText layout) = 0) : cleaned (wholeText layout) = Nat.toDigits 10 layout.whole := by
  have digits := digits_of_count (wholeText_pointed layout) ((count_cleaned _).trans none)
  have kept : (cleaned (wholeText layout)).filter Char.isDigit = cleaned (wholeText layout) := List.filter_eq_self.mpr digits
  exact kept.symm.trans (wholeText_digits layout)

theorem wholeText_parted (one : points (wholeText layout) = 1) : ∃ front behind, cleaned (wholeText layout) = front ++ '.' :: behind ∧
    front ++ behind = Nat.toDigits 10 layout.whole ∧ behind ≠ [] := by
  have count : (cleaned (wholeText layout)).count '.' = 1 := (count_cleaned _).trans one
  have pointed := wholeText_pointed layout
  obtain ⟨front, behind, same, digits⟩ := pointed_split pointed (by omega)
  have frontNone : front.count '.' = 0 := List.count_eq_zero.mpr fun mem => absurd (digits '.' mem) (by decide)
  have behindNone : behind.count '.' = 0 := by
    rw [same, List.count_append, List.count_cons_self] at count
    omega
  have more := digits_of_count (fun c mem => pointed c (same ▸ List.mem_append_right _ (List.mem_cons_of_mem _ mem))) behindNone
  refine ⟨front, behind, same, ?_, ?_⟩
  · rw [← wholeText_digits layout, same, List.filter_append, List.filter_eq_self.mpr digits, List.filter_cons_of_neg (by decide),
      List.filter_eq_self.mpr more]
  · rintro rfl
    have last : (cleaned (wholeText layout)).getLast? = (Nat.toDigits 10 layout.whole).getLast? := by
      rw [cleaned_wholeText]
      exact grouped_getLast
    rw [same, List.getLast?_concat] at last
    exact absurd (layout.wholeDigits '.' (List.mem_of_getLast? last.symm)) (by decide)

theorem cleaned_fraction : cleaned layout.fractionText = if layout.fraction = [] then [] else '.' :: layout.fractionDigits := by
  have empty : layout.fractionDigits = [] ↔ layout.fraction = [] := List.map_eq_nil_iff
  rw [PriceLayout.fractionText, pointText]
  by_cases none : layout.fraction = []
  · rw [if_pos (empty.mpr none), if_pos none]
    rfl
  · rw [if_neg (fun same => none (empty.mp same)), if_neg none, cleaned_cons, cleaned_point layout.isPoint,
      cleaned_digits layout.fractionDigits_digit]
    rfl

variable {layout} (below : layout.cents ≤ maxCents)
include below

theorem digitsNumber_le : digitsNumber layout ≤ maxCents :=
  (Nat.le_mul_of_pos_right _ (by positivity)).trans below

theorem digitsNumber_small : digitsNumber layout < 10 ^ 1000 := by
  have few := digitsNumber_le below
  have large : maxCents < 10 ^ 14 := by decide
  calc digitsNumber layout ≤ maxCents := few
    _ < 10 ^ 14 := large
    _ ≤ 10 ^ 1000 := Nat.pow_le_pow_right (by decide) (by decide)

theorem whole_length : (Nat.toDigits 10 layout.whole).length ≤ 14 := by
  have low := layout.cents_between.1
  apply Nat.toDigits_length 10 _ 14 (by decide)
  have large : maxCents < 10 ^ 14 := by decide
  omega

theorem decimalCents_exact (positive : 0 < layout.cents) {text : Text} {stops : ℕ}
    (left : cleaned text = Nat.toDigits 10 layout.whole ++ cleaned layout.fractionText ++ List.replicate stops '.')
    (few : if layout.fraction = [] then stops ≤ 1 else stops = 0) : decimalCents lib (.text text) = some layout.cents := by
  have digits := layout.wholeDigits
  have small := digitsNumber_small below
  rw [decimalCents_text, left, cleaned_fraction]
  by_cases none : layout.fraction = []
  · have bare : layout.fractionDigits = [] := List.map_eq_nil_iff.mpr none
    have number : digitsNumber layout = Nat.ofDigitChars 10 (Nat.toDigits 10 layout.whole) 0 := by
      rw [digitsNumber, bare, List.append_nil]
    rw [if_pos none, List.append_nil]
    rw [cents_eq, none] at positive below ⊢
    rw [number] at small positive below ⊢
    rw [if_pos none] at few
    have exact := @boundedCents_exact _ 0 (Nat.zero_le 2) positive below
    match stops, few with
    | 0, _ =>
      obtain ⟨found, is, value⟩ := decimalOf_whole digits layout.whole_ne_nil small
      rw [List.replicate_zero, List.append_nil, is, Option.bind_some, value]
      exact exact
    | 1, _ =>
      have joined : Nat.toDigits 10 layout.whole ++ [] = Nat.toDigits 10 layout.whole := List.append_nil _
      obtain ⟨found, is, value⟩ := @decimalOf_point _ [] digits (fun c mem => absurd mem List.not_mem_nil)
        (joined.symm ▸ layout.whole_ne_nil) (Nat.zero_le _) (joined.symm ▸ small)
      rw [List.replicate_one, is, Option.bind_some, value, joined]
      exact exact
  · rw [if_neg none] at few
    rw [few, if_neg none, List.replicate_zero, List.append_nil]
    have short : layout.fractionDigits.length ≤ 2 := layout.fractionDigits_length ▸ layout.short
    obtain ⟨found, is, value⟩ := decimalOf_point digits layout.fractionDigits_digit (by simp [layout.whole_ne_nil]) (by omega) small
    rw [is, Option.bind_some, value, layout.fractionDigits_length]
    exact boundedCents_exact layout.short positive below

theorem decimalCents_shifted (positive : 0 < layout.cents) (none : layout.fraction = []) {text front behind : Text}
    (left : cleaned text = front ++ '.' :: behind) (joined : front ++ behind = Nat.toDigits 10 layout.whole) (more : behind ≠ []) :
    ∃ cents, decimalCents lib (.text text) = some cents ∧ cents < layout.cents := by
  have digits : ∀ c ∈ front ++ behind, c.isDigit = true := joined ▸ layout.wholeDigits
  have bare : layout.fractionDigits = [] := List.map_eq_nil_iff.mpr none
  have number : digitsNumber layout = Nat.ofDigitChars 10 (front ++ behind) 0 := by
    rw [digitsNumber, bare, List.append_nil, joined]
  have hundred : layout.cents = digitsNumber layout * 100 := by rw [cents_eq, none]; rfl
  have length := whole_length below
  rw [← joined, List.length_append] at length
  obtain ⟨_, is, value⟩ := decimalOf_point (fun c mem => digits c (List.mem_append_left _ mem))
    (fun c mem => digits c (List.mem_append_right _ mem)) (by simp [more]) (by omega) (number ▸ digitsNumber_small below)
  have some : 1 ≤ behind.length := List.length_pos_iff.mpr more
  obtain ⟨cents, bounded, less⟩ := boundedCents_shifted some (Nat.pos_of_mul_pos_right (hundred ▸ positive)) (hundred ▸ below)
  refine ⟨cents, ?_, hundred ▸ less⟩
  rw [decimalCents_text, left, is, Option.bind_some, value, ← number]
  exact bounded

end Layouts

/-! ## Prices with a currency sign -/

section Shops

variable (price : ShopPrice)

theorem cleaned_written : cleaned price.written = List.replicate (points price.lead) '.' ++ cleaned (wholeText price.layout) ++
    cleaned price.layout.fractionText ++ List.replicate (points price.layout.suffix) '.' := by
  rw [ShopPrice.written, PriceLayout.written, cleaned_append, cleaned_append, cleaned_append, cleaned_silent price.silent,
    cleaned_silent price.layout.currency]
  simp only [wholeText, List.append_assoc]

theorem written_pointed : Pointed (cleaned price.written) := by
  have fraction : Pointed (cleaned price.layout.fractionText) := by
    rw [cleaned_fraction]
    split
    · exact fun c mem => absurd mem List.not_mem_nil
    · exact (pointed_replicate 1).append (pointed_digits price.layout.fractionDigits_digit)
  rw [cleaned_written]
  exact (((pointed_replicate _).append (wholeText_pointed _)).append fraction).append (pointed_replicate _)

theorem count_written : (cleaned price.written).count '.' = points price.lead + points (wholeText price.layout) +
    (if price.layout.fraction = [] then 0 else 1) + points price.layout.suffix := by
  have fraction : (cleaned price.layout.fractionText).count '.' = if price.layout.fraction = [] then 0 else 1 := by
    rw [cleaned_fraction]
    split
    · rfl
    · have none : price.layout.fractionDigits.count '.' = 0 :=
        List.count_eq_zero.mpr fun mem => absurd (price.layout.fractionDigits_digit '.' mem) (by decide)
      rw [List.count_cons_self, none]
  rw [cleaned_written, List.count_append, List.count_append, List.count_append, fraction, count_cleaned, List.count_replicate_self,
    List.count_replicate_self]

theorem respected_iff : price.Respected lib ↔ ¬ price.Misleading := by
  have count := count_written price
  have read (stops : ℕ) (silent : points price.lead = 0) (plain : points (wholeText price.layout) = 0) (is : points price.layout.suffix = stops)
      (few : if price.layout.fraction = [] then stops ≤ 1 else stops = 0) : price.Respected lib := by
    apply Or.inr
    have left : cleaned price.written = Nat.toDigits 10 price.layout.whole ++ cleaned price.layout.fractionText ++ List.replicate stops '.' := by
      rw [cleaned_written, silent, List.replicate_zero, List.nil_append, wholeText_plain _ plain, is]
    exact decimalCents_exact price.below price.positive left few
  have unread (two : 2 ≤ (cleaned price.written).count '.') : price.Respected lib := by
    apply Or.inl
    rw [decimalCents_text, decimalOf_points (written_pointed price) two]
    rfl
  by_cases none : price.layout.fraction = []
  · by_cases misleads : price.Misleading
    · refine iff_of_false (fun respected => ?_) (not_not.mpr misleads)
      obtain ⟨-, behindNone, _⟩ := misleads
      obtain ⟨front, behind, left, joined, more⟩ : ∃ front behind, cleaned price.written = front ++ '.' :: behind ∧
          front ++ behind = Nat.toDigits 10 price.layout.whole ∧ behind ≠ [] := by
        have written := cleaned_written price
        rw [cleaned_fraction, if_pos none, behindNone, List.replicate_zero, List.append_nil, List.append_nil] at written
        by_cases lead : points price.lead = 0
        · have parted : points (wholeText price.layout) = 1 := by rw [wholeText]; omega
          obtain ⟨front, behind, same, joined, more⟩ := wholeText_parted _ parted
          exact ⟨front, behind, by rw [written, lead, same]; rfl, joined, more⟩
        · have single : points price.lead = 1 := by omega
          have plain : points (wholeText price.layout) = 0 := by rw [wholeText]; omega
          exact ⟨[], Nat.toDigits 10 price.layout.whole, by rw [written, single, wholeText_plain _ plain]; rfl, rfl, price.layout.whole_ne_nil⟩
      obtain ⟨_, found, less⟩ := @decimalCents_shifted lib _ price.below price.positive none _ _ _ left joined more
      rcases respected with nothing | same
      · exact absurd (found.symm.trans nothing) (by simp)
      · exact absurd (Option.some.inj (found.symm.trans same)) (Nat.ne_of_lt less)
    · refine iff_of_true ?_ misleads
      rw [if_pos none] at count
      have other : ¬ (points price.layout.suffix = 0 ∧ points price.lead + points (wholeText price.layout) = 1) :=
        fun same => misleads ⟨none, same.1, same.2⟩
      by_cases two : 2 ≤ (cleaned price.written).count '.'
      · exact unread two
      · exact read (points price.layout.suffix) (by omega) (by omega) rfl (by rw [if_pos none]; omega)
  · refine iff_of_true ?_ fun misleads => none misleads.1
    rw [if_neg none] at count
    by_cases two : 2 ≤ (cleaned price.written).count '.'
    · exact unread two
    · exact read 0 (by omega) (by omega) (by omega) (by rw [if_neg none])

end Shops

end MapBackend.WebResearch
