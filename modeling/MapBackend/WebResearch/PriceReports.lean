import MapBackend.WebResearch.PricePlaces

/-!
The price that the text of a page gives.
-/

namespace MapBackend.WebResearch
open MapBackend.Library MapBackend.Core Products.Import Products.Sources

/-! ## Written amounts -/

section Numbers

variable (layout : PriceLayout)

theorem numberOf_chars : ∀ c ∈ numberOf layout, isNumberBody c = true ∨ isPoint c = true := by
  have separators (grouping : Grouping) : (grouping.text.all fun c => isNumberBody c || isPoint c) = true := by
    cases grouping <;> decide
  intro c mem
  rcases List.mem_append.mp mem with whole | fraction
  · rcases grouped_mem whole with digit | between
    · exact .inl (body_of_digit (layout.wholeDigits c digit))
    · exact Bool.or_eq_true_iff.mp (List.all_eq_true.mp (separators layout.grouping) c between)
  · rw [PriceLayout.fractionText, pointText] at fraction
    split at fraction
    · cases fraction
    · rcases List.mem_cons.mp fraction with rfl | later
      · exact .inr layout.isPoint
      · exact .inl (body_of_digit (layout.fractionDigits_digit c later))

theorem numberOf_first : ∃ first rest, numberOf layout = first :: rest ∧ isDecimalDigit first = true := by
  have some : wholeText layout ≠ [] := layout.grouped_ne_nil
  obtain ⟨first, rest, same⟩ := List.exists_cons_of_ne_nil some
  have head : ∀ c ∈ (wholeText layout).head?, c.isDigit = true := layout.head_digit
  have digit := head first (by rw [same]; rfl)
  exact ⟨first, rest ++ layout.fractionText, by rw [← List.cons_append, ← same]; rfl, isDecimalDigit_of_digit digit⟩

theorem numberOf_last : ∃ front last, numberOf layout = front ++ [last] ∧ isDecimalDigit last = true := by
  by_cases none : layout.fractionDigits = []
  · obtain ⟨front, last, same⟩ := (List.eq_nil_or_concat (wholeText layout)).resolve_left layout.grouped_ne_nil
    have final : (Nat.toDigits 10 layout.whole).getLast? = some last := by
      calc (Nat.toDigits 10 layout.whole).getLast? = (wholeText layout).getLast? := grouped_getLast.symm
        _ = some last := by rw [same, List.concat_eq_append, List.getLast?_concat]
    have bare : layout.fractionText = [] := if_pos none
    refine ⟨front, last, ?_, isDecimalDigit_of_digit (layout.wholeDigits last (List.mem_of_getLast? final))⟩
    rw [numberOf, bare, List.append_nil]
    exact same.trans List.concat_eq_append
  · obtain ⟨front, last, same⟩ := (List.eq_nil_or_concat layout.fractionDigits).resolve_left none
    have text : layout.fractionText = layout.point :: layout.fractionDigits := if_neg none
    have digit := layout.fractionDigits_digit last (by rw [same]; simp)
    refine ⟨grouped layout.grouping.text (Nat.toDigits 10 layout.whole) ++ layout.point :: front, last, ?_, isDecimalDigit_of_digit digit⟩
    rw [numberOf, text, same, List.concat_eq_append, List.append_assoc, List.cons_append]

theorem endsWithDigit_numberOf (before : Text) : EndsWithDigit (before ++ numberOf layout) := by
  obtain ⟨front, last, same, digit⟩ := numberOf_last layout
  exact .inr ⟨before ++ front, last, by rw [same, List.append_assoc], digit⟩

theorem endsWithDigit_tail : EndsWithDigit (numberOf layout).tail := by
  obtain ⟨front, last, same, digit⟩ := numberOf_last layout
  cases front with
  | nil => exact .inl (by rw [same]; rfl)
  | cons _ others => exact .inr ⟨others, last, by rw [same]; rfl, digit⟩

theorem PriceBody.behind {front behind : Text} {point : Char} (body : PriceBody (front ++ point :: behind))
    (outside : isNumberBody point = false) : behind.length ≤ 2 := by
  obtain ⟨_, fraction, same, all, -, -, form⟩ := body
  have few : fraction.length ≤ 3 := by
    rcases form with rfl | ⟨_, _, rfl, -, -, -, short⟩
    · exact Nat.zero_le 3
    · exact Nat.succ_le_succ short
  rcases List.append_eq_append_iff.mp same with ⟨middle, longer, left⟩ | ⟨middle, -, right⟩
  · cases middle with
    | nil =>
      rw [← (show point :: behind = fraction from left), List.length_cons] at few
      omega
    | cons =>
      have inside := all point (by rw [longer, (List.cons.inj left).1]; simp)
      rw [outside] at inside
      cases inside
  · rw [right, List.length_append, List.length_cons] at few
    omega

theorem points_wholeText {gap : Text} (fits : PriceBody (numberOf layout).tail ∨ ((numberOf layout).tail = [] ∧ gap ≠ [])) :
    points (wholeText layout) = 0 := by
  have digitNoPoint {c : Char} (digit : c.isDigit = true) : ¬ isPoint c = true := by
    intro point
    rcases Bool.or_eq_true_iff.mp point with dot | comma
    · exact absurd (beq_iff_eq.mp dot ▸ digit) (by decide)
    · exact absurd (beq_iff_eq.mp comma ▸ digit) (by decide)
  have plain (separator : Text) (none : ∀ c ∈ separator, ¬ isPoint c = true) :
      points (grouped separator (Nat.toDigits 10 layout.whole)) = 0 := by
    rw [points, List.countP_eq_zero]
    intro c mem
    rcases grouped_mem mem with digit | between
    · exact digitNoPoint (layout.wholeDigits c digit)
    · exact none c between
  by_cases short : (Nat.toDigits 10 layout.whole).length ≤ 3
  · rw [wholeText, grouped_short short, ← @grouped_short [] _ short]
    exact plain [] fun c mem => absurd mem List.not_mem_nil
  · obtain ⟨front, first, second, rest, tail, some, more, digits, whole⟩ :=
      @grouped_long layout.grouping.text (Nat.toDigits 10 layout.whole) (by omega)
    have apart (point : Char) (is : layout.grouping.text = [point]) (outside : isNumberBody point = false) (silent : point.isDigit = false) :
        False := by
      -- Three digits stand behind the first separator.
      have filtered : (grouped layout.grouping.text (Nat.toDigits 10 layout.whole)).filter Char.isDigit = Nat.toDigits 10 layout.whole :=
        grouped_filter (fun c mem => List.mem_singleton.mp (is ▸ mem) ▸ silent) layout.wholeDigits
      have frontDigits : front.filter Char.isDigit = front :=
        List.filter_eq_self.mpr fun c mem => layout.wholeDigits c (digits ▸ List.mem_append_left _ mem)
      have two : first.isDigit = true ∧ second.isDigit = true :=
        ⟨layout.wholeDigits first (digits ▸ by simp), layout.wholeDigits second (digits ▸ by simp)⟩
      have long : tail ≠ [] := by
        rintro rfl
        rw [whole, digits, is, List.filter_append, frontDigits, List.append_cancel_left_eq] at filtered
        simp only [List.cons_append, List.nil_append, List.filter_cons, silent, two.1, two.2, if_true, List.filter_nil] at filtered
        exact more (List.cons.inj (List.cons.inj filtered).2).2.symm
      obtain ⟨_, others, rfl⟩ := List.exists_cons_of_ne_nil some
      have same : (numberOf layout).tail = others ++ point :: (first :: second :: tail ++ layout.fractionText) := by
        rw [numberOf, whole, is]
        simp
      rcases fits with body | ⟨none, -⟩
      · rw [same] at body
        have few := body.behind outside
        have one := List.length_pos_iff.mpr long
        simp only [List.cons_append, List.length_cons, List.length_append] at few
        omega
      · rw [same] at none
        exact absurd (List.append_eq_nil_iff.mp none).2 (List.cons_ne_nil _ _)
    have silent (separator : Text) (is : layout.grouping.text = separator) (none : (separator.all fun c => !isPoint c) = true) :
        points (wholeText layout) = 0 := by
      rw [wholeText, is]
      exact plain separator fun c mem => by simpa using List.all_eq_true.mp none c mem
    cases grouping : layout.grouping with
    | plain => exact silent _ (by rw [grouping]) rfl
    | space => exact silent _ (by rw [grouping]) rfl
    | noBreakSpace => exact silent _ (by rw [grouping]) rfl
    | comma => exact (apart ',' (by rw [grouping]; rfl) (by decide) rfl).elim
    | dot => exact (apart '.' (by rw [grouping]; rfl) (by decide) rfl).elim

end Numbers

/-! ## Pages -/

section Pages

variable (page : PagePrice)

theorem PagePrice.currency : IsCurrency page.mark := (mem_currencyPattern.mp page.isMark).2

theorem PagePrice.text_eq : page.text = page.before ++ (numberOf page.layout ++ (page.gap ++ (page.mark ++ page.after))) := by
  simp only [PagePrice.text, List.append_assoc]

theorem priced_here : Priced (page.text.drop page.before.length) ↔ page.Fits := by
  obtain ⟨first, rest, number, digit⟩ := numberOf_first page.layout
  have ends := endsWithDigit_tail page.layout
  have none : ¬ Priced (first :: rest) := number ▸ not_priced_of_parts (numberOf_chars page.layout)
  unfold PagePrice.Fits
  rw [page.text_eq, List.drop_left, number, List.cons_append]
  rw [number] at ends
  exact (priced_iff digit ends page.blank page.currency).trans (by simp only [none, or_false, List.tail_cons])

theorem priced_earlier {j : ℕ} {c : Char} {between : Text} (there : page.before.drop j = c :: between) : Priced (page.text.drop j) ↔
    (isDecimalDigit c = true ∧ PriceBody (between ++ numberOf page.layout)) ∨ Priced (page.before.drop j) := by
  obtain ⟨_, _, number, firstDigit⟩ := numberOf_first page.layout
  have small : j ≤ page.before.length := Nat.le_of_not_le fun large => by
    rw [List.drop_eq_nil_of_le large] at there
    cases there
  have text : page.text.drop j = c :: ((between ++ numberOf page.layout) ++ (page.gap ++ (page.mark ++ page.after))) := by
    rw [page.text_eq, List.drop_append_of_le_length small, there, List.cons_append, List.append_assoc]
  have before : Priced (c :: (between ++ numberOf page.layout)) ↔ Priced (c :: between) := by
    constructor
    · have starts : ∀ d ∈ (numberOf page.layout).head?, isDecimalDigit d = true := by
        rw [number]
        exact fun d head => Option.some.inj head ▸ firstDigit
      exact fun priced => priced_before (numberOf_chars page.layout) starts priced
    · exact fun priced => priced.append (numberOf page.layout)
  rw [text, there]
  by_cases digit : isDecimalDigit c = true
  · rw [priced_iff digit (endsWithDigit_numberOf _ _) page.blank page.currency, before]
    have some : ¬ (between ++ numberOf page.layout = [] ∧ page.gap ≠ []) := by simp [number]
    simp only [digit, some, true_and, false_or]
  · refine iff_of_false (fun priced => digit priced.head) ?_
    rintro (⟨own, -⟩ | priced)
    · exact digit own
    · exact digit priced.head

theorem first_iff : (∀ j < page.before.length, ¬ Priced (page.text.drop j)) ↔ ¬ page.Joined ∧ priceSearch page.before = none := by
  rw [priceSearch_eq_none]
  constructor
  · refine fun first => ⟨?_, fun j priced => ?_⟩
    · rintro ⟨front, digit, between, same, isDigit, body⟩
      have there : page.before.drop front.length = digit :: between := by rw [same, List.drop_left]
      apply first front.length (by simp [same])
      exact (priced_earlier page there).mpr (.inl ⟨isDigit, body⟩)
    · by_cases small : j < page.before.length
      · have there := List.drop_eq_getElem_cons small
        exact first j small ((priced_earlier page there).mpr (.inr priced))
      · rw [List.drop_eq_nil_of_le (Nat.le_of_not_lt small)] at priced
        exact not_priced_nil priced
  · rintro ⟨apart, none⟩ j small priced
    have there := List.drop_eq_getElem_cons small
    rcases (priced_earlier page there).mp priced with ⟨isDigit, body⟩ | earlier
    · refine apart ⟨page.before.take j, page.before[j], page.before.drop (j + 1), ?_, isDigit, body⟩
      rw [← there, List.take_append_drop]
    · exact none j earlier

theorem found_number {place : ℕ} {found : PriceMatch} (is : priceSearch page.text = some (place, found))
    (here : place + found.lead.length = page.before.length) :
    ∃ spaces, found.price = numberOf page.layout ++ spaces ∧ ∀ c ∈ spaces, Url.isSpace c = true := by
  obtain ⟨first, rest, number, -⟩ := numberOf_first page.layout
  have ends := endsWithDigit_tail page.layout
  have none : ¬ Priced (first :: rest) := number ▸ not_priced_of_parts (numberOf_chars page.layout)
  obtain ⟨⟨_, way⟩, -, -⟩ := Pattern.search_some is
  obtain ⟨middle, digit, _, _, begins, -, as, price⟩ := offer_way way
  have behind : middle = first :: (rest ++ (page.gap ++ (page.mark ++ page.after))) := by
    calc middle = (page.text.drop place).drop found.lead.length := by rw [begins, List.drop_left]
      _ = page.text.drop page.before.length := by rw [List.drop_drop, here]
      _ = _ := by rw [page.text_eq, List.drop_left, number, List.cons_append]
  rw [number] at ends
  rw [behind] at as
  have reaches := (as.reaches ends page.blank page.currency).resolve_right none
  obtain ⟨spaces, whole, all⟩ := digits_reach ends as.blank page.blank reaches
  have same : first = digit := (List.cons.inj as.same).1
  refine ⟨spaces, ?_, all⟩
  calc found.price = digit :: (rest ++ spaces) := by rw [price, whole, List.tail_cons]
    _ = numberOf page.layout ++ spaces := by rw [number, same, List.cons_append]

theorem rstrip_number {spaces : Text} (blank : ∀ c ∈ spaces, Url.isSpace c = true) :
    Url.rstrip Url.isSpace (numberOf page.layout ++ spaces) = numberOf page.layout := by
  obtain ⟨_, last, same, digit⟩ := numberOf_last page.layout
  have solid : ¬ Url.isSpace last = true := by
    intro space
    rw [silent_of_space space] at digit
    cases digit
  rw [same, Url.rstrip, List.reverse_append, List.dropWhile_append_of_pos fun c mem => blank c (List.mem_reverse.mp mem),
    List.reverse_append, List.reverse_singleton, List.singleton_append, List.dropWhile_cons_of_neg solid, List.reverse_cons,
    List.reverse_reverse]

theorem decimalCents_number {lib : PageLibrary} (fits : page.Fits) {spaces : Text} (blank : ∀ c ∈ spaces, Url.isSpace c = true) :
    decimalCents lib (.text (numberOf page.layout ++ spaces)) = some page.layout.cents := by
  have plain := points_wholeText page.layout fits
  have silent : points spaces = 0 := by
    rw [points, List.countP_eq_zero]
    intro c mem point
    rcases Bool.or_eq_true_iff.mp point with dot | comma
    · exact absurd (beq_iff_eq.mp dot ▸ blank c mem) (by decide)
    · exact absurd (beq_iff_eq.mp comma ▸ blank c mem) (by decide)
  have left : cleaned (numberOf page.layout ++ spaces) =
      Nat.toDigits 10 page.layout.whole ++ cleaned page.layout.fractionText ++ List.replicate 0 '.' := by
    rw [cleaned_append, cleaned_silent fun c mem => silent_of_space (blank c mem), silent, numberOf, cleaned_append]
    exact congrArg (· ++ _ ++ _) (wholeText_plain page.layout plain)
  exact decimalCents_exact page.below page.positive left (by split <;> decide)

theorem reported_iff (lib : PageLibrary) : page.Reported lib ↔ page.Fits ∧ ¬ page.Joined ∧ priceSearch page.before = none := by
  rw [← priced_here, ← first_iff, ← first_place]
  constructor
  · rintro ⟨place, found, -, is, here, -⟩
    exact ⟨place, found, is, here⟩
  · rintro ⟨place, found, is, here⟩
    have fits := (priced_here page).mp (first_place.mp ⟨place, found, is, here⟩).1
    obtain ⟨_, price, blank⟩ := found_number page is here
    refine ⟨place, found, _, is, here, ?_, by rw [textCandidate, is], rfl, ?_⟩
    · rw [price, rstrip_number page blank]
    · rw [price]
      exact decimalCents_number page fits blank

end Pages

/-- A shop's price is read as written unless one separator misleads, and a page gives the amount that is its first whole price. -/
theorem competitor_prices_read (lib : PageLibrary) : (∀ price : ShopPrice, price.Respected lib ↔ ¬ price.Misleading) ∧
    ∀ page : PagePrice, page.Reported lib ↔ page.Fits ∧ ¬ page.Joined ∧ priceSearch page.before = none :=
  ⟨respected_iff, fun page => reported_iff page lib⟩

/-! ## Prices that are read as others -/

theorem silent_rouble : ∀ c ∈ " ₽".toList, isDecimalDigit c = false := by
  have all : (" ₽".toList.all fun c => !isDecimalDigit c) = true := by decide
  simpa using List.all_eq_true.mp all

theorem blank_space : ∀ c ∈ [' '], Url.isSpace c = true := by simp; decide

theorem rouble_mark : ("₽".toList, []) ∈ currencyPattern "₽".toList := by
  refine mem_currencyPattern.mpr ⟨rfl, "₽".toList, List.mem_cons_self, ?_⟩
  exact .cons rfl .nil

theorem silent_nil : ∀ c ∈ ([] : Text), isDecimalDigit c = false := fun c mem => absurd mem List.not_mem_nil

def bareThousand : ShopPrice := ⟨[], ⟨1234, .comma, '.', [], [], rfl, Nat.zero_le 2, silent_nil⟩, silent_nil, by decide, by decide⟩

def thousandPage : PagePrice :=
  ⟨[], ⟨1234, .comma, '.', [], " ₽".toList, rfl, Nat.zero_le 2, silent_rouble⟩, [' '], "₽".toList, [], rfl, blank_space, rouble_mark,
    by decide, by decide⟩

/-- `10 500 ₽`, where the ten is a number of its own. -/
def packPage : PagePrice :=
  ⟨"10 ".toList, ⟨500, .plain, '.', [], " ₽".toList, rfl, Nat.zero_le 2, silent_rouble⟩, [' '], "₽".toList, [], rfl, blank_space, rouble_mark,
    by decide, by decide⟩

/-- `1,234` is read as 1.23, and pages give 234 and 10500 for 1234 and 500. -/
theorem prices_misread : bareThousand.written = "1,234".toList ∧ decimalCents plainLibrary (.text bareThousand.written) = some 123 ∧
    thousandPage.text = "1,234 ₽".toList ∧ priceSearch thousandPage.text = some (2, ⟨[], "234 ".toList, "₽".toList⟩) ∧
    packPage.text = "10 500 ₽".toList ∧ priceSearch packPage.text = some (0, ⟨[], "10 500 ".toList, "₽".toList⟩) ∧
    ¬ (∀ price : ShopPrice, price.Respected plainLibrary) ∧
    ¬ ∀ page : PagePrice, priceSearch page.before = none → page.Reported plainLibrary := by
  have written : bareThousand.written = "1,234".toList := by decide +kernel
  have read : decimalCents plainLibrary (.text bareThousand.written) = some 123 := by decide +kernel
  have search : priceSearch thousandPage.text = some (2, ⟨[], "234 ".toList, "₽".toList⟩) := by decide +kernel
  refine ⟨written, read, by decide +kernel, search, by decide +kernel, by decide +kernel, fun all => ?_, fun all => ?_⟩
  · rcases all bareThousand with none | same
    · exact absurd (read.symm.trans none) (by decide)
    · exact absurd (read.symm.trans same) (by decide +kernel)
  · obtain ⟨_, _, -, is, here, -⟩ := all thousandPage (by decide +kernel)
    rw [search] at is
    obtain ⟨rfl, rfl⟩ := Prod.mk.inj (Option.some.inj is)
    exact absurd here (by decide)

end MapBackend.WebResearch
