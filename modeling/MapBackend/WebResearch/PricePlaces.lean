import MapBackend.WebResearch.PriceReading

/-!
Where the pattern finds a price in a page.
-/

namespace MapBackend.WebResearch
open MapBackend.Library MapBackend.Core Products.Import Products.Sources

/-! ## Currencies -/

def IsCurrency (text : Text) : Prop := ∃ word ∈ currencyWords, List.Forall₂ (fun letter c => sameLetter letter c = true) word text

theorem mem_currencyPattern {currency rest text : Text} :
    (currency, rest) ∈ currencyPattern text ↔ text = currency ++ rest ∧ IsCurrency currency := by
  rw [currencyPattern, Pattern.mem_choice]
  constructor
  · rintro ⟨_, mem, way⟩
    obtain ⟨word, there, rfl⟩ := List.mem_map.mp mem
    obtain ⟨same, letters⟩ := Pattern.mem_literal.mp way
    exact ⟨same, word, there, letters⟩
  · rintro ⟨same, word, there, letters⟩
    exact ⟨_, List.mem_map_of_mem there, Pattern.mem_literal.mpr ⟨same, letters⟩⟩

def letterForms (letter : Char) : List Char := letter :: (letterCases.filter fun cases => cases.contains letter).flatten

theorem mem_letterForms {letter c : Char} (same : sameLetter letter c = true) : c ∈ letterForms letter := by
  rcases Bool.or_eq_true_iff.mp same with equal | cased
  · exact beq_iff_eq.mp equal ▸ List.mem_cons_self
  · obtain ⟨cases, there, both⟩ := List.any_eq_true.mp cased
    obtain ⟨first, second⟩ := Bool.and_eq_true_iff.mp both
    exact List.mem_cons_of_mem _ (List.mem_flatten.mpr ⟨cases, List.mem_filter.mpr ⟨there, first⟩, List.contains_iff_mem.mp second⟩)

theorem currency_forms : (currencyWords.all fun word => word.all fun letter => (letterForms letter).all fun c => !isDecimalDigit c) = true := by
  decide +kernel

theorem currency_heads : (currencyWords.all fun word => word.head?.any fun letter =>
    (letterForms letter).all fun c => !isNumberBody c && !isPoint c) = true := by
  decide +kernel

variable {text : Text}

theorem IsCurrency.silent (is : IsCurrency text) : ∀ c ∈ text, isDecimalDigit c = false := by
  obtain ⟨word, there, letters⟩ := is
  have all := List.all_eq_true.mp (List.all_eq_true.mp currency_forms word there)
  intro c mem
  obtain ⟨n, small, rfl⟩ := List.mem_iff_getElem.mp mem
  have letter := letters.get (i := n) (letters.length_eq ▸ small) small
  have form := List.all_eq_true.mp (all _ (List.getElem_mem (letters.length_eq ▸ small))) _ (mem_letterForms letter)
  exact Bool.not_eq_true' _ ▸ form

theorem IsCurrency.head (is : IsCurrency text) :
    ∃ c rest, text = c :: rest ∧ isNumberBody c = false ∧ isPoint c = false := by
  obtain ⟨word, there, letters⟩ := is
  have head := List.all_eq_true.mp currency_heads word there
  cases letters with
  | nil => cases head
  | @cons letter c _ rest same =>
    have form := List.all_eq_true.mp head c (mem_letterForms same)
    obtain ⟨body, point⟩ := Bool.and_eq_true_iff.mp form
    exact ⟨c, rest, rfl, Bool.not_eq_true' _ ▸ body, Bool.not_eq_true' _ ▸ point⟩

/-! ## Prices at a place -/

theorem mem_fractionPattern {fraction rest text : Text} : (fraction, rest) ∈ fractionPattern text ↔ text = fraction ++ rest ∧
    (fraction = [] ∨ ∃ point digits, fraction = point :: digits ∧ isPoint point = true ∧ (∀ c ∈ digits, isDecimalDigit c = true) ∧
      digits ≠ [] ∧ digits.length ≤ 2) := by
  rw [fractionPattern, Pattern.mem_maybe, Pattern.mem_seq]
  constructor
  · rintro (⟨_, _, _, first, more, rfl⟩ | ⟨rfl, rfl⟩)
    · obtain ⟨point, isPoint, rfl, rfl⟩ := Pattern.mem_one.mp first
      obtain ⟨_, _, others, second, most, rfl⟩ := Pattern.mem_seq.mp more
      obtain ⟨digit, isDigit, rfl, rfl⟩ := Pattern.mem_one.mp second
      obtain ⟨rfl, all, short⟩ := Pattern.mem_upTo.mp most
      exact ⟨rfl, .inr ⟨point, digit :: others, rfl, isPoint, List.forall_mem_cons.mpr ⟨isDigit, all⟩, List.cons_ne_nil _ _,
        Nat.succ_le_succ short⟩⟩
    · exact ⟨rfl, .inl rfl⟩
  · rintro ⟨rfl, rfl | ⟨point, digits, rfl, isPoint, all, some, short⟩⟩
    · exact .inr ⟨rfl, rfl⟩
    · obtain ⟨digit, others, rfl⟩ := List.exists_cons_of_ne_nil some
      obtain ⟨isDigit, all⟩ := List.forall_mem_cons.mp all
      refine .inl ⟨[point], digit :: others ++ rest, digit :: others, Pattern.mem_one.mpr ⟨point, isPoint, rfl, rfl⟩, ?_, rfl⟩
      exact Pattern.mem_seq.mpr ⟨[digit], others ++ rest, others, Pattern.mem_one.mpr ⟨digit, isDigit, rfl, rfl⟩,
        Pattern.mem_upTo.mpr ⟨rfl, all, Nat.le_of_succ_le_succ short⟩, rfl⟩

theorem mem_pricePattern {price rest text : Text} : (price, rest) ∈ pricePattern text ↔
    text = price ++ rest ∧ ∃ digit behind, price = digit :: behind ∧ isDecimalDigit digit = true ∧ PriceBody behind := by
  rw [pricePattern, Pattern.mem_seq]
  constructor
  · rintro ⟨_, _, behind, first, more, rfl⟩
    obtain ⟨digit, isDigit, rfl, rfl⟩ := Pattern.mem_one.mp first
    obtain ⟨body, _, fraction, second, ending, rfl⟩ := Pattern.mem_seq.mp more
    obtain ⟨_, _, others, start, most, rfl⟩ := Pattern.mem_seq.mp second
    obtain ⟨c, isBody, rfl, rfl⟩ := Pattern.mem_one.mp start
    obtain ⟨rfl, all, short⟩ := Pattern.mem_upTo.mp most
    obtain ⟨rfl, form⟩ := mem_fractionPattern.mp ending
    refine ⟨by simp, digit, _, rfl, isDigit, c :: others, fraction, rfl, List.forall_mem_cons.mpr ⟨isBody, all⟩, List.cons_ne_nil _ _,
      Nat.succ_le_succ short, form⟩
  · rintro ⟨rfl, digit, behind, rfl, isDigit, body, fraction, rfl, all, some, short, form⟩
    obtain ⟨c, others, rfl⟩ := List.exists_cons_of_ne_nil some
    obtain ⟨isBody, all⟩ := List.forall_mem_cons.mp all
    refine ⟨[digit], c :: others ++ fraction ++ rest, c :: others ++ fraction, Pattern.mem_one.mpr ⟨digit, isDigit, rfl, rfl⟩, ?_, rfl⟩
    refine Pattern.mem_seq.mpr ⟨c :: others, fraction ++ rest, fraction, Pattern.mem_seq.mpr ⟨[c], others ++ (fraction ++ rest), others,
      Pattern.mem_one.mpr ⟨c, isBody, rfl, by simp⟩, Pattern.mem_upTo.mpr ⟨rfl, all, Nat.le_of_succ_le_succ short⟩, rfl⟩,
      mem_fractionPattern.mpr ⟨rfl, form⟩, rfl⟩

structure PricedAs (text digitText blanks currency rest : Text) (digit : Char) : Prop where
  same : text = digit :: (digitText ++ (blanks ++ (currency ++ rest)))
  isDigit : isDecimalDigit digit = true
  body : PriceBody digitText
  blank : ∀ c ∈ blanks, Url.isSpace c = true
  isCurrency : IsCurrency currency

theorem mem_pricedPattern {lead rest text : Text} {found : PriceMatch} : (found, rest) ∈ pricedPattern lead text ↔
    ∃ digit digitText blanks, PricedAs text digitText blanks found.currency rest digit ∧ found.price = digit :: digitText ∧ found.lead = lead := by
  unfold pricedPattern
  simp only [Pattern.mem_bind, Pattern.mem_ret]
  constructor
  · rintro ⟨price, _, first, blanks, _, second, _, _, third, rfl, rfl⟩
    obtain ⟨rfl, digit, digitText, rfl, isDigit, body⟩ := mem_pricePattern.mp first
    obtain ⟨rfl, blank⟩ := Pattern.mem_many.mp second
    obtain ⟨rfl, isCurrency⟩ := mem_currencyPattern.mp third
    exact ⟨digit, digitText, blanks, ⟨rfl, isDigit, body, blank, isCurrency⟩, rfl, rfl⟩
  · rintro ⟨digit, digitText, blanks, ⟨rfl, isDigit, body, blank, isCurrency⟩, price, rfl⟩
    refine ⟨digit :: digitText, _, mem_pricePattern.mpr ⟨rfl, digit, digitText, rfl, isDigit, body⟩, blanks, _,
      Pattern.mem_many.mpr ⟨rfl, blank⟩, found.currency, rest, mem_currencyPattern.mpr ⟨rfl, isCurrency⟩, ?_, rfl⟩
    rw [← price]

def Priced (text : Text) : Prop := ∃ digitText blanks currency rest digit, PricedAs text digitText blanks currency rest digit

theorem Priced.append (priced : Priced text) (more : Text) : Priced (text ++ more) := by
  obtain ⟨digitText, blanks, currency, rest, digit, rfl, isDigit, body, blank, isCurrency⟩ := priced
  exact ⟨digitText, blanks, currency, rest ++ more, digit, by simp, isDigit, body, blank, isCurrency⟩

variable {c : Char}

theorem Priced.head (priced : Priced (c :: text)) : isDecimalDigit c = true := by
  obtain ⟨_, _, _, _, _, same, isDigit, -⟩ := priced
  exact (List.cons.inj same).1 ▸ isDigit

theorem not_priced_nil : ¬ Priced [] := by
  rintro ⟨_, _, _, _, _, same, -⟩
  cases same

def isSpaceCode (n : ℕ) : Bool :=
  (9 ≤ n && n ≤ 13) || (28 ≤ n && n ≤ 32) || n == 0x85 || n == 0xA0 || n == 0x1680 || (0x2000 ≤ n && n ≤ 0x200A) ||
    n == 0x2028 || n == 0x2029 || n == 0x202F || n == 0x205F || n == 0x3000

theorem silent_of_space (blank : Url.isSpace c = true) : isDecimalDigit c = false := by
  have apart : (AIAgent.decimalZeros.all fun first => (List.range 10).all fun k => !isSpaceCode (first + k)) = true := by decide +kernel
  have code : isSpaceCode c.toNat = true := blank
  rw [isDecimalDigit, AIAgent.digitValue, Option.isSome_map, Option.isSome_eq_false_iff, Option.isNone_iff_eq_none, List.find?_eq_none]
  intro first mem range
  obtain ⟨low, high⟩ := Bool.and_eq_true_iff.mp range
  have low := of_decide_eq_true low
  have high := of_decide_eq_true high
  have all := List.all_eq_true.mp (List.all_eq_true.mp apart first mem) (c.toNat - first) (List.mem_range.mpr (by omega))
  rw [Nat.add_sub_cancel' low, code] at all
  cases all

theorem mem_fromPattern {lead rest text : Text} (way : (lead, rest) ∈ fromPattern text) :
    text = lead ++ rest ∧ ∀ c ∈ lead, isDecimalDigit c = false := by
  have letters : ("от".toList.all fun letter => (letterForms letter).all fun c => !isDecimalDigit c) = true := by decide +kernel
  rcases Pattern.mem_maybe.mp way with more | ⟨rfl, rfl⟩
  · obtain ⟨_, _, _, first, second, rfl⟩ := Pattern.mem_seq.mp more
    obtain ⟨rfl, same⟩ := Pattern.mem_literal.mp first
    obtain ⟨_, _, _, third, fourth, rfl⟩ := Pattern.mem_seq.mp second
    obtain ⟨_, blank, rfl, rfl⟩ := Pattern.mem_one.mp third
    obtain ⟨rfl, all⟩ := Pattern.mem_many.mp fourth
    refine ⟨by simp, fun c mem => ?_⟩
    rcases List.mem_append.mp mem with inWord | inSpaces
    · obtain ⟨n, small, rfl⟩ := List.mem_iff_getElem.mp inWord
      have letter := same.get (i := n) (same.length_eq ▸ small) small
      have form := List.all_eq_true.mp (List.all_eq_true.mp letters _ (List.getElem_mem (same.length_eq ▸ small))) _ (mem_letterForms letter)
      exact Bool.not_eq_true' _ ▸ form
    · rcases List.mem_cons.mp inSpaces with rfl | later
      · exact silent_of_space blank
      · exact silent_of_space (all c later)
  · exact ⟨rfl, fun c mem => absurd mem List.not_mem_nil⟩

/-! ## Where a price ends -/

theorem body_of_decimal (digit : isDecimalDigit c = true) : isNumberBody c = true := by
  rw [isNumberBody, digit]
  rfl

theorem body_of_space (blank : Url.isSpace c = true) : isNumberBody c = true := by
  rw [isNumberBody, blank, Bool.or_true]
  rfl

theorem PriceBody.chars (body : PriceBody text) : ∀ c ∈ text, isNumberBody c = true ∨ isPoint c = true := by
  obtain ⟨_, _, rfl, all, -, -, form⟩ := body
  intro c mem
  rcases List.mem_append.mp mem with first | second
  · exact .inl (all c first)
  · rcases form with rfl | ⟨_, _, rfl, isPoint, numbers, -, -⟩
    · cases second
    · rcases List.mem_cons.mp second with rfl | later
      · exact .inr isPoint
      · exact .inl (body_of_decimal (numbers c later))

theorem PriceBody.trim {text blanks : Text} (body : PriceBody (text ++ blanks)) (blank : ∀ c ∈ blanks, Url.isSpace c = true)
    {front : Text} {last : Char} (ends : text = front ++ [last]) (digit : isDecimalDigit last = true) : PriceBody text := by
  obtain ⟨parts, _, same, all, some, short, form⟩ := body
  rcases form with rfl | ⟨point, digits, rfl, isPoint, numbers, more, few⟩
  · rw [List.append_nil] at same
    subst same
    refine ⟨text, [], (List.append_nil _).symm, fun c mem => all c (List.mem_append_left _ mem), by simp [ends], ?_, .inl rfl⟩
    rw [List.length_append] at short
    omega
  · have none : blanks = [] := by
      rcases List.eq_nil_or_concat blanks with rfl | ⟨_, space, rfl⟩
      · rfl
      · obtain ⟨_, number, rfl⟩ := (List.eq_nil_or_concat digits).resolve_left more
        rw [List.concat_eq_append, List.concat_eq_append, ← List.append_assoc, ← List.cons_append, ← List.append_assoc] at same
        obtain ⟨-, lasts⟩ := List.append_inj' same rfl
        have equal := List.singleton_inj.mp lasts
        have blankLast : Url.isSpace space = true := blank space (by simp)
        have digitLast : isDecimalDigit number = true := numbers number (by simp)
        rw [← equal, silent_of_space blankLast] at digitLast
        cases digitLast
    subst none
    rw [List.append_nil] at same
    exact ⟨parts, point :: digits, same, all, some, short, .inr ⟨point, digits, rfl, isPoint, numbers, more, few⟩⟩

def EndsWithDigit (text : Text) : Prop := text = [] ∨ ∃ front last, text = front ++ [last] ∧ isDecimalDigit last = true

section Ends

variable {text gap mark after digitText blanks currency rest : Text} {c digit : Char}

theorem PricedAs.reaches (as : PricedAs (c :: (text ++ (gap ++ (mark ++ after)))) digitText blanks currency rest digit)
    (ends : EndsWithDigit text) (blank : ∀ d ∈ gap, Url.isSpace d = true) (isMark : IsCurrency mark) :
    digitText ++ blanks = text ++ gap ∨ Priced (c :: text) := by
  obtain ⟨begin, isDigit, body, spaces, isCurrency⟩ := as
  obtain ⟨rfl, same⟩ := List.cons.inj begin
  obtain ⟨first, _, begins, noBody, _⟩ := isCurrency.head
  obtain ⟨markFirst, _, markBegins, markBody, markPoint⟩ := isMark.head
  have parts : ∀ d ∈ digitText ++ blanks, isNumberBody d = true ∨ isPoint d = true := by
    intro d mem
    rcases List.mem_append.mp mem with inBody | inBlanks
    · exact body.chars d inBody
    · exact .inl (body_of_space (spaces d inBlanks))
  have solid : first ∉ gap := by
    intro mem
    rw [body_of_space (blank first mem)] at noBody
    cases noBody
  have split : (text ++ gap) ++ (mark ++ after) = (digitText ++ blanks) ++ (currency ++ rest) := by
    simpa only [List.append_assoc] using same
  rcases List.append_eq_append_iff.mp split with ⟨middle, longer, left⟩ | ⟨middle, shorter, right⟩
  · -- The price would go on with the mark.
    cases middle with
    | nil => exact .inl (by rw [longer, List.append_nil])
    | cons d =>
      rw [markBegins] at left
      have equal : markFirst = d := (List.cons.inj left).1
      rcases parts d (by simp [longer]) with yes | yes
      · exact absurd (equal.symm ▸ yes) (by rw [markBody]; decide)
      · exact absurd (equal.symm ▸ yes) (by rw [markPoint]; decide)
  · -- The currency lies before the gap, as a whole, since it has no digit.
    cases middle with
    | nil => exact .inl (by rw [shorter, List.append_nil])
    | cons d =>
      have equal : first = d := by
        rw [begins] at right
        exact (List.cons.inj right).1
      subst equal
      rcases List.append_eq_append_iff.mp shorter with ⟨_, -, inGap⟩ | ⟨inside, whole, joined⟩
      · exact absurd (inGap ▸ List.mem_append_right _ List.mem_cons_self) solid
      · have some : inside ≠ [] := by
          rintro rfl
          rw [List.nil_append] at joined
          exact solid (joined ▸ List.mem_cons_self)
        rw [joined, List.append_assoc] at right
        rcases List.append_eq_append_iff.mp right with ⟨unread, within, -⟩ | ⟨_, over_, -⟩
        · refine .inr ⟨digitText, blanks, currency, unread, c, ?_, isDigit, body, spaces, isCurrency⟩
          rw [whole, within]
          simp only [List.append_assoc]
        · rcases ends with rfl | ⟨_, last, rfl, digitLast⟩
          · exact absurd (List.append_eq_nil_iff.mp whole.symm).2 some
          · have lastInside : last ∈ inside := by
              obtain ⟨_, _, rfl⟩ := (List.eq_nil_or_concat inside).resolve_left some
              rw [List.concat_eq_append, ← List.append_assoc] at whole
              obtain ⟨-, lasts⟩ := List.append_inj' whole rfl
              rw [List.singleton_inj.mp lasts]
              simp
            have silent := isCurrency.silent last (over_ ▸ List.mem_append_left _ lastInside)
            rw [digitLast] at silent
            cases silent

theorem digits_reach (ends : EndsWithDigit text) (spaces : ∀ d ∈ blanks, Url.isSpace d = true) (blank : ∀ d ∈ gap, Url.isSpace d = true)
    (same : digitText ++ blanks = text ++ gap) : ∃ behind, digitText = text ++ behind ∧ ∀ d ∈ behind, Url.isSpace d = true := by
  rcases List.append_eq_append_iff.mp same with ⟨behind, longer, left⟩ | ⟨behind, shorter, left⟩
  · rcases ends with rfl | ⟨_, last, rfl, digitLast⟩
    · obtain ⟨none, -⟩ := List.append_eq_nil_iff.mp longer.symm
      exact ⟨[], by rw [none]; rfl, fun d mem => absurd mem List.not_mem_nil⟩
    · rcases List.eq_nil_or_concat behind with rfl | ⟨_, final, rfl⟩
      · exact ⟨[], by rw [longer, List.append_nil, List.append_nil], fun d mem => absurd mem List.not_mem_nil⟩
      · -- The last digit would be a blank of the match.
        rw [List.concat_eq_append, ← List.append_assoc] at longer
        obtain ⟨-, lasts⟩ := List.append_inj' longer rfl
        have space : Url.isSpace final = true := spaces final (by rw [left]; simp)
        rw [List.singleton_inj.mp lasts, silent_of_space space] at digitLast
        cases digitLast
  · exact ⟨behind, shorter, fun d mem => blank d (left ▸ List.mem_append_left _ mem)⟩

theorem priced_iff (isDigit : isDecimalDigit c = true) (ends : EndsWithDigit text) (blank : ∀ d ∈ gap, Url.isSpace d = true)
    (isMark : IsCurrency mark) : Priced (c :: (text ++ (gap ++ (mark ++ after)))) ↔
      PriceBody text ∨ (text = [] ∧ gap ≠ []) ∨ Priced (c :: text) := by
  constructor
  · rintro ⟨_, _, _, _, _, as⟩
    rcases as.reaches ends blank isMark with same | earlier
    · rcases ends with rfl | ⟨front, last, rfl, digitLast⟩
      · refine .inr (.inl ⟨rfl, fun none => ?_⟩)
        subst none
        obtain ⟨_, _, form, -, some, -, -⟩ := as.body
        exact some (List.append_eq_nil_iff.mp (form ▸ (List.append_eq_nil_iff.mp same).1)).1
      · obtain ⟨spaces, whole, all⟩ := digits_reach (.inr ⟨front, last, rfl, digitLast⟩) as.blank blank same
        exact .inl ((whole ▸ as.body).trim all rfl digitLast)
    · exact .inr (.inr earlier)
  · rintro (body | ⟨rfl, some⟩ | earlier)
    · exact ⟨text, gap, mark, after, c, rfl, isDigit, body, blank, isMark⟩
    · obtain ⟨space, spaces, rfl⟩ := List.exists_cons_of_ne_nil some
      obtain ⟨isSpace, others⟩ := List.forall_mem_cons.mp blank
      refine ⟨[space], spaces, mark, after, c, rfl, isDigit, ⟨[space], [], rfl, ?_, List.cons_ne_nil _ _, Nat.le_of_ble_eq_true rfl, .inl rfl⟩, others, isMark⟩
      exact fun d mem => List.mem_singleton.mp mem ▸ body_of_space isSpace
    · have more := earlier.append (gap ++ (mark ++ after))
      rwa [List.cons_append] at more

end Ends

theorem not_priced_of_parts (parts : ∀ c ∈ text, isNumberBody c = true ∨ isPoint c = true) : ¬ Priced text := by
  rintro ⟨_, _, _, _, _, rfl, _, _, _, isCurrency⟩
  obtain ⟨first, _, rfl, noBody, noPoint⟩ := isCurrency.head
  rcases parts first (by simp) with yes | yes
  · rw [noBody] at yes
    cases yes
  · rw [noPoint] at yes
    cases yes

theorem priced_before {text more : Text} (parts : ∀ c ∈ more, isNumberBody c = true ∨ isPoint c = true)
    (starts : ∀ c ∈ more.head?, isDecimalDigit c = true) (priced : Priced (text ++ more)) : Priced text := by
  obtain ⟨digitText, blanks, currency, rest, digit, same, isDigit, body, blank, isCurrency⟩ := priced
  obtain ⟨first, _, begins, noBody, noPoint⟩ := isCurrency.head
  have split : text ++ more = (digit :: (digitText ++ blanks)) ++ (currency ++ rest) := by
    rw [same, List.cons_append, List.append_assoc]
  rcases List.append_eq_append_iff.mp split with ⟨inside, -, late⟩ | ⟨inside, early, left⟩
  · rcases parts first (by rw [late, begins]; simp) with yes | yes
    · rw [noBody] at yes
      cases yes
    · rw [noPoint] at yes
      cases yes
  · have whole (unread : Text) (within : inside = currency ++ unread) : Priced text :=
      ⟨digitText, blanks, currency, unread, digit, by rw [early, within]; simp, isDigit, body, blank, isCurrency⟩
    rcases List.append_eq_append_iff.mp left with ⟨unread, within, -⟩ | ⟨beyond, over_, taken⟩
    · exact whole unread within
    · cases beyond with
      | nil => exact whole [] (by rw [over_, List.append_nil, List.append_nil])
      | cons d =>
        have digitHead : isDecimalDigit d = true := starts d (by rw [taken]; rfl)
        rw [isCurrency.silent d (by rw [over_]; simp)] at digitHead
        cases digitHead

/-! ## The first price of a text -/

theorem offer_way {text rest : Text} {found : PriceMatch} (way : (found, rest) ∈ offerPattern text) :
    ∃ middle digit digitText blanks, text = found.lead ++ middle ∧ (∀ c ∈ found.lead, isDecimalDigit c = false) ∧
      PricedAs middle digitText blanks found.currency rest digit ∧ found.price = digit :: digitText := by
  obtain ⟨_, middle, first, second⟩ := Pattern.mem_bind.mp way
  obtain ⟨same, silent⟩ := mem_fromPattern first
  obtain ⟨digit, digitText, blanks, as, price, rfl⟩ := mem_pricedPattern.mp second
  exact ⟨middle, digit, digitText, blanks, same, silent, as, price⟩

theorem offer_of_priced (priced : Priced text) : offerPattern text ≠ [] := by
  obtain ⟨digitText, blanks, currency, rest, digit, as⟩ := priced
  have way : (⟨[], digit :: digitText, currency⟩, rest) ∈ offerPattern text := by
    refine Pattern.mem_bind.mpr ⟨[], text, Pattern.mem_maybe.mpr (.inr ⟨rfl, rfl⟩), mem_pricedPattern.mpr ?_⟩
    exact ⟨digit, digitText, blanks, as, rfl, rfl⟩
  exact List.ne_nil_of_mem way

theorem not_priced_lead {lead middle : Text} (silent : ∀ c ∈ lead, isDecimalDigit c = false) {j : ℕ} (small : j < lead.length) :
    ¬ Priced ((lead ++ middle).drop j) := by
  intro priced
  rw [List.drop_append_of_le_length (Nat.le_of_lt small), List.drop_eq_getElem_cons small] at priced
  have digit := priced.head
  rw [silent _ (List.getElem_mem small)] at digit
  cases digit

theorem priceSearch_eq_none : priceSearch text = none ↔ ∀ j, ¬ Priced (text.drop j) := by
  rw [priceSearch, Pattern.search_eq_none]
  constructor
  · intro nothing j priced
    by_cases inside : j ≤ text.length
    · exact offer_of_priced priced (nothing j inside)
    · rw [List.drop_eq_nil_of_le (Nat.le_of_not_le inside)] at priced
      exact not_priced_nil priced
  · intro none j _
    apply List.eq_nil_iff_forall_not_mem.mpr
    rintro ⟨found, rest⟩ way
    obtain ⟨_, digit, digitText, blanks, same, -, as, -⟩ := offer_way way
    apply none (j + found.lead.length)
    rw [← List.drop_drop, same, List.drop_left]
    exact ⟨digitText, blanks, found.currency, rest, digit, as⟩

theorem first_place {n : ℕ} : (∃ place found, priceSearch text = some (place, found) ∧ place + found.lead.length = n) ↔
    Priced (text.drop n) ∧ ∀ j < n, ¬ Priced (text.drop j) := by
  have at_place {place : ℕ} {found : PriceMatch} (is : priceSearch text = some (place, found)) :
      Priced (text.drop (place + found.lead.length)) ∧ ∀ j < place + found.lead.length, ¬ Priced (text.drop j) := by
    obtain ⟨⟨rest, way⟩, -, before⟩ := Pattern.search_some is
    obtain ⟨_, digit, digitText, blanks, same, silent, as, -⟩ := offer_way way
    refine ⟨?_, fun j earlier priced => ?_⟩
    · rw [← List.drop_drop, same, List.drop_left]
      exact ⟨digitText, blanks, found.currency, rest, digit, as⟩
    · by_cases outside : j < place
      · exact offer_of_priced priced (before j outside)
      · obtain ⟨k, rfl⟩ := Nat.exists_eq_add_of_le (Nat.le_of_not_lt outside)
        rw [← List.drop_drop, same] at priced
        exact not_priced_lead silent (by omega) priced
  constructor
  · rintro ⟨place, found, is, rfl⟩
    exact at_place is
  · rintro ⟨here, first⟩
    cases is : priceSearch text with
    | none => exact absurd here (priceSearch_eq_none.mp is n)
    | some result =>
      obtain ⟨place, found⟩ := result
      obtain ⟨there, before⟩ := at_place is
      refine ⟨place, found, rfl, le_antisymm ?_ ?_⟩
      · exact Nat.le_of_not_lt fun later => before n later here
      · exact Nat.le_of_not_lt fun earlier => first _ earlier there

end MapBackend.WebResearch
