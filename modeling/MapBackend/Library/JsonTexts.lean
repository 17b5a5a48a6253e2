import MapBackend.Library.Doubles
import MapBackend.Library.Json
import Std.Data.String.ToInt

/-!
The text of a JSON value determines the value: where two texts with the same beginning end, both
values are the same.
-/

namespace MapBackend.Library.Json

/-! ## Induction -/

section Induction

variable {motive : Json → Prop} (null : motive .null) (bool : ∀ b, motive (.bool b)) (int : ∀ n, motive (.int n))
  (float : ∀ value shown, motive (.float value shown)) (nonFinite : motive .nonFinite) (text : ∀ s, motive (.text s))
  (list : ∀ items, (∀ item ∈ items, motive item) → motive (.list items))
  (object : ∀ entries, (∀ entry ∈ entries, motive entry.2) → motive (.object entries))

include null bool int float nonFinite text list object

mutual

theorem induct : ∀ j : Json, motive j
  | .null => null
  | .bool b => bool b
  | .int n => int n
  | .float value shown => float value shown
  | .nonFinite => nonFinite
  | .text s => text s
  | .list items => list items (inductItems items)
  | .object entries => object entries (inductEntries entries)

theorem inductItems : ∀ items : List Json, ∀ item ∈ items, motive item
  | [] => List.forall_mem_nil _
  | item :: rest => List.forall_mem_cons.mpr ⟨induct item, inductItems rest⟩

theorem inductEntries : ∀ entries : List (List Char × Json), ∀ entry ∈ entries, motive entry.2
  | [] => List.forall_mem_nil _
  | (_, value) :: rest => List.forall_mem_cons.mpr ⟨induct value, inductEntries rest⟩

end

end Induction

/-! ## Values -/

def isIntegerChar (c : Char) : Bool := c.isDigit || c == '-'

def isNumberChar (c : Char) : Bool := isIntegerChar c || ['+', '.', 'e', 'N', 'a', 'I', 'n', 'f', 'i', 't', 'y'].contains c

def digitsValue (digits : List Char) : ℕ := digits.foldl (fun n c => 10 * n + (c.toNat - 48)) 0

def signedValue : List Char → ℤ
  | '-' :: digits => -digitsValue digits
  | '+' :: digits => digitsValue digits
  | digits => digitsValue digits

def literalValue (shown : List Char) : ℚ :=
  let mantissa := shown.takeWhile (· != 'e')
  let exponent := signedValue ((shown.dropWhile (· != 'e')).drop 1)
  let whole := mantissa.takeWhile (· != '.')
  let fraction := (mantissa.dropWhile (· != '.')).drop 1
  signedValue (whole ++ fraction) * 10 ^ (exponent - fraction.length)

/-- The texts of the floats that are no numbers; such a float is kept with the value 0. -/
def specialTexts : List (List Char) := ["NaN".toList, "Infinity".toList, "-Infinity".toList]

def readFloat (shown : List Char) : Option ℚ :=
  if specialTexts.contains shown = true then some 0
  else match Double.ofRat (literalValue shown) with
    | .finite value => some value
    | _ => none

def startsNumber (shown : List Char) : Bool := shown.head?.any fun c => isIntegerChar c || c == 'N' || c == 'I'

/-- A float and the text that shows it, which no integer has and which is read back as the float. -/
def floatShown (value : ℚ) (shown : List Char) : Bool :=
  startsNumber shown && (shown.all isNumberChar && (shown.any (fun c => !isIntegerChar c) && decide (readFloat shown = some value)))

mutual

def wellFormed : Json → Bool
  | .float value shown => floatShown value shown
  | .list items => wellFormedItems items
  | .object entries => decide (entries.map Prod.fst).Nodup && wellFormedEntries entries
  | _ => true

def wellFormedItems : List Json → Bool
  | [] => true
  | item :: rest => wellFormed item && wellFormedItems rest

def wellFormedEntries : List (List Char × Json) → Bool
  | [] => true
  | (_, value) :: rest => wellFormed value && wellFormedEntries rest

end

theorem wellFormedItems_iff {items : List Json} : wellFormedItems items = true ↔ ∀ item ∈ items, item.wellFormed = true := by
  induction items with
  | nil => simp [wellFormedItems]
  | cons _ _ ih => simp [wellFormedItems, ih]

theorem wellFormedEntries_iff {entries : List (List Char × Json)} :
    wellFormedEntries entries = true ↔ ∀ entry ∈ entries, entry.2.wellFormed = true := by
  induction entries with
  | nil => simp [wellFormedEntries]
  | cons entry _ ih =>
    obtain ⟨_, _⟩ := entry
    simp only [wellFormedEntries, Bool.and_eq_true, ih, List.forall_mem_cons]

theorem wellFormed_list {items : List Json} : (Json.list items).wellFormed = true ↔ ∀ item ∈ items, item.wellFormed = true := by
  rw [wellFormed, wellFormedItems_iff]

theorem wellFormed_object {entries : List (List Char × Json)} : (Json.object entries).wellFormed = true ↔
    (entries.map Prod.fst).Nodup ∧ ∀ entry ∈ entries, entry.2.wellFormed = true := by
  rw [wellFormed, Bool.and_eq_true, decide_eq_true_iff, wellFormedEntries_iff]

theorem floatShown_unique {value other : ℚ} {shown : List Char} (first : floatShown value shown = true)
    (second : floatShown other shown = true) : value = other := by
  simp only [floatShown, Bool.and_eq_true, decide_eq_true_eq] at first second
  exact Option.some.inj (first.2.2.2.symm.trans second.2.2.2)

/-! ## Characters of a text -/

def hexValue (c : Char) : ℕ := if c.isDigit = true then c.toNat - 48 else c.toNat - 87

theorem hexValue_digitChar : ∀ n < 16, hexValue (Nat.digitChar n) = n := by decide

def unescape : List Char → Option (Char × List Char)
  | '\\' :: '"' :: rest => some ('"', rest)
  | '\\' :: '\\' :: rest => some ('\\', rest)
  | '\\' :: 'n' :: rest => some ('\n', rest)
  | '\\' :: 'r' :: rest => some ('\r', rest)
  | '\\' :: 't' :: rest => some ('\t', rest)
  | '\\' :: 'f' :: rest => some (Char.ofNat 12, rest)
  | '\\' :: 'b' :: rest => some (Char.ofNat 8, rest)
  | '\\' :: 'u' :: '0' :: '0' :: high :: low :: rest => some (Char.ofNat (16 * hexValue high + hexValue low), rest)
  | '"' :: _ => none
  | c :: rest => some (c, rest)
  | [] => none

theorem unescape_escape (c : Char) (rest : List Char) : unescape (escapeChar c ++ rest) = some (c, rest) := by
  unfold escapeChar
  split_ifs with quote backslash newline tab_return tab form back control
  · subst quote
    rfl
  · subst backslash
    rfl
  · subst newline
    rfl
  · subst tab_return
    rfl
  · subst tab
    rfl
  · obtain rfl : c = Char.ofNat 12 := by rw [← form, Char.ofNat_toNat]
    rfl
  · obtain rfl : c = Char.ofNat 8 := by rw [← back, Char.ofNat_toNat]
    rfl
  · have high := hexValue_digitChar (c.toNat / 16) (by omega)
    have low := hexValue_digitChar (c.toNat % 16) (by omega)
    simp only [hexDigits, List.cons_append, List.nil_append, unescape, high, low, Nat.div_add_mod, Char.ofNat_toNat]
  · simp only [List.singleton_append]
    unfold unescape
    split <;> simp_all

theorem quoted_unique {s u r t : List Char} (same : s.flatMap escapeChar ++ '"' :: r = u.flatMap escapeChar ++ '"' :: t) :
    s = u ∧ r = t := by
  induction s generalizing u with
  | nil =>
    cases u with
    | nil => exact ⟨rfl, (List.cons.inj same).2⟩
    | cons =>
      have read := congrArg unescape same
      rw [List.flatMap_cons, List.append_assoc, unescape_escape] at read
      cases read
  | cons _ _ ih =>
    rw [List.flatMap_cons, List.append_assoc] at same
    have read := congrArg unescape same
    rw [unescape_escape] at read
    cases u with
    | nil => cases read
    | cons =>
      rw [List.flatMap_cons, List.append_assoc, unescape_escape] at read
      obtain ⟨rfl, tails⟩ := Prod.mk.inj (Option.some.inj read)
      obtain ⟨rfl, rfl⟩ := ih tails
      exact ⟨rfl, rfl⟩

/-! ## Numbers -/

def Ends (rest : List Char) : Prop := ∀ c ∈ rest.head?, isNumberChar c = false

theorem number_unique {a b r s : List Char} (first : a.all isNumberChar = true) (second : b.all isNumberChar = true)
    (ends : Ends r) (others : Ends s) (same : a ++ r = b ++ s) : a = b ∧ r = s := by
  have taken {x rest : List Char} (all : x.all isNumberChar = true) (stops : Ends rest) :
      (x ++ rest).takeWhile isNumberChar = x := by
    rw [List.takeWhile_append_of_pos (List.all_eq_true.mp all)]
    cases rest with
    | nil => simp
    | cons c => simp [stops c (by simp)]
  obtain rfl : a = b := by rw [← taken first ends, same, taken second others]
  exact ⟨rfl, List.append_cancel_left same⟩

theorem int_text (n : ℤ) : ∀ c ∈ (toString n).toList, isIntegerChar c = true := by
  have digits (m : ℕ) : ∀ c ∈ m.repr.toList, isIntegerChar c = true := by
    intro c mem
    rw [Nat.repr, String.toList_ofList] at mem
    rw [isIntegerChar, Nat.isDigit_of_mem_toDigits (by decide) (by decide) mem, Bool.true_or]
  rw [Int.toString_eq_repr, Int.repr_eq_if]
  by_cases nonneg : 0 ≤ n
  · rw [if_pos nonneg]
    exact digits _
  · rw [if_neg nonneg, String.toList_append]
    intro c mem
    rcases List.mem_append.mp mem with sign | digit
    · obtain rfl : c = '-' := List.mem_singleton.mp sign
      rfl
    · exact digits _ c digit

theorem int_text_ne_nil (n : ℤ) : (toString n).toList ≠ [] := by
  rw [Int.toString_eq_repr, Int.repr_eq_if]
  by_cases nonneg : 0 ≤ n
  · rw [if_pos nonneg, Nat.repr, String.toList_ofList]
    exact Nat.toDigits_ne_nil
  · rw [if_neg nonneg, String.toList_append]
    exact List.append_ne_nil_of_left_ne_nil (by decide) _

theorem int_text_number (n : ℤ) : (toString n).toList.all isNumberChar = true :=
  List.all_eq_true.mpr fun c mem => by rw [isNumberChar, int_text n c mem, Bool.true_or]

theorem int_text_starts (n : ℤ) : startsNumber (toString n).toList = true := by
  obtain ⟨c, _, shape⟩ := List.exists_cons_of_ne_nil (int_text_ne_nil n)
  have integer := int_text n c (shape ▸ List.mem_cons_self)
  rw [shape, startsNumber, List.head?_cons, Option.any_some, integer, Bool.true_or, Bool.true_or]

/-! ## Texts -/

theorem dumpsItems_mapM (items : List Json) : dumpsItems items = items.mapM dumps := by
  induction items with
  | nil => rfl
  | cons _ _ ih => rw [dumpsItems, List.mapM_cons, ih]; rfl

def dumpsEntry (entry : List Char × Json) : Option (List Char) := entry.2.dumps.map fun text => quoted entry.1 ++ ':' :: text

theorem dumpsEntries_mapM (entries : List (List Char × Json)) : dumpsEntries entries = entries.mapM dumpsEntry := by
  induction entries with
  | nil => rfl
  | cons entry _ ih =>
    rw [dumpsEntries, List.mapM_cons, ih, dumpsEntry]
    cases entry.2.dumps <;> rfl

section Lists

variable {α : Type*} (code : α → Option (List Char)) (good : α → Prop)

def Known (a : α) : Prop :=
  ∀ b ta tb r s, good b → code a = some ta → code b = some tb → Ends r → Ends s → ta ++ r = tb ++ s → a = b ∧ r = s

def Opens (close : Char) : Prop := ∀ b tb s, good b → code b = some tb → (tb ++ s).head? ≠ some close

variable {code good} {close : Char} (closes : isNumberChar close = false) (separates : close ≠ ',')

def after (close : Char) (rest : List Char) : List (List Char) → List Char
  | [] => close :: rest
  | next :: more => ',' :: (next ++ after close rest more)

theorem joined_after (close : Char) (first rest : List Char) (more : List (List Char)) :
    joined (first :: more) ++ close :: rest = first ++ after close rest more := by
  induction more generalizing first with
  | nil => simp [joined, after]
  | cons next _ ih =>
    have following := ih next
    simp only [joined, List.intersperse_cons_cons, List.flatten_cons, List.append_assoc, after, List.cons_append,
      List.nil_append] at following ⊢
    rw [following]

include closes in
theorem after_ends (rest : List Char) (texts : List (List Char)) : Ends (after close rest texts) := by
  cases texts with
  | nil =>
    intro c mem
    rw [after, List.head?_cons, Option.mem_some_iff] at mem
    exact mem ▸ closes
  | cons =>
    intro c mem
    rw [after, List.head?_cons, Option.mem_some_iff] at mem
    exact mem ▸ by decide

include closes separates in
theorem after_unique {xs ys : List α} {tx ty : List (List Char)} {r s : List Char} (known : ∀ x ∈ xs, Known code good x)
    (all : ∀ y ∈ ys, good y) (first : xs.mapM code = some tx) (second : ys.mapM code = some ty)
    (same : after close r tx = after close s ty) : xs = ys ∧ r = s := by
  induction xs generalizing ys tx ty with
  | nil =>
    obtain rfl := Option.some.inj first
    cases ys with
    | nil =>
      obtain rfl := Option.some.inj second
      exact ⟨rfl, (List.cons.inj same).2⟩
    | cons =>
      simp only [List.mapM_cons, Option.bind_eq_bind, Option.bind_eq_some_iff, Option.pure_def, Option.some.injEq] at second
      obtain ⟨here, -, more, -, rfl⟩ := second
      exact absurd (List.cons.inj same).1 separates
  | cons x _ ih =>
    simp only [List.mapM_cons, Option.bind_eq_bind, Option.bind_eq_some_iff, Option.pure_def, Option.some.injEq] at first
    obtain ⟨there, shown, later, tails, rfl⟩ := first
    cases ys with
    | nil =>
      obtain rfl := Option.some.inj second
      exact absurd (List.cons.inj same).1.symm separates
    | cons y =>
      simp only [List.mapM_cons, Option.bind_eq_bind, Option.bind_eq_some_iff, Option.pure_def, Option.some.injEq] at second
      obtain ⟨here, told, more, rests, rfl⟩ := second
      obtain ⟨rfl, tail⟩ := known x List.mem_cons_self y there here _ _ (all y List.mem_cons_self) shown told
        (after_ends closes r later) (after_ends closes s more) (List.cons.inj same).2
      obtain ⟨rfl, rfl⟩ := ih (fun z mem => known z (List.mem_cons_of_mem x mem))
        (fun z mem => all z (List.mem_cons_of_mem x mem)) tails rests tail
      exact ⟨rfl, rfl⟩

include closes separates in
theorem joined_unique {xs ys : List α} {tx ty : List (List Char)} {r s : List Char} (opens : Opens code good close)
    (known : ∀ x ∈ xs, Known code good x) (goods : ∀ x ∈ xs, good x) (all : ∀ y ∈ ys, good y)
    (first : xs.mapM code = some tx) (second : ys.mapM code = some ty)
    (same : joined tx ++ close :: r = joined ty ++ close :: s) : xs = ys ∧ r = s := by
  cases xs with
  | nil =>
    obtain rfl := Option.some.inj first
    cases ys with
    | nil =>
      obtain rfl := Option.some.inj second
      exact ⟨rfl, (List.cons.inj same).2⟩
    | cons y =>
      simp only [List.mapM_cons, Option.bind_eq_bind, Option.bind_eq_some_iff, Option.pure_def, Option.some.injEq] at second
      obtain ⟨here, told, more, -, rfl⟩ := second
      rw [joined_after] at same
      exact absurd (congrArg List.head? same.symm) (opens y here _ (all y List.mem_cons_self) told)
  | cons x =>
    simp only [List.mapM_cons, Option.bind_eq_bind, Option.bind_eq_some_iff, Option.pure_def, Option.some.injEq] at first
    obtain ⟨there, shown, later, tails, rfl⟩ := first
    rw [joined_after] at same
    cases ys with
    | nil =>
      obtain rfl := Option.some.inj second
      exact absurd (congrArg List.head? same) (opens x there _ (goods x List.mem_cons_self) shown)
    | cons y =>
      simp only [List.mapM_cons, Option.bind_eq_bind, Option.bind_eq_some_iff, Option.pure_def, Option.some.injEq] at second
      obtain ⟨here, told, more, rests, rfl⟩ := second
      rw [joined_after] at same
      obtain ⟨rfl, tail⟩ := known x List.mem_cons_self y there here _ _ (all y List.mem_cons_self) shown told
        (after_ends closes r later) (after_ends closes s more) same
      obtain ⟨rfl, rfl⟩ := after_unique closes separates (fun z mem => known z (List.mem_cons_of_mem x mem))
        (fun z mem => all z (List.mem_cons_of_mem x mem)) tails rests tail
      exact ⟨rfl, rfl⟩

end Lists

def headKind (c : Char) : ℕ :=
  if c = 'n' then 0
  else if c = 't' then 1
  else if c = 'f' then 2
  else if c = '"' then 4
  else if c = '[' then 5
  else if c = '\x7b' then 6
  else 3

def kind : Json → ℕ
  | .null => 0
  | .bool true => 1
  | .bool false => 2
  | .int _ => 3
  | .float _ _ => 3
  | .text _ => 4
  | .list _ => 5
  | .object _ => 6
  | .nonFinite => 7

theorem number_head {shown : List Char} (starts : startsNumber shown = true) (rest : List Char) :
    (shown ++ rest).head?.map headKind = some 3 := by
  cases shown with
  | nil => cases starts
  | cons c =>
    have other (d : Char) (closed : (isIntegerChar d || d == 'N' || d == 'I') = false) : c ≠ d := by
      rintro rfl
      exact Bool.false_ne_true (closed.symm.trans starts)
    rw [List.cons_append, List.head?_cons, Option.map_some, headKind, if_neg (other 'n' rfl), if_neg (other 't' rfl),
      if_neg (other 'f' rfl), if_neg (other '"' rfl), if_neg (other '[' rfl), if_neg (other '\x7b' rfl)]

theorem float_text {value : ℚ} {shown : List Char} (well : (Json.float value shown).wellFormed = true) :
    startsNumber shown = true ∧ shown.all isNumberChar = true ∧ ∃ c ∈ shown, isIntegerChar c = false := by
  rw [wellFormed, floatShown, Bool.and_eq_true, Bool.and_eq_true, Bool.and_eq_true] at well
  obtain ⟨c, mem, other⟩ := List.any_eq_true.mp well.2.2.1
  exact ⟨well.1, well.2.1, c, mem, Bool.not_eq_true' _ ▸ other⟩

theorem head_kind {a : Json} (well : a.wellFormed = true) {shown : List Char} (dumped : a.dumps = some shown) (rest : List Char) :
    (shown ++ rest).head?.map headKind = some a.kind := by
  cases a with
  | null => cases dumped; rfl
  | bool b => cases b <;> (cases dumped; rfl)
  | int n => cases dumped; exact number_head (int_text_starts n) rest
  | float => cases dumped; exact number_head (float_text well).1 rest
  | nonFinite => cases dumped
  | text => cases dumped; rfl
  | list =>
    obtain ⟨texts, -, rfl⟩ := Option.map_eq_some_iff.mp dumped
    rfl
  | object =>
    obtain ⟨texts, -, rfl⟩ := Option.map_eq_some_iff.mp dumped
    rfl

def Well (j : Json) : Prop := j.wellFormed = true

theorem number_known {a b : Json} {shown told r s : List Char} (first : shown.all isNumberChar = true)
    (second : told.all isNumberChar = true) (ends : Ends r) (others : Ends s) (same : shown ++ r = told ++ s)
    (values : shown = told → a = b) : a = b ∧ r = s := by
  obtain ⟨texts, rests⟩ := number_unique first second ends others same
  exact ⟨values texts, rests⟩

theorem dumpsEntry_known {entry : List Char × Json} (known : Known dumps Well entry.2) :
    Known dumpsEntry (fun other => Well other.2) entry := by
  intro other shown told r s well dumped redumped ends others same
  obtain ⟨text, value, rfl⟩ := Option.map_eq_some_iff.mp dumped
  obtain ⟨text', revalue, rfl⟩ := Option.map_eq_some_iff.mp redumped
  simp only [quoted, List.cons_append, List.append_assoc, List.nil_append, List.cons.injEq, true_and] at same
  obtain ⟨keys, rest⟩ := quoted_unique same
  obtain ⟨values, rests⟩ := known other.2 text text' r s well value revalue ends others (List.cons.inj rest).2
  exact ⟨Prod.ext keys values, rests⟩

theorem entries_open : Opens dumpsEntry (fun entry => Well entry.2) '\x7d' := by
  intro entry shown rest _ dumped same
  obtain ⟨_, -, rfl⟩ := Option.map_eq_some_iff.mp dumped
  simp [quoted] at same

theorem kind_eq {a b : Json} (first : Well a) (second : Well b) {shown told r s : List Char} (dumped : a.dumps = some shown)
    (redumped : b.dumps = some told) (same : shown ++ r = told ++ s) : a.kind = b.kind := by
  have kinds := head_kind first dumped r
  rw [same, head_kind second redumped s] at kinds
  exact (Option.some.inj kinds).symm

theorem numbers_known {a b : Json} (first : Well a) (second : Well b) (number : a.kind = 3) (other : b.kind = 3)
    {shown : List Char} (dumped : a.dumps = some shown) (redumped : b.dumps = some shown) : a = b := by
  cases a with
  | int n =>
    cases dumped
    cases b with
    | int =>
      have texts := Option.some.inj redumped
      rw [Int.toString_eq_repr, Int.toString_eq_repr] at texts
      exact congrArg Json.int (Int.repr_injective (String.toList_inj.mp texts.symm))
    | float =>
      cases redumped
      obtain ⟨-, -, c, mem, other⟩ := float_text second
      exact absurd (int_text n c mem) (Bool.eq_false_iff.mp other)
    | bool b => cases b <;> cases other
    | _ => cases other
  | float =>
    cases dumped
    cases b with
    | int m =>
      have texts := Option.some.inj redumped
      obtain ⟨-, -, c, mem, other⟩ := float_text first
      exact absurd (int_text m c (texts ▸ mem)) (Bool.eq_false_iff.mp other)
    | float =>
      cases redumped
      rw [floatShown_unique first second]
    | bool b => cases b <;> cases other
    | _ => cases other
  | bool b => cases b <;> cases number
  | _ => cases number

theorem number_text {a : Json} (well : Well a) (number : a.kind = 3) {shown : List Char} (dumped : a.dumps = some shown) :
    shown.all isNumberChar = true := by
  cases a with
  | int n => cases dumped; exact int_text_number n
  | float => cases dumped; exact (float_text well).2.1
  | bool b => cases b <;> cases number
  | _ => cases number

theorem items_open : Opens dumps Well ']' := by
  intro item shown rest well dumped same
  have kinds := head_kind well dumped rest
  rw [same] at kinds
  have number : item.kind = 3 := (Option.some.inj kinds).symm
  have all := List.all_eq_true.mp (number_text well number dumped)
  cases shown with
  | nil =>
    have empty := head_kind well dumped []
    cases empty
  | cons c =>
    obtain rfl : c = ']' := Option.some.inj same
    exact absurd (all ']' List.mem_cons_self) (by decide)

theorem dumps_known (a : Json) : Well a → Known dumps Well a := by
  have number {a : Json} (kinds : a.kind = 3) (well : Well a) : Known dumps Well a := by
    intro b shown told r s good dumped redumped ends others same
    have other := (kind_eq well good dumped redumped same).symm.trans kinds
    refine number_known (number_text well kinds dumped) (number_text good other redumped) ends others same fun texts => ?_
    exact numbers_known well good kinds other dumped (texts ▸ redumped)
  induction a using induct with
  | null =>
    intro well b shown told r s good dumped redumped _ _ same
    have kinds := kind_eq well good dumped redumped same
    cases b with
    | null =>
      cases dumped
      cases redumped
      exact ⟨rfl, List.append_cancel_left same⟩
    | bool b => cases b <;> cases kinds
    | _ => cases kinds
  | bool b =>
    intro well b' shown told r s good dumped redumped _ _ same
    have kinds := kind_eq well good dumped redumped same
    cases b' with
    | bool b' =>
      obtain rfl : b = b' := by cases b <;> cases b' <;> first | rfl | cases kinds
      obtain rfl := Option.some.inj (dumped.symm.trans redumped)
      exact ⟨rfl, List.append_cancel_left same⟩
    | _ => cases b <;> cases kinds
  | int => exact number rfl
  | float => exact number rfl
  | nonFinite =>
    intro _ b shown told r s _ dumped
    cases dumped
  | text =>
    intro well b shown told r s good dumped redumped _ _ same
    have kinds := kind_eq well good dumped redumped same
    cases b with
    | text =>
      cases dumped
      cases redumped
      simp only [quoted, List.cons_append, List.append_assoc, List.nil_append, List.cons.injEq, true_and] at same
      obtain ⟨rfl, rests⟩ := quoted_unique same
      exact ⟨rfl, rests⟩
    | bool b => cases b <;> cases kinds
    | _ => cases kinds
  | list _ ih =>
    intro well b shown told r s good dumped redumped _ _ same
    have kinds := kind_eq well good dumped redumped same
    cases b with
    | list =>
      obtain ⟨texts, items_text, rfl⟩ := Option.map_eq_some_iff.mp dumped
      obtain ⟨texts', items_text', rfl⟩ := Option.map_eq_some_iff.mp redumped
      rw [dumpsItems_mapM] at items_text items_text'
      simp only [List.cons_append, List.append_assoc, List.nil_append, List.cons.injEq, true_and] at same
      have goods := wellFormed_list.mp well
      obtain ⟨rfl, rests⟩ := joined_unique (by decide) (by decide) items_open (fun item mem => ih item mem (goods item mem)) goods
        (wellFormed_list.mp good) items_text items_text' same
      exact ⟨rfl, rests⟩
    | bool b => cases b <;> cases kinds
    | _ => cases kinds
  | object _ ih =>
    intro well b shown told r s good dumped redumped _ _ same
    have kinds := kind_eq well good dumped redumped same
    cases b with
    | object =>
      obtain ⟨texts, entries_text, rfl⟩ := Option.map_eq_some_iff.mp dumped
      obtain ⟨texts', entries_text', rfl⟩ := Option.map_eq_some_iff.mp redumped
      rw [dumpsEntries_mapM] at entries_text entries_text'
      simp only [List.cons_append, List.append_assoc, List.nil_append, List.cons.injEq, true_and] at same
      have goods := (wellFormed_object.mp well).2
      obtain ⟨rfl, rests⟩ := joined_unique (by decide) (by decide) entries_open
        (fun entry mem => dumpsEntry_known (ih entry mem (goods entry mem))) goods (wellFormed_object.mp good).2 entries_text entries_text' same
      exact ⟨rfl, rests⟩
    | bool b => cases b <;> cases kinds
    | _ => cases kinds

theorem dumps_injective {a b : Json} (first : Well a) (second : Well b) {shown : List Char} (dumped : a.dumps = some shown)
    (redumped : b.dumps = some shown) : a = b :=
  (dumps_known a first b shown shown [] [] second dumped redumped (fun c mem => by cases mem) (fun c mem => by cases mem) rfl).1

/-! ## The order of entries -/

/-- The values are the same but for the order of the entries of their objects. -/
inductive Same : Json → Json → Prop where
  | refl (a : Json) : Same a a
  | symm {a b : Json} : Same a b → Same b a
  | trans {a b c : Json} : Same a b → Same b c → Same a c
  | item {a b : Json} (before after : List Json) : Same a b → Same (.list (before ++ a :: after)) (.list (before ++ b :: after))
  | entry {a b : Json} (before : List (List Char × Json)) (key : List Char) (after : List (List Char × Json)) : Same a b →
      Same (.object (before ++ (key, a) :: after)) (.object (before ++ (key, b) :: after))
  | order {entries others : List (List Char × Json)} : entries.Perm others → Same (.object entries) (.object others)

theorem sortedItems_map (items : List Json) : sortedItems items = items.map sorted := by
  induction items with
  | nil => rfl
  | cons _ _ ih => rw [sortedItems, ih, List.map_cons]

theorem sortedEntries_map (entries : List (List Char × Json)) :
    sortedEntries entries = entries.map fun entry => (entry.1, entry.2.sorted) := by
  induction entries with
  | nil => rfl
  | cons entry _ ih =>
    obtain ⟨_, _⟩ := entry
    rw [sortedEntries, ih, List.map_cons]

theorem sortedEntries_perm (entries : List (List Char × Json)) :
    ((sortedEntries entries).insertionSort fun a b => upTo a.1 b.1 = true).Perm (sortedEntries entries) :=
  List.perm_insertionSort _ _

theorem same_items {items : List Json} (same : ∀ item ∈ items, Same item item.sorted) (before : List Json) :
    Same (.list (before ++ items)) (.list (before ++ sortedItems items)) := by
  induction items generalizing before with
  | nil => exact .refl _
  | cons item rest ih =>
    have later := ih (fun other mem => same other (List.mem_cons_of_mem item mem)) (before ++ [item.sorted])
    rw [List.append_assoc, List.append_assoc] at later
    exact .trans (.item before rest (same item List.mem_cons_self)) later

theorem same_entries {entries : List (List Char × Json)} (same : ∀ entry ∈ entries, Same entry.2 entry.2.sorted)
    (before : List (List Char × Json)) : Same (.object (before ++ entries)) (.object (before ++ sortedEntries entries)) := by
  induction entries generalizing before with
  | nil => exact .refl _
  | cons entry rest ih =>
    obtain ⟨key, value⟩ := entry
    have later := ih (fun other mem => same other (List.mem_cons_of_mem _ mem)) (before ++ [(key, value.sorted)])
    rw [List.append_assoc, List.append_assoc] at later
    exact .trans (.entry before key rest (same (key, value) List.mem_cons_self)) later

theorem same_sorted (a : Json) : Same a a.sorted := by
  induction a using induct with
  | list _ ih => exact same_items ih []
  | object entries ih => exact .trans (same_entries ih []) (.order (sortedEntries_perm entries).symm)
  | _ => exact .refl _

theorem sorted_well {a : Json} : Well a → Well a.sorted := by
  induction a using induct with
  | list _ ih =>
    intro well
    rw [sorted, Well, wellFormed_list, sortedItems_map]
    intro item mem
    obtain ⟨source, known, rfl⟩ := List.mem_map.mp mem
    exact ih source known (wellFormed_list.mp well source known)
  | object entries ih =>
    intro well
    obtain ⟨_, values⟩ := wellFormed_object.mp well
    have perm := sortedEntries_perm entries
    rw [sorted, Well, wellFormed_object]
    constructor
    · have texts : (sortedEntries entries).map Prod.fst = entries.map Prod.fst := by
        rw [sortedEntries_map, List.map_map]
        rfl
      rwa [(perm.map Prod.fst).nodup_iff, texts]
    · intro entry mem
      have source := perm.mem_iff.mp mem
      rw [sortedEntries_map] at source
      obtain ⟨own, known, rfl⟩ := List.mem_map.mp source
      exact ih own known (values own known)
  | _ => exact id

theorem same_of_canonical {a b : Json} (first : Well a) (second : Well b) {shown : List Char} (dumped : a.sorted.dumps = some shown)
    (redumped : b.sorted.dumps = some shown) : Same a b := by
  have equal := dumps_injective (sorted_well first) (sorted_well second) dumped redumped
  exact .trans (same_sorted a) (equal ▸ .symm (same_sorted b))

/-! ## Control characters -/

def Plain (shown : List Char) : Prop := ∀ c ∈ shown, 32 ≤ c.toNat

theorem plain_of_all {s : List Char} (all : s.all (fun c => decide (32 ≤ c.toNat)) = true) : Plain s :=
  fun c mem => of_decide_eq_true (List.all_eq_true.mp all c mem)

theorem plain_append {s t : List Char} (first : Plain s) (second : Plain t) : Plain (s ++ t) :=
  fun c mem => (List.mem_append.mp mem).elim (first c) (second c)

theorem plain_cons {c : Char} {s : List Char} (first : 32 ≤ c.toNat) (second : Plain s) : Plain (c :: s) :=
  List.forall_mem_cons.mpr ⟨first, second⟩

theorem digitChar_plain : ∀ n < 16, 32 ≤ (Nat.digitChar n).toNat := by decide

theorem escapeChar_plain (c : Char) : Plain (escapeChar c) := by
  have pair (d : Char) (visible : 32 ≤ d.toNat) : Plain ['\\', d] :=
    plain_cons (by decide) (List.forall_mem_singleton.mpr visible)
  unfold escapeChar
  split_ifs with quote backslash newline carriage tab form back control
  · exact pair _ (by decide)
  · exact pair _ (by decide)
  · exact pair _ (by decide)
  · exact pair _ (by decide)
  · exact pair _ (by decide)
  · exact pair _ (by decide)
  · exact pair _ (by decide)
  · have high := digitChar_plain (c.toNat / 16) (by omega)
    have low := digitChar_plain (c.toNat % 16) (by omega)
    have digits : Plain (hexDigits c.toNat) := plain_cons high (List.forall_mem_singleton.mpr low)
    have zeros : Plain ['\\', 'u', '0', '0'] := plain_of_all (by decide)
    exact plain_append zeros digits
  · exact List.forall_mem_singleton.mpr (by omega)

theorem quoted_plain (s : List Char) : Plain (quoted s) := by
  refine plain_cons (by decide) (plain_append ?_ (List.forall_mem_singleton.mpr (by decide)))
  intro c mem
  obtain ⟨source, -, inside⟩ := List.mem_flatMap.mp mem
  exact escapeChar_plain source c inside

theorem joined_plain {texts : List (List Char)} (plain : ∀ t ∈ texts, Plain t) : Plain (joined texts) := by
  induction texts with
  | nil => exact List.forall_mem_nil _
  | cons first rest ih =>
    have here := plain first List.mem_cons_self
    have later := ih fun t mem => plain t (List.mem_cons_of_mem _ mem)
    cases rest with
    | nil => simpa [joined] using here
    | cons next more =>
      have shape : joined (first :: next :: more) = first ++ ',' :: joined (next :: more) := by simp [joined]
      rw [shape]
      exact plain_append here (plain_cons (by decide) later)

theorem mapM_plain {α : Type*} {code : α → Option (List Char)} {xs : List α} {texts : List (List Char)}
    (each : ∀ x ∈ xs, ∀ t, code x = some t → Plain t) (coded : xs.mapM code = some texts) : ∀ t ∈ texts, Plain t := by
  induction xs generalizing texts with
  | nil =>
    obtain rfl := Option.some.inj coded
    exact List.forall_mem_nil _
  | cons x _ ih =>
    simp only [List.mapM_cons, Option.bind_eq_bind, Option.bind_eq_some_iff, Option.pure_def, Option.some.injEq] at coded
    obtain ⟨here, shown, _, tails, rfl⟩ := coded
    exact List.forall_mem_cons.mpr ⟨each x List.mem_cons_self here shown,
      ih (fun y mem => each y (List.mem_cons_of_mem x mem)) tails⟩

theorem numberChar_plain {c : Char} (number : isNumberChar c = true) : 32 ≤ c.toNat := by
  rw [isNumberChar, isIntegerChar, Bool.or_eq_true, Bool.or_eq_true, beq_iff_eq, List.contains_iff_mem] at number
  rcases number with (digit | rfl) | other
  · have above : 48 ≤ c.toNat := (Char.isDigit_iff_toNat.mp digit).1
    omega
  · decide
  · have marks : Plain ['+', '.', 'e', 'N', 'a', 'I', 'n', 'f', 'i', 't', 'y'] := plain_of_all (by decide)
    exact marks c other

theorem dumps_plain {a : Json} : Well a → ∀ shown, a.dumps = some shown → Plain shown := by
  induction a using induct with
  | null =>
    rintro - shown ⟨⟩
    exact plain_of_all (by decide)
  | bool b =>
    rintro - shown dumped
    cases b <;> (cases dumped; exact plain_of_all (by decide))
  | int n =>
    rintro - shown ⟨⟩
    exact fun c mem => numberChar_plain (List.all_eq_true.mp (int_text_number n) c mem)
  | float =>
    rintro well shown ⟨⟩
    exact fun c mem => numberChar_plain (List.all_eq_true.mp (float_text well).2.1 c mem)
  | nonFinite => rintro - shown ⟨⟩
  | text s =>
    rintro - shown ⟨⟩
    exact quoted_plain s
  | list _ ih =>
    intro well shown dumped
    obtain ⟨texts, coded, rfl⟩ := Option.map_eq_some_iff.mp dumped
    rw [dumpsItems_mapM] at coded
    have goods := wellFormed_list.mp well
    have each := mapM_plain (fun item mem => ih item mem (goods item mem)) coded
    exact plain_cons (by decide) (plain_append (joined_plain each) (List.forall_mem_singleton.mpr (by decide)))
  | object entries ih =>
    intro well shown dumped
    obtain ⟨texts, coded, rfl⟩ := Option.map_eq_some_iff.mp dumped
    rw [dumpsEntries_mapM] at coded
    have goods := (wellFormed_object.mp well).2
    have entry (own : List Char × Json) (mem : own ∈ entries) (t : List Char) (told : dumpsEntry own = some t) : Plain t := by
      obtain ⟨value, shown, rfl⟩ := Option.map_eq_some_iff.mp told
      exact plain_append (quoted_plain own.1) (plain_cons (by decide) (ih own mem (goods own mem) value shown))
    exact plain_cons (by decide) (plain_append (joined_plain (mapM_plain entry coded)) (List.forall_mem_singleton.mpr (by decide)))

end MapBackend.Library.Json
