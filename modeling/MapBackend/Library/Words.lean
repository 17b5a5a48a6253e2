import Mathlib.Data.List.Infix
import Mathlib.Tactic.Common

/-!
The words of a text are its longest runs of word characters.
-/

namespace MapBackend.Library

theorem toNat_ofNat {n : ℕ} (small : n < 0xD800) : (Char.ofNat n).toNat = n := by
  have valid : n.isValidChar := .inl small
  rw [Char.ofNat, dif_pos valid]
  rfl

variable {α β : Type*}

/-! ## Parts of a list -/

def occursIn [BEq α] (part text : List α) : Bool := text.tails.any part.isPrefixOf

/-! ## Words -/

variable (isWord : α → Bool)

def startsWord (text : List α) : Bool := text.head?.any isWord

def endsWord (text : List α) : Bool := text.getLast?.any isWord

def growWord (c : α) : List (List α) → List (List α)
  | [] => [[c]]
  | word :: rest => (c :: word) :: rest

def words : List α → List (List α)
  | [] => []
  | c :: rest =>
    if isWord c then if startsWord isWord rest then growWord c (words rest) else [c] :: words rest
    else words rest

def StandsWhole (part text : List α) : Prop := ∃ before after, text = before ++ part ++ after ∧
  endsWord isWord before = false ∧ startsWord isWord after = false

variable {isWord} {c : α} {before part after rest text : List α}

theorem startsWord_append (some : text ≠ []) : startsWord isWord (text ++ rest) = startsWord isWord text := by
  rw [startsWord, startsWord, List.head?_append_of_ne_nil _ some]

theorem endsWord_cons (some : text ≠ []) : endsWord isWord (c :: text) = endsWord isWord text := by
  rw [endsWord, endsWord, List.getLast?_cons_of_ne_nil some]

theorem ne_nil_of_starts (starts : startsWord isWord text = true) : text ≠ [] := by
  rintro rfl
  cases starts

theorem words_skip (silent : isWord c = false) : words isWord (c :: rest) = words isWord rest := by
  rw [words, silent, if_neg Bool.false_ne_true]

theorem words_open (word : isWord c = true) (stop : startsWord isWord rest = false) :
    words isWord (c :: rest) = [c] :: words isWord rest := by
  rw [words, if_pos word, stop, if_neg Bool.false_ne_true]

theorem words_grow (word : isWord c = true) (more : startsWord isWord rest = true) :
    words isWord (c :: rest) = growWord c (words isWord rest) := by
  rw [words, if_pos word, if_pos more]

theorem words_ne_nil (starts : startsWord isWord text = true) : words isWord text ≠ [] := by
  cases text with
  | nil => cases starts
  | cons c rest =>
    have word : isWord c = true := starts
    cases more : startsWord isWord rest with
    | false =>
      rw [words_open word more]
      exact List.cons_ne_nil _ _
    | true =>
      rw [words_grow word more]
      cases words isWord rest <;> exact List.cons_ne_nil _ _

theorem growWord_append {first : List (List α)} (second : List (List α)) (some : first ≠ []) :
    growWord c (first ++ second) = growWord c first ++ second := by
  cases first with
  | nil => exact absurd rfl some
  | cons => rfl

theorem growWord_flatten (c : α) (found : List (List α)) : (growWord c found).flatten = c :: found.flatten := by
  cases found <;> rfl

theorem words_append (parted : endsWord isWord text = false ∨ startsWord isWord rest = false) :
    words isWord (text ++ rest) = words isWord text ++ words isWord rest := by
  induction text with
  | nil => rfl
  | cons c tail ih =>
    cases tail with
    | nil =>
      cases word : isWord c with
      | false => rw [List.singleton_append, words_skip word, words_skip word, words, List.nil_append]
      | true =>
        have stop : startsWord isWord rest = false := parted.resolve_left (by simp [endsWord, word])
        rw [List.singleton_append, words_open word stop, words_open word rfl, words, List.singleton_append]
    | cons d tail =>
      have some : d :: tail ≠ [] := List.cons_ne_nil _ _
      rw [endsWord_cons some] at parted
      have later := ih parted
      have starts : startsWord isWord (d :: tail ++ rest) = startsWord isWord (d :: tail) := startsWord_append some
      rw [List.cons_append]
      cases word : isWord c with
      | false => rw [words_skip word, words_skip word, later]
      | true =>
        cases more : startsWord isWord (d :: tail) with
        | false => rw [words_open word (starts.trans more), words_open word more, later, List.cons_append]
        | true =>
          rw [words_grow word (starts.trans more), words_grow word more, later, growWord_append _ (words_ne_nil more)]

theorem words_split {first run last : List (List α)} (parts : words isWord text = first ++ (run ++ last)) (some : run ≠ []) :
    ∃ before part after, text = before ++ (part ++ after) ∧ words isWord before = first ∧ words isWord part = run ∧
      endsWord isWord before = false ∧ startsWord isWord part = true ∧ startsWord isWord after = false := by
  induction text generalizing first run with
  | nil => exact absurd (List.append_eq_nil_iff.mp (List.append_eq_nil_iff.mp parts.symm).2).1 some
  | cons c rest ih =>
    cases word : isWord c with
    | false =>
      rw [words_skip word] at parts
      obtain ⟨before, part, after, rfl, firsts, runs, ends, starts, stop⟩ := ih parts some
      refine ⟨c :: before, part, after, rfl, (words_skip word).trans firsts, runs, ?_, starts, stop⟩
      cases before with
      | nil => exact word
      | cons => exact (endsWord_cons (List.cons_ne_nil _ _)).trans ends
    | true =>
      cases more : startsWord isWord rest with
      | false =>
        rw [words_open word more] at parts
        cases first with
        | nil =>
          obtain ⟨head, run, rfl⟩ := List.exists_cons_of_ne_nil some
          obtain ⟨rfl, others⟩ := List.cons.inj parts
          cases run with
          | nil => exact ⟨[], [c], rest, rfl, rfl, words_open word rfl, rfl, word, more⟩
          | cons =>
            -- the word of this character is followed by the words that are found in the rest
            obtain ⟨before, part, after, rfl, firsts, runs, ends, starts, stop⟩ := @ih [] _ others (List.cons_ne_nil _ _)
            have filled : before ++ part ≠ [] := fun none => ne_nil_of_starts starts (List.append_eq_nil_iff.mp none).2
            rw [← List.append_assoc, startsWord_append filled] at more
            refine ⟨[], c :: (before ++ part), after, by simp, rfl, ?_, rfl, word, stop⟩
            rw [words_open word more, words_append (.inl ends), firsts, runs, List.nil_append]
        | cons =>
          obtain ⟨rfl, others⟩ := List.cons.inj parts
          obtain ⟨before, part, after, rfl, firsts, runs, ends, starts, stop⟩ := ih others some
          have filled : before ≠ [] := by
            rintro rfl
            rw [List.nil_append, startsWord_append (ne_nil_of_starts starts), starts] at more
            cases more
          rw [startsWord_append filled] at more
          refine ⟨c :: before, part, after, rfl, ?_, runs, (endsWord_cons filled).trans ends, starts, stop⟩
          rw [words_open word more, firsts]
      | true =>
        rw [words_grow word more] at parts
        obtain ⟨head, _, found⟩ := List.exists_cons_of_ne_nil (words_ne_nil more)
        rw [found] at parts ih
        cases first with
        | nil =>
          obtain ⟨_, run, rfl⟩ := List.exists_cons_of_ne_nil some
          obtain ⟨rfl, rfl⟩ := List.cons.inj parts
          obtain ⟨before, part, after, rfl, firsts, runs, ends, starts, stop⟩ := @ih [] (head :: run) rfl (List.cons_ne_nil _ _)
          obtain rfl : before = [] := by
            by_contra filled
            rw [startsWord_append filled] at more
            exact words_ne_nil more firsts
          refine ⟨[], c :: part, after, rfl, rfl, ?_, rfl, word, stop⟩
          rw [words_grow word starts, runs, growWord]
        | cons _ first =>
          obtain ⟨rfl, rfl⟩ := List.cons.inj parts
          obtain ⟨before, part, after, rfl, firsts, runs, ends, starts, stop⟩ := @ih (head :: first) _ rfl some
          have filled : before ≠ [] := by
            rintro rfl
            cases firsts
          rw [startsWord_append filled] at more
          refine ⟨c :: before, part, after, rfl, ?_, runs, (endsWord_cons filled).trans ends, starts, stop⟩
          rw [words_grow word more, firsts, growWord]

/-! ## Reading -/

variable {read : α → List β} {code : List β}

theorem read_words (silent : ∀ c, isWord c = false → read c = []) (text : List α) :
    (words isWord text).flatten.flatMap read = text.flatMap read := by
  induction text with
  | nil => rfl
  | cons c rest ih =>
    rw [List.flatMap_cons, ← ih]
    cases word : isWord c with
    | false => rw [words_skip word, silent c word, List.nil_append]
    | true =>
      cases more : startsWord isWord rest with
      | false => rw [words_open word more, List.flatten_cons, List.singleton_append, List.flatMap_cons]
      | true => rw [words_grow word more, growWord_flatten, List.flatMap_cons]

variable (isWord read)

def ReadsWords (code : List β) (text : List α) : Prop := ∃ run, run <:+: words isWord text ∧ run.flatten.flatMap read = code

def readsWords [BEq β] (code : List β) (text : List α) : Bool :=
  (words isWord text).tails.any fun rest => rest.inits.any fun run => run.flatten.flatMap read == code

def ReadsWhole (code : List β) (text : List α) : Prop := ∃ part, StandsWhole isWord part text ∧ part.flatMap read = code

variable {isWord read}

theorem readsWords_iff [BEq β] [LawfulBEq β] : readsWords isWord read code text = true ↔ ReadsWords isWord read code text := by
  simp only [readsWords, ReadsWords, List.any_eq_true, List.infix_iff_prefix_suffix, beq_iff_eq, List.mem_tails, List.mem_inits]
  constructor
  · rintro ⟨rest, ends, run, starts, reads⟩
    exact ⟨run, ⟨rest, starts, ends⟩, reads⟩
  · rintro ⟨run, ⟨rest, starts, ends⟩, reads⟩
    exact ⟨rest, ends, run, starts, reads⟩

theorem readsWhole_iff (silent : ∀ c, isWord c = false → read c = []) (some : code ≠ []) :
    ReadsWhole isWord read code text ↔ ReadsWords isWord read code text := by
  constructor
  · rintro ⟨part, ⟨before, after, rfl, ends, stop⟩, reads⟩
    refine ⟨words isWord part, ⟨words isWord before, words isWord after, ?_⟩, (read_words silent part).trans reads⟩
    rw [List.append_assoc, List.append_assoc, words_append (.inl ends), words_append (.inr stop)]
  · rintro ⟨run, ⟨_, _, parts⟩, reads⟩
    have filled : run ≠ [] := by
      rintro rfl
      exact some reads.symm
    obtain ⟨before, part, after, same, -, runs, ends, -, stop⟩ :=
      words_split (parts.symm.trans (List.append_assoc _ _ _)) filled
    refine ⟨part, ⟨before, after, same.trans (List.append_assoc _ _ _).symm, ends, stop⟩, ?_⟩
    rw [← read_words silent part, runs, reads]

end MapBackend.Library
