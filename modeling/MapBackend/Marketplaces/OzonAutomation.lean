import MapBackend.Library.CyclicScans

/-!
Fair automation of the Ozon rows of one account: `_round_robin_rows` and the loop of `_visit`, which
stores its cursor before every row.
-/

namespace MapBackend.Marketplaces
open MapBackend.Library

variable {K : Type*} [LinearOrder K]

def firstByPk (queryset : Finset K) (limit : ℕ) : List K := (ascending queryset).take limit

/-- `_round_robin_rows`: two keyset reads, wrapping once. No cursor is a falsy one. -/
def roundRobinRows (queryset : Finset K) : Option K → ℕ → List K
  | none, limit => firstByPk queryset limit
  | some cursor, limit =>
    let rows := firstByPk (queryset.filter (cursor < ·)) limit
    if rows.length < limit then rows ++ firstByPk (queryset.filter (· ≤ cursor)) (limit - rows.length) else rows

/-- What happens at a row: the deadline or a switch ends the loop before it, or the row is processed. -/
inductive RowTurn where
  | stopped
  | synced (resultError : String)
  | expectedError (code : String)
  | unexpectedError
  | timeLimitExceeded
  deriving DecidableEq

/-- The stored cursor and the counters of a visit. A time limit leaves the loop by its exception. -/
structure OzonVisit (K : Type*) where
  cursor : Option K
  attempted : List K
  checked : ℕ
  failed : ℕ
  code : String
  timedOut : Bool
  deriving DecidableEq

namespace OzonVisit

def start (cursor : Option K) : OzonVisit K :=
  { cursor, attempted := [], checked := 0, failed := 0, code := "", timedOut := false }

def attempt (v : OzonVisit K) (row : K) : OzonVisit K := { v with cursor := some row, attempted := v.attempted ++ [row] }

def fail (v : OzonVisit K) (code : String) : OzonVisit K := { v with failed := v.failed + 1, code }

def check (v : OzonVisit K) (resultError : String) : OzonVisit K :=
  let v := { v with checked := v.checked + 1 }
  if resultError = "" then v else v.fail resultError

end OzonVisit

def visitRows (turn : K → RowTurn) : List K → OzonVisit K → OzonVisit K
  | [], v => v
  | row :: rest, v =>
    match turn row with
    | .stopped => v
    | .synced resultError => visitRows turn rest ((v.attempt row).check resultError)
    | .expectedError code => visitRows turn rest ((v.attempt row).fail code)
    | .unexpectedError => visitRows turn rest ((v.attempt row).fail "unexpected_error")
    | .timeLimitExceeded => { v.attempt row with timedOut := true }

structure OzonRound (K : Type*) where
  rows : Finset K
  limit : ℕ
  turn : K → RowTurn

def visit (cursor : Option K) (round : OzonRound K) : OzonVisit K :=
  visitRows round.turn (roundRobinRows round.rows cursor round.limit) (.start cursor)

def cursorAt (rounds : ℕ → OzonRound K) (start : Option K) : ℕ → Option K
  | 0 => start
  | t + 1 => (visit (cursorAt rounds start t) (rounds t)).cursor

def visited (rounds : ℕ → OzonRound K) (start : Option K) (t : ℕ) : List K := (visit (cursorAt rounds start t) (rounds t)).attempted

section Batches

variable {queryset : Finset K} {cursor : Option K} {limit : ℕ}

theorem roundRobinRows_eq (queryset : Finset K) (cursor : Option K) (limit : ℕ) :
    roundRobinRows queryset cursor limit = (scan queryset cursor).take limit := by
  cases cursor with
  | none => rfl
  | some cursor =>
    simp only [roundRobinRows, firstByPk, scan, List.take_append, List.length_take]
    by_cases short : (ascending (queryset.filter (cursor < ·))).length < limit
    · have all : min limit (ascending (queryset.filter (cursor < ·))).length = (ascending (queryset.filter (cursor < ·))).length := by
        omega
      rw [if_pos (by omega), all]
    · have none' : limit - (ascending (queryset.filter (cursor < ·))).length = 0 := by omega
      rw [if_neg (by omega), none', List.take_zero, List.append_nil]

theorem roundRobinRows_spec (queryset : Finset K) (cursor : Option K) (limit : ℕ) :
    (roundRobinRows queryset cursor limit).length = min limit queryset.card ∧ (roundRobinRows queryset cursor limit).Nodup ∧
      (roundRobinRows queryset cursor limit).Pairwise (Precedes cursor) ∧
      ∀ a ∈ roundRobinRows queryset cursor limit, a ∈ queryset ∧
        ∀ b ∈ queryset, b ∉ roundRobinRows queryset cursor limit → Precedes cursor a b := by
  rw [roundRobinRows_eq]
  have ordered : (scan queryset cursor).Pairwise (Precedes cursor) := scan_pairwise
  refine ⟨by rw [List.length_take, scan_length], scan_nodup.sublist (List.take_sublist _ _), ordered.sublist (List.take_sublist _ _), ?_⟩
  intro a a_mem
  refine ⟨mem_scan.mp (List.mem_of_mem_take a_mem), fun b b_mem waits => ?_⟩
  have there : b ∈ (scan queryset cursor).take limit ++ (scan queryset cursor).drop limit := by
    rw [List.take_append_drop]
    exact mem_scan.mpr b_mem
  rw [← List.take_append_drop limit (scan queryset cursor), List.pairwise_append] at ordered
  exact ordered.2.2 a a_mem b ((List.mem_append.mp there).resolve_left waits)

end Batches

section Visits

variable {turn : K → RowTurn} {rows : List K} {v : OzonVisit K}

@[simp] theorem attempted_fail (v : OzonVisit K) (code : String) : (v.fail code).attempted = v.attempted := rfl

@[simp] theorem cursor_fail (v : OzonVisit K) (code : String) : (v.fail code).cursor = v.cursor := rfl

@[simp] theorem attempted_check (v : OzonVisit K) (resultError : String) : (v.check resultError).attempted = v.attempted := by
  unfold OzonVisit.check
  split
  · rfl
  · rfl

@[simp] theorem cursor_check (v : OzonVisit K) (resultError : String) : (v.check resultError).cursor = v.cursor := by
  unfold OzonVisit.check
  split
  · rfl
  · rfl

/-- A visit processes the first rows of its batch, and the cursor is the last of them. -/
structure Processed (rows : List K) (v after : OzonVisit K) (n : ℕ) : Prop where
  attempted : after.attempted = v.attempted ++ rows.take n
  cursor : after.cursor = (rows.take n).getLast?.or v.cursor

theorem Processed.cons {row : K} {after moved : OzonVisit K} {n : ℕ} (rest : Processed rows moved after n)
    (attempted : moved.attempted = v.attempted ++ [row]) (cursor : moved.cursor = some row) : Processed (row :: rows) v after (n + 1) where
  attempted := by rw [rest.attempted, attempted, List.take_succ_cons, List.append_assoc, List.singleton_append]
  cursor := by
    rw [rest.cursor, cursor, List.take_succ_cons, List.getLast?_cons]
    cases (rows.take n).getLast? <;> rfl

theorem visitRows_processed (turn : K → RowTurn) (rows : List K) (v : OzonVisit K) : ∃ n, Processed rows v (visitRows turn rows v) n := by
  induction rows generalizing v with
  | nil => exact ⟨0, by simp [visitRows], by simp [visitRows]⟩
  | cons row _ ih =>
    unfold visitRows
    cases turn row with
    | stopped => exact ⟨0, by simp, by simp⟩
    | synced resultError =>
      obtain ⟨n, done⟩ := ih ((v.attempt row).check resultError)
      exact ⟨n + 1, done.cons (attempted_check _ _) (cursor_check _ _)⟩
    | expectedError code =>
      obtain ⟨n, done⟩ := ih ((v.attempt row).fail code)
      exact ⟨n + 1, done.cons rfl rfl⟩
    | unexpectedError =>
      obtain ⟨n, done⟩ := ih ((v.attempt row).fail "unexpected_error")
      exact ⟨n + 1, done.cons rfl rfl⟩
    | timeLimitExceeded => exact ⟨1, by simp [OzonVisit.attempt], by simp [OzonVisit.attempt]⟩

theorem visitRows_all (turn : K → RowTurn) (rows : List K) (v : OzonVisit K)
    (runs : ∀ row ∈ rows, turn row ≠ .stopped ∧ turn row ≠ .timeLimitExceeded) : Processed rows v (visitRows turn rows v) rows.length := by
  induction rows generalizing v with
  | nil => exact ⟨by simp [visitRows], by simp [visitRows]⟩
  | cons row _ ih =>
    have later (v : OzonVisit K) := ih v fun other mem => runs other (List.mem_cons_of_mem row mem)
    obtain ⟨goes, finishes⟩ := runs row List.mem_cons_self
    unfold visitRows
    cases act : turn row with
    | stopped => exact absurd act goes
    | synced resultError => exact (later ((v.attempt row).check resultError)).cons (attempted_check _ _) (cursor_check _ _)
    | expectedError code => exact (later ((v.attempt row).fail code)).cons rfl rfl
    | unexpectedError => exact (later ((v.attempt row).fail "unexpected_error")).cons rfl rfl
    | timeLimitExceeded => exact absurd act finishes

end Visits

section Fairness

variable {cursor : Option K} {round : OzonRound K} {k : K}

theorem visit_processed (cursor : Option K) (round : OzonRound K) :
    ∃ n, (visit cursor round).attempted = (scan round.rows cursor).take n ∧
      (visit cursor round).cursor = ((scan round.rows cursor).take n).getLast?.or cursor := by
  obtain ⟨n, done⟩ := visitRows_processed round.turn (roundRobinRows round.rows cursor round.limit) (.start cursor)
  refine ⟨min n round.limit, ?_, ?_⟩
  · rw [visit, done.attempted, roundRobinRows_eq, List.take_take]
    rfl
  · rw [visit, done.cursor, roundRobinRows_eq, List.take_take]
    rfl

theorem visit_missed (there : k ∈ round.rows) (some_row : (visit cursor round).attempted ≠ []) (missed : k ∉ (visit cursor round).attempted) :
    ∃ before c after, scan round.rows cursor = before ++ c :: after ∧ (visit cursor round).attempted = before ++ [c] ∧
      (visit cursor round).cursor = some c ∧ k ∈ after := by
  obtain ⟨n, attempted, stored⟩ := visit_processed cursor round
  obtain ⟨before, c, taken⟩ := (List.eq_nil_or_concat' (visit cursor round).attempted).resolve_left some_row
  rw [attempted] at taken
  have split : scan round.rows cursor = before ++ c :: (scan round.rows cursor).drop n := by
    conv_lhs => rw [← List.take_append_drop n (scan round.rows cursor), taken, List.append_assoc, List.singleton_append]
  refine ⟨before, c, (scan round.rows cursor).drop n, split, attempted.trans taken, ?_, ?_⟩
  · rw [stored, taken, List.getLast?_concat]
    rfl
  · have waits : k ∈ scan round.rows cursor := mem_scan.mpr there
    rw [← List.take_append_drop n (scan round.rows cursor)] at waits
    refine (List.mem_append.mp waits).resolve_left fun here => missed ?_
    rw [attempted]
    exact here

theorem visit_nearer [Fintype K] (there : k ∈ round.rows) (some_row : (visit cursor round).attempted ≠ [])
    (missed : k ∉ (visit cursor round).attempted) :
    position Finset.univ (visit cursor round).cursor k < position Finset.univ cursor k := by
  obtain ⟨_, c, _, split, -, stored, waits⟩ := visit_missed there some_row missed
  have ordered : (scan round.rows cursor).Pairwise (Precedes cursor) := scan_pairwise
  rw [split, List.pairwise_append, List.pairwise_cons] at ordered
  rw [stored]
  exact position_decreases (Finset.mem_univ c) (ordered.2.1.1 k waits)

theorem visit_full (there : k ∈ round.rows) (positive : 1 ≤ round.limit)
    (runs : ∀ row, round.turn row ≠ .stopped ∧ round.turn row ≠ .timeLimitExceeded) :
    k ∈ (visit cursor round).attempted ∨
      position round.rows (visit cursor round).cursor k + round.limit = position round.rows cursor k := by
  have done := visitRows_all round.turn (roundRobinRows round.rows cursor round.limit) (.start cursor) fun row _ => runs row
  have attempted : (visit cursor round).attempted = (scan round.rows cursor).take round.limit := by
    rw [visit, done.attempted, List.take_length, roundRobinRows_eq]
    rfl
  by_cases near : position round.rows cursor k < round.limit
  · refine .inl ?_
    rw [attempted]
    exact (mem_take_scan there).mpr near
  · have missed : k ∉ (visit cursor round).attempted := by
      rw [attempted]
      exact fun here => near ((mem_take_scan there).mp here)
    have enough : ((scan round.rows cursor).take round.limit).length = round.limit := by
      have below : position round.rows cursor k < round.rows.card := position_lt_card there
      rw [List.length_take, scan_length]
      omega
    have some_row : (visit cursor round).attempted ≠ [] := by
      rw [attempted, ← List.length_pos_iff_ne_nil, enough]
      exact positive
    obtain ⟨before, c, _, split, processed, stored, waits⟩ := visit_missed there some_row missed
    have quota : before.length + 1 = round.limit := by
      rw [attempted] at processed
      rw [← enough, processed, List.length_append, List.length_singleton]
    rw [stored, ← quota]
    exact .inr (position_advance split waits)

theorem cursorAt_shift (rounds : ℕ → OzonRound K) (start : Option K) (t : ℕ) :
    cursorAt (fun t => rounds (t + 1)) (visit start (rounds 0)).cursor t = cursorAt rounds start (t + 1) := by
  induction t with
  | zero => rfl
  | succ _ ih =>
    unfold cursorAt
    rw [ih]

theorem visited_shift (rounds : ℕ → OzonRound K) (start : Option K) (t : ℕ) :
    visited (fun t => rounds (t + 1)) (visit start (rounds 0)).cursor t = visited rounds start (t + 1) := by
  rw [visited, cursorAt_shift, visited]

theorem visited_eventually [Fintype K] (n : ℕ) (rounds : ℕ → OzonRound K) (start : Option K) (stays : ∀ t, k ∈ (rounds t).rows)
    (works : ∀ t, visited rounds start t ≠ []) (near : position Finset.univ start k < n) : ∃ t < n, k ∈ visited rounds start t := by
  induction n generalizing rounds start with
  | zero => exact absurd near (Nat.not_lt_zero _)
  | succ n ih =>
    by_cases first : k ∈ visited rounds start 0
    · exact ⟨0, n.succ_pos, first⟩
    · have nearer : position Finset.univ (visit start (rounds 0)).cursor k < position Finset.univ start k :=
        visit_nearer (stays 0) (works 0) first
      obtain ⟨t, _, _⟩ := ih (fun t => rounds (t + 1)) (visit start (rounds 0)).cursor (fun t => stays (t + 1))
        (fun t => by rw [visited_shift]; exact works (t + 1)) (by omega)
      exact ⟨t + 1, by omega, by rwa [← visited_shift]⟩

theorem visited_within (n : ℕ) (queryset : Finset K) (limit : ℕ) (rounds : ℕ → OzonRound K) (start : Option K) (there : k ∈ queryset)
    (same : ∀ t, (rounds t).rows = queryset ∧ (rounds t).limit = limit) (positive : 1 ≤ limit)
    (runs : ∀ t row, (rounds t).turn row ≠ .stopped ∧ (rounds t).turn row ≠ .timeLimitExceeded)
    (near : position queryset start k < n * limit) : ∃ t < n, k ∈ visited rounds start t := by
  induction n generalizing rounds start with
  | zero =>
    rw [Nat.zero_mul] at near
    exact absurd near (Nat.not_lt_zero _)
  | succ n ih =>
    obtain ⟨rows, quota⟩ := same 0
    have advances : k ∈ (visit start (rounds 0)).attempted ∨
        position (rounds 0).rows (visit start (rounds 0)).cursor k + (rounds 0).limit = position (rounds 0).rows start k :=
      visit_full (rows ▸ there) (quota ▸ positive) (runs 0)
    rw [rows, quota] at advances
    rcases advances with first | _
    · exact ⟨0, n.succ_pos, first⟩
    · rw [Nat.succ_mul] at near
      obtain ⟨t, _, _⟩ := ih (fun t => rounds (t + 1)) (visit start (rounds 0)).cursor (fun t => same (t + 1))
        (fun t => runs (t + 1)) (by omega)
      exact ⟨t + 1, by omega, by rwa [← visited_shift]⟩

/-- A batch is the next rows in cyclic key order, each once; whatever rows come and go between the rounds and wherever a round stops
after its first row, a row that stays is visited; and in full rounds on an unchanged set every row is visited in `⌈n / limit⌉` rounds. -/
theorem automation_fair [Fintype K] :
    (∀ (queryset : Finset K) (cursor : Option K) (limit : ℕ), 1 ≤ limit →
      (roundRobinRows queryset cursor limit).length = min limit queryset.card ∧ (roundRobinRows queryset cursor limit).Nodup ∧
        (roundRobinRows queryset cursor limit).Pairwise (Precedes cursor) ∧
        ∀ a ∈ roundRobinRows queryset cursor limit, a ∈ queryset ∧
          ∀ b ∈ queryset, b ∉ roundRobinRows queryset cursor limit → Precedes cursor a b) ∧
    (∀ (rounds : ℕ → OzonRound K) (start : Option K) (k : K), (∀ t, 1 ≤ (rounds t).limit) → (∀ t, k ∈ (rounds t).rows) →
      (∀ t, visited rounds start t ≠ []) → ∃ t < Fintype.card K, k ∈ visited rounds start t) ∧
    ∀ (queryset : Finset K) (limit : ℕ) (rounds : ℕ → OzonRound K) (start : Option K), 1 ≤ limit →
      (∀ t, (rounds t).rows = queryset ∧ (rounds t).limit = limit) →
      (∀ t row, (rounds t).turn row ≠ .stopped ∧ (rounds t).turn row ≠ .timeLimitExceeded) →
      ∀ k ∈ queryset, ∃ t < (queryset.card + limit - 1) / limit, k ∈ visited rounds start t := by
  refine ⟨fun queryset cursor limit _ => roundRobinRows_spec queryset cursor limit, ?_, ?_⟩
  · intro rounds start k _ stays works
    exact visited_eventually (Fintype.card K) rounds start stays works (position_lt_card (Finset.mem_univ k))
  · intro queryset limit rounds start positive same runs k there
    refine visited_within _ queryset limit rounds start there same positive runs ?_
    have below : position queryset start k < queryset.card := position_lt_card there
    have division := Nat.div_add_mod (queryset.card + limit - 1) limit
    have rest := Nat.mod_lt (queryset.card + limit - 1) positive
    rw [mul_comm] at division
    omega

end Fairness

section Runs

def steadyRound (limit : ℕ) : OzonRound (Fin (2 ^ 63)) := { rows := {3, 5, 8}, limit, turn := fun _ => .synced "" }

theorem steadyRound_runs (limit : ℕ) (row : Fin (2 ^ 63)) :
    (steadyRound limit).turn row ≠ .stopped ∧ (steadyRound limit).turn row ≠ .timeLimitExceeded := ⟨nofun, nofun⟩

/-- The cursor names a product that is gone; two rounds of two visit all three. -/
theorem automation_fair_three : (roundRobinRows (steadyRound 2).rows (some 6) 2).length = min 2 (steadyRound 2).rows.card ∧
    ∀ k ∈ (steadyRound 2).rows, ∃ t < ((steadyRound 2).rows.card + 2 - 1) / 2, k ∈ visited (fun _ => steadyRound 2) (some 6) t :=
  ⟨(automation_fair.1 (steadyRound 2).rows (some 6) 2 (by decide)).1,
    automation_fair.2.2 (steadyRound 2).rows 2 (fun _ => steadyRound 2) (some 6) (by decide) (fun _ => ⟨rfl, rfl⟩)
      (fun _ => steadyRound_runs 2)⟩

end Runs

end MapBackend.Marketplaces
