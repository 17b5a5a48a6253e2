import MapBackend.Billing.ReservationJournal
import MapBackend.Billing.WalletActions

/-!
A settlement that is sent again.
-/

namespace MapBackend.Billing
open MapBackend.Library AIWalletService

/-! ## What the charges of a reservation debit -/

def isChargeOf (key : String) (row : AICreditTransaction) : Bool := decide (row.kind = .charge) && decide (row.reference = key)

def debitedUnits (rows : List AICreditTransaction) (key : String) : ℤ :=
  ((rows.filter (isChargeOf key)).map fun row => -row.amount.units).sum

def debited (s : WalletStore) (reservation : AIReservation) : ℚ :=
  ((s.transactions.filter (isChargeOf reservation.key)).map fun row => -row.amount.value).sum

theorem debited_units (s : WalletStore) (reservation : AIReservation) :
    debited s reservation * 10 ^ 4 = debitedUnits s.transactions reservation.key := by
  unfold debited debitedUnits
  generalize s.transactions.filter (isChargeOf reservation.key) = rows
  induction rows with
  | nil => simp
  | cons _ _ ih =>
    rw [List.map_cons, List.map_cons, List.sum_cons, List.sum_cons, add_mul, ih, neg_mul, Numeric.value_scaled]
    push_cast
    rfl

theorem debitedUnits_append (rows more : List AICreditTransaction) (key : String) :
    debitedUnits (rows ++ more) key = debitedUnits rows key + debitedUnits more key := by
  rw [debitedUnits, List.filter_append, List.map_append, List.sum_append]
  rfl

theorem debitedUnits_other {rows : List AICreditTransaction} {key : String} (other : ∀ row ∈ rows, isChargeOf key row = false) :
    debitedUnits rows key = 0 := by
  rw [debitedUnits, List.filter_eq_nil_iff.mpr fun row mem => by rw [other row mem]; decide]
  rfl

theorem createCharge_debited {s next : WalletStore} {balanceType : BalanceType} {charged : ℚ} {key reference : String}
    (step : createCharge s balanceType charged key reference = .ok next) :
    debitedUnits next.transactions reference = debitedUnits s.transactions reference + roundHalfAway (charged * 10 ^ 4) := by
  obtain ⟨-, ⟨rfl, rows⟩ | ⟨_, row, fits, rows⟩⟩ := createCharge_ok step
  · have zero : roundHalfAway (0 * 10 ^ 4) = 0 := by
      rw [zero_mul]
      exact roundHalfAway_intCast 0
    rw [rows, zero, add_zero]
  · have units := Numeric.store_neg fits
    have own : isChargeOf reference ⟨.charge, balanceType, row, key, reference⟩ = true := by simp [isChargeOf]
    rw [rows, debitedUnits_append]
    congr 1
    rw [debitedUnits, List.filter_cons_of_pos own, List.filter_nil, List.map_singleton, List.sum_singleton, units, neg_neg]

variable {reservation : AIReservation}

theorem settle_first_debited {actualAmount charged : ℚ} {s next : WalletStore}
    (limited : reservation.unlimited = false) (fresh : ¬ hasKey s (settledKey reservation))
    (step : settle reservation actualAmount s = .ok (next, charged)) :
    ∃ w, s.wallet = some w ∧ charged = chargedAmount w reservation actualAmount ∧
      debitedUnits next.transactions reservation.key = debitedUnits s.transactions reservation.key +
        roundHalfAway (chargedIncluded w reservation actualAmount * 10 ^ 4) +
        roundHalfAway (chargedPurchased w reservation actualAmount * 10 ^ 4) := by
  obtain ⟨w, found, result, _, _, _, _, _, _, _, _, _, rfl, first, second, _, row, _, rows⟩ := settle_first limited fresh step
  refine ⟨w, found, result, ?_⟩
  have last : debitedUnits [⟨.release, .reserved, row, settledKey reservation, reservation.key⟩] reservation.key = 0 :=
    debitedUnits_other fun other mem => by rw [List.mem_singleton.mp mem]; rfl
  rw [rows, debitedUnits_append, last, add_zero, createCharge_debited second, createCharge_debited first, saveWallet_transactions]

theorem charge_debited_iff {w : AIWallet} {actualAmount : ℚ} {earlier : ℤ} :
    chargedAmount w reservation actualAmount * 10 ^ 4 = earlier +
        roundHalfAway (chargedIncluded w reservation actualAmount * 10 ^ 4) +
        roundHalfAway (chargedPurchased w reservation actualAmount * 10 ^ 4) ↔
      (∃ n : ℤ, chargedAmount w reservation actualAmount * 10 ^ 4 = n) ∧ earlier = 0 := by
  have parts : chargedIncluded w reservation actualAmount + chargedPurchased w reservation actualAmount =
      chargedAmount w reservation actualAmount := by
    unfold chargedPurchased
    ring
  have exact_parts (whole : ∃ n : ℤ, chargedAmount w reservation actualAmount * 10 ^ 4 = n) :
      (roundHalfAway (chargedIncluded w reservation actualAmount * 10 ^ 4) : ℚ) +
        roundHalfAway (chargedPurchased w reservation actualAmount * 10 ^ 4) =
          chargedAmount w reservation actualAmount * 10 ^ 4 := by
    obtain ⟨n, total⟩ := whole
    have included : ∃ i : ℤ, chargedIncluded w reservation actualAmount * 10 ^ 4 = i := by
      unfold chargedIncluded
      rcases min_choice w.includedBalance.value (chargedAmount w reservation actualAmount) with same | same
      · exact ⟨_, by rw [same, Numeric.value_scaled]⟩
      · exact ⟨n, by rw [same, total]⟩
    obtain ⟨i, included⟩ := included
    have purchased : chargedPurchased w reservation actualAmount * 10 ^ 4 = ((n - i : ℤ) : ℚ) := by
      rw [← parts, add_mul] at total
      push_cast
      linarith
    rw [included, purchased, roundHalfAway_intCast, roundHalfAway_intCast, total]
    push_cast
    ring
  constructor
  · intro same
    have whole : ∃ n : ℤ, chargedAmount w reservation actualAmount * 10 ^ 4 = n := by
      refine ⟨earlier + roundHalfAway (chargedIncluded w reservation actualAmount * 10 ^ 4) +
        roundHalfAway (chargedPurchased w reservation actualAmount * 10 ^ 4), same.trans ?_⟩
      push_cast
      rfl
    refine ⟨whole, ?_⟩
    have rounded := exact_parts whole
    have zero : (earlier : ℚ) = 0 := by linarith
    exact_mod_cast zero
  · rintro ⟨whole, rfl⟩
    rw [← exact_parts whole]
    push_cast
    ring

/-! ## Operations in between -/

variable {s : WalletStore}

theorem next_debited {a : WalletAction} (genuine : a.Genuine)
    (settled : hasKey s (settledKey reservation)) :
    hasKey (s.next a) (settledKey reservation) ∧ debited (s.next a) reservation = debited s reservation := by
  have grows := s.next_extends a genuine
  refine ⟨grows.hasKey settled, ?_⟩
  obtain ⟨added, rows, own⟩ := grows.rows
  have silent : ∀ row ∈ added, isChargeOf reservation.key row = false := by
    intro row mem
    rw [isChargeOf, Bool.and_eq_false_iff, decide_eq_false_iff_not, decide_eq_false_iff_not]
    by_cases charge : row.kind = .charge
    · obtain ⟨_, fresh, named⟩ := own row mem charge
      refine .inr fun same => fresh ?_
      rw [settledKey, ← named, same]
      exact settled
    · exact .inl charge
  have none_added : added.filter (isChargeOf reservation.key) = [] :=
    List.filter_eq_nil_iff.mpr fun row mem => by rw [silent row mem]; decide
  unfold debited
  rw [rows, List.filter_append, none_added, List.append_nil]

theorem run_debited {actions : List WalletAction} (genuine : ∀ a ∈ actions, a.Genuine) (settled : hasKey s (settledKey reservation)) :
    hasKey (run WalletStore.next s actions) (settledKey reservation) ∧
      debited (run WalletStore.next s actions) reservation = debited s reservation := by
  induction actions generalizing s with
  | nil => exact ⟨settled, rfl⟩
  | cons a _ ih =>
    obtain ⟨still, same⟩ := next_debited (genuine a List.mem_cons_self) settled
    obtain ⟨later, kept⟩ := ih (fun b mem => genuine b (List.mem_cons_of_mem _ mem)) still
    exact ⟨later, kept.trans same⟩

theorem run_wallet {actions : List WalletAction} (genuine : ∀ a ∈ actions, a.Genuine)
    (present : s.wallet.isSome = true) : (run WalletStore.next s actions).wallet.isSome = true := by
  induction actions generalizing s with
  | nil => exact present
  | cons a _ ih =>
    exact ih (fun b mem => genuine b (List.mem_cons_of_mem _ mem)) ((s.next_extends a (genuine a List.mem_cons_self)).wallet present)

/-! ## The second settlement -/

/-- The second settlement changes nothing and answers what was charged and debited. -/
def Replays (s : WalletStore) (reservation : AIReservation) (actualAmount charged : ℚ) : Prop :=
  settle reservation actualAmount s = .ok (s, charged) ∧ charged = debited s reservation

theorem settle_repeated (actualAmount : ℚ)
    (done : reservation.unlimited = true ∨ s.wallet.isSome = true ∧ hasKey s (settledKey reservation)) :
    settle reservation actualAmount s = .ok (s, max 0 actualAmount) := by
  cases limited : reservation.unlimited with
  | true => simp only [settle, limited, if_true]
  | false =>
    obtain ⟨present, settled⟩ := done.resolve_left (by rw [limited]; decide)
    obtain ⟨w, found⟩ := Option.isSome_iff_exists.mp present
    simp only [settle, limited, lockWallet, found, orRaise, settled]
    rfl

/-- When the second amount is what the first settlement charged and what its rows debited. -/
def RepeatsCharge (s : WalletStore) (reservation : AIReservation) (first second : ℚ) : Prop :=
  if hasKey s (settledKey reservation) then max 0 second = max 0 first ∧ max 0 first = debited s reservation
  else (∀ w ∈ s.wallet, max 0 second = min (max 0 first) (availableForCharge w reservation)) ∧
    (∃ n : ℤ, max 0 second * 10 ^ 4 = n) ∧ debited s reservation = 0

def jobReservation : AIReservation := { key := "job", amount := 10 }

def reservedTopup : WalletStore := run WalletStore.next { wallet := none, transactions := [] }
  [.topup (walletEnv "") bareTenant 10 "topup" "", .reserve (walletEnv "") bareTenant 10 (some "job")]

end MapBackend.Billing
