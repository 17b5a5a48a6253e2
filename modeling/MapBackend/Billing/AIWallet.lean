import MapBackend.Billing.Models
import MapBackend.Library.Transactions

/-!
The AI wallet service.
-/

namespace MapBackend.Billing
open MapBackend.Library

inductive WalletError where
  | insufficientAICredits
  | doesNotExist
  | integrityError
  | dataError
  deriving DecidableEq, Repr

/-- What an operation reads from outside the store: the clock and its time zone, the
next primary key of the wallet table and a fresh random identifier. -/
structure WalletEnv where
  zone : Zone
  now : Instant
  walletPk : ℕ
  uuid : String

/-- `AIReservation`, the receipt of a confirmed reserve. -/
structure AIReservation where
  key : String
  amount : ℚ
  unlimited : Bool := false
  deriving DecidableEq

namespace AIWalletService

def effectiveLimit (tenant : Tenant) : ℚ :=
  match tenant.aiCreditLimitOverride with
  | some override => override
  | none =>
    match tenant.subscription with
    | none => 0
    | some subscription =>
      match subscription.plan.limitAiCredits with
      | none => 0
      | some limit => limit

def writeCredits (x : ℚ) : Except WalletError Credits :=
  orRaise .dataError (Numeric.store 16 4 x)

def hasKey (s : WalletStore) (key : String) : Prop :=
  ∃ row ∈ s.transactions, row.idempotencyKey = key

instance (s : WalletStore) (key : String) : Decidable (hasKey s key) :=
  inferInstanceAs (Decidable (∃ row ∈ s.transactions, row.idempotencyKey = key))

/-- Insert a journal row under the column widths and the unique non-empty key of a tenant. -/
def createTransaction (s : WalletStore) (kind : TransactionKind) (balanceType : BalanceType)
    (amount : ℚ) (idempotencyKey reference : String) : Except WalletError WalletStore := do
  raiseIf (160 < idempotencyKey.length ∨ 160 < reference.length) .dataError
  let amount ← writeCredits amount
  raiseIf (idempotencyKey ≠ "" ∧ hasKey s idempotencyKey) .integrityError
  .ok { s with transactions :=
    s.transactions ++ [{ kind, balanceType, amount, idempotencyKey, reference }] }

def lockWallet (s : WalletStore) : Except WalletError AIWallet := orRaise .doesNotExist s.wallet

def saveWallet (s : WalletStore) (wallet : AIWallet) : WalletStore := { s with wallet := some wallet }

@[simp] theorem saveWallet_wallet (s : WalletStore) (wallet : AIWallet) :
    (saveWallet s wallet).wallet = some wallet := rfl

@[simp] theorem saveWallet_transactions (s : WalletStore) (wallet : AIWallet) :
    (saveWallet s wallet).transactions = s.transactions := rfl

theorem createTransaction_ok {s next : WalletStore} {kind : TransactionKind} {balanceType : BalanceType}
    {amount : ℚ} {key reference : String}
    (step : createTransaction s kind balanceType amount key reference = .ok next) :
    ∃ stored : Credits, Numeric.store 16 4 amount = some stored ∧ (key = "" ∨ ¬ hasKey s key) ∧
      key.length ≤ 160 ∧ reference.length ≤ 160 ∧ next.wallet = s.wallet ∧
      next.transactions = s.transactions ++ [⟨kind, balanceType, stored, key, reference⟩] := by
  simp only [createTransaction, writeCredits, bind_ok, raiseIf_ok, orRaise_ok] at step
  obtain ⟨_, narrow, stored, fits, _, fresh, made⟩ := step
  cases made
  rw [not_or, not_lt, not_lt] at narrow
  refine ⟨stored, fits, ?_, narrow.1, narrow.2, rfl, rfl⟩
  by_cases empty : key = ""
  · exact .inl empty
  · exact .inr fun used => fresh ⟨empty, used⟩

theorem createTransaction_total {s : WalletStore} (kind : TransactionKind) (balanceType : BalanceType)
    {amount : ℚ} {stored : Credits} {key reference : String}
    (fits : Numeric.store 16 4 amount = some stored) (fresh : ¬ hasKey s key)
    (narrow : key.length ≤ 160) (short : reference.length ≤ 160) :
    createTransaction s kind balanceType amount key reference =
      .ok { s with transactions := s.transactions ++ [⟨kind, balanceType, stored, key, reference⟩] } := by
  have guard : ¬ (160 < key.length ∨ 160 < reference.length) := by omega
  have unused : ¬ (key ≠ "" ∧ hasKey s key) := fun used => fresh used.2
  simp [createTransaction, writeCredits, raiseIf, guard, unused, fits, orRaise, bind, Except.bind]

/-- `get_or_create` of the wallet, with the bootstrap from the legacy credit counter. -/
def ensureWallet (env : WalletEnv) (tenant : Tenant) (s : WalletStore) :
    Except WalletError (WalletStore × AIWallet) :=
  match s.wallet with
  | some wallet => .ok (s, wallet)
  | none => do
    let limit := effectiveLimit tenant
    let remaining := max 0 (limit - tenant.aiCreditsUsed)
    let expires := tenant.subscription.map fun subscription =>
      env.zone.endOfDay (subscription.aiPeriodEnd.getD subscription.currentPeriodEnd)
    let includedLimit ← writeCredits limit
    let includedBalance ← writeCredits remaining
    let wallet : AIWallet :=
      { pk := env.walletPk, includedBalance, includedLimit, purchasedBalance := 0,
        reservedBalance := 0, includedExpiresAt := expires }
    let s := saveWallet s wallet
    if remaining = 0 then .ok (s, wallet)
    else do
      let s ← createTransaction s .grant .included remaining
        ("wallet-bootstrap:" ++ toString tenant.pk) "legacy-ai-credits"
      .ok (s, wallet)

def includedExpired (now : Instant) (wallet : AIWallet) : Prop :=
  (∃ expires, wallet.includedExpiresAt = some expires ∧ expires < now) ∧
    0 < wallet.includedBalance.units

instance (now : Instant) (wallet : AIWallet) : Decidable (includedExpired now wallet) :=
  decidable_of_iff
    ((wallet.includedExpiresAt.any fun expires => decide (expires < now)) = true ∧
      0 < wallet.includedBalance.units)
    (by simp [includedExpired, Option.any_eq_true])

def includedExpireKey (env : WalletEnv) (wallet : AIWallet) : String :=
  "included-expire:" ++ toString wallet.pk ++ ":" ++
    (wallet.includedExpiresAt.map env.zone.isoformat).getD ""

def expireIncludedIfNeeded (env : WalletEnv) (s : WalletStore) (wallet : AIWallet) :
    Except WalletError (WalletStore × AIWallet) :=
  if includedExpired env.now wallet then do
    let expired := wallet.includedBalance.value
    let wallet := { wallet with includedBalance := 0 }
    let s := saveWallet s wallet
    let s ← createTransaction s .expire .included (-expired) (includedExpireKey env wallet) ""
    .ok (s, wallet)
  else .ok (s, wallet)

def reserve (env : WalletEnv) (tenant : Tenant) (amount : ℚ) (key : Option String)
    (s : WalletStore) : Except WalletError (WalletStore × AIReservation) := do
  let amount := max 0 amount
  let reservationKey := match key with
    | none => "ai-reserve:" ++ env.uuid
    | some key => if key = "" then "ai-reserve:" ++ env.uuid else key
  let (s, wallet) ← ensureWallet env tenant s
  let (s, wallet) ← expireIncludedIfNeeded env s wallet
  raiseIf (wallet.availableBalance < amount) .insufficientAICredits
  let reservedBalance ← writeCredits (wallet.reservedBalance.value + amount)
  let s := saveWallet s { wallet with reservedBalance }
  let s ← createTransaction s .reserve .reserved amount reservationKey ""
  .ok (s, { key := reservationKey, amount })

def releaseKey (reservation : AIReservation) : String := reservation.key ++ ":release"

def release (reservation : AIReservation) (s : WalletStore) :
    Except WalletError (WalletStore × Unit) :=
  if reservation.unlimited then .ok (s, ())
  else do
    let wallet ← lockWallet s
    let released := min wallet.reservedBalance.value reservation.amount
    let reservedBalance ← writeCredits (wallet.reservedBalance.value - released)
    let s := saveWallet s { wallet with reservedBalance }
    if hasKey s (releaseKey reservation) then .ok (s, ())
    else do
      let s ← createTransaction s .release .reserved (-released) (releaseKey reservation)
        reservation.key
      .ok (s, ())

def settledKey (reservation : AIReservation) : String := reservation.key ++ ":settled"
def chargeIncludedKey (reservation : AIReservation) : String :=
  reservation.key ++ ":charge:included"
def chargePurchasedKey (reservation : AIReservation) : String :=
  reservation.key ++ ":charge:purchased"

def createCharge (s : WalletStore) (balanceType : BalanceType) (charged : ℚ) (key reference : String) :
    Except WalletError WalletStore :=
  if charged = 0 then .ok s else createTransaction s .charge balanceType (-charged) key reference

/-- The reserved balance in memory once the own reserve of a settled request is taken off. -/
def settledReserve (wallet : AIWallet) (reservation : AIReservation) : ℚ :=
  max 0 (wallet.reservedBalance.value - reservation.amount)

def availableForCharge (wallet : AIWallet) (reservation : AIReservation) : ℚ :=
  max 0 (wallet.includedBalance.value + wallet.purchasedBalance.value -
    settledReserve wallet reservation)

def settle (reservation : AIReservation) (actualAmount : ℚ) (s : WalletStore) :
    Except WalletError (WalletStore × ℚ) :=
  let actualAmount := max 0 actualAmount
  if reservation.unlimited then .ok (s, actualAmount)
  else do
    let wallet ← lockWallet s
    if hasKey s (settledKey reservation) then .ok (s, actualAmount)
    else do
      let charged := min actualAmount (availableForCharge wallet reservation)
      let fromIncluded := min wallet.includedBalance.value charged
      let fromPurchased := charged - fromIncluded
      let includedBalance ← writeCredits (wallet.includedBalance.value - fromIncluded)
      let purchasedBalance ← writeCredits (wallet.purchasedBalance.value - fromPurchased)
      let reservedBalance ← writeCredits (settledReserve wallet reservation)
      let s := saveWallet s { wallet with includedBalance, purchasedBalance, reservedBalance }
      let s ← createCharge s .included fromIncluded (chargeIncludedKey reservation) reservation.key
      let s ← createCharge s .purchased fromPurchased (chargePurchasedKey reservation) reservation.key
      let s ← createTransaction s .release .reserved (-reservation.amount) (settledKey reservation)
        reservation.key
      .ok (s, charged)

def expireReplaced (s : WalletStore) (wallet : AIWallet) (idempotencyKey : String) :
    Except WalletError WalletStore :=
  if wallet.includedBalance.units = 0 then .ok s
  else createTransaction s .expire .included (-wallet.includedBalance.value)
    (idempotencyKey ++ ":expire") ""

def grantIncluded (env : WalletEnv) (tenant : Tenant) (amount : Option ℚ)
    (periodEnd : Option CivilDate) (idempotencyKey : String) (s : WalletStore) :
    Except WalletError (WalletStore × Unit) := do
  let (s, wallet) ← ensureWallet env tenant s
  if hasKey s idempotencyKey then .ok (s, ())
  else do
    let s ← expireReplaced s wallet idempotencyKey
    let grantAmount := max 0 (amount.getD 0)
    let granted ← writeCredits grantAmount
    let s := saveWallet s
      { wallet with
        includedLimit := granted
        includedBalance := granted
        includedExpiresAt := periodEnd.map env.zone.endOfDay }
    let s ← createTransaction s .grant .included grantAmount idempotencyKey "subscription-period"
    .ok (s, ())

/-- Credits already confirmed for running requests that only the included package covers. -/
def reservedFromIncluded (wallet : AIWallet) : ℚ :=
  max 0 (wallet.reservedBalance.value - wallet.purchasedBalance.value)

def syncedBalance (wallet : AIWallet) (newLimit : ℚ) : ℚ :=
  let consumed := max 0 (wallet.includedLimit.value - wallet.includedBalance.value)
  max (max 0 (newLimit - consumed)) (reservedFromIncluded wallet)

def syncIncludedLimit (env : WalletEnv) (tenant : Tenant) (s : WalletStore) :
    Except WalletError (WalletStore × Unit) := do
  let (s, wallet) ← ensureWallet env tenant s
  let newLimit := effectiveLimit tenant
  let newBalance := syncedBalance wallet newLimit
  let adjustment := newBalance - wallet.includedBalance.value
  let includedLimit ← writeCredits newLimit
  let includedBalance ← writeCredits newBalance
  let s := saveWallet s { wallet with includedLimit, includedBalance }
  if adjustment = 0 then .ok (s, ())
  else do
    let s ← createTransaction s .adjustment .included adjustment
      ("limit-sync:" ++ toString tenant.pk ++ ":" ++ env.uuid) "tenant-limit-override"
    .ok (s, ())

def topup (env : WalletEnv) (tenant : Tenant) (amount : ℚ) (idempotencyKey reference : String)
    (s : WalletStore) : Except WalletError (WalletStore × Unit) := do
  let (s, wallet) ← ensureWallet env tenant s
  if hasKey s idempotencyKey then .ok (s, ())
  else do
    let amount := max 0 amount
    let purchasedBalance ← writeCredits (wallet.purchasedBalance.value + amount)
    let s := saveWallet s { wallet with purchasedBalance }
    let s ← createTransaction s .topup .purchased amount idempotencyKey reference
    .ok (s, ())

def reversible (wallet : AIWallet) : ℚ :=
  max 0 (wallet.purchasedBalance.value -
    max 0 (wallet.reservedBalance.value - wallet.includedBalance.value))

/-- Takes back free purchased credits only; returns what was reversed and the shortfall. -/
def reversePurchased (env : WalletEnv) (tenant : Tenant) (amount : ℚ)
    (idempotencyKey reference : String) (kind : TransactionKind) (s : WalletStore) :
    Except WalletError (WalletStore × ℚ × ℚ) := do
  let (s, wallet) ← ensureWallet env tenant s
  match s.transactions.reverse.find? (fun row => row.idempotencyKey == idempotencyKey) with
  | some existing =>
    let reversedAmount := |existing.amount.value|
    .ok (s, reversedAmount, max 0 (amount - reversedAmount))
  | none => do
    let requested := max 0 amount
    let reversedAmount := min requested (reversible wallet)
    let purchasedBalance ← writeCredits (wallet.purchasedBalance.value - reversedAmount)
    let s := saveWallet s { wallet with purchasedBalance }
    let s ← createTransaction s kind .purchased (-reversedAmount) idempotencyKey reference
    .ok (s, reversedAmount, requested - reversedAmount)

end AIWalletService

end MapBackend.Billing
