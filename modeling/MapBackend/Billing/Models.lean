import MapBackend.Library.CivilDate
import MapBackend.Library.Numeric

/-!
The rows of the billing tables: plans, subscriptions, the AI wallet and its journal,
invoices and payment reversals.
-/

namespace MapBackend.Billing
open MapBackend.Library

/-- `DecimalField(max_digits=16, decimal_places=4)`. -/
abbrev Credits := Numeric 16 4

/-- `DecimalField(max_digits=10, decimal_places=2)`. -/
abbrev Rubles := Numeric 10 2

abbrev Instant := ℤ

structure Zone where
  /-- `make_aware(datetime.combine(day, time.max))`. -/
  endOfDay : CivilDate → Instant
  localdate : Instant → CivilDate
  isoformat : Instant → String

structure Plan where
  pk : ℕ
  slug : String
  name : String
  limitAiCredits : Option ℕ
  deriving DecidableEq

inductive SubscriptionStatus where
  | trial | active | pastDue | cancelled
  deriving DecidableEq, Repr

inductive BillingPeriod where
  | monthly | yearly
  deriving DecidableEq, Repr

structure Subscription where
  pk : ℕ
  plan : Plan
  status : SubscriptionStatus
  billingPeriod : BillingPeriod
  currentPeriodStart : CivilDate
  currentPeriodEnd : CivilDate
  aiPeriodStart : Option CivilDate
  aiPeriodEnd : Option CivilDate
  cancelledAt : Option Instant
  billingVersion : ℕ
  deriving DecidableEq

structure Tenant where
  pk : ℕ
  aiCreditsUsed : ℕ
  aiCreditLimitOverride : Option ℕ
  subscription : Option Subscription
  deriving DecidableEq

structure AIWallet where
  pk : ℕ
  includedBalance : Credits
  includedLimit : Credits
  purchasedBalance : Credits
  reservedBalance : Credits
  includedExpiresAt : Option Instant
  deriving DecidableEq

namespace AIWallet

def totalBalance (w : AIWallet) : ℚ := w.includedBalance.value + w.purchasedBalance.value

def availableBalance (w : AIWallet) : ℚ := max 0 (w.totalBalance - w.reservedBalance.value)

end AIWallet

inductive TransactionKind where
  | grant | topup | reserve | release | charge | expire | adjustment | refund | chargeback
  deriving DecidableEq, Repr

inductive BalanceType where
  | included | purchased | reserved
  deriving DecidableEq, Repr

structure AICreditTransaction where
  kind : TransactionKind
  balanceType : BalanceType
  amount : Credits
  idempotencyKey : String
  reference : String
  deriving DecidableEq, Repr

structure WalletStore where
  wallet : Option AIWallet
  transactions : List AICreditTransaction
  deriving DecidableEq

end MapBackend.Billing
