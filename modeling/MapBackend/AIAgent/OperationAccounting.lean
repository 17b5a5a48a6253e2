import MapBackend.AIAgent.OperationMoves
import MapBackend.Billing.ReservationJournal
import Mathlib.Algebra.Order.BigOperators.Group.List

/-!
The accounting invariant of the operations.
-/

namespace MapBackend.AIAgent
open MapBackend.Library MapBackend.Billing AIWalletService OperationStore

/-! ## The keys of the journal -/

/-- What may follow a random identifier in a key: nothing, or a text that starts with a colon. -/
def Suffix (suffix : String) : Prop := suffix.toList.takeWhile (fun c => c != ':') = []

instance (suffix : String) : Decidable (Suffix suffix) :=
  inferInstanceAs (Decidable (suffix.toList.takeWhile (fun c => c != ':') = []))

def reserveKey (u : Uuid) : String := "ai-reserve:" ++ u.text

theorem OperationStore.Uuid.no_colon (u : Uuid) (c : Char) (mem : c ∈ u.text.toList) : (c != ':') = true := by
  have shape := List.all_eq_true.mp u.shape c mem
  by_contra colon
  have same : c = ':' := by simpa using colon
  subst same
  exact absurd shape (by decide)

theorem takeWhile_key (u : Uuid) {suffix : String} (follows : Suffix suffix) :
    (u.text.toList ++ suffix.toList).takeWhile (fun c => c != ':') = u.text.toList := by
  rw [List.takeWhile_append_of_pos u.no_colon, follows, List.append_nil]

theorem reserveKey_inj {u v : Uuid} {first second : String} (left : Suffix first) (right : Suffix second)
    (same : reserveKey u ++ first = reserveKey v ++ second) : reserveKey u = reserveKey v ∧ first = second := by
  have texts := congrArg String.toList same
  simp only [reserveKey, String.toList_append, List.append_assoc] at texts
  have tails := List.append_cancel_left texts
  have ids := congrArg (List.takeWhile fun c => c != ':') tails
  rw [takeWhile_key u left, takeWhile_key v right] at ids
  rw [ids] at tails
  have one : u.text = v.text := String.toList_inj.mp ids
  exact ⟨by rw [reserveKey, reserveKey, one], String.toList_inj.mp (List.append_cancel_left tails)⟩

theorem head_append {first : String} {c : Char} (head : first.toList.head? = some c) (rest : String) :
    (first ++ rest).toList.head? = some c := by
  rw [String.toList_append, List.head?_append, head]
  rfl

theorem bootstrap_key (rest text : String) : "wallet-bootstrap:" ++ rest ≠ "ai-reserve:" ++ text := by
  intro same
  have first : ("wallet-bootstrap:" ++ rest).toList.head? = some 'w' := head_append rfl rest
  have second : ("ai-reserve:" ++ text).toList.head? = some 'a' := head_append rfl text
  rw [same, second] at first
  exact absurd first (by decide)

theorem expire_key (env : WalletEnv) (wallet : AIWallet) (text : String) : includedExpireKey env wallet ≠ "ai-reserve:" ++ text := by
  intro same
  have regroup (a b c d : String) : a ++ b ++ c ++ d = a ++ (b ++ (c ++ d)) := by
    rw [String.append_assoc, String.append_assoc]
  have first : (includedExpireKey env wallet).toList.head? = some 'i' :=
    (congrArg (fun key => key.toList.head?) (regroup "included-expire:" (toString wallet.pk) ":" _)).trans (head_append rfl _)
  have second : ("ai-reserve:" ++ text).toList.head? = some 'a' := head_append rfl text
  rw [same, second] at first
  exact absurd first (by decide)

/-! ## The invariant -/

/-- The journal holds the reserve of the row, and its release or its settlement once the row has ended so. -/
structure Journalled (w : WalletStore) (o : AIProviderOperation) : Prop where
  reserved : rowsUnder w o.reservationKey = 1
  released : rowsUnder w (o.reservationKey ++ ":release") = if o.status = .released then 1 else 0
  settled : rowsUnder w (o.reservationKey ++ ":settled") = if o.status = .settled then 1 else 0

def share (tenant : ℕ) (o : AIProviderOperation) : ℤ :=
  if o.tenant = tenant ∧ o.status.Held then o.reservedAmount.units else 0

variable {o : AIProviderOperation}

theorem share_held (held : o.status.Held) : share o.tenant o = o.reservedAmount.units :=
  if_pos ⟨rfl, held⟩

theorem share_ended {tenant : ℕ} (ended : ¬ o.status.Held) : share tenant o = 0 :=
  if_neg fun both => ended both.2

theorem share_other {tenant : ℕ} (other : o.tenant ≠ tenant) : share tenant o = 0 :=
  if_neg fun both => other both.1

structure OperationStore.Accounted (s : OperationStore) : Prop where
  ids : (s.operations.map AIProviderOperation.id).Nodup
  named : ∀ o ∈ s.operations, ∃ u, o.reservationKey = reserveKey u
  keys : ∀ a ∈ s.operations, ∀ b ∈ s.operations, a.tenant = b.tenant → a.reservationKey = b.reservationKey → a = b
  journal : ∀ o ∈ s.operations, Journalled (s.wallets o.tenant) o
  /-- Every row of a journal under a key of a reservation belongs to an operation of the tenant. -/
  owned : ∀ tenant, ∀ row ∈ (s.wallets tenant).transactions, ∀ u suffix, Suffix suffix →
    row.idempotencyKey = reserveKey u ++ suffix → ∃ o ∈ s.operations, o.tenant = tenant ∧ o.reservationKey = reserveKey u
  nonneg : ∀ o ∈ s.operations, 0 ≤ o.reservedAmount.units
  reserves : ∀ tenant, (s.operations.map (share tenant)).sum = reservedUnits (s.wallets tenant)
  domains : ∀ a ∈ s.operations, ∀ b ∈ s.operations, a.Unresolved → b.Unresolved → a.domain = b.domain → a = b
  once : s.applications.Nodup
  applied : ∀ id ∈ s.applications, ∃ o ∈ s.operations, o.id = id ∧ o.status = .settled ∧ o.applyState = .applied

section Moves

variable {s : OperationStore}

variable {o : AIProviderOperation}

theorem share_nonneg {tenant : ℕ} (nonneg : 0 ≤ o.reservedAmount.units) : 0 ≤ share tenant o := by
  unfold share
  split
  · exact nonneg
  · exact le_rfl

theorem OperationStore.Accounted.reserved_nonneg (h : s.Accounted) (tenant : ℕ) : 0 ≤ reservedUnits (s.wallets tenant) := by
  rw [← h.reserves tenant]
  apply List.sum_nonneg
  intro units mem
  obtain ⟨o, row, rfl⟩ := List.mem_map.mp mem
  exact share_nonneg (h.nonneg o row)

theorem OperationStore.Accounted.covered (h : s.Accounted) (mem : o ∈ s.operations) (held : o.status.Held) :
    o.reservedAmount.units ≤ reservedUnits (s.wallets o.tenant) := by
  rw [← h.reserves o.tenant, ← share_held held]
  refine List.single_le_sum (fun units row => ?_) _ (List.mem_map_of_mem mem)
  obtain ⟨other, there, rfl⟩ := List.mem_map.mp row
  exact share_nonneg (h.nonneg other there)

theorem Journalled.of_added {w next : WalletStore} {u : Uuid} (journal : Journalled w o)
    (named : o.reservationKey = reserveKey u) {added : List AICreditTransaction} (rows : next.transactions = w.transactions ++ added)
    (others : ∀ row ∈ added, ∀ suffix, Suffix suffix → row.idempotencyKey ≠ reserveKey u ++ suffix) : Journalled next o := by
  have none_added (suffix : String) (follows : Suffix suffix) :
      rowsUnder next (o.reservationKey ++ suffix) = rowsUnder w (o.reservationKey ++ suffix) := by
    have empty : (added.filter fun row => decide (row.idempotencyKey = o.reservationKey ++ suffix)) = [] := by
      refine List.filter_eq_nil_iff.mpr fun row mem => ?_
      rw [decide_eq_true_eq, named]
      exact others row mem suffix follows
    rw [rowsUnder_append rows, empty]
    rfl
  refine ⟨?_, ?_, ?_⟩
  · have same := none_added "" (by decide)
    rw [String.append_empty] at same
    rw [same, journal.reserved]
  · rw [none_added ":release" (by decide), journal.released]
  · rw [none_added ":settled" (by decide), journal.settled]

structure RowChange (s : OperationStore) (o new : AIProviderOperation) (wallet : WalletStore) (added : List AICreditTransaction) :
    Prop where
  mem : o ∈ s.operations
  keeps : o.Updates new
  rows : wallet.transactions = (s.wallets o.tenant).transactions ++ added
  shapes : ∀ row ∈ added, ∃ suffix, Suffix suffix ∧ row.idempotencyKey = o.reservationKey ++ suffix
  journal : Journalled wallet new
  units : reservedUnits wallet + share o.tenant o = reservedUnits (s.wallets o.tenant) + share o.tenant new
  unresolved : new.Unresolved → o.Unresolved
  applied : o.status = .settled → o.applyState = .applied → new.status = .settled ∧ new.applyState = .applied

variable {o new : AIProviderOperation} {wallet : WalletStore} {added : List AICreditTransaction}

theorem sum_put (keys : (s.operations.map AIProviderOperation.id).Nodup) (mem : o ∈ s.operations) (same : new.id = o.id)
    (f : AIProviderOperation → ℤ) :
    ((put AIProviderOperation.id new s.operations).map f).sum + f o = (s.operations.map f).sum + f new := by
  generalize s.operations = rows at *
  induction rows with
  | nil => cases mem
  | cons first rest ih =>
    obtain ⟨apart, distinct⟩ := List.nodup_cons.mp (List.map_cons .. ▸ keys)
    rw [put, List.map_cons, List.map_cons, List.map_cons, List.sum_cons, List.sum_cons]
    by_cases hit : first.id = new.id
    · have one : o = first := row_unique keys mem List.mem_cons_self (same.symm.trans hit.symm)
      have kept : rest.map (fun old => if old.id = new.id then new else old) = rest := by
        refine (List.map_congr_left fun old old_mem => ?_).trans (List.map_id rest)
        exact if_neg fun collide => apart (List.mem_map.mpr ⟨old, old_mem, collide.trans hit.symm⟩)
      rw [if_pos hit, kept, one]
      omega
    · have later : o ∈ rest := (List.mem_cons.mp mem).resolve_left fun first_row => hit (first_row ▸ same.symm)
      have rest_sum := ih distinct later
      rw [put] at rest_sum
      rw [if_neg hit]
      omega

theorem RowChange.accounted (h : s.Accounted) (c : RowChange s o new wallet added) :
    (save { s with wallets := Function.update s.wallets o.tenant wallet } new).Accounted := by
  have split (row : AIProviderOperation) (mem : row ∈ (s.save new).operations) :
      row = new ∨ (row ∈ s.operations ∧ row.id ≠ o.id) := by
    rcases mem_put.mp mem with ⟨same, -⟩ | ⟨there, other⟩
    · exact .inl same
    · exact .inr ⟨there, c.keeps.id ▸ other⟩
  have kept (row : AIProviderOperation) (mem : row ∈ s.operations) :
      ∃ after ∈ (s.save new).operations, after.tenant = row.tenant ∧ after.reservationKey = row.reservationKey := by
    by_cases same : row.id = o.id
    · have one : row = o := row_unique h.ids mem c.mem same
      exact ⟨new, mem_put.mpr (.inl ⟨rfl, o, c.mem, c.keeps.id.symm⟩), one ▸ c.keeps.tenant, one ▸ c.keeps.reservationKey⟩
    · exact ⟨row, mem_save mem (c.keeps.id.symm ▸ same), rfl, rfl⟩
  obtain ⟨u, key⟩ := h.named o c.mem
  refine ⟨(map_id_save new).symm ▸ h.ids, fun row mem => ?_, fun a a_mem b b_mem tenants keys => ?_, fun row mem => ?_,
    fun tenant row mem v suffix follows shape => ?_, fun row mem => ?_, fun tenant => ?_, fun a a_mem b b_mem a_open b_open same => ?_,
    h.once, fun id mem => ?_⟩
  · rcases split row mem with rfl | ⟨there, _⟩
    · exact ⟨u, c.keeps.reservationKey.trans key⟩
    · exact h.named row there
  · rcases split a a_mem with rfl | ⟨a_there, a_other⟩
    · rcases split b b_mem with rfl | ⟨b_there, b_other⟩
      · rfl
      · have one := h.keys b b_there o c.mem (tenants.symm.trans c.keeps.tenant) (keys.symm.trans c.keeps.reservationKey)
        exact absurd (congrArg AIProviderOperation.id one) b_other
    · rcases split b b_mem with rfl | ⟨b_there, b_other⟩
      · have one := h.keys a a_there o c.mem (tenants.trans c.keeps.tenant) (keys.trans c.keeps.reservationKey)
        exact absurd (congrArg AIProviderOperation.id one) a_other
      · exact h.keys a a_there b b_there tenants keys
  · rcases split row mem with rfl | ⟨there, other⟩
    · rw [c.keeps.tenant]
      simpa [save] using c.journal
    · by_cases same : row.tenant = o.tenant
      · obtain ⟨v, row_key⟩ := h.named row there
        have before := h.journal row there
        rw [same] at before ⊢
        have after : Journalled wallet row := before.of_added row_key c.rows fun one one_mem suffix follows collide => by
          obtain ⟨own, own_follows, own_key⟩ := c.shapes one one_mem
          rw [own_key, key] at collide
          have keys := (reserveKey_inj own_follows follows collide).1
          exact other (congrArg AIProviderOperation.id (h.keys row there o c.mem same (by rw [row_key, key, keys])))
        simpa [save] using after
      · have apart : (Function.update s.wallets o.tenant wallet) row.tenant = s.wallets row.tenant :=
          Function.update_of_ne same _ _
        change Journalled ((Function.update s.wallets o.tenant wallet) row.tenant) row
        rw [apart]
        exact h.journal row there
  · have owner : ∃ before ∈ s.operations, before.tenant = tenant ∧ before.reservationKey = reserveKey v := by
      by_cases same : tenant = o.tenant
      · subst same
        have there : row ∈ (s.wallets o.tenant).transactions ++ added := by
          rw [← c.rows]
          simpa [save] using mem
        rcases List.mem_append.mp there with old | fresh
        · exact h.owned o.tenant row old v suffix follows shape
        · obtain ⟨own, own_follows, own_key⟩ := c.shapes row fresh
          rw [own_key, key] at shape
          exact ⟨o, c.mem, rfl, key.trans (reserveKey_inj own_follows follows shape).1⟩
      · have apart : (Function.update s.wallets o.tenant wallet) tenant = s.wallets tenant := Function.update_of_ne same _ _
        exact h.owned tenant row (apart ▸ mem) v suffix follows shape
    obtain ⟨before, there, tenant_eq, key_eq⟩ := owner
    obtain ⟨after, here, after_tenant, after_key⟩ := kept before there
    exact ⟨after, here, after_tenant.trans tenant_eq, after_key.trans key_eq⟩
  · rcases split row mem with rfl | ⟨there, _⟩
    · rw [c.keeps.reservedAmount]
      exact h.nonneg o c.mem
    · exact h.nonneg row there
  · have total := sum_put h.ids c.mem c.keeps.id (share tenant)
    have balance := h.reserves tenant
    by_cases same : tenant = o.tenant
    · subst same
      have units := c.units
      have here : (Function.update s.wallets o.tenant wallet) o.tenant = wallet := Function.update_self _ _ _
      change ((put AIProviderOperation.id new s.operations).map (share o.tenant)).sum =
        reservedUnits ((Function.update s.wallets o.tenant wallet) o.tenant)
      rw [here]
      omega
    · have apart : (Function.update s.wallets o.tenant wallet) tenant = s.wallets tenant := Function.update_of_ne same _ _
      rw [share_other (Ne.symm same), share_other (c.keeps.tenant.symm ▸ Ne.symm same)] at total
      change ((put AIProviderOperation.id new s.operations).map (share tenant)).sum =
        reservedUnits ((Function.update s.wallets o.tenant wallet) tenant)
      rw [apart]
      omega
  · rcases split a a_mem with rfl | ⟨a_there, a_other⟩
    · rcases split b b_mem with rfl | ⟨b_there, b_other⟩
      · rfl
      · have one := h.domains b b_there o c.mem b_open (c.unresolved a_open) (same.symm.trans c.keeps.domain)
        exact absurd (congrArg AIProviderOperation.id one) b_other
    · rcases split b b_mem with rfl | ⟨b_there, b_other⟩
      · have one := h.domains a a_there o c.mem a_open (c.unresolved b_open) (same.trans c.keeps.domain)
        exact absurd (congrArg AIProviderOperation.id one) a_other
      · exact h.domains a a_there b b_there a_open b_open same
  · obtain ⟨row, there, row_id, settled, applied⟩ := h.applied id mem
    by_cases same : row.id = o.id
    · obtain rfl : row = o := row_unique h.ids there c.mem same
      obtain ⟨still, state⟩ := c.applied settled applied
      exact ⟨new, mem_put.mpr (.inl ⟨rfl, row, there, c.keeps.id.symm⟩), c.keeps.id.trans row_id, still, state⟩
    · exact ⟨row, mem_save there (c.keeps.id.symm ▸ same), row_id, settled, applied⟩

end Moves

end MapBackend.AIAgent
