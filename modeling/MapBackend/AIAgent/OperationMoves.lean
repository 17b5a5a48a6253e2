import MapBackend.AIAgent.ProviderOperations
import Mathlib.Logic.Relation

/-!
What the transactions do to the rows: every committed transaction is a sequence of moves, and a move
writes one row.
-/

namespace MapBackend.AIAgent
open MapBackend.Library MapBackend.Billing Relation

structure AIProviderOperation.Updates (o new : AIProviderOperation) : Prop where
  id : new.id = o.id
  tenant : new.tenant = o.tenant
  reservationKey : new.reservationKey = o.reservationKey
  reservedAmount : new.reservedAmount = o.reservedAmount
  domain : new.domain = o.domain

namespace OperationStore

inductive OperationMove (s : OperationStore) : OperationStore → Prop where
  | begin (r : BeginRequest) (wallet : WalletStore) (receipt : AIReservation) (amount : Credits)
      (made : AIWalletService.reserve r.env r.tenant r.reservedAmount none (s.wallets r.tenant.pk) = .ok (wallet, receipt))
      (stored : Numeric.store 16 4 receipt.amount = some amount) (fresh : ∀ o ∈ s.operations, o.id ≠ r.id)
      (free : ∀ o ∈ s.operations, o.domain = (r.row receipt.key amount).domain → ¬ o.Unresolved) :
      OperationMove s { s with
        wallets := Function.update s.wallets r.tenant.pk wallet
        operations := s.operations ++ [r.row receipt.key amount] }
  | mark (o new : AIProviderOperation) (mem : o ∈ s.operations) (reserved : o.status = .reserved) (keeps : o.Updates new)
      (held : new.status.Held) : OperationMove s (s.save new)
  | release (o new : AIProviderOperation) (wallet : WalletStore) (mem : o ∈ s.operations) (held : o.status.Held)
      (keeps : o.Updates new) (released : new.status = .released)
      (made : AIWalletService.release o.reservation (s.wallets o.tenant) = .ok (wallet, ())) :
      OperationMove s (save { s with wallets := Function.update s.wallets o.tenant wallet } new)
  | settle (o new : AIProviderOperation) (wallet : WalletStore) (actualAmount charged : ℚ) (mem : o ∈ s.operations)
      (held : o.status.Held) (keeps : o.Updates new) (settled : new.status = .settled)
      (made : AIWalletService.settle o.reservation actualAmount (s.wallets o.tenant) = .ok (wallet, charged)) :
      OperationMove s (save { s with wallets := Function.update s.wallets o.tenant wallet } new)
  | applied (o : AIProviderOperation) (product : ℕ) (result : DescriptionResult) (now : Instant) (mem : o ∈ s.operations)
      (settled : o.status = .settled) (pending : o.applyState = .pending) :
      OperationMove s ((s.writeDescription o.id product result).save { o with applyState := .applied, appliedAt := some now })
  | other (tenants : List ℕ) (products : List Product) (listings : List Listing) (runs : List WebResearchRun) :
      OperationMove s { s with tenants, products, listings, runs }

section Moves

variable {s next : OperationStore}

variable {o : AIProviderOperation} {id : ℕ}

theorem of_get (found : s.get id = .ok o) : o ∈ s.operations ∧ o.id = id := by
  have row := orRaise_ok.mp found
  exact ⟨List.mem_of_find?_eq_some row, by simpa using List.find?_some row⟩

theorem onWallet_ok {R : Type} {tenant : ℕ} {operation : WalletStore → Except WalletError (WalletStore × R)} {result : R}
    (step : s.onWallet tenant operation = .ok (next, result)) :
    ∃ wallet, operation (s.wallets tenant) = .ok (wallet, result) ∧
      next = { s with wallets := Function.update s.wallets tenant wallet } := by
  unfold onWallet at step
  cases made : operation (s.wallets tenant) with
  | error =>
    rw [made] at step
    cases step
  | ok pair =>
    rw [made] at step
    cases step
    exact ⟨pair.1, rfl, rfl⟩

variable {now : Instant}

theorem releaseLocked_ok {reason note : Core.Text}
    (step : s.releaseLocked o reason note now = .ok next) :
    ∃ wallet new, AIWalletService.release o.reservation (s.wallets o.tenant) = .ok (wallet, ()) ∧ o.Updates new ∧
      new.status = .released ∧ next = save { s with wallets := Function.update s.wallets o.tenant wallet } new := by
  obtain ⟨⟨_, _⟩, released, saved⟩ := bind_ok.mp step
  obtain ⟨wallet, made, rfl⟩ := onWallet_ok released
  cases saved
  refine ⟨wallet, _, made, ?_, ?_, rfl⟩
  · exact ⟨rfl, rfl, rfl, rfl, rfl⟩
  · rfl

variable {charged : ℚ}

theorem settleLocked_ok {r : Settlement}
    (step : s.settleLocked o r now = .ok (next, charged)) :
    ∃ wallet new, AIWalletService.settle o.reservation r.actualAmount (s.wallets o.tenant) = .ok (wallet, charged) ∧
      o.Updates new ∧ new.status = .settled ∧
      next = save { s with wallets := Function.update s.wallets o.tenant wallet } new := by
  simp only [settleLocked, bind_ok, orRaise_ok] at step
  obtain ⟨_, _, _, _, ⟨_, _⟩, settled, _, _, saved⟩ := step
  obtain ⟨wallet, made, rfl⟩ := onWallet_ok settled
  cases saved
  refine ⟨wallet, _, made, ?_, ?_, rfl⟩
  · exact ⟨rfl, rfl, rfl, rfl, rfl⟩
  · rfl

theorem OperationMove.of_releaseLocked {reason note : Core.Text}
    (mem : o ∈ s.operations) (held : o.status.Held) (step : s.releaseLocked o reason note now = .ok next) :
    OperationMove s next := by
  obtain ⟨wallet, new, made, keeps, released, rfl⟩ := releaseLocked_ok step
  exact .release o new wallet mem held keeps released made

theorem OperationMove.of_settleLocked {r : Settlement}
    (mem : o ∈ s.operations) (held : o.status.Held) (step : s.settleLocked o r now = .ok (next, charged)) :
    OperationMove s next := by
  obtain ⟨wallet, new, made, keeps, settled, rfl⟩ := settleLocked_ok step
  exact .settle o new wallet r.actualAmount charged mem held keeps settled made

theorem OperationMove.of_begin {r : BeginRequest} (step : s.beginAiProviderOperation r = .ok (next, id)) :
    OperationMove s next := by
  simp only [beginAiProviderOperation, bind_ok, raiseIf_ok, orRaise_ok] at step
  obtain ⟨_, _, _, _, _, _, _, _, _, free, ⟨_, receipt⟩, reserved, _, _, amount, stored, _, fresh, saved⟩ := step
  obtain ⟨wallet, made, rfl⟩ := onWallet_ok reserved
  cases saved
  refine .begin r wallet receipt amount made stored (fun o mem same => fresh ⟨o, mem, .inl same⟩) fun o mem same open_row => ?_
  exact free ⟨o, mem, same, open_row⟩

theorem held_of_open {status : OperationStatus} (released : status ≠ .released) (settled : status ≠ .settled) : status.Held := by
  cases status with
  | reserved => exact .inl rfl
  | pendingReconciliation => exact .inr rfl
  | released => exact absurd rfl released
  | settled => exact absurd rfl settled

theorem moves_of_networkStarted (step : s.markAiProviderNetworkStarted id now = .ok (next, ())) :
    ReflTransGen OperationMove s next := by
  simp only [markAiProviderNetworkStarted, bind_ok, raiseIf_ok, not_not] at step
  obtain ⟨o, found, _, reserved, step⟩ := step
  split at step
  · cases step
    exact .single (.mark o _ (of_get found).1 reserved ⟨rfl, rfl, rfl, rfl, rfl⟩ (.inl reserved))
  · cases step
    exact .refl

theorem moves_of_uncertain {errorCode : Core.Text}
    (step : s.markAiProviderOperationUncertain id errorCode now = .ok (next, ())) : ReflTransGen OperationMove s next := by
  obtain ⟨o, found, step⟩ := bind_ok.mp step
  cases status : o.status with
  | reserved =>
    rw [status] at step
    cases step
    exact .single (.mark o _ (of_get found).1 status ⟨rfl, rfl, rfl, rfl, rfl⟩ (.inr rfl))
  | pendingReconciliation =>
    rw [status] at step
    cases step
    exact .refl
  | released =>
    rw [status] at step
    cases step
    exact .refl
  | settled =>
    rw [status] at step
    cases step
    exact .refl

theorem moves_of_release {reason : Core.Text}
    (step : s.releaseAiProviderOperation id reason now = .ok (next, ())) : ReflTransGen OperationMove s next := by
  obtain ⟨o, found, step⟩ := bind_ok.mp step
  split at step
  · cases step
    exact .refl
  · next unreleased =>
    simp only [bind_ok, raiseIf_ok] at step
    obtain ⟨_, unsettled, _, released, made⟩ := step
    cases made
    exact .single (.of_releaseLocked (of_get found).1 (held_of_open unreleased unsettled) released)

theorem moves_of_settle {r : SettleRequest}
    (step : s.settleAiProviderOperation id r now = .ok (next, charged)) : ReflTransGen OperationMove s next := by
  obtain ⟨o, found, step⟩ := bind_ok.mp step
  split at step
  · cases step
    exact .refl
  · next unsettled =>
    simp only [bind_ok, raiseIf_ok] at step
    obtain ⟨_, unreleased, settled⟩ := step
    exact .single (.of_settleLocked (of_get found).1 (held_of_open unreleased unsettled) settled)

theorem moves_of_resolve {action : ResolutionAction} {note : Core.Text} {changed : Bool}
    (step : s.resolveUncertainAiProviderOperation id action note now = .ok (next, changed)) :
    ReflTransGen OperationMove s next := by
  simp only [resolveUncertainAiProviderOperation, bind_ok, raiseIf_ok] at step
  obtain ⟨_, _, _, _, o, found, step⟩ := step
  split at step
  · cases step
    exact .refl
  · simp only [bind_ok, raiseIf_ok, not_not] at step
    obtain ⟨_, _, _, pending, step⟩ := step
    have mem := (of_get found).1
    split at step
    · obtain ⟨after, released, made⟩ := bind_ok.mp step
      cases made
      exact .single (.of_releaseLocked mem (.inr pending) released)
    · obtain ⟨⟨after, _⟩, settled, made⟩ := bind_ok.mp step
      cases made
      exact .single (.of_settleLocked mem (.inr pending) settled)

theorem moves_of_apply {result : DescriptionResult}
    (step : s.applyDescriptionProviderOperation id now = .ok (next, result)) : ReflTransGen OperationMove s next := by
  simp only [applyDescriptionProviderOperation, bind_ok, raiseIf_ok, not_or, not_not] at step
  obtain ⟨o, found, _, ⟨settled, _⟩, step⟩ := step
  obtain ⟨mem, rfl⟩ := of_get found
  split at step
  · obtain ⟨_, _, made⟩ := bind_ok.mp step
    cases made
    exact .refl
  · simp only [bind_ok, raiseIf_ok, not_not, orRaise_ok] at step
    obtain ⟨_, pending, _, _, _, _, product, _, made⟩ := step
    cases made
    exact .single (.applied o product.pk _ now mem settled pending)

/-! ## The recovery of stale rows -/

theorem mem_save {o new : AIProviderOperation} (mem : o ∈ s.operations) (other : o.id ≠ new.id) : o ∈ (s.save new).operations :=
  mem_put.mpr (.inr ⟨mem, other⟩)

theorem moves_of_marks {checkedAt : Instant} {rows : List AIProviderOperation} (distinct : (rows.map AIProviderOperation.id).Nodup)
    (mem : ∀ o ∈ rows, o ∈ s.operations) (reserved : ∀ o ∈ rows, o.status = .reserved) :
    ReflTransGen OperationMove s (rows.foldl (fun s o => s.save (markStale checkedAt o)) s) := by
  induction rows generalizing s with
  | nil => exact .refl
  | cons first _ ih =>
    obtain ⟨apart, distinct⟩ := List.nodup_cons.mp (List.map_cons .. ▸ distinct)
    have moved : OperationMove s (s.save (markStale checkedAt first)) :=
      .mark first _ (mem first List.mem_cons_self) (reserved first List.mem_cons_self) ⟨rfl, rfl, rfl, rfl, rfl⟩ (.inr rfl)
    refine .head moved (ih distinct (fun o later => ?_) fun o later => reserved o (List.mem_cons_of_mem _ later))
    exact mem_save (mem o (List.mem_cons_of_mem _ later)) fun same =>
      apart (List.mem_map.mpr ⟨o, later, same⟩)

theorem moves_of_releases {rows : List AIProviderOperation} (distinct : (rows.map AIProviderOperation.id).Nodup)
    (mem : ∀ o ∈ rows, o ∈ s.operations) (reserved : ∀ o ∈ rows, o.status = .reserved)
    (step : rows.foldlM (fun s o => s.releaseLocked o providerCallNeverStarted [] now) s = .ok next) :
    ReflTransGen OperationMove s next := by
  induction rows generalizing s with
  | nil =>
    cases step
    exact .refl
  | cons first _ ih =>
    obtain ⟨apart, distinct⟩ := List.nodup_cons.mp (List.map_cons .. ▸ distinct)
    obtain ⟨_, released, later⟩ := bind_ok.mp step
    refine .head (.of_releaseLocked (mem first List.mem_cons_self) (.inl (reserved first List.mem_cons_self)) released)
      (ih distinct (fun o more => ?_) (fun o more => reserved o (List.mem_cons_of_mem _ more)) later)
    obtain ⟨_, _, _, keeps, _, rfl⟩ := releaseLocked_ok released
    refine mem_put.mpr (.inr ⟨mem o (List.mem_cons_of_mem _ more), fun same => apart (List.mem_map.mpr ⟨o, more, ?_⟩)⟩)
    exact same.trans keeps.id

theorem scan_rows {cond : AIProviderOperation → Bool} {order : AIProviderOperation → AIProviderOperation → Prop} [DecidableRel order]
    {limit : ℕ} (keys : (s.operations.map AIProviderOperation.id).Nodup) :
    ((((s.operations.filter cond).insertionSort order).take limit).map AIProviderOperation.id).Nodup ∧
      ∀ o ∈ ((s.operations.filter cond).insertionSort order).take limit, o ∈ s.operations ∧ cond o = true := by
  have sorted := List.perm_insertionSort order (s.operations.filter cond)
  constructor
  · have all : (((s.operations.filter cond).insertionSort order).map AIProviderOperation.id).Nodup :=
      (sorted.map _).nodup_iff.mpr ((List.filter_sublist.map _).nodup keys)
    exact ((List.take_sublist _ _).map _).nodup all
  · exact fun o mem => List.mem_filter.mp (sorted.mem_iff.mp (List.mem_of_mem_take mem))

@[simp] theorem map_id_save (new : AIProviderOperation) :
    (s.save new).operations.map AIProviderOperation.id = s.operations.map AIProviderOperation.id :=
  map_key_put new s.operations

@[simp] theorem map_id_marks (checkedAt : Instant) (rows : List AIProviderOperation) :
    (rows.foldl (fun s o => s.save (markStale checkedAt o)) s).operations.map AIProviderOperation.id =
      s.operations.map AIProviderOperation.id := by
  induction rows generalizing s with
  | nil => rfl
  | cons _ _ ih => exact ih.trans (map_id_save _)

theorem moves_of_stale {r : StaleRequest} {counts : ℕ × ℕ} (keys : (s.operations.map AIProviderOperation.id).Nodup)
    (step : s.reconcileStaleAiProviderOperations r = .ok (next, counts)) : ReflTransGen OperationMove s next := by
  simp only [reconcileStaleAiProviderOperations, bind_ok] at step
  obtain ⟨_, _, _, _, _, released, made⟩ := step
  cases made
  obtain ⟨distinct, started⟩ := @scan_rows s (staleStarted r) startedBefore _ r.limit keys
  refine (@moves_of_marks s r.checkedAt _ distinct (fun o mem => (started o mem).1) fun o mem => ?_).trans ?_
  · have cond := (started o mem).2
    simp only [staleStarted, Bool.and_eq_true, decide_eq_true_eq] at cond
    exact cond.1.1
  · obtain ⟨others, never⟩ := @scan_rows _ (staleNeverStarted r) (fun a b => a.createdAt ≤ b.createdAt) _ _
      ((map_id_marks r.checkedAt _).symm ▸ keys)
    refine moves_of_releases others (fun o mem => (never o mem).1) (fun o mem => ?_) released
    have cond := (never o mem).2
    simp only [staleNeverStarted, Bool.and_eq_true, decide_eq_true_eq] at cond
    exact cond.1.1.1

theorem moves_of_perform (keys : (s.operations.map AIProviderOperation.id).Nodup) (step : OperationStep) :
    ReflTransGen OperationMove s (s.perform step) := by
  cases step with
  | begin => exact commit_relates _ s _ .refl fun next _ made => .single (.of_begin made)
  | networkStarted => exact commit_relates _ s _ .refl fun next _ made => moves_of_networkStarted made
  | uncertain => exact commit_relates _ s _ .refl fun next _ made => moves_of_uncertain made
  | release => exact commit_relates _ s _ .refl fun next _ made => moves_of_release made
  | settle => exact commit_relates _ s _ .refl fun next _ made => moves_of_settle made
  | resolve => exact commit_relates _ s _ .refl fun next _ made => moves_of_resolve made
  | applyDescription => exact commit_relates _ s _ .refl fun next _ made => moves_of_apply made
  | reconcileStale => exact commit_relates _ s _ .refl fun next _ made => moves_of_stale keys made
  | other tenants products listings runs => exact .single (.other tenants products listings runs)

end Moves

end OperationStore

end MapBackend.AIAgent
