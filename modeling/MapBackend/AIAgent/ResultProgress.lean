import MapBackend.AIAgent.OperationMoves
import MapBackend.AIAgent.ResultRecovery

/-!
Which paid results the recovery reaches.
-/

namespace MapBackend.AIAgent
open MapBackend.Library MapBackend.Billing MapBackend.Core

/-- The row keeps its place in the queue, and once settled nothing else rewrites it. -/
structure AIProviderOperation.Quiet (o new : AIProviderOperation) : Prop where
  id : new.id = o.id
  createdAt : new.createdAt = o.createdAt
  settled : o.status = .settled → new = o

namespace OperationStore

variable {s next : OperationStore}

theorem quiet_refl (o : AIProviderOperation) : o.Quiet o := ⟨rfl, rfl, fun _ => rfl⟩

theorem quiet_trans (a b c : AIProviderOperation) (first : a.Quiet b) (second : b.Quiet c) : a.Quiet c where
  id := second.id.trans first.id
  createdAt := second.createdAt.trans first.createdAt
  settled := by
    intro settled
    have same := first.settled settled
    exact (second.settled (same ▸ settled)).trans same

def Quiet (s next : OperationStore) : Prop := Rewrites AIProviderOperation.Quiet s.operations next.operations

theorem Quiet.refl (s : OperationStore) : s.Quiet s := Rewrites.refl quiet_refl s.operations

theorem Quiet.trans {middle : OperationStore} (first : s.Quiet middle) (second : middle.Quiet next) : s.Quiet next :=
  Rewrites.trans quiet_trans first second

theorem Quiet.keys (quiet : s.Quiet next) : next.ids = s.ids := Rewrites.keys quiet fun _ _ step => step.id

theorem quiet_save (keys : s.ids.Nodup) {o new : AIProviderOperation} (mem : o ∈ s.operations)
    (unsettled : o.status ≠ .settled) (saved : next.operations = (s.save new).operations) (id : new.id = o.id)
    (createdAt : new.createdAt = o.createdAt) : s.Quiet next := by
  unfold Quiet
  rw [saved]
  exact Rewrites.put quiet_refl keys mem id ⟨id, createdAt, fun settled => absurd settled unsettled⟩

variable {o : AIProviderOperation} {now : Instant}

theorem quiet_releaseLocked (keys : s.ids.Nodup) {reason note : Core.Text}
    (mem : o ∈ s.operations) (unsettled : o.status ≠ .settled) (step : s.releaseLocked o reason note now = .ok next) :
    s.Quiet next := by
  obtain ⟨⟨_, _⟩, released, saved⟩ := bind_ok.mp step
  obtain ⟨_, -, rfl⟩ := onWallet_ok released
  cases saved
  exact quiet_save keys mem unsettled rfl rfl rfl

theorem quiet_settleLocked (keys : s.ids.Nodup) {r : Settlement} {charged : ℚ}
    (mem : o ∈ s.operations) (unsettled : o.status ≠ .settled) (step : s.settleLocked o r now = .ok (next, charged)) :
    s.Quiet next := by
  simp only [settleLocked, bind_ok, orRaise_ok] at step
  obtain ⟨_, _, _, _, ⟨_, _⟩, settled, _, _, saved⟩ := step
  obtain ⟨_, -, rfl⟩ := onWallet_ok settled
  cases saved
  exact quiet_save keys mem unsettled rfl rfl rfl

variable {id : ℕ}

theorem quiet_networkStarted (keys : s.ids.Nodup)
    (step : s.markAiProviderNetworkStarted id now = .ok (next, ())) : s.Quiet next := by
  simp only [markAiProviderNetworkStarted, bind_ok, raiseIf_ok, not_not] at step
  obtain ⟨o, found, _, reserved, step⟩ := step
  split at step
  · cases step
    exact quiet_save keys (of_get found).1 (by rw [reserved]; decide) rfl rfl rfl
  · cases step
    exact .refl s

theorem quiet_uncertain (keys : s.ids.Nodup) {errorCode : Core.Text}
    (step : s.markAiProviderOperationUncertain id errorCode now = .ok (next, ())) : s.Quiet next := by
  obtain ⟨o, found, step⟩ := bind_ok.mp step
  cases status : o.status with
  | reserved =>
    rw [status] at step
    cases step
    exact quiet_save keys (of_get found).1 (by rw [status]; decide) rfl rfl rfl
  | pendingReconciliation | released | settled =>
    rw [status] at step
    cases step
    exact .refl s

theorem quiet_release (keys : s.ids.Nodup) {reason : Core.Text}
    (step : s.releaseAiProviderOperation id reason now = .ok (next, ())) : s.Quiet next := by
  obtain ⟨o, found, step⟩ := bind_ok.mp step
  split at step
  · cases step
    exact .refl s
  · simp only [bind_ok, raiseIf_ok] at step
    obtain ⟨_, unsettled, _, released, made⟩ := step
    cases made
    exact quiet_releaseLocked keys (of_get found).1 unsettled released

theorem quiet_settle (keys : s.ids.Nodup) {r : SettleRequest} {charged : ℚ}
    (step : s.settleAiProviderOperation id r now = .ok (next, charged)) : s.Quiet next := by
  obtain ⟨o, found, step⟩ := bind_ok.mp step
  split at step
  · cases step
    exact .refl s
  · next unsettled =>
    simp only [bind_ok, raiseIf_ok] at step
    obtain ⟨_, -, settled⟩ := step
    exact quiet_settleLocked keys (of_get found).1 unsettled settled

theorem quiet_resolve (keys : s.ids.Nodup) {action : ResolutionAction} {note : Core.Text}
    {changed : Bool} (step : s.resolveUncertainAiProviderOperation id action note now = .ok (next, changed)) :
    s.Quiet next := by
  simp only [resolveUncertainAiProviderOperation, bind_ok, raiseIf_ok] at step
  obtain ⟨_, _, _, _, o, found, step⟩ := step
  split at step
  · cases step
    exact .refl s
  · simp only [bind_ok, raiseIf_ok, not_not] at step
    obtain ⟨_, _, _, pending, step⟩ := step
    have mem := (of_get found).1
    have unsettled : o.status ≠ .settled := by rw [pending]; decide
    split at step
    · obtain ⟨after, released, made⟩ := bind_ok.mp step
      cases made
      exact quiet_releaseLocked keys mem unsettled released
    · obtain ⟨⟨after, _⟩, settled, made⟩ := bind_ok.mp step
      cases made
      exact quiet_settleLocked keys mem unsettled settled

theorem quiet_marks (keys : s.ids.Nodup) {checkedAt : Instant} {rows : List AIProviderOperation}
    (distinct : (rows.map AIProviderOperation.id).Nodup) (mem : ∀ o ∈ rows, o ∈ s.operations)
    (reserved : ∀ o ∈ rows, o.status = .reserved) :
    s.Quiet (rows.foldl (fun s o => s.save (markStale checkedAt o)) s) := by
  induction rows generalizing s with
  | nil => exact .refl s
  | cons first _ ih =>
    obtain ⟨apart, distinct⟩ := List.nodup_cons.mp (List.map_cons .. ▸ distinct)
    have marked : s.Quiet (s.save (markStale checkedAt first)) := by
      refine quiet_save keys (mem first List.mem_cons_self) ?_ rfl rfl rfl
      rw [reserved first List.mem_cons_self]
      decide
    refine marked.trans (ih (marked.keys ▸ keys) distinct (fun o later => ?_) fun o later => reserved o (List.mem_cons_of_mem _ later))
    exact mem_save (mem o (List.mem_cons_of_mem _ later)) fun same => apart (List.mem_map.mpr ⟨o, later, same⟩)

theorem quiet_releases (keys : s.ids.Nodup) {rows : List AIProviderOperation}
    (distinct : (rows.map AIProviderOperation.id).Nodup) (mem : ∀ o ∈ rows, o ∈ s.operations)
    (reserved : ∀ o ∈ rows, o.status = .reserved)
    (step : rows.foldlM (fun s o => s.releaseLocked o providerCallNeverStarted [] now) s = .ok next) : s.Quiet next := by
  induction rows generalizing s with
  | nil =>
    cases step
    exact .refl _
  | cons first _ ih =>
    obtain ⟨apart, distinct⟩ := List.nodup_cons.mp (List.map_cons .. ▸ distinct)
    obtain ⟨_, released, later⟩ := bind_ok.mp step
    have unsettled : first.status ≠ .settled := by
      rw [reserved first List.mem_cons_self]
      decide
    have quiet := quiet_releaseLocked keys (mem first List.mem_cons_self) unsettled released
    refine quiet.trans (ih (quiet.keys ▸ keys) distinct (fun o more => ?_)
      (fun o more => reserved o (List.mem_cons_of_mem _ more)) later)
    obtain ⟨_, _, -, keeps, -, rfl⟩ := releaseLocked_ok released
    refine mem_put.mpr (.inr ⟨mem o (List.mem_cons_of_mem _ more), fun same => apart (List.mem_map.mpr ⟨o, more, ?_⟩)⟩)
    exact same.trans keeps.id

theorem quiet_stale (keys : s.ids.Nodup) {r : StaleRequest} {counts : ℕ × ℕ}
    (step : s.reconcileStaleAiProviderOperations r = .ok (next, counts)) : s.Quiet next := by
  simp only [reconcileStaleAiProviderOperations, bind_ok] at step
  obtain ⟨_, _, _, _, _, released, made⟩ := step
  cases made
  obtain ⟨distinct, started⟩ := @scan_rows s (staleStarted r) startedBefore _ r.limit keys
  have marked := @quiet_marks s keys r.checkedAt _ distinct (fun o mem => (started o mem).1) fun o mem => by
    have cond := (started o mem).2
    simp only [staleStarted, Bool.and_eq_true, decide_eq_true_eq] at cond
    exact cond.1.1
  obtain ⟨others, never⟩ := @scan_rows _ (staleNeverStarted r) (fun a b => a.createdAt ≤ b.createdAt) _ _ (marked.keys ▸ keys)
  refine marked.trans (quiet_releases (marked.keys ▸ keys) others (fun o mem => (never o mem).1) (fun o mem => ?_) released)
  have cond := (never o mem).2
  simp only [staleNeverStarted, Bool.and_eq_true, decide_eq_true_eq] at cond
  exact cond.1.1.1

/-! ## One attempt -/

def ownerKey (row : Product) : ℕ × ℕ × Option Instant := (row.pk, row.tenant, row.deletedAt)

structure SameOwners (s next : OperationStore) : Prop where
  products : next.products.map ownerKey = s.products.map ownerKey
  runs : next.runs = s.runs

theorem SameOwners.refl (s : OperationStore) : SameOwners s s := ⟨rfl, rfl⟩

theorem SameOwners.trans {middle : OperationStore} (first : SameOwners s middle) (second : SameOwners middle next) :
    SameOwners s next where
  products := second.products.trans first.products
  runs := second.runs.trans first.runs

theorem SameOwners.applicable (same : SameOwners s next) (o : AIProviderOperation) (raised : Option OperationError) :
    next.applicable o raised = s.applicable o raised := by
  have products (productId : ℤ) (t : OperationStore) : (t.products.any fun row =>
      decide ((row.pk : ℤ) = productId) && decide (row.tenant = o.tenant) && row.deletedAt.isNone) =
      (t.products.map ownerKey).any fun row =>
        decide ((row.1 : ℤ) = productId) && decide (row.2.1 = o.tenant) && row.2.2.isNone := by
    rw [List.any_map]
    rfl
  unfold OperationStore.applicable
  simp only [products, same.products, same.runs]

def AppliedRow (o : AIProviderOperation) (now : Instant) : AIProviderOperation :=
  { o with applyState := .applied, appliedAt := some now }

structure AppliedTo (s next : OperationStore) (o : AIProviderOperation) (now : Instant) : Prop where
  rows : next.operations = put AIProviderOperation.id (AppliedRow o now) s.operations
  owners : SameOwners s next

theorem get_of_mem (keys : s.ids.Nodup) (mem : o ∈ s.operations) : s.get o.id = .ok o := by
  apply orRaise_ok.mpr
  cases found : s.operations.find? fun row => decide (row.id = o.id) with
  | none => exact absurd (decide_eq_true rfl) (List.find?_eq_none.mp found o mem)
  | some row =>
    have same : row.id = o.id := by simpa using List.find?_some found
    rw [row_unique keys (List.mem_of_find?_eq_some found) mem same]

theorem isPending_iff : o.isPending = true ↔ o.status = .settled ∧ o.applyState = .pending := by
  simp [AIProviderOperation.isPending]

theorem writeDescription_owners (s : OperationStore) (id productPk : ℕ) (result : DescriptionResult) :
    SameOwners s (s.writeDescription id productPk result) where
  products := by
    simp only [writeDescription, List.map_map]
    apply List.map_congr_left
    intro row _
    by_cases hit : row.pk = productPk <;> simp [hit, ownerKey]
  runs := rfl

theorem AppliedTo.of_save (o : AIProviderOperation) (now : Instant) : AppliedTo s (s.save (AppliedRow o now)) o now :=
  ⟨rfl, rfl, rfl⟩

theorem applyDescription_ok (keys : s.ids.Nodup) (mem : o ∈ s.operations)
    (pending : o.isPending = true) {result : DescriptionResult}
    (step : s.applyDescriptionProviderOperation o.id now = .ok (next, result)) (raised : Option OperationError) :
    o.domainType = .product ∧ s.applicable o raised = true ∧ AppliedTo s next o now := by
  obtain ⟨_, waiting⟩ := isPending_iff.mp pending
  simp only [applyDescriptionProviderOperation, bind_ok, raiseIf_ok, not_or, not_not] at step
  obtain ⟨row, found, _, ⟨_, product, task⟩, step⟩ := step
  obtain rfl : row = o := Except.ok.inj (found.symm.trans (get_of_mem keys mem))
  rw [if_neg (by rw [waiting]; decide)] at step
  simp only [bind_ok, raiseIf_ok, not_not, orRaise_ok] at step
  obtain ⟨_, _, _, stored, _, reference, owner, exists_owner, made⟩ := step
  cases made
  refine ⟨product, ?_, ?_⟩
  · have owned := List.any_eq_true.mpr ⟨owner, List.mem_of_find?_eq_some exists_owner, List.find?_some exists_owner⟩
    simp [applicable, product, task, stored, reference, Except.toOption, owned]
  · have owners := writeDescription_owners s row.id owner.pk result
    exact ⟨rfl, owners.products, owners.runs⟩

variable {raised : Option OperationError}

theorem applyDescription_works (keys : s.ids.Nodup) (mem : o ∈ s.operations)
    (pending : o.isPending = true) (product : o.domainType = .product)
    (applicable : s.applicable o raised = true) (now : Instant) :
    ∃ next result, s.applyDescriptionProviderOperation o.id now = .ok (next, result) := by
  obtain ⟨settled, waiting⟩ := isPending_iff.mp pending
  simp only [OperationStore.applicable, product, Bool.and_eq_true, decide_eq_true_eq, Option.any_eq_true] at applicable
  obtain ⟨⟨task, stored⟩, productId, reference, owned⟩ := applicable
  have guard : ¬ (o.status ≠ .settled ∨ o.domainType ≠ .product ∨ o.taskType ≠ .descriptionGeneration) := by
    simp [settled, product, task]
  cases valid : descriptionResult o.validatedResult with
  | error =>
    rw [valid] at stored
    cases stored
  | ok result =>
    cases there : s.products.find? fun row =>
        decide ((row.pk : ℤ) = productId) && decide (row.tenant = o.tenant) && row.deletedAt.isNone with
    | none =>
      obtain ⟨row, mem_row, hit⟩ := List.any_eq_true.mp owned
      exact absurd hit (List.find?_eq_none.mp there row mem_row)
    | some owner =>
      refine ⟨(s.writeDescription o.id owner.pk result).save (AppliedRow o now), result, ?_⟩
      simp only [applyDescriptionProviderOperation, bind_ok, raiseIf_ok]
      refine ⟨o, get_of_mem keys mem, (), guard, ?_⟩
      rw [if_neg (by rw [waiting]; decide)]
      simp only [bind_ok, raiseIf_ok, orRaise_ok]
      exact ⟨(), by simp [waiting], result, valid, productId, reference, owner, there, rfl⟩

theorem applyResearch_ok (keys : s.ids.Nodup) (mem : o ∈ s.operations)
    (pending : o.isPending = true)
    (step : s.applyResearchProviderOperation o.id raised now = .ok (next, ())) :
    o.domainType = .webResearchRun ∧ s.applicable o raised = true ∧ AppliedTo s next o now := by
  obtain ⟨_, waiting⟩ := isPending_iff.mp pending
  simp only [applyResearchProviderOperation, bind_ok, raiseIf_ok, orRaise_ok, not_or, not_not] at step
  obtain ⟨row, found, _, ⟨_, task, domain⟩, _, reference, run, there, step⟩ := step
  obtain rfl : row = o := Except.ok.inj (found.symm.trans (get_of_mem keys mem))
  rw [if_neg (by rw [waiting]; decide)] at step
  simp only [bind_ok, raiseIf_ok, not_not, orRaise_ok] at step
  obtain ⟨_, _, payload, stored, step⟩ := step
  cases raised with
  | some => cases step
  | none =>
    cases step
    refine ⟨domain, ?_, AppliedTo.of_save row now⟩
    have owned := List.any_eq_true.mpr ⟨run, List.mem_of_find?_eq_some there, List.find?_some there⟩
    have object : row.validatedResult.any Json.isObject = true := by
      obtain ⟨some_payload, shape⟩ := Option.filter_eq_some_iff.mp stored
      exact (Option.any_eq_true _ _).mpr ⟨payload, some_payload, shape⟩
    simp [applicable, domain, task, reference, owned, object]

theorem applyResearch_works (keys : s.ids.Nodup) (mem : o ∈ s.operations)
    (pending : o.isPending = true) (domain : o.domainType = .webResearchRun)
    (applicable : s.applicable o raised = true) (now : Instant) :
    ∃ next, s.applyResearchProviderOperation o.id raised now = .ok (next, ()) := by
  obtain ⟨settled, waiting⟩ := isPending_iff.mp pending
  simp only [OperationStore.applicable, domain, Bool.and_eq_true, decide_eq_true_eq, Option.any_eq_true] at applicable
  obtain ⟨⟨⟨task, payload, stored, object⟩, answered⟩, runId, reference, owned⟩ := applicable
  obtain rfl : raised = none := Option.isNone_iff_eq_none.mp answered
  have guard : ¬ (o.status ≠ .settled ∨ o.taskType ≠ .webResearch ∨ o.domainType ≠ .webResearchRun) := by
    simp [settled, domain, task]
  cases there : s.runs.find? fun row => decide ((row.pk : ℤ) = runId) && decide (row.tenant = o.tenant) with
  | none =>
    obtain ⟨row, mem_row, hit⟩ := List.any_eq_true.mp owned
    exact absurd hit (List.find?_eq_none.mp there row mem_row)
  | some run =>
    refine ⟨s.save (AppliedRow o now), ?_⟩
    simp only [applyResearchProviderOperation, bind_ok, raiseIf_ok, orRaise_ok]
    refine ⟨o, get_of_mem keys mem, (), guard, runId, reference, run, there, ?_⟩
    rw [if_neg (by rw [waiting]; decide)]
    simp only [bind_ok, raiseIf_ok, orRaise_ok]
    exact ⟨(), by simp [waiting], payload, Option.filter_eq_some_iff.mpr ⟨stored, object⟩, rfl⟩

theorem applyResult_spec (keys : s.ids.Nodup) (mem : o ∈ s.operations) (pending : o.isPending = true)
    (r : RecoveryRequest) : if s.applicable o (r.research o.id) = true then
      AppliedTo s (commit s (s.applyResult r o.id)) o (r.now o.id) else commit s (s.applyResult r o.id) = s := by
  have here := get_of_mem keys mem
  cases outcome : s.applyResult r o.id with
  | ok pair =>
    have step : s.applyResult r o.id = .ok (pair.1, ()) := outcome
    simp only [applyResult, bind_ok] at step
    obtain ⟨row, found, step⟩ := step
    obtain rfl : row = o := Except.ok.inj (found.symm.trans here)
    have works : s.applicable row (r.research row.id) = true ∧ AppliedTo s pair.1 row (r.now row.id) := by
      cases domain : row.domainType with
      | product =>
        rw [domain] at step
        obtain ⟨⟨_, result⟩, applied, made⟩ := bind_ok.mp step
        cases made
        exact (applyDescription_ok keys mem pending applied _).2
      | webResearchRun =>
        rw [domain] at step
        exact (applyResearch_ok keys mem pending step).2
    rw [if_pos works.1]
    exact works.2
  | error =>
    have stuck : ¬ s.applicable o (r.research o.id) = true := by
      intro applicable
      rw [applyResult, here] at outcome
      cases domain : o.domainType with
      | product =>
        obtain ⟨next, result, applied⟩ := applyDescription_works keys mem pending domain applicable (r.now o.id)
        simp [bind, Except.bind, domain, applied] at outcome
      | webResearchRun =>
        obtain ⟨next, applied⟩ := applyResearch_works keys mem pending domain applicable (r.now o.id)
        simp [bind, Except.bind, domain, applied] at outcome
    rw [if_neg stuck]
    rfl

end OperationStore

end MapBackend.AIAgent
