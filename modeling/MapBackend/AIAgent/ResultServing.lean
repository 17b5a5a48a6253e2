import MapBackend.AIAgent.ResultProgress

/-!
The recovery over unbounded runs: a paid result is attempted exactly when fewer results than a run
takes stand before it and keep failing.
-/

namespace MapBackend.AIAgent
open MapBackend.Library MapBackend.Billing MapBackend.Core

namespace OperationStore

section Steps

variable {s next : OperationStore}

/-! ## The attempts of one run -/

def attempted (s : OperationStore) (r : RecoveryRequest) (targets : List ℕ) (o : AIProviderOperation) : AIProviderOperation :=
  if targets.contains o.id = true ∧ s.applicable o (r.research o.id) = true then AppliedRow o (r.now o.id) else o

variable {id : ℕ}

theorem mem_of_waits (waiting : s.waits id = true) : ∃ o ∈ s.operations, o.id = id ∧ o.isPending = true := by
  obtain ⟨o, mem, hit⟩ := List.any_eq_true.mp waiting
  simp only [Bool.and_eq_true, decide_eq_true_eq] at hit
  exact ⟨o, mem, hit⟩

variable {o : AIProviderOperation}

theorem waits_of_mem (mem : o ∈ s.operations) (pending : o.isPending = true) : s.waits o.id = true :=
  List.any_eq_true.mpr ⟨o, mem, by simp [pending]⟩

theorem waits_row (keys : s.ids.Nodup) (mem : o ∈ s.operations) : s.waits o.id = o.isPending := by
  cases pending : o.isPending with
  | true => exact waits_of_mem mem pending
  | false =>
    cases waiting : s.waits o.id with
    | false => rfl
    | true =>
      obtain ⟨_, row_mem, same, still⟩ := mem_of_waits waiting
      rw [row_unique keys row_mem mem same, pending] at still
      cases still

theorem rows_of_attempts (keys : s.ids.Nodup) (r : RecoveryRequest) {targets : List ℕ} (distinct : targets.Nodup)
    (waiting : ∀ id ∈ targets, s.waits id = true) :
    (targets.foldl (fun s id => commit s (s.applyResult r id)) s).operations = s.operations.map (attempted s r targets) := by
  induction targets generalizing s with
  | nil =>
    refine ((List.map_congr_left fun o _ => ?_).trans (List.map_id _)).symm
    exact if_neg fun taken => nomatch taken.1
  | cons first rest ih =>
    obtain ⟨apart, others⟩ := List.nodup_cons.mp distinct
    obtain ⟨o, mem, rfl, pending⟩ := mem_of_waits (waiting first List.mem_cons_self)
    have spec := applyResult_spec keys mem pending r
    rw [List.foldl_cons]
    by_cases works : s.applicable o (r.research o.id) = true
    · rw [if_pos works] at spec
      generalize commit s (s.applyResult r o.id) = after at spec ⊢
      have same_ids : after.ids = s.ids := by
        unfold ids
        rw [spec.rows]
        exact map_key_put _ _
      have still : ∀ id ∈ rest, after.waits id = true := by
        intro id later
        obtain ⟨row, row_mem, rfl, row_pending⟩ := mem_of_waits (waiting id (List.mem_cons_of_mem _ later))
        refine waits_of_mem ?_ row_pending
        rw [spec.rows]
        refine mem_put.mpr (.inr ⟨row_mem, fun same => apart ?_⟩)
        have hit : row.id = o.id := same
        exact hit ▸ later
      rw [ih (same_ids ▸ keys) others still, spec.rows, put, List.map_map]
      apply List.map_congr_left
      intro row row_mem
      by_cases hit : row.id = o.id
      · obtain rfl := row_unique keys row_mem mem hit
        have untouched : rest.contains row.id = false := by simpa using apart
        simp [attempted, AppliedRow, works, apart]
      · have other : row.id ≠ (AppliedRow o (r.now o.id)).id := hit
        simp [attempted, other, hit, spec.owners.applicable]
    · rw [if_neg works] at spec
      rw [spec, ih keys others fun id later => waiting id (List.mem_cons_of_mem _ later)]
      apply List.map_congr_left
      intro row row_mem
      by_cases hit : row.id = o.id
      · obtain rfl := row_unique keys row_mem mem hit
        simp [attempted, works]
      · simp [attempted, hit]

theorem recoverOne_store (r : RecoveryRequest) (targets : List ℕ) (progress : OperationStore × ℕ × ℕ) :
    (targets.foldl (recoverOne r) progress).1 = targets.foldl (fun s id => commit s (s.applyResult r id)) progress.1 := by
  induction targets generalizing progress with
  | nil => rfl
  | cons first _ ih =>
    rw [List.foldl_cons, List.foldl_cons, ih]
    congr 1
    unfold recoverOne
    cases progress.1.applyResult r first <;> rfl

def Ordered (s : OperationStore) : Prop := s.operations.Pairwise fun a b => a.createdAt ≤ b.createdAt

theorem pendingResults_eq (keys : s.ids.Nodup) (ordered : s.Ordered) (limit : ℕ) :
    s.pendingResults limit = (s.ids.filter s.waits).take limit := by
  have sorted : (s.operations.filter AIProviderOperation.isPending).insertionSort (fun a b => a.createdAt ≤ b.createdAt) =
      s.operations.filter AIProviderOperation.isPending := List.Pairwise.insertionSort_eq (ordered.filter _)
  have rows : s.ids.filter s.waits = (s.operations.filter AIProviderOperation.isPending).map AIProviderOperation.id := by
    rw [ids, List.filter_map]
    congr 1
    exact List.filter_congr fun o mem => waits_row keys mem
  rw [pendingResults, sorted, rows, List.map_take]

variable {limit : ℕ}

theorem recovery_recover (valid : 1 ≤ limit ∧ limit ≤ 1000) (keys : s.ids.Nodup) (ordered : s.Ordered)
    (r : RecoveryRequest) :
    (recovery limit s (.recover r)).operations = s.operations.map (attempted s r (s.pendingResults limit)) := by
  have run : recovery limit s (.recover r) =
      (s.pendingResults limit).foldl (fun s id => commit s (s.applyResult r id)) s := by
    rw [← recoverOne_store r _ (s, 0, 0)]
    simp [recovery, applyPendingAiProviderResults, raiseIf, valid, bind, Except.bind]
  rw [run, rows_of_attempts keys r]
  · rw [pendingResults_eq keys ordered]
    exact (List.take_sublist _ _).nodup (keys.filter _)
  · intro id taken
    rw [pendingResults_eq keys ordered] at taken
    exact (List.mem_filter.mp (List.mem_of_mem_take taken)).2

/-! ## What an action does to a row -/

/-- A row before and after an action: a settled one is as it was, or its result was applied. -/
structure Turned (s : OperationStore) (a : RecoveryAction) (o new : AIProviderOperation) : Prop where
  id : new.id = o.id
  createdAt : new.createdAt = o.createdAt
  settled : o.status = .settled → new = o ∨
    (o.isPending = true ∧ new.status = .settled ∧ new.applyState = .applied ∧ s.Succeeds a o.id)

/-- The rows after an action: the old ones in their places, and the one that is begun. -/
structure Turns (s next : OperationStore) (a : RecoveryAction) (fresh : List AIProviderOperation) : Prop where
  rows : ∃ mid, Rewrites (Turned s a) s.operations mid ∧ next.operations = mid ++ fresh
  begun : ∀ o ∈ fresh, o.id ∉ s.ids ∧ ∃ r, a = .step (.begin r) ∧ o.createdAt = r.now
  one : fresh.length ≤ 1

variable {a : RecoveryAction}

theorem turned_of_quiet {o new : AIProviderOperation} (quiet : o.Quiet new) : Turned s a o new where
  id := quiet.id
  createdAt := quiet.createdAt
  settled := fun settled => .inl (quiet.settled settled)

theorem Turns.of_quiet (a : RecoveryAction) (quiet : s.Quiet next) : Turns s next a [] where
  rows := by
    obtain ⟨f, rewritten, step⟩ := quiet
    exact ⟨next.operations, ⟨f, rewritten, fun o mem => turned_of_quiet (step o mem)⟩, (List.append_nil _).symm⟩
  begun := fun _ none_begun => nomatch none_begun
  one := Nat.zero_le 1

theorem Turns.of_commit {R : Type} {outcome : Except OperationError (OperationStore × R)}
    (quiet : ∀ next r, outcome = .ok (next, r) → s.Quiet next) : Turns s (commit s outcome) a [] :=
  .of_quiet a (commit_relates Quiet s outcome (.refl s) quiet)

variable {now : Instant}

theorem Turns.of_applied (keys : s.ids.Nodup)
    (mem : o ∈ s.operations) (pending : o.isPending = true) (applied : AppliedTo s next o now) (succeeds : s.Succeeds a o.id) :
    Turns s next a [] where
  rows := by
    refine ⟨next.operations, ?_, (List.append_nil _).symm⟩
    rw [applied.rows]
    refine Rewrites.put (fun row => turned_of_quiet (quiet_refl row)) keys mem rfl ⟨rfl, rfl, fun settled => .inr ?_⟩
    exact ⟨pending, settled, rfl, succeeds⟩
  begun := fun _ none_begun => nomatch none_begun
  one := Nat.zero_le 1

theorem Turns.of_begin (r : BeginRequest) : ∃ fresh, Turns s (s.perform (.begin r)) (.step (.begin r)) fresh := by
  cases step : s.beginAiProviderOperation r with
  | error =>
    rw [perform, step]
    exact ⟨[], .of_quiet _ (.refl s)⟩
  | ok =>
    rw [perform, step, commit_ok]
    simp only [beginAiProviderOperation, bind_ok, raiseIf_ok, orRaise_ok] at step
    obtain ⟨_, _, _, _, _, _, _, _, _, _, ⟨_, receipt⟩, reserved, _, _, amount, _, _, unused, saved⟩ := step
    obtain ⟨_, -, rfl⟩ := onWallet_ok reserved
    cases saved
    refine ⟨[r.row receipt.key amount], ⟨s.operations, Rewrites.refl (fun o => turned_of_quiet (quiet_refl o)) _, rfl⟩, ?_, Nat.le_refl 1⟩
    intro o mem
    obtain rfl := List.mem_singleton.mp mem
    refine ⟨fun taken => ?_, r, rfl, rfl⟩
    obtain ⟨old, old_mem, same⟩ := List.mem_map.mp taken
    exact unused ⟨old, old_mem, .inl same⟩

theorem applyDescription_idle (keys : s.ids.Nodup) (mem : o ∈ s.operations)
    (idle : o.isPending = false) {result : DescriptionResult}
    (step : s.applyDescriptionProviderOperation o.id now = .ok (next, result)) : next = s := by
  simp only [applyDescriptionProviderOperation, bind_ok, raiseIf_ok, not_or, not_not] at step
  obtain ⟨row, found, _, ⟨settled, _⟩, step⟩ := step
  obtain rfl : row = o := Except.ok.inj (found.symm.trans (get_of_mem keys mem))
  split at step
  · obtain ⟨_, _, made⟩ := bind_ok.mp step
    cases made
    rfl
  · simp only [bind_ok, raiseIf_ok, not_not] at step
    obtain ⟨_, pending, _⟩ := step
    rw [isPending_iff.mpr ⟨settled, pending⟩] at idle
    cases idle

theorem applyResearch_idle (keys : s.ids.Nodup) (mem : o ∈ s.operations)
    (idle : o.isPending = false) {raised : Option OperationError}
    (step : s.applyResearchProviderOperation o.id raised now = .ok (next, ())) : next = s := by
  simp only [applyResearchProviderOperation, bind_ok, raiseIf_ok, orRaise_ok, not_or, not_not] at step
  obtain ⟨row, found, _, ⟨settled, _⟩, _, _, _, _, step⟩ := step
  obtain rfl : row = o := Except.ok.inj (found.symm.trans (get_of_mem keys mem))
  split at step
  · cases step
    rfl
  · simp only [bind_ok, raiseIf_ok, not_not] at step
    obtain ⟨_, pending, _⟩ := step
    rw [isPending_iff.mpr ⟨settled, pending⟩] at idle
    cases idle

theorem Turns.of_applyDescription (keys : s.ids.Nodup) (id : ℕ) (now : Instant) :
    Turns s (commit s (s.applyDescriptionProviderOperation id now)) (.step (.applyDescription id now)) [] := by
  cases step : s.applyDescriptionProviderOperation id now with
  | error => exact .of_quiet _ (.refl s)
  | ok =>
    obtain ⟨o, found, -⟩ := bind_ok.mp step
    obtain ⟨mem, rfl⟩ := of_get found
    cases pending : o.isPending with
    | true =>
      obtain ⟨product, works, applied⟩ := applyDescription_ok keys mem pending step none
      exact .of_applied keys mem pending applied ⟨rfl, o, mem, rfl, product, works⟩
    | false =>
      rw [commit_ok, applyDescription_idle keys mem pending step]
      exact .of_quiet _ (.refl s)

theorem Turns.of_applyResearch (keys : s.ids.Nodup) (id : ℕ) (raised : Option OperationError) (now : Instant) :
    Turns s (commit s (s.applyResearchProviderOperation id raised now)) (.applyResearch id raised now) [] := by
  cases step : s.applyResearchProviderOperation id raised now with
  | error => exact .of_quiet _ (.refl s)
  | ok =>
    obtain ⟨o, found, -⟩ := bind_ok.mp step
    obtain ⟨mem, rfl⟩ := of_get found
    cases pending : o.isPending with
    | true =>
      obtain ⟨domain, works, applied⟩ := applyResearch_ok keys mem pending step
      exact .of_applied keys mem pending applied ⟨rfl, o, mem, rfl, domain, works⟩
    | false =>
      rw [commit_ok, applyResearch_idle keys mem pending step]
      exact .of_quiet _ (.refl s)

theorem Turns.of_recover (valid : 1 ≤ limit ∧ limit ≤ 1000) (keys : s.ids.Nodup) (ordered : s.Ordered)
    (r : RecoveryRequest) : Turns s (recovery limit s (.recover r)) (.recover r) [] where
  rows := by
    refine ⟨_, ⟨attempted s r (s.pendingResults limit), rfl, fun o mem => ?_⟩, ?_⟩
    · unfold attempted
      split
      · next hit =>
        have taken : o.id ∈ s.pendingResults limit := List.contains_iff_mem.mp hit.1
        rw [pendingResults_eq keys ordered] at taken
        have pending : o.isPending = true :=
          (waits_row keys mem).symm.trans (List.mem_filter.mp (List.mem_of_mem_take taken)).2
        exact ⟨rfl, rfl, fun settled => .inr ⟨pending, settled, rfl, o, mem, rfl, hit.2⟩⟩
      · exact turned_of_quiet (quiet_refl o)
    · rw [recovery_recover valid keys ordered, List.append_nil]
  begun := fun _ none_begun => nomatch none_begun
  one := Nat.zero_le 1

theorem turns_of_action (valid : 1 ≤ limit ∧ limit ≤ 1000) (keys : s.ids.Nodup) (ordered : s.Ordered)
    (a : RecoveryAction) : ∃ fresh, Turns s (recovery limit s a) a fresh := by
  cases a with
  | recover r => exact ⟨[], .of_recover valid keys ordered r⟩
  | applyResearch id raised now => exact ⟨[], .of_applyResearch keys id raised now⟩
  | step step =>
    cases step with
    | begin r => exact Turns.of_begin r
    | networkStarted => exact ⟨[], .of_commit fun _ _ made => quiet_networkStarted keys made⟩
    | uncertain => exact ⟨[], .of_commit fun _ _ made => quiet_uncertain keys made⟩
    | release => exact ⟨[], .of_commit fun _ _ made => quiet_release keys made⟩
    | settle => exact ⟨[], .of_commit fun _ _ made => quiet_settle keys made⟩
    | resolve => exact ⟨[], .of_commit fun _ _ made => quiet_resolve keys made⟩
    | applyDescription id now => exact ⟨[], .of_applyDescription keys id now⟩
    | reconcileStale => exact ⟨[], .of_commit fun _ _ made => quiet_stale keys made⟩
    | other => exact ⟨[], .of_quiet _ (Rewrites.refl quiet_refl s.operations)⟩

/-! ## The queue -/

def Done (s : OperationStore) (id : ℕ) : Prop :=
  ∃ o ∈ s.operations, o.id = id ∧ o.status = .settled ∧ o.applyState = .applied

theorem Done.applied (done : s.Done id) : s.applied id = true := by
  obtain ⟨o, mem, same, -, state⟩ := done
  exact List.any_eq_true.mpr ⟨o, mem, by simp [same, state]⟩

theorem Done.waits (keys : s.ids.Nodup) (done : s.Done id) : s.waits id = false := by
  obtain ⟨o, mem, rfl, -, state⟩ := done
  rw [waits_row keys mem]
  simp [AIProviderOperation.isPending, state]

variable {a : RecoveryAction} {fresh : List AIProviderOperation}

theorem Turns.ids (turns : Turns s next a fresh) : next.ids = s.ids ++ fresh.map AIProviderOperation.id := by
  obtain ⟨_, rewrites, rows⟩ := turns.rows
  rw [OperationStore.ids, rows, List.map_append, rewrites.keys fun _ _ turned => turned.id]
  rfl

theorem Turns.keys (turns : Turns s next a fresh) (keys : s.ids.Nodup) : next.ids.Nodup := by
  rw [turns.ids]
  refine List.nodup_append.mpr ⟨keys, ?_, fun id old new new_mem same => ?_⟩
  · match fresh, turns.one with
    | [], _ => exact List.nodup_nil
    | [_], _ => exact List.nodup_singleton _
    | _ :: _ :: _, one => exact absurd one (by simp)
  · obtain ⟨o, mem, rfl⟩ := List.mem_map.mp new_mem
    exact (turns.begun o mem).1 (same ▸ old)

theorem Turns.ordered (turns : Turns s next a fresh) (ordered : s.Ordered)
    (forward : ∀ r, a = .step (.begin r) → ∀ o ∈ s.operations, o.createdAt ≤ r.now) : next.Ordered := by
  obtain ⟨_, ⟨f, rfl, turned⟩, rows⟩ := turns.rows
  unfold Ordered
  rw [rows]
  refine List.pairwise_append.mpr ⟨?_, ?_, fun old old_mem new new_mem => ?_⟩
  · refine List.pairwise_map.mpr (List.Pairwise.imp_of_mem (fun left right before => ?_) ordered)
    rw [(turned _ left).createdAt, (turned _ right).createdAt]
    exact before
  · match fresh, turns.one with
    | [], _ => exact List.Pairwise.nil
    | [_], _ => exact List.pairwise_singleton _ _
    | _ :: _ :: _, one => exact absurd one (by simp)
  · obtain ⟨o, mem, rfl⟩ := List.mem_map.mp old_mem
    obtain ⟨-, r, begins, at_now⟩ := turns.begun new new_mem
    rw [(turned o mem).createdAt, at_now]
    exact forward r begins o mem

theorem Turns.row (turns : Turns s next a fresh) (mem : o ∈ s.operations)
    (settled : o.status = .settled) : o ∈ next.operations ∨ (next.Done o.id ∧ s.Succeeds a o.id) := by
  obtain ⟨_, rewrites, rows⟩ := turns.rows
  obtain ⟨new, new_mem, turned⟩ := rewrites.kept mem
  have there : new ∈ next.operations := rows ▸ List.mem_append_left _ new_mem
  rcases turned.settled settled with rfl | ⟨-, status, state, succeeds⟩
  · exact .inl there
  · exact .inr ⟨⟨new, there, turned.id, status, state⟩, succeeds⟩

theorem Turns.leaves (turns : Turns s next a fresh) (waiting : s.waits id = true) (left : next.waits id = false) :
    next.Done id ∧ s.Succeeds a id := by
  obtain ⟨o, mem, rfl, pending⟩ := mem_of_waits waiting
  rcases turns.row mem (isPending_iff.mp pending).1 with kept | applied
  · rw [waits_of_mem kept pending] at left
    cases left
  · exact applied

theorem Turns.done (turns : Turns s next a fresh) (done : s.Done id) : next.Done id := by
  obtain ⟨o, mem, rfl, settled, state⟩ := done
  rcases turns.row mem settled with kept | applied
  · exact ⟨o, kept, rfl, settled, state⟩
  · exact applied.1

theorem done_of_attempt (valid : 1 ≤ limit ∧ limit ≤ 1000) (keys : s.ids.Nodup) (ordered : s.Ordered)
    (waiting : s.waits id = true) (succeeds : s.Succeeds a id) (taken : a.Recovers → id ∈ s.pendingResults limit) :
    (recovery limit s a).Done id := by
  obtain ⟨o, mem, rfl, pending⟩ := mem_of_waits waiting
  have settled := (isPending_iff.mp pending).1
  have single {o' : AIProviderOperation} (there : o' ∈ s.operations) (same : o'.id = o.id) : o' = o := row_unique keys there mem same
  have written {next : OperationStore} {now : Instant} (applied : AppliedTo s next o now) : next.Done o.id := by
    refine ⟨AppliedRow o now, ?_, rfl, settled, rfl⟩
    rw [applied.rows]
    exact mem_put.mpr (.inl ⟨rfl, o, mem, rfl⟩)
  cases a with
  | recover r =>
    obtain ⟨o', there, same, works⟩ := succeeds
    obtain rfl := single there same
    refine ⟨AppliedRow o' (r.now o'.id), ?_, rfl, settled, rfl⟩
    rw [recovery_recover valid keys ordered]
    refine List.mem_map.mpr ⟨o', mem, ?_⟩
    exact if_pos ⟨List.contains_iff_mem.mpr (taken trivial), works⟩
  | applyResearch _ _ now =>
    obtain ⟨rfl, o', there, same, domain, works⟩ := succeeds
    obtain rfl := single there same
    obtain ⟨next, made⟩ := applyResearch_works keys mem pending domain works now
    rw [recovery, made]
    exact written (applyResearch_ok keys mem pending made).2.2
  | step step =>
    cases step with
    | applyDescription _ now =>
      obtain ⟨rfl, o', there, same, product, works⟩ := succeeds
      obtain rfl := single there same
      obtain ⟨next, _, made⟩ := applyDescription_works keys mem pending product works now
      rw [recovery, perform, made]
      exact written (applyDescription_ok keys mem pending made none).2.2
    | _ => exact succeeds.elim

theorem mem_pendingResults (keys : s.ids.Nodup) (ordered : s.Ordered) {limit id : ℕ} {before after : List ℕ}
    (table : s.ids = before ++ id :: after) (waiting : s.waits id = true) :
    id ∈ s.pendingResults limit ↔ (before.filter s.waits).length < limit := by
  have unseen : id ∉ before := fun seen =>
    (List.nodup_append.mp (table ▸ keys)).2.2 id seen id List.mem_cons_self rfl
  rw [pendingResults_eq keys ordered, table]
  exact mem_window unseen waiting

end Steps

namespace RecoverySchedule

/-! ## Unbounded runs -/

variable (h : RecoverySchedule)

theorem shape (t : ℕ) : (h.state t).ids.Nodup ∧ (h.state t).Ordered := by
  refine @trace_always _ _ _ (fun s : OperationStore => s.ids.Nodup ∧ s.Ordered) _ _ ⟨h.keys, h.ordered⟩ (fun t kept => ?_) t
  obtain ⟨_, turns⟩ := turns_of_action h.valid kept.1 kept.2 (h.actions t)
  exact ⟨turns.keys kept.1, turns.ordered kept.2 fun r begins => h.forward t r begins⟩

theorem turns (t : ℕ) : ∃ fresh, Turns (h.state t) (h.state (t + 1)) (h.actions t) fresh :=
  turns_of_action h.valid (h.shape t).1 (h.shape t).2 (h.actions t)

theorem ids_grow {t u : ℕ} (later : t ≤ u) : (h.state t).ids <+: (h.state u).ids := by
  refine @trace_relates _ _ _ (fun s next : OperationStore => s.ids <+: next.ids) _ _ (fun s => ⟨[], List.append_nil _⟩)
    (fun _ _ _ first second => first.trans second) (fun t => ?_) _ _ later
  obtain ⟨fresh, turns⟩ := h.turns t
  exact ⟨fresh.map AIProviderOperation.id, turns.ids.symm⟩

variable {t u id : ℕ}

theorem done_later (later : t ≤ u) (done : (h.state t).Done id) : (h.state u).Done id := by
  induction later with
  | refl => exact done
  | @step u later ih =>
    obtain ⟨_, turns⟩ := h.turns u
    exact turns.done ih

theorem leaves (t id : ℕ) (waiting : (h.state t).waits id = true) (left : (h.state (t + 1)).waits id = false) :
    (h.state (t + 1)).Done id ∧ (h.state t).Succeeds (h.actions t) id := by
  obtain ⟨_, turns⟩ := h.turns t
  exact turns.leaves waiting left

theorem gone (t id : ℕ) (waiting : (h.state t).waits id = true) (left : (h.state (t + 1)).waits id = false) (u : ℕ)
    (later : t < u) : (h.state u).waits id = false :=
  (h.done_later later (h.leaves t id waiting left).1).waits (h.shape u).1

theorem waits_or_done (waiting : (h.state t).waits id = true) (later : t ≤ u) :
    (h.state u).waits id = true ∨ (h.state u).Done id := by
  induction later with
  | refl => exact .inl waiting
  | @step u later ih =>
    rcases ih with still | done
    · cases after : (h.state (u + 1)).waits id with
      | true => exact .inl rfl
      | false => exact .inr (h.leaves u id still after).1
    · exact .inr (h.done_later (Nat.le_succ u) done)

theorem older_split (waiting : (h.state t).waits id = true) (later : t ≤ u) :
    id ∉ h.older t id ∧ ∃ after, (h.state u).ids = h.older t id ++ id :: after := by
  obtain ⟨o, mem, same, -⟩ := mem_of_waits waiting
  have there : id ∈ (h.state t).ids := List.mem_map.mpr ⟨o, mem, same⟩
  obtain ⟨before, after, table, unseen⟩ := List.eq_append_cons_of_mem there
  have cut : h.older t id = before := by
    rw [older, table]
    exact takeWhile_before unseen
  obtain ⟨fresh, grown⟩ := h.ids_grow later
  rw [cut]
  exact ⟨unseen, after ++ fresh, by rw [← grown, table, List.append_assoc, List.cons_append]⟩

theorem older_later (waiting : (h.state t).waits id = true) (later : t ≤ u) : h.older u id = h.older t id := by
  obtain ⟨unseen, _, table⟩ := h.older_split waiting later
  rw [show h.older u id = (h.state u).ids.takeWhile fun other => other != id from rfl, table]
  exact takeWhile_before unseen

theorem attempts_iff (waiting : (h.state t).waits id = true) (still : (h.state u).waits id = true) (later : t ≤ u) :
    h.Attempts u id ↔ (h.actions u).Recovers ∧ ((h.older t id).filter (h.state u).waits).length < h.limit := by
  obtain ⟨-, _, table⟩ := h.older_split waiting later
  exact and_congr_right fun _ => mem_pendingResults (h.shape u).1 (h.shape u).2 table still

theorem waits_of_attempts {u id : ℕ} (attempts : h.Attempts u id) : (h.state u).waits id = true := by
  have taken := attempts.2
  rw [pendingResults_eq (h.shape u).1 (h.shape u).2] at taken
  exact (List.mem_filter.mp (List.mem_of_mem_take taken)).2

theorem attempts_of_left {u id : ℕ} (recovers : (h.actions u).Recovers) (waiting : (h.state u).waits id = true)
    (left : (h.state (u + 1)).waits id = false) : h.Attempts u id := by
  refine ⟨recovers, ?_⟩
  by_contra untaken
  obtain ⟨o, mem, rfl, pending⟩ := mem_of_waits waiting
  have here : h.state (u + 1) = recovery h.limit (h.state u) (h.actions u) := rfl
  cases action : h.actions u with
  | recover r =>
    have rows := recovery_recover h.valid (h.shape u).1 (h.shape u).2 r
    have kept : o ∈ (h.state (u + 1)).operations := by
      rw [here, action, rows]
      refine List.mem_map.mpr ⟨o, mem, if_neg fun taken => untaken (List.contains_iff_mem.mp taken.1)⟩
    rw [waits_of_mem kept pending] at left
    cases left
  | step step => exact (action ▸ recovers : RecoveryAction.Recovers (.step step)).elim
  | applyResearch target raised now => exact (action ▸ recovers : RecoveryAction.Recovers (.applyResearch target raised now)).elim

theorem unblocked_of_served (served : h.Served) : h.Unblocked := by
  intro t id orphaned
  by_contra full
  obtain ⟨u, later, attempts⟩ := served.attempted t id orphaned
  have room := ((h.attempts_iff orphaned.1 (h.waits_of_attempts attempts) later).mp attempts).2
  have blocked := full_of_blockers (fun t id waiting left => (h.leaves t id waiting left).2) (Nat.le_of_not_lt full) later
  exact absurd room (Nat.not_lt.mpr blocked)

theorem served_older (waiting : (h.state t).waits id = true) (later : t ≤ u) {k : ℕ}
    (waits : (h.state u).waits k = true) (succeeds : (h.state u).Succeeds (h.actions u) k)
    (taken : (h.actions u).Recovers → k ∈ ((h.older t id).filter (h.state u).waits).take h.limit) :
    (h.state (u + 1)).waits k = false := by
  refine (done_of_attempt h.valid (h.shape u).1 (h.shape u).2 waits succeeds fun recovers => ?_).waits (h.shape (u + 1)).1
  obtain ⟨-, _, table⟩ := h.older_split waiting later
  rw [pendingResults_eq (h.shape u).1 (h.shape u).2, table, List.filter_append, List.take_append]
  exact List.mem_append_left _ (taken recovers)

theorem attempted_of_unblocked (unblocked : h.Unblocked) (t id : ℕ) (orphaned : h.Orphaned t id) :
    ∃ u, t ≤ u ∧ h.Attempts u id := by
  by_contra never
  -- nobody applies the result, so it waits at all later times and every run is full before it
  have waiting : ∀ u, t ≤ u → (h.state u).waits id = true := by
    intro u later
    induction later with
    | refl => exact orphaned.1
    | @step u later still =>
      cases after : (h.state (u + 1)).waits id with
      | true => rfl
      | false =>
        have recovers := orphaned.2 u later (h.leaves u id still after).2
        exact absurd ⟨u, later, h.attempts_of_left recovers still after⟩ never
  have full : ∀ u, t ≤ u → (h.actions u).Recovers → h.limit ≤ ((h.older t id).filter (h.state u).waits).length := by
    intro u later recovers
    by_contra room
    exact never ⟨u, later, (h.attempts_iff orphaned.1 (waiting u later) later).mpr ⟨recovers, Nat.lt_of_not_le room⟩⟩
  have distinct : (h.older t id).Nodup := (List.takeWhile_sublist _).nodup (h.shape t).1
  obtain ⟨N, later, blocked⟩ := @blockers_of_full _ (fun u => (h.state u).waits)
    (fun u => (h.state u).Succeeds (h.actions u)) (h.older t id) h.limit _ t distinct h.gone
    (fun u k later waits succeeds taken => h.served_older orphaned.1 later waits succeeds taken) h.recurs full
  have orphaned_later : h.Orphaned N id := ⟨waiting N later, fun u beyond => orphaned.2 u (Nat.le_trans later beyond)⟩
  have room := unblocked N id orphaned_later
  rw [h.older_later orphaned.1 later] at room
  exact absurd room (Nat.not_lt.mpr blocked)

theorem served_of_unblocked (unblocked : h.Unblocked) : h.Served where
  attempted := h.attempted_of_unblocked unblocked
  applied := by
    intro t id waiting works
    by_contra never
    have waits : ∀ u, t ≤ u → (h.state u).waits id = true := by
      intro u later
      rcases h.waits_or_done waiting later with still | done
      · exact still
      · exact absurd ⟨u, later, done.applied⟩ never
    -- a success at any later time would apply the result
    have alone : h.Orphaned t id := by
      refine ⟨waiting, fun u later succeeds => ?_⟩
      by_contra other
      have done := done_of_attempt h.valid (h.shape u).1 (h.shape u).2 (waits u later) succeeds fun recovers => absurd recovers other
      exact never ⟨u + 1, Nat.le_succ_of_le later, done.applied⟩
    obtain ⟨u, later, attempts⟩ := h.attempted_of_unblocked unblocked t id alone
    have done := done_of_attempt h.valid (h.shape u).1 (h.shape u).2 (waits u later) (works u later attempts) fun _ => attempts.2
    exact never ⟨u + 1, Nat.le_succ_of_le later, done.applied⟩

end RecoverySchedule

/-- The recovery serves every paid result exactly when no result stands behind as many failing ones as
a run takes. -/
theorem results_served (h : RecoverySchedule) : h.Served ↔ h.Unblocked :=
  ⟨h.unblocked_of_served, h.served_of_unblocked⟩

def paidDescription (id : ℕ) (reference : Text) (createdAt : Instant) : AIProviderOperation where
  id
  tenant := 7
  taskType := .descriptionGeneration
  provider := []
  modelId := []
  reservationKey := ""
  reservedAmount := ⟨40000, by decide⟩
  chargedAmount := some ⟨30000, by decide⟩
  domainType := .product
  domainReference := reference
  status := .settled
  providerErrorCode := []
  terminalReason := []
  resolutionAction := some .settle
  operatorNote := []
  validatedResult := some (.object
    [("title".toList, .text ['t']), ("description".toList, .text ['d']), ("confidence".toList, .int 1)])
  applyState := .pending
  createdAt
  networkStartedAt := some createdAt
  uncertaintyMarkedAt := none
  releasedAt := none
  settledAt := some createdAt
  resolvedAt := some createdAt
  appliedAt := none

/-- The product of the first operation was deleted, and the product of the second one is there. -/
def deletedProductStore : OperationStore where
  wallets _ := ⟨none, []⟩
  operations := [paidDescription 1 ['3'] 0, paidDescription 2 ['4'] 5]
  tenants := [7]
  products := [⟨3, 7, some 4, [], []⟩, ⟨4, 7, none, [], []⟩]
  listings := []
  runs := []
  applications := []

def repeatedRecovery : RecoveryAction := .recover ⟨fun _ => none, fun _ => 9⟩

theorem deletedProduct_fixed (_ : ℕ) : recovery 1 deletedProductStore repeatedRecovery = deletedProductStore := rfl

def deletedProductSchedule : RecoverySchedule where
  limit := 1
  start := deletedProductStore
  actions _ := repeatedRecovery
  valid := by decide
  keys := by decide
  ordered := by decide
  recurs t := ⟨t, Nat.le_refl t, trivial⟩
  forward _ _ begins := by cases begins

theorem results_served_deletedProduct :
    (∀ t, (deletedProductSchedule.state t).Succeeds (deletedProductSchedule.actions t) 2) ∧ ¬ deletedProductSchedule.Served := by
  have same (t : ℕ) : deletedProductSchedule.state t = deletedProductStore := trace_fixed deletedProduct_fixed t
  refine ⟨fun t => ?_, fun served => ?_⟩
  · rw [same t]
    exact ⟨paidDescription 2 ['4'] 5, List.mem_cons_of_mem _ List.mem_cons_self, rfl, by decide⟩
  · have orphaned : deletedProductSchedule.Orphaned 0 2 := ⟨by decide, fun _ _ _ => trivial⟩
    obtain ⟨u, -, -, taken⟩ := served.attempted 0 2 orphaned
    rw [same u] at taken
    exact absurd taken (by decide)

end OperationStore

end MapBackend.AIAgent
