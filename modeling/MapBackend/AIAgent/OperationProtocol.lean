import MapBackend.AIAgent.OperationAccounting

/-!
The accounting over whole runs: the rows that ended stay as they are, every reservation leaves the
wallet once, the reserved balance is the sum of the held rows, one row of a domain is unresolved and
a result is written to its product once.
-/

namespace MapBackend.AIAgent
open MapBackend.Library MapBackend.Billing AIWalletService OperationStore Relation

namespace OperationStore

/-! ## The invariant is kept -/

section Moves

variable {s next : OperationStore}

theorem open_of_held {status : OperationStatus} (held : status.Held) : status ≠ .released ∧ status ≠ .settled := by
  rcases held with rfl | rfl
  · decide
  · decide

variable {o new : AIProviderOperation}

theorem Accounted.of_mark (h : s.Accounted) (mem : o ∈ s.operations) (reserved : o.status = .reserved)
    (keeps : o.Updates new) (held : new.status.Held) : (s.save new).Accounted := by
  have open_row : o.status.Held := .inl reserved
  have before := h.journal o mem
  have still_open := open_of_held held
  have change : RowChange s o new (s.wallets o.tenant) [] :=
    { mem, keeps
      rows := (List.append_nil _).symm
      shapes := fun _ none_added => by cases none_added
      journal := by
        refine ⟨?_, ?_, ?_⟩
        · rw [keeps.reservationKey, before.reserved]
        · rw [keeps.reservationKey, before.released, reserved, if_neg still_open.1, if_neg (by decide)]
        · rw [keeps.reservationKey, before.settled, reserved, if_neg still_open.2, if_neg (by decide)]
      units := by
        have same := share_held held
        rw [keeps.tenant, keeps.reservedAmount] at same
        rw [share_held open_row, same]
      unresolved := fun _ => .inl open_row
      applied := fun settled => by
        rw [reserved] at settled
        cases settled }
  have kept := change.accounted h
  rwa [Function.update_eq_self] at kept

variable {wallet : WalletStore}

theorem Accounted.of_release (h : s.Accounted) (mem : o ∈ s.operations)
    (held : o.status.Held) (keeps : o.Updates new) (released : new.status = .released)
    (made : AIWalletService.release o.reservation (s.wallets o.tenant) = .ok (wallet, ())) :
    (save { s with wallets := Function.update s.wallets o.tenant wallet } new).Accounted := by
  have before := h.journal o mem
  have still_open := open_of_held held
  have unreleased : rowsUnder (s.wallets o.tenant) (o.reservationKey ++ ":release") = 0 := by
    rw [before.released, if_neg still_open.1]
  obtain ⟨row, rows, key⟩ := release_rows rfl (rowsUnder_eq_zero.mp unreleased) made
  have counted (suffix : String) : rowsUnder wallet (o.reservationKey ++ suffix) =
      rowsUnder (s.wallets o.tenant) (o.reservationKey ++ suffix) + if suffix = ":release" then 1 else 0 := by
    have one : row.idempotencyKey = o.reservationKey ++ suffix ↔ suffix = ":release" := by
      rw [key]
      exact ⟨fun same => (String.append_right_inj _).mp same.symm, fun same => same ▸ rfl⟩
    rw [rowsUnder_append rows, List.filter_singleton]
    by_cases same : suffix = ":release"
    · rw [if_pos same, decide_eq_true (one.mpr same)]
      rfl
    · rw [if_neg same, decide_eq_false fun hit => same (one.mp hit)]
      rfl
  have change : RowChange s o new wallet [row] :=
    { mem, keeps, rows
      shapes := fun other there => ⟨":release", by decide, by rw [List.mem_singleton.mp there, key]; rfl⟩
      journal := by
        refine ⟨?_, ?_, ?_⟩
        · have same := counted ""
          rw [String.append_empty] at same
          rw [keeps.reservationKey, same, before.reserved, if_neg (by decide)]
        · rw [keeps.reservationKey, counted, unreleased, released, if_pos rfl, if_pos rfl]
        · rw [keeps.reservationKey, counted, before.settled, released, if_neg still_open.2, if_neg (by decide), if_neg (by decide)]
      units := by
        have taken := release_units rfl rfl (h.covered mem held) made
        have ended : ¬ new.status.Held := by
          rw [released]
          decide
        rw [share_held held, share_ended ended]
        omega
      unresolved := fun unresolved => .inl held
      applied := fun settled => absurd settled still_open.2 }
  exact change.accounted h

theorem Accounted.of_settle (h : s.Accounted) {actualAmount charged : ℚ}
    (mem : o ∈ s.operations) (held : o.status.Held) (keeps : o.Updates new) (settled : new.status = .settled)
    (made : AIWalletService.settle o.reservation actualAmount (s.wallets o.tenant) = .ok (wallet, charged)) :
    (save { s with wallets := Function.update s.wallets o.tenant wallet } new).Accounted := by
  have before := h.journal o mem
  have still_open := open_of_held held
  have unsettled : rowsUnder (s.wallets o.tenant) (o.reservationKey ++ ":settled") = 0 := by
    rw [before.settled, if_neg still_open.2]
  have fresh := rowsUnder_eq_zero.mp unsettled
  obtain ⟨charges, row, rows, key, charged_keys⟩ := settle_rows rfl fresh made
  have charge_shapes (charge : AICreditTransaction) (there : charge ∈ charges) :
      ∃ suffix, (suffix = ":charge:included" ∨ suffix = ":charge:purchased") ∧
        charge.idempotencyKey = o.reservationKey ++ suffix := by
    rcases charged_keys charge there with included | purchased
    · exact ⟨":charge:included", .inl rfl, included⟩
    · exact ⟨":charge:purchased", .inr rfl, purchased⟩
  have counted (suffix : String) (no_charge : suffix ≠ ":charge:included" ∧ suffix ≠ ":charge:purchased") :
      rowsUnder wallet (o.reservationKey ++ suffix) =
        rowsUnder (s.wallets o.tenant) (o.reservationKey ++ suffix) + if suffix = ":settled" then 1 else 0 := by
    have none_charged : (charges.filter fun charge => decide (charge.idempotencyKey = o.reservationKey ++ suffix)) = [] := by
      refine List.filter_eq_nil_iff.mpr fun charge there => ?_
      obtain ⟨own, shape, own_key⟩ := charge_shapes charge there
      rw [decide_eq_true_eq, own_key, String.append_right_inj]
      rintro rfl
      exact shape.elim no_charge.1 no_charge.2
    have one : row.idempotencyKey = o.reservationKey ++ suffix ↔ suffix = ":settled" := by
      rw [key]
      exact ⟨fun same => (String.append_right_inj _).mp same.symm, fun same => same ▸ rfl⟩
    rw [rowsUnder_append rows, List.filter_append, none_charged, List.nil_append, List.filter_singleton]
    by_cases same : suffix = ":settled"
    · rw [if_pos same, decide_eq_true (one.mpr same)]
      rfl
    · rw [if_neg same, decide_eq_false fun hit => same (one.mp hit)]
      rfl
  have change : RowChange s o new wallet (charges ++ [row]) :=
    { mem, keeps, rows
      shapes := fun other there => by
        rcases List.mem_append.mp there with charge | last
        · obtain ⟨own, shape, own_key⟩ := charge_shapes other charge
          exact ⟨own, by rcases shape with rfl | rfl <;> decide, own_key⟩
        · exact ⟨":settled", by decide, by rw [List.mem_singleton.mp last, key]; rfl⟩
      journal := by
        refine ⟨?_, ?_, ?_⟩
        · have same := counted "" (by decide)
          rw [String.append_empty] at same
          rw [keeps.reservationKey, same, before.reserved, if_neg (by decide)]
        · rw [keeps.reservationKey, counted ":release" (by decide), before.released, settled, if_neg still_open.1,
            if_neg (by decide), if_neg (by decide)]
        · rw [keeps.reservationKey, counted ":settled" (by decide), unsettled, settled, if_pos rfl, if_pos rfl]
      units := by
        have taken := settle_units rfl rfl fresh (h.covered mem held) made
        have ended : ¬ new.status.Held := by
          rw [settled]
          decide
        rw [share_held held, share_ended ended]
        omega
      unresolved := fun _ => .inl held
      applied := fun ended => absurd ended still_open.2 }
  exact change.accounted h

theorem Accounted.of_applied (h : s.Accounted) {o : AIProviderOperation} {product : ℕ} {result : DescriptionResult} {now : Instant}
    (mem : o ∈ s.operations) (settled : o.status = .settled) (pending : o.applyState = .pending) :
    ((s.writeDescription o.id product result).save { o with applyState := .applied, appliedAt := some now }).Accounted := by
  have journal := h.journal o mem
  have ended : ¬ o.status.Held := by
    rw [settled]
    decide
  have change : RowChange s o { o with applyState := .applied, appliedAt := some now } (s.wallets o.tenant) [] :=
    { mem
      keeps := ⟨rfl, rfl, rfl, rfl, rfl⟩
      rows := (List.append_nil _).symm
      shapes := fun _ none_added => by cases none_added
      journal := ⟨journal.reserved, journal.released, journal.settled⟩
      units := rfl
      unresolved := fun _ => .inr ⟨settled, pending⟩
      applied := fun still _ => ⟨still, rfl⟩ }
  have kept := change.accounted h
  rw [Function.update_eq_self] at kept
  have unapplied : o.id ∉ s.applications := by
    intro there
    obtain ⟨_, row_mem, same, _, applied⟩ := h.applied o.id there
    rw [row_unique h.ids row_mem mem same, pending] at applied
    cases applied
  refine ⟨kept.ids, kept.named, kept.keys, kept.journal, kept.owned, kept.nonneg, kept.reserves, kept.domains, ?_, fun id there => ?_⟩
  · exact List.nodup_append.mpr ⟨h.once, List.nodup_singleton _, fun a a_mem b b_mem same =>
      unapplied (List.mem_singleton.mp b_mem ▸ same ▸ a_mem)⟩
  · rcases List.mem_append.mp there with old | last
    · exact kept.applied id old
    · exact ⟨_, mem_put.mpr (.inl ⟨rfl, o, mem, rfl⟩), (List.mem_singleton.mp last).symm, settled, rfl⟩

theorem Accounted.of_begin (h : s.Accounted) {r : BeginRequest} {receipt : AIReservation} {amount : Credits}
    (made : AIWalletService.reserve r.env r.tenant r.reservedAmount none (s.wallets r.tenant.pk) = .ok (wallet, receipt))
    (stored : Numeric.store 16 4 receipt.amount = some amount) (fresh : ∀ o ∈ s.operations, o.id ≠ r.id)
    (free : ∀ o ∈ s.operations, o.domain = (r.row receipt.key amount).domain → ¬ o.Unresolved) :
    OperationStore.Accounted { s with
      wallets := Function.update s.wallets r.tenant.pk wallet
      operations := s.operations ++ [r.row receipt.key amount] } := by
  have key : receipt.key = reserveKey r.uuid := by
    obtain ⟨rfl, -⟩ := reserve_ok made
    rfl
  have named : reservationKey r.env none ≠ "" := by
    intro empty
    have head : (reservationKey r.env none).toList.head? = some 'a' := head_append rfl _
    rw [empty] at head
    cases head
  obtain ⟨earlier, row, rows, row_key, unused, _, shapes⟩ := reserve_rows named made
  have foreign (other : AICreditTransaction) (there : other ∈ earlier) (text : String) :
      other.idempotencyKey ≠ "ai-reserve:" ++ text := by
    rcases shapes other there with bootstrap | ⟨_, expire⟩
    · exact bootstrap ▸ bootstrap_key _ text
    · exact expire ▸ expire_key _ _ text
  have not_ours (o : AIProviderOperation) (there : o ∈ s.operations) (tenant : o.tenant = r.tenant.pk) :
      o.reservationKey ≠ receipt.key := by
    intro same
    have reserved := (h.journal o there).reserved
    rw [same, tenant, rowsUnder_eq_zero.mpr unused] at reserved
    cases reserved
  have untouched (suffix : String) (follows : Suffix suffix) :
      rowsUnder (s.wallets r.tenant.pk) (receipt.key ++ suffix) = 0 := by
    refine rowsUnder_eq_zero.mpr fun ⟨other, there, other_key⟩ => ?_
    rw [key] at other_key
    obtain ⟨o, o_mem, tenant, o_key⟩ := h.owned r.tenant.pk other there r.uuid suffix follows other_key
    exact not_ours o o_mem tenant (o_key.trans key.symm)
  have counted (suffix : String) (follows : Suffix suffix) :
      rowsUnder wallet (receipt.key ++ suffix) = if suffix = "" then 1 else 0 := by
    have none_earlier : (earlier.filter fun other => decide (other.idempotencyKey = receipt.key ++ suffix)) = [] := by
      refine List.filter_eq_nil_iff.mpr fun other there => ?_
      rw [decide_eq_true_eq, key, reserveKey, String.append_assoc]
      exact foreign other there _
    have one : row.idempotencyKey = receipt.key ++ suffix ↔ suffix = "" := by
      rw [row_key]
      constructor
      · intro same
        rw [key] at same
        exact (reserveKey_inj (by decide) follows ((String.append_empty).trans same)).2.symm
      · rintro rfl
        exact String.append_empty.symm
    rw [rowsUnder_append rows, untouched suffix follows, List.filter_append, none_earlier, List.nil_append, List.filter_singleton]
    by_cases same : suffix = ""
    · rw [if_pos same, decide_eq_true (one.mpr same)]
      rfl
    · rw [if_neg same, decide_eq_false fun hit => same (one.mp hit)]
      rfl
  have journal : Journalled wallet (r.row receipt.key amount) := by
    refine ⟨?_, ?_, ?_⟩
    · have same := counted "" (by decide)
      rwa [String.append_empty] at same
    · exact (counted ":release" (by decide)).trans (if_neg (by decide))
    · exact (counted ":settled" (by decide)).trans (if_neg (by decide))
  have amount_nonneg : 0 ≤ amount.units := by
    obtain ⟨rfl, -⟩ := reserve_ok made
    exact Numeric.store_nonneg (le_max_left 0 _) stored
  have here : (Function.update s.wallets r.tenant.pk wallet) r.tenant.pk = wallet := Function.update_self _ _ _
  have apart {tenant : ℕ} (other : tenant ≠ r.tenant.pk) :
      (Function.update s.wallets r.tenant.pk wallet) tenant = s.wallets tenant := Function.update_of_ne other _ _
  have either {o : AIProviderOperation} (there : o ∈ s.operations ++ [r.row receipt.key amount]) :
      o ∈ s.operations ∨ o = r.row receipt.key amount :=
    (List.mem_append.mp there).imp id List.mem_singleton.mp
  refine ⟨?_, fun o there => ?_, fun a a_mem b b_mem tenants keys => ?_, fun o there => ?_,
    fun tenant other there u suffix follows shape => ?_, fun o there => ?_, fun tenant => ?_,
    fun a a_mem b b_mem a_open b_open same => ?_, h.once, fun id there => ?_⟩
  · rw [List.map_append]
    refine List.nodup_append.mpr ⟨h.ids, List.nodup_singleton _, fun a a_mem b b_mem same => ?_⟩
    obtain ⟨o, o_mem, rfl⟩ := List.mem_map.mp a_mem
    exact fresh o o_mem (same.trans (List.mem_singleton.mp b_mem))
  · rcases either there with old | rfl
    · exact h.named o old
    · exact ⟨r.uuid, key⟩
  · rcases either a_mem with a_old | rfl
    · rcases either b_mem with b_old | rfl
      · exact h.keys a a_old b b_old tenants keys
      · exact absurd keys (not_ours a a_old tenants)
    · rcases either b_mem with b_old | rfl
      · exact absurd keys.symm (not_ours b b_old tenants.symm)
      · rfl
  · change Journalled ((Function.update s.wallets r.tenant.pk wallet) o.tenant) o
    rcases either there with old | rfl
    · by_cases same : o.tenant = r.tenant.pk
      · rw [same, here]
        obtain ⟨u, o_key⟩ := h.named o old
        refine (same ▸ h.journal o old).of_added o_key rows fun other added suffix follows collide => ?_
        rcases List.mem_append.mp added with first | last
        · rw [reserveKey, String.append_assoc] at collide
          exact foreign other first _ collide
        · rw [List.mem_singleton.mp last, row_key, key] at collide
          have keys := (reserveKey_inj (by decide) follows (String.append_empty.trans collide)).1
          exact not_ours o old same (o_key.trans (keys.symm.trans key.symm))
      · rw [apart same]
        exact h.journal o old
    · exact here.symm ▸ journal
  · change other ∈ ((Function.update s.wallets r.tenant.pk wallet) tenant).transactions at there
    have old_owner (before : other ∈ (s.wallets tenant).transactions) :
        ∃ o ∈ s.operations ++ [r.row receipt.key amount], o.tenant = tenant ∧ o.reservationKey = reserveKey u := by
      obtain ⟨o, o_mem, o_tenant, o_key⟩ := h.owned tenant other before u suffix follows shape
      exact ⟨o, List.mem_append_left _ o_mem, o_tenant, o_key⟩
    by_cases same : tenant = r.tenant.pk
    · subst same
      rw [here, rows] at there
      rcases List.mem_append.mp there with before | added
      · exact old_owner before
      · rcases List.mem_append.mp added with first | last
        · rw [reserveKey, String.append_assoc] at shape
          exact absurd shape (foreign other first _)
        · rw [List.mem_singleton.mp last, row_key, key] at shape
          have keys := (reserveKey_inj (by decide) follows (String.append_empty.trans shape)).1
          exact ⟨_, List.mem_append_right _ (List.mem_singleton.mpr rfl), rfl, key.trans keys⟩
    · rw [apart same] at there
      exact old_owner there
  · rcases either there with old | rfl
    · exact h.nonneg o old
    · exact amount_nonneg
  · change ((s.operations ++ [r.row receipt.key amount]).map (share tenant)).sum =
      reservedUnits ((Function.update s.wallets r.tenant.pk wallet) tenant)
    rw [List.map_append, List.sum_append, h.reserves tenant, List.map_singleton, List.sum_singleton]
    by_cases same : tenant = r.tenant.pk
    · subst same
      rw [here, reserve_units (h.reserved_nonneg _) made, ← storedUnits_of_store stored]
      exact congrArg (reservedUnits (s.wallets r.tenant.pk) + ·) (if_pos ⟨rfl, .inl rfl⟩)
    · rw [apart same, share_other (Ne.symm same), add_zero]
  · rcases either a_mem with a_old | rfl
    · rcases either b_mem with b_old | rfl
      · exact h.domains a a_old b b_old a_open b_open same
      · exact absurd a_open (free a a_old same)
    · rcases either b_mem with b_old | rfl
      · exact absurd b_open (free b b_old same.symm)
      · rfl
  · obtain ⟨o, o_mem, found⟩ := h.applied id there
    exact ⟨o, List.mem_append_left _ o_mem, found⟩

/-! ## The rows that ended stay -/

/-- A released row never changes; a settled one changes at most in the columns of its application, until it is applied. -/
structure Absorbs (s next : OperationStore) : Prop where
  released : ∀ o ∈ s.operations, o.status = .released → o ∈ next.operations
  settled : ∀ o ∈ s.operations, o.status = .settled →
    ∃ applyState appliedAt, { o with applyState, appliedAt } ∈ next.operations
  applied : ∀ o ∈ s.operations, o.status = .settled → o.applyState = .applied → o ∈ next.operations

theorem Absorbs.of_kept (kept : ∀ o ∈ s.operations, ¬ o.status.Held → o ∈ next.operations) : Absorbs s next where
  released o mem released := kept o mem (by rw [released]; decide)
  settled o mem settled := ⟨o.applyState, o.appliedAt, kept o mem (by rw [settled]; decide)⟩
  applied o mem settled _ := kept o mem (by rw [settled]; decide)

theorem Absorbs.trans {middle : OperationStore} (first : Absorbs s middle) (second : Absorbs middle next) : Absorbs s next where
  released o mem released := second.released o (first.released o mem released) released
  settled o mem settled := by
    obtain ⟨_, _, there⟩ := first.settled o mem settled
    obtain ⟨applyState, appliedAt, here⟩ := second.settled _ there settled
    exact ⟨applyState, appliedAt, here⟩
  applied o mem settled applied := second.applied o (first.applied o mem settled applied) settled applied

theorem Absorbs.of_save (h : s.Accounted) (mem : o ∈ s.operations) (held : o.status.Held)
    (keeps : o.Updates new) (wallets : ℕ → WalletStore) : Absorbs s (save { s with wallets } new) := by
  refine .of_kept fun other there ended => mem_put.mpr (.inr ⟨there, fun same => ?_⟩)
  have one : other = o := row_unique h.ids there mem (same.trans keeps.id)
  exact ended (one ▸ held)

theorem Absorbs.of_move (h : s.Accounted) (move : OperationMove s next) : Absorbs s next := by
  cases move with
  | begin => exact .of_kept fun o mem _ => List.mem_append_left _ mem
  | mark _ _ mem reserved keeps => exact .of_save h mem (.inl reserved) keeps s.wallets
  | release _ _ _ mem held keeps => exact .of_save h mem held keeps _
  | settle _ _ _ _ _ mem held keeps => exact .of_save h mem held keeps _
  | other => exact .of_kept fun o mem _ => mem
  | applied o _ _ now mem settled pending =>
    have elsewhere (other : AIProviderOperation) (there : other ∈ s.operations) (different : other ≠ o) :
        other ∈ (save s { o with applyState := .applied, appliedAt := some now }).operations :=
      mem_save there fun same => different (row_unique h.ids there mem same)
    refine ⟨fun other there released => elsewhere other there ?_, fun other there still => ?_,
      fun other there _ applied => elsewhere other there ?_⟩
    · rintro rfl
      rw [settled] at released
      cases released
    · by_cases same : other = o
      · subst same
        exact ⟨.applied, some now, mem_put.mpr (.inl ⟨rfl, other, there, rfl⟩)⟩
      · exact ⟨other.applyState, other.appliedAt, elsewhere other there same⟩
    · rintro rfl
      rw [pending] at applied
      cases applied

theorem Accounted.of_move (h : s.Accounted) (move : OperationMove s next) : next.Accounted := by
  cases move with
  | begin _ _ _ _ made stored fresh free => exact h.of_begin made stored fresh free
  | mark _ _ mem reserved keeps held => exact h.of_mark mem reserved keeps held
  | release _ _ _ mem held keeps released made => exact h.of_release mem held keeps released made
  | settle _ _ _ _ _ mem held keeps settled made => exact h.of_settle mem held keeps settled made
  | applied _ _ _ _ mem settled pending => exact h.of_applied mem settled pending
  | other => exact { h with }

theorem Accounted.of_moves (h : s.Accounted) (moves : ReflTransGen OperationMove s next) : next.Accounted ∧ Absorbs s next := by
  induction moves with
  | refl => exact ⟨h, .of_kept fun o mem _ => mem⟩
  | tail _ move ih => exact ⟨ih.1.of_move move, ih.2.trans (.of_move ih.1 move)⟩

theorem Accounted.perform (h : s.Accounted) (step : OperationStep) : (s.perform step).Accounted ∧ Absorbs s (s.perform step) :=
  h.of_moves (moves_of_perform h.ids step)

/-! ## The recovery releases what never started -/

theorem of_marks {checkedAt : Instant} {rows : List AIProviderOperation} {o : AIProviderOperation}
    (mem : o ∈ (rows.foldl (fun s o => s.save (markStale checkedAt o)) s).operations) :
    o ∈ s.operations ∨ o.status = .pendingReconciliation := by
  induction rows generalizing s with
  | nil => exact .inl mem
  | cons _ _ ih =>
    rcases ih mem with before | marked
    · rcases mem_put.mp before with ⟨rfl, -⟩ | ⟨there, -⟩
      · exact .inr rfl
      · exact .inl there
    · exact .inr marked

theorem of_releases {now : Instant} {rows : List AIProviderOperation} {o : AIProviderOperation}
    (step : rows.foldlM (fun s o => s.releaseLocked o providerCallNeverStarted [] now) s = .ok next)
    (mem : o ∈ next.operations) : o ∈ s.operations ∨ ∃ row ∈ rows, row.id = o.id := by
  induction rows generalizing s with
  | nil =>
    cases step
    exact .inl mem
  | cons first _ ih =>
    obtain ⟨_, released, later⟩ := bind_ok.mp step
    rcases ih later with before | ⟨row, there, same⟩
    · obtain ⟨_, _, _, keeps, _, rfl⟩ := releaseLocked_ok released
      rcases mem_put.mp before with ⟨rfl, -⟩ | ⟨old, -⟩
      · exact .inr ⟨first, List.mem_cons_self, keeps.id.symm⟩
      · exact .inl old
    · exact .inr ⟨row, List.mem_cons_of_mem _ there, same⟩

theorem stale_releases (h : s.Accounted) (r : StaleRequest) (mem : o ∈ s.operations)
    (after : new ∈ (s.perform (.reconcileStale r)).operations) (same : new.id = o.id) (unreleased : o.status ≠ .released)
    (released : new.status = .released) : o.networkStartedAt = none := by
  have unchanged (there : new ∈ s.operations) : False :=
    unreleased ((row_unique h.ids there mem same) ▸ released)
  cases outcome : s.reconcileStaleAiProviderOperations r with
  | error =>
    rw [perform, outcome] at after
    exact (unchanged after).elim
  | ok =>
    rw [perform, outcome] at after
    simp only [reconcileStaleAiProviderOperations, bind_ok] at outcome
    obtain ⟨_, _, _, _, _, releases, made⟩ := outcome
    cases made
    have marked {row : AIProviderOperation} (there : row ∈ (List.foldl (fun s o => s.save (markStale r.checkedAt o)) s
        (((s.operations.filter (staleStarted r)).insertionSort startedBefore).take r.limit)).operations) :
        row ∈ s.operations ∨ row.status = .pendingReconciliation := of_marks there
    rcases of_releases releases after with before | ⟨row, scanned, row_id⟩
    · rcases marked before with there | pending
      · exact (unchanged there).elim
      · rw [pending] at released
        cases released
    · obtain ⟨-, never⟩ := @scan_rows _ (staleNeverStarted r) (fun a b => a.createdAt ≤ b.createdAt) _ _
        ((map_id_marks r.checkedAt _).symm ▸ h.ids)
      obtain ⟨there, cond⟩ := never row scanned
      simp only [staleNeverStarted, Bool.and_eq_true, decide_eq_true_eq, Option.isNone_iff_eq_none] at cond
      rcases marked there with before | pending
      · exact row_unique h.ids before mem (row_id.trans same) ▸ cond.1.1.2
      · rw [pending] at cond
        cases cond.1.1.1

end Moves

/-! ## The protocol -/

def heldAmount (s : OperationStore) (tenant : ℕ) : ℚ :=
  ((s.operations.filter fun o => decide (o.tenant = tenant ∧ o.status.Held)).map fun o => o.reservedAmount.value).sum

/-- The reserved balance of a wallet; a wallet that does not exist reserves nothing. -/
def reservedBalance (w : WalletStore) : ℚ := (w.wallet.map fun wallet => wallet.reservedBalance.value).getD 0

structure Protocol (s : OperationStore) : Prop where
  /-- The journal of the wallet holds one reserve of every row, one release of a released one and one settlement of a
  settled one, and no other release or settlement of it. -/
  journal : ∀ o ∈ s.operations, Journalled (s.wallets o.tenant) o
  keys : ∀ a ∈ s.operations, ∀ b ∈ s.operations, a.tenant = b.tenant → a.reservationKey = b.reservationKey → a = b
  reserves : ∀ tenant, s.heldAmount tenant = reservedBalance (s.wallets tenant)
  domains : ∀ a ∈ s.operations, ∀ b ∈ s.operations, a.Unresolved → b.Unresolved → a.domain = b.domain → a = b
  once : s.applications.Nodup

/-- No operation yet, nothing reserved, and no row of a journal under the key of a reservation. -/
structure Opening (s : OperationStore) : Prop where
  operations : s.operations = []
  applications : s.applications = []
  reserved : ∀ tenant, reservedUnits (s.wallets tenant) = 0
  journal : ∀ tenant, ∀ row ∈ (s.wallets tenant).transactions, ∀ text, row.idempotencyKey ≠ "ai-reserve:" ++ text

theorem Opening.accounted {s : OperationStore} (opening : s.Opening) : s.Accounted := by
  have none_there {o : AIProviderOperation} (mem : o ∈ s.operations) : False := by
    rw [opening.operations] at mem
    cases mem
  refine ⟨by simp [opening.operations], fun o mem => (none_there mem).elim, fun a mem => (none_there mem).elim,
    fun o mem => (none_there mem).elim, fun tenant row mem u suffix _ shape => ?_, fun o mem => (none_there mem).elim,
    fun tenant => ?_, fun a mem => (none_there mem).elim, by simp [opening.applications], fun id mem => ?_⟩
  · rw [reserveKey, String.append_assoc] at shape
    exact absurd shape (opening.journal tenant row mem _)
  · rw [opening.operations, opening.reserved tenant]
    rfl
  · rw [opening.applications] at mem
    cases mem

theorem sum_shares (operations : List AIProviderOperation) (tenant : ℕ) :
    ((operations.filter fun o => decide (o.tenant = tenant ∧ o.status.Held)).map fun o => o.reservedAmount.value).sum =
      ((operations.map (share tenant)).sum : ℤ) / 10 ^ 4 := by
  induction operations with
  | nil => simp
  | cons o _ ih =>
    rw [List.map_cons, List.sum_cons, List.filter_cons, Int.cast_add, add_div]
    by_cases counts : o.tenant = tenant ∧ o.status.Held
    · rw [if_pos (decide_eq_true counts), List.map_cons, List.sum_cons, ih, share, if_pos counts]
      rfl
    · rw [if_neg (by simpa using counts), ih, share, if_neg counts]
      simp

theorem Accounted.protocol {s : OperationStore} (h : s.Accounted) : s.Protocol where
  journal := h.journal
  keys := h.keys
  reserves tenant := by
    rw [heldAmount, sum_shares, h.reserves tenant, reservedUnits, reservedBalance]
    cases (s.wallets tenant).wallet with
    | none => simp
    | some => rfl
  domains := h.domains
  once := h.once

/-- The accounting of every run on wallets that nothing else reserves from. -/
theorem operations_protocol {s : OperationStore} (opening : s.Opening) (first second : List OperationStep) :
    let reached := run perform s first
    reached.Protocol ∧ Absorbs reached (run perform reached second) ∧
      ∀ r, ∀ o ∈ reached.operations, ∀ new ∈ (reached.perform (.reconcileStale r)).operations, new.id = o.id →
        o.status ≠ .released → new.status = .released → o.networkStartedAt = none := by
  have accounted : (run perform s first).Accounted :=
    run_always perform (fun s step (h : s.Accounted) => (h.perform step).1) opening.accounted first
  refine ⟨accounted.protocol, ?_, fun r o mem new after same unreleased released =>
    stale_releases accounted r mem after same unreleased released⟩
  exact @run_relates _ _ perform Absorbs (fun s => .of_kept fun o mem _ => mem) (fun _ _ _ => .trans) Accounted
    (fun s step h => (h.perform step).1) (fun s step h => (h.perform step).2) _ accounted second

def fundedStore : OperationStore where
  wallets _ := ⟨some ⟨1, 0, 0, ⟨100000, by decide⟩, 0, none⟩, []⟩
  operations := []
  tenants := [7]
  products := [⟨3, 7, none, [], []⟩]
  listings := []
  runs := []
  applications := []

theorem fundedStore_opening : fundedStore.Opening where
  operations := rfl
  applications := rfl
  reserved _ := rfl
  journal _ _ mem := by cases mem

theorem epoch_valid : (1 ≤ 1970 ∧ 1970 ≤ 9999) ∧ (1 ≤ 1 ∧ 1 ≤ 12) ∧ 1 ≤ 1 ∧ 1 ≤ monthDays 1970 1 := by decide

def describedRequest (id : ℕ) (uuid : Uuid) : BeginRequest where
  tenant := ⟨7, 0, none, none⟩
  taskType := .descriptionGeneration
  provider := []
  modelId := []
  reservedAmount := 4
  domainType := .product
  domainReference := ['3']
  id
  zone := ⟨fun _ => 0, fun _ => ⟨1970, 1, 1, epoch_valid⟩, fun _ => ""⟩
  now := 0
  walletPk := 1
  uuid

def describedResult : Json :=
  .object [("title".toList, .text ['t']), ("description".toList, .text ['d']), ("confidence".toList, .int 1)]

/-- A description that is paid for and applied, and a second call that never starts. -/
def describedSteps : List OperationStep :=
  [.begin (describedRequest 1 ⟨"a", by decide⟩), .networkStarted 1 5, .settle 1 ⟨3, [], some describedResult, true⟩ 6,
    .applyDescription 1 7, .begin (describedRequest 2 ⟨"b", by decide⟩),
    .reconcileStale ⟨1000000000, 600, 300, 200, [], 1000000000⟩]

theorem operations_protocol_described :
    (run perform fundedStore describedSteps).operations.map AIProviderOperation.status = [.settled, .released] ∧
      (let reached := run perform fundedStore (describedSteps.take 4);
        reached.Protocol ∧ Absorbs reached (run perform reached (describedSteps.drop 4)) ∧
          ∀ r, ∀ o ∈ reached.operations, ∀ new ∈ (reached.perform (.reconcileStale r)).operations, new.id = o.id →
            o.status ≠ .released → new.status = .released → o.networkStartedAt = none) :=
  ⟨by decide +kernel, operations_protocol fundedStore_opening (describedSteps.take 4) (describedSteps.drop 4)⟩

end OperationStore

end MapBackend.AIAgent
