import MapBackend.WebResearch.QuotaGates

/-!
The limits hold in every state.
-/

namespace MapBackend.WebResearch
open MapBackend.Library MapBackend.Core

/-! ## Calls without a gate -/

/-- A rewritten attempt keeps the columns that the limits read, and does not become counted. -/
structure Settled (a b : WebSearchAttempt) : Prop where
  pk : b.pk = a.pk
  createdAt : b.createdAt = a.createdAt
  providerId : b.providerId = a.providerId
  connection : b.connection = a.connection
  counted : b.counted = true → a.counted = true

theorem Settled.refl (a : WebSearchAttempt) : Settled a a := ⟨rfl, rfl, rfl, rfl, id⟩

theorem Settled.trans {a b c : WebSearchAttempt} (first : Settled a b) (second : Settled b c) : Settled a c :=
  ⟨second.pk.trans first.pk, second.createdAt.trans first.createdAt, second.providerId.trans first.providerId,
    second.connection.trans first.connection, first.counted ∘ second.counted⟩

structure Quiet (s next : WebSearchStore) : Prop where
  rows : Rewrites Settled s.attempts next.attempts
  counter : next.nextAttempt = s.nextAttempt

theorem Quiet.refl (s : WebSearchStore) : Quiet s s := ⟨.refl Settled.refl _, rfl⟩

theorem Quiet.trans {s mid next : WebSearchStore} (first : Quiet s mid) (second : Quiet mid next) : Quiet s next :=
  ⟨first.rows.trans (fun _ _ _ => Settled.trans) second.rows, second.counter.trans first.counter⟩

def Keyed (s : WebSearchStore) : Prop := (s.attempts.map WebSearchAttempt.pk).Nodup

section Quiet

variable {s : WebSearchStore}

theorem Quiet.keyed {next : WebSearchStore} (quiet : Quiet s next) (keyed : Keyed s) : Keyed next := by
  unfold Keyed
  rw [quiet.rows.keys fun _ _ settled => settled.pk]
  exact keyed

theorem Keyed.saveAttempt (keyed : Keyed s) {pk : ℕ} {a new : WebSearchAttempt} (found : s.attempt pk = some a)
    (settled : Settled a new) : Quiet s (s.saveAttempt new) :=
  ⟨.put Settled.refl keyed (List.mem_of_find?_eq_some found) settled.pk settled, rfl⟩

theorem updateAttempts_quiet (s : WebSearchStore) (cond : WebSearchAttempt → Bool) (now : Instant) :
    Quiet s (s.updateAttempts cond fun row => row.applied now) := by
  refine ⟨⟨_, rfl, fun row _ => ?_⟩, rfl⟩
  dsimp only
  split
  · exact ⟨rfl, rfl, rfl, rfl, id⟩
  · exact .refl row

variable {a : WebSearchAttempt}

theorem counted_of_status (notSkipped : a.status ≠ .skipped) (notFailed : a.status ≠ .failed) :
    a.counted = true := by
  unfold WebSearchAttempt.counted
  generalize "pre_send_failure".toList = code
  simp [notSkipped, notFailed]

theorem counted_of_answered (answered : a.status.answered = true) : a.counted = true := by
  apply counted_of_status <;> intro status <;> rw [status] at answered <;> cases answered

theorem counted_of_started (started : a.status = .started) : a.counted = true := by
  apply counted_of_status <;> rw [started] <;> decide

variable {env : AccountingEnv}

theorem acquire_quiet {request : AcquireRequest} {next : WebSearchStore} {w : WebSearchWorkflow}
    (step : acquireWebSearchWorkflow env request s = .ok (next, w)) : Quiet s next := by
  unfold acquireWebSearchWorkflow at step
  simp only [bind_ok, raiseIf_ok, orRaise_ok] at step
  obtain ⟨_, -, _, -, _, -, _, -, _, -, step⟩ := step
  split at step
  · simp only [bind_ok, raiseIf_ok] at step
    obtain ⟨_, -, made⟩ := step
    cases made
    exact ⟨.refl Settled.refl _, rfl⟩
  · simp only [bind_ok, raiseIf_ok] at step
    obtain ⟨_, -, made⟩ := step
    cases made
    exact ⟨.refl Settled.refl _, rfl⟩

variable {result : WebSearchAttempt} {attemptId : ℕ}

theorem Keyed.markUncertain (keyed : Keyed s) {errorCode : Text} {next : WebSearchStore} (step : markCheckpointReplayUncertain env attemptId errorCode s = .ok (next, result)) :
    Quiet s next := by
  unfold markCheckpointReplayUncertain at step
  simp only [bind_ok, orRaise_ok] at step
  obtain ⟨a, found, w, -, step⟩ := step
  split at step
  next marks =>
    cases step
    have sent := counted_of_answered marks.1
    refine ⟨(keyed.saveAttempt found ?_).rows, rfl⟩
    exact ⟨rfl, rfl, rfl, rfl, fun _ => sent⟩
  next =>
    cases step
    exact .refl s

variable {workflowId : ℕ}

theorem Keyed.replay (keyed : Keyed s) {restore : Text → Except Text Text}
    {callKey requestFingerprint : Text} {next : WebSearchStore} {result : Option (Except AccountingError WebSearchExecution)}
    (step : replayRecordedWebSearch env restore workflowId callKey requestFingerprint s = .ok (next, result)) : Quiet s next := by
  unfold replayRecordedWebSearch at step
  simp only [bind_ok, orRaise_ok] at step
  obtain ⟨w, -, step⟩ := step
  split at step
  next =>
    cases step
    exact .refl s
  next a recorded =>
    simp only [bind_ok] at step
    obtain ⟨⟨_, _⟩, restored, made⟩ := step
    cases made
    have observed : Quiet s (s.saveWorkflow (w.observing a)) := ⟨.refl Settled.refl _, rfl⟩
    refine observed.trans ?_
    unfold restoreExecution at restored
    split at restored
    · cases restored
      exact .refl _
    split at restored
    · split at restored
      · cases restored
        exact .refl _
      next code =>
        simp only [bind_ok] at restored
        obtain ⟨⟨_, _⟩, done, made⟩ := restored
        cases made
        exact (observed.keyed keyed).markUncertain done
    · cases restored
      exact .refl _

theorem finalized_settled (env : AccountingEnv) (f : Finalization) (others : List WebSearchAttempt)
    (started : a.status = .started) : Settled a (finalized env f others a).1 := by
  have sent := counted_of_started started
  unfold finalized
  cases f.outcome with
  | success | empty =>
    cases checkpointOf env f.payload with
    | some => exact ⟨rfl, rfl, rfl, rfl, fun _ => sent⟩
    | none => exact ⟨rfl, rfl, rfl, rfl, fun _ => sent⟩
  | outcomeUncertain | failed => exact ⟨rfl, rfl, rfl, rfl, fun _ => sent⟩

theorem Keyed.finalize (keyed : Keyed s) {f : Finalization} {next : WebSearchStore} (step : finalizeWebSearchAttempt env attemptId f s = .ok (next, result)) : Quiet s next := by
  unfold finalizeWebSearchAttempt at step
  simp only [bind_ok, orRaise_ok] at step
  obtain ⟨a, found, w, -, step⟩ := step
  split at step
  · cases step
    exact .refl s
  next inFlight =>
    rw [not_or, not_not] at inFlight
    split at step
    · cases step
      exact keyed.saveAttempt found ⟨rfl, rfl, rfl, rfl, fun _ => counted_of_started inFlight.1⟩
    · cases step
      exact ⟨(keyed.saveAttempt found (finalized_settled env f _ inFlight.1)).rows, rfl⟩

theorem acknowledge_quiet {consumed : List ℕ} {next : WebSearchStore}
    {result : WebSearchWorkflow} (step : acknowledgeWebSearchWorkflow env workflowId consumed s = .ok (next, result)) :
    Quiet s next := by
  unfold acknowledgeWebSearchWorkflow at step
  simp only [bind_ok, orRaise_ok, raiseIf_ok] at step
  obtain ⟨w, -, _, -, _, -, step⟩ := step
  split at step
  · cases step
    exact .refl s
  next =>
    simp only [bind_ok, raiseIf_ok] at step
    obtain ⟨_, -, _, -, made⟩ := step
    cases made
    exact ⟨(updateAttempts_quiet s _ env.now).rows, rfl⟩

theorem release_quiet {next : WebSearchStore} {result : WebSearchWorkflow}
    (step : releaseEmptyWebSearchWorkflow workflowId s = .ok (next, result)) : Quiet s next := by
  unfold releaseEmptyWebSearchWorkflow at step
  simp only [bind_ok, orRaise_ok, raiseIf_ok] at step
  obtain ⟨w, -, _, -, step⟩ := step
  split at step
  · cases step
    exact .refl s
  next =>
    simp only [bind_ok, raiseIf_ok] at step
    obtain ⟨_, -, made⟩ := step
    cases made
    exact ⟨.refl Settled.refl _, rfl⟩

theorem Keyed.resolve (keyed : Keyed s) {action : ReconciliationAction} {note : Text}
    {next : WebSearchStore}
    (step : resolveWebSearchAttempt env attemptId action note s = .ok (next, result)) : Quiet s next := by
  unfold resolveWebSearchAttempt at step
  simp only [bind_ok, orRaise_ok, raiseIf_ok] at step
  obtain ⟨_, -, a, found, w, -, step⟩ := step
  split at step
  · simp only [bind_ok, raiseIf_ok] at step
    obtain ⟨_, -, made⟩ := step
    cases made
    exact .refl s
  next =>
    simp only [bind_ok, raiseIf_ok] at step
    obtain ⟨_, -, _, -, _, status, made⟩ := step
    cases made
    have sent : a.counted = true := by
      apply counted_of_status
      · intro skipped
        exact status ⟨by rw [skipped]; decide, by rw [skipped]; decide⟩
      · intro failed
        exact status ⟨by rw [failed]; decide, by rw [failed]; decide⟩
    have decided : Quiet s (s.saveAttempt (a.decided action env.now)) :=
      keyed.saveAttempt found ⟨rfl, rfl, rfl, rfl, fun _ => sent⟩
    exact ⟨(decided.trans (updateAttempts_quiet _ _ env.now)).rows, rfl⟩

theorem Keyed.operate (keyed : Keyed s) (env : AccountingEnv) (operation : WorkflowOperation) : Quiet s (s.operate env operation) := by
  cases operation with
  | acquire => exact commit_relates Quiet _ _ (.refl s) fun _ _ step => acquire_quiet step
  | replay => exact commit_relates Quiet _ _ (.refl s) fun _ _ step => keyed.replay step
  | markUncertain => exact commit_relates Quiet _ _ (.refl s) fun _ _ step => keyed.markUncertain step
  | finalize => exact commit_relates Quiet _ _ (.refl s) fun _ _ step => keyed.finalize step
  | acknowledge => exact commit_relates Quiet _ _ (.refl s) fun _ _ step => acknowledge_quiet step
  | releaseEmpty => exact commit_relates Quiet _ _ (.refl s) fun _ _ step => release_quiet step
  | resolve => exact commit_relates Quiet _ _ (.refl s) fun _ _ step => keyed.resolve step

theorem admit_quiet {call : SearchCall} {next : WebSearchStore} {admission : Admission}
    (step : admitCall env call s = .ok (next, admission)) : Quiet s next := by
  unfold admitCall at step
  simp only [bind_ok, orRaise_ok, raiseIf_ok] at step
  obtain ⟨_, -, _, -, _, -, step⟩ := step
  split at step
  · simp only [bind_ok, raiseIf_ok] at step
    obtain ⟨_, -, made⟩ := step
    cases made
    exact ⟨.refl Settled.refl _, rfl⟩
  · simp only [bind_ok, raiseIf_ok] at step
    obtain ⟨_, -, _, -, made⟩ := step
    cases made
    exact .refl s

end Quiet

/-! ## Counts -/

variable {attempts later : List WebSearchAttempt}

theorem Rewrites.countP_le (rows : Rewrites Settled attempts later)
    {cond : WebSearchAttempt → Bool} (back : ∀ a b, Settled a b → cond b = true → cond a = true) :
    later.countP cond ≤ attempts.countP cond := by
  obtain ⟨f, rfl, settled⟩ := rows
  rw [List.countP_map]
  exact List.countP_mono_left fun row mem holds => back row (f row) (settled row mem) holds

theorem usage_le {calendar : Calendar} (rows : Rewrites Settled attempts later)
    (scope : QuotaScope) (window : QuotaWindow) : usage calendar later scope window ≤ usage calendar attempts scope window := by
  refine Rewrites.countP_le rows fun a b settled holds => ?_
  have has : scope.has b = scope.has a := by
    cases scope with
    | platform => rfl
    | provider id => exact congrArg (fun provider => decide (provider = id)) settled.providerId
    | connection pk => exact congrArg (fun connection => decide (connection = some pk)) settled.connection
  rw [Bool.and_eq_true, Bool.and_eq_true, has, settled.createdAt] at holds
  rw [Bool.and_eq_true, Bool.and_eq_true]
  exact ⟨⟨settled.counted holds.1.1, holds.1.2⟩, holds.2⟩

def Quota.Plain (quota : Quota) : Prop := ∀ a b, Settled a b → quota.scope b = quota.scope a

def Clear (attempts : List WebSearchAttempt) (quotas : List Quota) : Prop := ∀ quota ∈ quotas, ¬ quota.Exhausted attempts

theorem Clear.shrink {quotas : List Quota} (clear : Clear attempts quotas)
    (plain : ∀ quota ∈ quotas, quota.Plain) (rows : Rewrites Settled attempts later) : Clear later quotas := by
  intro quota mem exhausted
  have fewer : quota.count later ≤ quota.count attempts := by
    refine Rewrites.countP_le rows fun a b settled holds => ?_
    rw [Bool.and_eq_true, Bool.and_eq_true, plain quota mem a b settled, settled.createdAt] at holds
    rw [Bool.and_eq_true, Bool.and_eq_true]
    exact ⟨⟨settled.counted holds.1.1, holds.1.2⟩, holds.2⟩
  exact clear quota mem ⟨exhausted.1, exhausted.2.trans fewer⟩

theorem Clear.snoc {attempts : List WebSearchAttempt} {quotas : List Quota} {quota : Quota} (clear : Clear attempts quotas)
    (free : ¬ quota.Exhausted attempts) : Clear attempts (quotas ++ [quota]) := by
  intro other mem
  rcases List.mem_append.mp mem with old | new
  · exact clear other old
  · exact List.mem_singleton.mp new ▸ free

theorem platformQuotas_plain (settings : SearchSettings) (provider : Text) (current : Instant) :
    ∀ quota ∈ settings.platformQuotas provider current, quota.Plain := by
  intro quota mem a b settled
  simp only [SearchSettings.platformQuotas, List.mem_cons, List.not_mem_nil, or_false] at mem
  rcases mem with rfl | rfl | rfl
  · rfl
  · rfl
  · exact congrArg (fun id => decide (id = provider)) settled.providerId

theorem ownQuotas_plain (settings : SearchSettings) (provider : Text) (connection : Option ℕ) (current : Instant) :
    ∀ quota ∈ settings.ownQuotas provider connection current, quota.Plain := by
  intro quota mem a b settled
  unfold SearchSettings.ownQuotas at mem
  split at mem
  · cases mem
  next row _ =>
    simp only [SearchSettings.connectionQuotas, List.mem_cons, List.not_mem_nil, or_false] at mem
    rcases mem with rfl | rfl
    · exact congrArg₂ (fun id pk => decide (id = provider) && decide (pk = some row.pk)) settled.providerId settled.connection
    · exact congrArg₂ (fun id pk => decide (id = provider) && decide (pk = some row.pk)) settled.providerId settled.connection

theorem usage_create {calendar : Calendar} {attempts : List WebSearchAttempt} {row : WebSearchAttempt} {scope : QuotaScope}
    {window : QuotaWindow} {limit : ℕ} (before : limit = 0 ∨ usage calendar attempts scope window ≤ limit)
    (covered : scope.has row = true → window.has calendar row.createdAt = true → limit = 0 ∨ ∃ quota : Quota,
      quota.limit = limit ∧ ¬ quota.Exhausted attempts ∧ ∀ a ∈ attempts, scope.has a = true →
        window.has calendar a.createdAt = true → quota.scope a = true ∧ quota.window a.createdAt = true) :
    limit = 0 ∨ usage calendar (attempts ++ [row]) scope window ≤ limit := by
  by_cases inside : scope.has row = true ∧ window.has calendar row.createdAt = true
  · rcases covered inside.1 inside.2 with unlimited | ⟨quota, same, free, covers⟩
    · exact .inl unlimited
    by_cases unlimited : limit = 0
    · exact .inl unlimited
    have room : quota.count attempts < quota.limit := by
      by_contra full
      exact free ⟨same ▸ unlimited, not_lt.mp full⟩
    have counted : usage calendar attempts scope window ≤ quota.count attempts := by
      refine List.countP_mono_left fun a mem holds => ?_
      rw [Bool.and_eq_true, Bool.and_eq_true] at holds
      obtain ⟨inScope, inWindow⟩ := covers a mem holds.1.2 holds.2
      rw [Bool.and_eq_true, Bool.and_eq_true]
      exact ⟨⟨holds.1.1, inScope⟩, inWindow⟩
    have one : usage calendar [row] scope window ≤ 1 := List.countP_le_length
    refine .inr ?_
    calc usage calendar (attempts ++ [row]) scope window
        = usage calendar attempts scope window + usage calendar [row] scope window := List.countP_append
      _ ≤ quota.count attempts + 1 := Nat.add_le_add counted one
      _ ≤ limit := same ▸ room
  · have none_more : usage calendar [row] scope window = 0 := by
      rw [usage, List.countP_eq_zero]
      intro a mem holds
      rw [List.mem_singleton.mp mem, Bool.and_eq_true, Bool.and_eq_true] at holds
      exact inside ⟨holds.1.2, holds.2⟩
    have same : usage calendar (attempts ++ [row]) scope window = usage calendar attempts scope window := by
      have split : usage calendar (attempts ++ [row]) scope window =
          usage calendar attempts scope window + usage calendar [row] scope window := List.countP_append
      rw [split, none_more, Nat.add_zero]
    rw [same]
    exact before

def Owned (env : AccountingEnv) (settings : SearchSettings) (attempts : List WebSearchAttempt) : Prop :=
  ∀ a ∈ attempts, ∀ pk ∈ a.connection, ∀ row ∈ settings.connection pk, a.providerId = env.lower (Url.strip row.providerId)

/-- No configured limit is exceeded, in the minute before any instant and in any month. -/
def WithinLimits (settings : SearchSettings) (attempts : List WebSearchAttempt) : Prop :=
  ∀ scope window, settings.limit scope window = 0 ∨ usage settings.calendar attempts scope window ≤ settings.limit scope window

section Insert

variable {env : AccountingEnv} {settings : SearchSettings} {attempts : List WebSearchAttempt} {current createdAt : Instant}

theorem minute_covers {last old : Instant} (later : current ≤ createdAt)
    (inside : (QuotaWindow.minute last).has settings.calendar createdAt = true)
    (holds : (QuotaWindow.minute last).has settings.calendar old = true) : lastMinute current old = true := by
  simp only [QuotaWindow.has, Bool.and_eq_true, decide_eq_true_eq] at inside holds
  have reach : current ≤ last := later.trans inside.2
  have start : current - 60 * second ≤ last - 60 * second := Int.sub_le_sub_right reach _
  exact decide_eq_true (start.trans holds.1)

theorem month_covers {index : ℕ} {old : Instant} (later : current ≤ createdAt) (dated : old ≤ current)
    (inside : (QuotaWindow.month index).has settings.calendar createdAt = true)
    (holds : (QuotaWindow.month index).has settings.calendar old = true) : sameMonth settings.calendar current old = true := by
  simp only [QuotaWindow.has, decide_eq_true_eq] at inside holds
  have first := settings.calendar.mono dated
  have second := settings.calendar.mono later
  exact decide_eq_true (by omega)

theorem WithinLimits.create (within : WithinLimits settings attempts) (owned : Owned env settings attempts)
    {call : PaidCall settings} {w : WebSearchWorkflow} {pk : ℕ} (dated : ∀ a ∈ attempts, a.createdAt ≤ current)
    (later : current ≤ createdAt) (platform : Clear attempts (settings.platformQuotas (call.normalizedProvider env) current))
    (own : Clear attempts (settings.ownQuotas (call.normalizedProvider env) call.connection current)) :
    WithinLimits settings (attempts ++ [call.newAttempt env w pk createdAt]) := by
  intro scope window
  refine usage_create (within scope window) fun inScope inWindow => ?_
  cases scope with
  | platform =>
    cases window with
    | minute =>
      refine .inr ⟨⟨fun _ => true, lastMinute current, settings.globalRequestsPerMinute⟩, rfl, platform _ (.head _), ?_⟩
      exact fun a mem _ holds => ⟨rfl, minute_covers later inWindow holds⟩
    | month =>
      refine .inr ⟨⟨fun _ => true, sameMonth settings.calendar current, settings.globalMonthlyRequestLimit⟩, rfl,
        platform _ (.tail _ (.head _)), ?_⟩
      exact fun a mem _ holds => ⟨rfl, month_covers later (dated a mem) inWindow holds⟩
  | provider id =>
    cases window with
    | minute => exact .inl rfl
    | month =>
      have provider : call.normalizedProvider env = id := of_decide_eq_true inScope
      refine .inr ⟨⟨fun row => decide (row.providerId = call.normalizedProvider env), sameMonth settings.calendar current,
        settings.providerMonthlyLimit (call.normalizedProvider env)⟩, by rw [provider]; rfl,
        platform _ (.tail _ (.tail _ (.head _))), ?_⟩
      intro a mem has holds
      rw [provider]
      exact ⟨has, month_covers later (dated a mem) inWindow holds⟩
  | connection pk =>
    have connected : call.connection = some pk := of_decide_eq_true inScope
    cases known : settings.connection pk with
    | none => cases window <;> exact .inl (by rw [SearchSettings.limit, known]; rfl)
    | some row =>
      have provider : call.normalizedProvider env = env.lower (Url.strip row.providerId) := by
        rw [call.own pk connected row known]
        rfl
      have row_pk : row.pk = pk := by simpa using List.find?_some known
      have quotas : settings.ownQuotas (call.normalizedProvider env) call.connection current =
          settings.connectionQuotas (call.normalizedProvider env) row current := by
        rw [SearchSettings.ownQuotas, connected, Option.bind_some, known]
      rw [quotas] at own
      have counted_there (a : WebSearchAttempt) (mem : a ∈ attempts) (has : (QuotaScope.connection pk).has a = true) :
          (decide (a.providerId = call.normalizedProvider env) && decide (a.connection = some row.pk)) = true := by
        have on : a.connection = some pk := of_decide_eq_true has
        rw [owned a mem pk on row known, provider, on, row_pk]
        simp
      cases window with
      | minute =>
        refine .inr ⟨_, ?_, own _ (.head _), fun a mem has holds => ⟨counted_there a mem has, minute_covers later inWindow holds⟩⟩
        rw [SearchSettings.limit, known]
        rfl
      | month =>
        refine .inr ⟨_, ?_, own _ (.tail _ (.head _)),
          fun a mem has holds => ⟨counted_there a mem has, month_covers later (dated a mem) inWindow holds⟩⟩
        rw [SearchSettings.limit, known]
        rfl

end Insert

/-! ## Reservations -/

structure Reading (attempts : List WebSearchAttempt) (clock current : Instant) : Prop where
  passed : current ≤ clock
  dated : ∀ a ∈ attempts, a.createdAt ≤ current

def Reservation.Stands {settings : SearchSettings} (env : AccountingEnv) (attempts : List WebSearchAttempt) (clock : Instant) :
    Reservation settings → Prop
  | .countingPlatform call _ current remaining => Reading attempts clock current ∧ ∃ counted,
      settings.platformQuotas (call.normalizedProvider env) current = counted ++ remaining ∧ Clear attempts counted
  | .countingOwn call _ current remaining => Reading attempts clock current ∧
      Clear attempts (settings.platformQuotas (call.normalizedProvider env) current) ∧ ∃ counted,
      settings.ownQuotas (call.normalizedProvider env) call.connection current = counted ++ remaining ∧ Clear attempts counted
  | .created call _ current createdAt => Reading attempts clock current ∧
      Clear attempts (settings.platformQuotas (call.normalizedProvider env) current) ∧
      Clear attempts (settings.ownQuotas (call.normalizedProvider env) call.connection current) ∧
      current ≤ createdAt ∧ createdAt ≤ clock
  | _ => True

theorem Reading.shrink {clock next current : Instant}
    (reading : Reading attempts clock current) (rows : Rewrites Settled attempts later) (passes : clock ≤ next) :
    Reading later next current := by
  refine ⟨reading.passed.trans passes, fun b mem => ?_⟩
  obtain ⟨a, before, settled⟩ := rows.source mem
  rw [settled.createdAt]
  exact reading.dated a before

theorem Reservation.Stands.shrink {settings : SearchSettings} {env : AccountingEnv}
    {clock next : Instant} {worker : Reservation settings} (stands : worker.Stands env attempts clock)
    (rows : Rewrites Settled attempts later) (passes : clock ≤ next) : worker.Stands env later next := by
  cases worker with
  | countingPlatform _ _ current =>
    obtain ⟨reading, counted, split, clear⟩ := stands
    refine ⟨reading.shrink rows passes, counted, split, clear.shrink (fun quota mem => ?_) rows⟩
    exact platformQuotas_plain settings _ current quota (split ▸ List.mem_append_left _ mem)
  | countingOwn _ _ current =>
    obtain ⟨reading, platform, counted, split, clear⟩ := stands
    refine ⟨reading.shrink rows passes, platform.shrink (platformQuotas_plain settings _ current) rows, counted, split,
      clear.shrink (fun quota mem => ?_) rows⟩
    exact ownQuotas_plain settings _ _ current quota (split ▸ List.mem_append_left _ mem)
  | created _ _ current =>
    obtain ⟨reading, platform, own, later, past⟩ := stands
    exact ⟨reading.shrink rows passes, platform.shrink (platformQuotas_plain settings _ current) rows,
      own.shrink (ownQuotas_plain settings _ _ current) rows, later, past.trans passes⟩
  | _ => trivial

theorem Reservation.stands_outside {settings : SearchSettings} {env : AccountingEnv} {attempts : List WebSearchAttempt}
    {clock : Instant} {worker : Reservation settings} (outside : worker.holdsGlobalGate = false) :
    worker.Stands env attempts clock := by
  cases worker with
  | countingPlatform => cases outside
  | countingOwn => cases outside
  | created => cases outside
  | _ => trivial

structure QuotaCrew.Guarded {settings : SearchSettings} (env : AccountingEnv) (c : QuotaCrew settings) : Prop where
  keyed : Keyed c.store
  fresh : ∀ a ∈ c.store.attempts, a.pk < c.store.nextAttempt
  dated : ∀ a ∈ c.store.attempts, a.createdAt ≤ c.clock
  owned : Owned env settings c.store.attempts
  within : WithinLimits settings c.store.attempts
  exclusive : ∀ (i j : ℕ) (v w : Reservation settings), c.workers[i]? = some v → c.workers[j]? = some w →
    v.holdsGlobalGate = true → w.holdsGlobalGate = true → i = j
  stands : ∀ worker ∈ c.workers, worker.Stands env c.store.attempts c.clock

namespace QuotaCrew

variable {settings : SearchSettings} {env : AccountingEnv} {c : QuotaCrew settings}

theorem Guarded.settle (guarded : c.Guarded env) {store : WebSearchStore} (quiet : Quiet c.store store) {clock : Instant}
    (passes : c.clock ≤ clock) : Guarded env { c with store, clock } where
  keyed := quiet.keyed guarded.keyed
  fresh b mem := by
    obtain ⟨a, before, settled⟩ := quiet.rows.source mem
    rw [settled.pk, quiet.counter]
    exact guarded.fresh a before
  dated b mem := by
    obtain ⟨a, before, settled⟩ := quiet.rows.source mem
    rw [settled.createdAt]
    exact (guarded.dated a before).trans passes
  owned b mem pk on row known := by
    obtain ⟨a, before, settled⟩ := quiet.rows.source mem
    rw [settled.providerId]
    exact guarded.owned a before pk (settled.connection ▸ on) row known
  within scope window := (guarded.within scope window).imp_right (usage_le quiet.rows scope window).trans
  exclusive := guarded.exclusive
  stands worker mem := (guarded.stands worker mem).shrink quiet.rows passes

variable {k : ℕ}

theorem Guarded.become (guarded : c.Guarded env) {old new : Reservation settings} (found : c.workers[k]? = some old)
    (gate : new.holdsGlobalGate = true → old.holdsGlobalGate = true ∨ c.workers.any Reservation.holdsGlobalGate = false)
    (stands : new.Stands env c.store.attempts c.clock) : (c.become k new).Guarded env where
  keyed := guarded.keyed
  fresh := guarded.fresh
  dated := guarded.dated
  owned := guarded.owned
  within := guarded.within
  exclusive i j v w at_i at_j holds_v holds_w := by
    have was (i : ℕ) (v : Reservation settings) (at_i : (c.workers.set k new)[i]? = some v) :
        i = k ∧ v = new ∨ i ≠ k ∧ c.workers[i]? = some v := by
      rw [List.getElem?_set] at at_i
      split at at_i
      next same =>
        split at at_i
        · exact .inl ⟨same.symm, (Option.some.inj at_i).symm⟩
        · cases at_i
      next other => exact .inr ⟨Ne.symm other, at_i⟩
    have free_of (i : ℕ) (v : Reservation settings) (at_i : c.workers[i]? = some v) (holds : v.holdsGlobalGate = true)
        (holds_new : new.holdsGlobalGate = true) : i = k := by
      rcases gate holds_new with held | free
      · exact guarded.exclusive i k v old at_i found holds held
      · have some_one := List.any_eq_true.mpr ⟨v, List.mem_of_getElem? at_i, holds⟩
        rw [free] at some_one
        cases some_one
    rcases was i v at_i with ⟨is_i, rfl⟩ | ⟨other_i, old_i⟩
    · rcases was j w at_j with ⟨is_j, rfl⟩ | ⟨other_j, old_j⟩
      · exact is_i.trans is_j.symm
      · exact absurd (free_of j w old_j holds_w holds_v) other_j
    · rcases was j w at_j with ⟨is_j, rfl⟩ | ⟨other_j, old_j⟩
      · exact absurd (free_of i v old_i holds_v holds_w) other_i
      · exact guarded.exclusive i j v w old_i old_j holds_v holds_w
  stands worker mem := by
    rcases List.mem_or_eq_of_mem_set mem with old | rfl
    · exact guarded.stands worker old
    · exact stands

theorem Guarded.finish (guarded : c.Guarded env) {old : Reservation settings} (found : c.workers[k]? = some old) :
    (c.become k .ended).Guarded env := guarded.become found (fun holds => by cases holds) trivial

theorem Guarded.commit (guarded : c.Guarded env) {call : PaidCall settings} {w : WebSearchWorkflow}
    {current createdAt : Instant} (found : c.workers[k]? = some (.created call w current createdAt)) :
    Guarded env { c.become k .ended with
      store := c.store.create (call.newAttempt env w c.store.nextAttempt createdAt) } := by
  obtain ⟨reading, platform, own, later, past⟩ := guarded.stands _ (List.mem_of_getElem? found)
  have ended := guarded.finish found
  have alone (worker : Reservation settings) (mem : worker ∈ c.workers.set k .ended) : worker.holdsGlobalGate = false := by
    obtain ⟨j, at_j⟩ := List.mem_iff_getElem?.mp mem
    rw [List.getElem?_set] at at_j
    split at at_j
    · split at at_j
      · cases at_j
        rfl
      · cases at_j
    next other =>
      cases holds : worker.holdsGlobalGate with
      | false => rfl
      | true => exact absurd (guarded.exclusive k j _ worker found at_j rfl holds) other
  have member {a : WebSearchAttempt}
      (there : a ∈ (c.store.create (call.newAttempt env w c.store.nextAttempt createdAt)).attempts) :
      a ∈ c.store.attempts ∨ a = call.newAttempt env w c.store.nextAttempt createdAt :=
    (List.mem_append.mp there).imp_right List.mem_singleton.mp
  refine ⟨?_, fun a mem => ?_, fun a mem => ?_, fun a mem pk on row known => ?_, ?_, ended.exclusive, fun worker mem => ?_⟩
  · unfold Keyed WebSearchStore.create
    rw [List.map_append, List.nodup_append]
    refine ⟨guarded.keyed, List.nodup_singleton _, fun i old l new same => ?_⟩
    obtain ⟨a, there, rfl⟩ := List.mem_map.mp old
    have below := guarded.fresh a there
    rw [same, List.mem_singleton.mp new] at below
    exact absurd below (lt_irrefl _)
  · rcases member mem with old | rfl
    · exact (guarded.fresh a old).trans (Nat.lt_succ_self _)
    · exact Nat.lt_succ_self _
  · rcases member mem with old | rfl
    · exact guarded.dated a old
    · exact past
  · rcases member mem with old | rfl
    · exact guarded.owned a old pk on row known
    · exact congrArg (fun id => env.lower (Url.strip id)) (call.own pk on row known).symm
  · exact guarded.within.create guarded.owned reading.dated later platform own
  · exact Reservation.stands_outside (alone worker mem)

theorem Guarded.advance (guarded : c.Guarded env) {worker : Reservation settings} (found : c.workers[k]? = some worker)
    (isActive : Bool) : (c.advance env k isActive worker).Guarded env := by
  have stands := guarded.stands worker (List.mem_of_getElem? found)
  cases worker with
  | arriving =>
    unfold QuotaCrew.advance
    dsimp only
    split
    · exact guarded.finish found
    next store _ admitted => exact (guarded.finish found).settle (admit_quiet admitted) (le_refl _)
    · exact guarded.become found (fun holds => by cases holds) trivial
  | atGlobalGate =>
    unfold QuotaCrew.advance
    dsimp only
    split
    · exact guarded
    next free => exact guarded.become found (fun _ => .inr (by simpa using free)) trivial
  | atProviderGate =>
    unfold QuotaCrew.advance
    dsimp only
    split
    · exact guarded.become found (fun _ => .inl rfl) trivial
    · exact guarded
  | atClock =>
    refine guarded.become found (fun _ => .inl rfl) ⟨⟨le_refl _, guarded.dated⟩, [], rfl, fun quota mem => ?_⟩
    cases mem
  | countingPlatform _ _ _ remaining =>
    obtain ⟨reading, counted, split_, clear⟩ := stands
    cases remaining with
    | nil =>
      unfold QuotaCrew.advance
      dsimp only
      rw [List.append_nil] at split_
      split
      · exact guarded.finish found
      · refine guarded.become found (fun _ => .inl rfl) ⟨reading, split_ ▸ clear, [], rfl, fun quota mem => ?_⟩
        cases mem
    | cons quota =>
      unfold QuotaCrew.advance
      dsimp only
      split
      · exact guarded.finish found
      next free =>
        refine guarded.become found (fun _ => .inl rfl) ⟨reading, counted ++ [quota], ?_, clear.snoc free⟩
        rw [split_, List.append_assoc]
        rfl
  | countingOwn _ _ _ remaining =>
    obtain ⟨reading, platform, counted, split_, clear⟩ := stands
    cases remaining with
    | nil =>
      rw [List.append_nil] at split_
      exact guarded.become found (fun _ => .inl rfl) ⟨reading, platform, split_ ▸ clear, reading.passed, le_refl _⟩
    | cons quota =>
      unfold QuotaCrew.advance
      dsimp only
      split
      · exact guarded.finish found
      next free =>
        refine guarded.become found (fun _ => .inl rfl) ⟨reading, platform, counted ++ [quota], ?_, clear.snoc free⟩
        rw [split_, List.append_assoc]
        rfl
  | created => exact guarded.commit found
  | ended => exact guarded

theorem Guarded.next (guarded : c.Guarded env) (action : QuotaAction settings) : (c.next env action).Guarded env := by
  cases action with
  | start call =>
    refine ⟨guarded.keyed, guarded.fresh, guarded.dated, guarded.owned, guarded.within, ?_, fun worker mem => ?_⟩
    · intro i j v w at_i at_j holds_v holds_w
      have was (i : ℕ) (v : Reservation settings) (at_i : (c.workers ++ [.arriving call])[i]? = some v)
          (holds : v.holdsGlobalGate = true) : c.workers[i]? = some v := by
        by_cases old : i < c.workers.length
        · rwa [List.getElem?_append_left old] at at_i
        · rw [List.getElem?_append_right (not_lt.mp old)] at at_i
          rw [List.mem_singleton.mp (List.mem_of_getElem? at_i)] at holds
          cases holds
      exact guarded.exclusive i j v w (was i v at_i holds_v) (was j w at_j holds_w) holds_v holds_w
    · rcases List.mem_append.mp mem with old | new
      · exact guarded.stands worker old
      · rw [List.mem_singleton.mp new]
        trivial
  | move k isActive =>
    unfold QuotaCrew.next
    dsimp only
    cases found : c.workers[k]? with
    | none => exact guarded
    | some => exact guarded.advance found isActive
  | abort k =>
    cases found : c.workers[k]? with
    | none =>
      have same : c.workers.set k .ended = c.workers := List.set_eq_of_length_le (List.getElem?_eq_none_iff.mp found)
      unfold QuotaCrew.next QuotaCrew.become
      dsimp only
      rw [same]
      exact guarded
    | some => exact guarded.finish found
  | tick passed => exact guarded.settle (.refl _) (Int.le_add_of_nonneg_right (Int.natCast_nonneg passed))
  | operation _ operation => exact guarded.settle (guarded.keyed.operate _ operation) (le_refl _)

theorem start_guarded (env : AccountingEnv) (settings : SearchSettings) (clock : Instant) : (start settings clock).Guarded env where
  keyed := List.nodup_nil
  fresh _ mem := by cases mem
  dated _ mem := by cases mem
  owned _ mem := by cases mem
  within _ _ := .inr (Nat.zero_le _)
  exclusive i _ v _ found := by cases found
  stands _ mem := by cases mem

/-- In every state the counted attempts of the platform, of each provider and of each connection are within the configured
limits, in the minute before any instant and in every calendar month. -/
theorem quotas_hold (env : AccountingEnv) (settings : SearchSettings) (clock : Instant) (actions : List (QuotaAction settings))
    (scope : QuotaScope) (window : QuotaWindow) :
    settings.limit scope window = 0 ∨
      usage settings.calendar (run (next env) (start settings clock) actions).store.attempts scope window ≤
        settings.limit scope window :=
  (@run_always _ _ (next env) (fun c => c.Guarded env) (fun _ action guarded => guarded.next action) _
    (start_guarded env settings clock) actions).within scope window

end QuotaCrew

end MapBackend.WebResearch
