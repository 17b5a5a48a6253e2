import MapBackend.Marketplaces.FeedOutcomes

/-!
The frame of the outcomes of a generation over whole runs: which listings an operation may
change and how, the order of the report pages, and what the success of a run rests on.
-/

namespace MapBackend.Marketplaces
open MapBackend.Library FeedWorkflow

def FeedAction.Names : FeedAction → Listing → Prop
  | .applyPollPage _ batchListingIds resolvedExternalIds _ _ _, listing =>
    listing.pk ∈ batchListingIds ∧ listing.pk ∈ resolvedExternalIds.map Prod.fst
  | .applyReportPage _ page _, listing =>
    listing.publishIdempotencyKey ∈ page.errors.map Prod.fst ++ page.externalIds.map Prod.fst
  | _, _ => False

/-- What an operation may do to a listing: a page under the claim of its run gives it its first
outcome, or a new generation takes it while it is pending. -/
inductive ListingStep (s t : FeedStore) (action : FeedAction) (old new : Listing) : Prop
  | resolved {claim : FeedRunClaim} {now : Instant} {run : MarketplaceFeedRun}
      (presented : action.claim? = some (claim, now)) (mem : run ∈ s.runs) (fences : claim.Fences run now)
      (awaits : Awaits run old) (named : action.Names old) (outcome : FirstOutcome old new)
  | tagged (unclaimed : action.claim? = none) (pending : old.status = .pending) (generation : Uuid)
      (made : generation ∈ t.runs.map MarketplaceFeedRun.pk) (fresh : ∀ run ∈ s.runs, run.pk ≠ generation)
      (same : new = { old with feedRun := some generation })

def ListingFrame (action : FeedAction) (s t : FeedStore) : Prop :=
  ∃ f : Listing → Listing, t.listings = s.listings.map f ∧
    ∀ listing ∈ s.listings, f listing = listing ∨ ListingStep s t action listing (f listing)

section ListingFrames

variable {s t : FeedStore} {run : MarketplaceFeedRun} {claim : FeedRunClaim} {now : Instant} {action : FeedAction}

theorem ListingFrame.same (same : t.listings = s.listings) : ListingFrame action s t :=
  ⟨id, by simp [same], fun _ _ => .inl rfl⟩

theorem Resolved.frame {rows : List Listing} {change : Listing → Option Listing} {published rejected : ℕ}
    (resolved : Resolved run rows change published rejected s t)
    (presented : action.claim? = some (claim, now)) (mem : run ∈ s.runs) (fences : claim.Fences run now)
    (named : ∀ listing ∈ rows, ∀ new, change listing = some new → action.Names listing) :
    ListingFrame action s t := by
  refine ⟨resolveRows rows change, resolved.listings, fun listing _ => ?_⟩
  unfold resolveRows
  split
  next inside =>
    cases changed : change listing with
    | none => exact .inl rfl
    | some new =>
      apply Or.inr
      exact .resolved presented mem fences (resolved.awaits listing inside) (named listing inside new changed)
        (resolved.outcome listing new changed)
  next => exact .inl rfl

theorem mem_keys_of_lookup {K V : Type*} [DecidableEq K] {key : K} {value : V} {rows : List (K × V)}
    (found : rows.lookup key = some value) : key ∈ rows.map Prod.fst := by
  obtain ⟨_, _, rfl, -⟩ := List.lookup_eq_some_iff.mp found
  simp

theorem FeedEffect.listings (effect : FeedEffect s t action) : ListingFrame action s t := by
  cases effect with
  | quiet _ quiet => exact .same quiet.listings
  | created account _ quiet unused _ _ runs listings =>
    refine ⟨tagged account _, quiet.listings ▸ listings, fun listing _ => ?_⟩
    have fresh := fun run mem same => List.find?_eq_none.mp unused run mem (decide_eq_true same)
    unfold tagged
    split
    next pending => exact .inr (.tagged rfl pending.2.2.1 _ (by simp [runs, freshRun]) fresh rfl)
    next => exact .inl rfl
  | polled _ _ _ locked batch outcomes =>
    obtain ⟨mem, fences⟩ := lockClaimedRun_ok locked
    apply outcomes.frame rfl mem fences
    intro listing inside new changed
    obtain ⟨_, found, -⟩ := Option.map_eq_some_iff.mp changed
    exact ⟨batch ▸ List.mem_map_of_mem inside, mem_keys_of_lookup found⟩
  | reported _ _ _ _ _ locked _ _ named outcomes =>
    obtain ⟨mem, fences⟩ := lockClaimedRun_ok locked
    exact outcomes.frame rfl mem fences fun listing inside _ _ => named listing inside
  | resumed _ _ _ _ _ written =>
    obtain ⟨-, rfl⟩ := updateRun_ok.mp written
    exact .same rfl
  | pollStep _ _ _ _ written | roundReset _ _ written | advanced _ _ _ _ _ written
    | finished _ _ _ _ _ _ _ written =>
    obtain ⟨-, rfl⟩ := updateRun_ok.mp written
    exact .same rfl

end ListingFrames

/-- What the success of a run rests on: no listing of the generation is pending, and the report of
a submitted run was completed. -/
structure Settled (run : MarketplaceFeedRun) (listings : List Listing) : Prop where
  resolved : ∀ listing ∈ listings, listing.feedRun = some run.pk → listing.tenant = run.tenant →
    listing.status ≠ .pending
  reported : run.reportCompletedAt ≠ none ∨ run.submittedAt = none

structure FrameStep (action : FeedAction) (listings : List Listing) (old new : MarketplaceFeedRun) : Prop where
  pk : new.pk = old.pk
  total : new.totalCount = old.totalCount
  unfinished : old.state ≠ .succeeded
  report : new.state = .succeeded ∨ new.reportPage = 1 ∨
    new.reportPage = old.reportPage + if action.reportPage?.isSome then 1 else 0
  settled : new.state = .succeeded → Settled new listings

structure Created (s t : FeedStore) (fresh : MarketplaceFeedRun) : Prop where
  made : ∃ account given now, fresh =
      freshRun account given (s.listings.filter fun listing => isPendingRow account listing).length now ∧
    t.listings = s.listings.map (tagged account given.generationId)
  elsewhere : fresh.pk ∉ s.otherRuns

section RunFrames

variable {s t : FeedStore} {run : MarketplaceFeedRun} {claim : FeedRunClaim} {now : Instant} {action : FeedAction}

theorem unfinished_of_owns (owner : run.owns) : run.state ≠ .succeeded := by
  intro ended
  rw [MarketplaceFeedRun.owns, ended] at owner
  exact absurd owner (by decide)

theorem tally_eq_zero {status : ListingStatus} {listings : List Listing} (none : tally run status listings = 0) :
    ∀ listing ∈ listings, listing.feedRun = some run.pk → listing.tenant = run.tenant → listing.status ≠ status := by
  intro listing mem generation tenant same
  have empty := List.filter_eq_nil_iff.mp (List.length_eq_zero_iff.mp none) listing mem
  exact empty (decide_eq_true ⟨generation, tenant, same⟩)

theorem lockClaimedRun_unfinished {allowedStates : List FeedRunState}
    (locked : lockClaimedRun claim allowedStates now s = .ok run)
    (active : allowedStates ⊆ FeedRunState.activeStates) : run.state ≠ .succeeded :=
  unfinished_of_owns (lockClaimedRun_owns locked active)

theorem turnReportPage_frame {page : ReportPage} {delta : CounterDeltas} {listings : List Listing}
    {updated : MarketplaceFeedRun} (unfinished : run.state ≠ .succeeded)
    (next : ∀ next, page.nextPage = some next → next = run.reportPage + 1)
    (turned : turnReportPage page run delta listings now = .ok updated) :
    updated.totalCount = run.totalCount ∧ (updated.state = .succeeded ∨ updated.reportPage = 1 ∨ updated.reportPage = run.reportPage + 1) ∧
      (updated.state = .succeeded → Settled updated listings) := by
  unfold turnReportPage at turned
  split at turned
  next =>
    obtain ⟨counted, counters, same⟩ := bind_ok.mp turned
    cases same
    obtain ⟨-, rfl⟩ := recomputedCounters_counts.mp counters
    unfold afterLastPage
    split
    · split
      · exact ⟨rfl, .inr (.inl rfl), by simp⟩
      · exact ⟨rfl, .inr (.inl rfl), by simp⟩
    next resolved =>
      simp only [ne_eq, not_not] at resolved
      exact ⟨rfl, .inl rfl, fun _ => ⟨tally_eq_zero resolved, .inl (by simp)⟩⟩
  next following given =>
    obtain ⟨counted, counters, same⟩ := bind_ok.mp turned
    cases same
    obtain ⟨-, rfl⟩ := counterValues_counts counters
    exact ⟨rfl, .inr (.inr (next following given)), fun ended => absurd ended unfinished⟩

theorem KeepsOutcome.frame {listings : List Listing} (unreported : action.reportPage? = none)
    {old new : MarketplaceFeedRun} (keeps : KeepsOutcome old new) : FrameStep action listings old new where
  pk := keeps.pk
  total := keeps.total
  unfinished := unfinished_of_owns keeps.owner
  report := .inr (keeps.report.symm.imp_right fun same => by simp [same, unreported])
  settled ended := absurd ended keeps.unfinished

theorem FeedEffect.frame (effect : FeedEffect s t action) (ordered : s.Ordered) :
    Evolves MarketplaceFeedRun.pk (FrameStep action t.listings) (Created s t) s.runs t.runs := by
  have keys := ordered.rows.keys
  cases effect with
  | quiet unreported quiet =>
    exact (quiet.runs.mono fun _ _ keeps => keeps.frame unreported).widen fun _ never => never.elim
  | created account _ quiet unused elsewhere _ runs listings =>
    rw [quiet.listings] at runs listings
    rw [runs]
    refine ((quiet.runs.mono fun _ _ keeps => keeps.frame rfl).widen fun _ never => never.elim).append
      ⟨⟨account, _, _, rfl, listings⟩, elsewhere⟩ ?_
    intro old mem same
    exact List.find?_eq_none.mp unused old mem (decide_eq_true same)
  | resumed _ _ mem safe _ written =>
    obtain ⟨-, rfl⟩ := updateRun_ok.mp written
    exact Evolves.put keys mem rfl ⟨rfl, rfl, by simp [safe.1], .inr (.inr rfl), by simp⟩
  | pollStep _ _ locked counters written =>
    obtain ⟨-, rfl⟩ := updateRun_ok.mp written
    obtain ⟨-, rfl⟩ := counterValues_counts counters
    have unfinished := lockClaimedRun_unfinished locked (by decide)
    refine Evolves.put keys (lockClaimedRun_ok locked).1 rfl ?_
    exact ⟨rfl, rfl, unfinished, .inr (.inr rfl), fun ended => absurd ended unfinished⟩
  | polled _ _ _ locked _ _ _ _ runs =>
    rw [runs]
    have unfinished := lockClaimedRun_unfinished locked (by decide)
    refine Evolves.put keys (lockClaimedRun_ok locked).1 rfl ?_
    exact ⟨rfl, rfl, unfinished, .inr (.inr rfl), fun ended => absurd ended unfinished⟩
  | roundReset _ locked written =>
    obtain ⟨-, rfl⟩ := updateRun_ok.mp written
    have unfinished := lockClaimedRun_unfinished locked (by decide)
    refine Evolves.put keys (lockClaimedRun_ok locked).1 rfl ?_
    exact ⟨rfl, rfl, unfinished, .inr (.inr rfl), fun ended => absurd ended unfinished⟩
  | advanced _ _ locked current counters written =>
    obtain ⟨-, rfl⟩ := updateRun_ok.mp written
    obtain ⟨-, rfl⟩ := counterValues_counts counters
    have unfinished := lockClaimedRun_unfinished locked (by decide)
    refine Evolves.put keys (lockClaimedRun_ok locked).1 rfl ?_
    exact ⟨rfl, rfl, unfinished, .inr (.inr (congrArg (· + 1) current)), fun ended => absurd ended unfinished⟩
  | reported _ _ _ _ _ locked current next _ _ turned _ runs =>
    rw [runs]
    have unfinished := lockClaimedRun_unfinished locked (by decide)
    obtain ⟨pk, -, -⟩ := turnReportPage_identity turned
    obtain ⟨total, report, settled⟩ := turnReportPage_frame unfinished (current ▸ next) turned
    refine Evolves.put keys (lockClaimedRun_ok locked).1 pk ?_
    exact ⟨pk, total, unfinished, report, fun ended => ⟨(settled ended).resolved, (settled ended).reported⟩⟩
  | finished _ _ _ locked counters _ settled written =>
    obtain ⟨-, rfl⟩ := updateRun_ok.mp written
    obtain ⟨-, rfl⟩ := recomputedCounters_counts.mp counters
    have unfinished := lockClaimedRun_unfinished locked (by decide)
    refine Evolves.put keys (lockClaimedRun_ok locked).1 rfl ?_
    refine ⟨rfl, rfl, unfinished, .inr (.inr rfl), fun ended => ?_⟩
    obtain ⟨none, reported⟩ := settled ended
    exact ⟨tally_eq_zero none, reported.symm⟩

end RunFrames

section Keys

variable {s t : FeedStore} {action : FeedAction}

theorem ListingStep.pk {old new : Listing} (step : ListingStep s t action old new) : new.pk = old.pk := by
  cases step with
  | resolved _ _ _ _ _ outcome => exact outcome.pk
  | tagged _ _ _ _ _ same => rw [same]

theorem ListingFrame.pks (frame : ListingFrame action s t) :
    t.listings.map Listing.pk = s.listings.map Listing.pk := by
  obtain ⟨f, listings, step⟩ := frame
  rw [listings, List.map_map]
  apply List.map_congr_left
  intro listing mem
  rcases step listing mem with same | step
  · exact congrArg Listing.pk same
  · exact step.pk

theorem FeedEffect.otherRuns (effect : FeedEffect s t action) : t.otherRuns = s.otherRuns := by
  cases effect with
  | quiet _ quiet => exact quiet.otherRuns
  | created _ _ quiet _ _ _ _ _ otherRuns => exact otherRuns.trans quiet.otherRuns
  | polled _ _ _ _ _ outcomes => exact outcomes.otherRuns
  | reported _ _ _ _ _ _ _ _ _ outcomes => exact outcomes.otherRuns
  | resumed _ _ _ _ _ written =>
    obtain ⟨-, rfl⟩ := updateRun_ok.mp written
    rfl
  | pollStep _ _ _ _ written | roundReset _ _ written | advanced _ _ _ _ _ written
    | finished _ _ _ _ _ _ _ written =>
    obtain ⟨-, rfl⟩ := updateRun_ok.mp written
    rfl

theorem FeedEffect.keyed (effect : FeedEffect s t action) (ordered : s.Ordered) (keyed : s.Keyed) : t.Keyed where
  keys := effect.listings.pks ▸ keyed.keys
  named listing mem tag tagged := by
    have kept : ∀ pk ∈ s.runs.map MarketplaceFeedRun.pk ++ s.otherRuns,
        pk ∈ t.runs.map MarketplaceFeedRun.pk ++ t.otherRuns := by
      intro pk known
      rw [effect.otherRuns]
      rcases List.mem_append.mp known with known | known
      · obtain ⟨old, old_mem, rfl⟩ := List.mem_map.mp known
        obtain ⟨new, new_mem, same | step⟩ := (effect.frame ordered).kept old old_mem
        · exact List.mem_append_left _ (List.mem_map.mpr ⟨new, new_mem, congrArg _ same⟩)
        · exact List.mem_append_left _ (List.mem_map.mpr ⟨new, new_mem, step.pk⟩)
      · exact List.mem_append_right _ known
    obtain ⟨f, listings, change⟩ := effect.listings
    rw [listings] at mem
    obtain ⟨old, old_mem, rfl⟩ := List.mem_map.mp mem
    rcases change old old_mem with same | step
    · exact kept tag (keyed.named old old_mem tag (same ▸ tagged))
    · cases step with
      | resolved _ _ _ _ _ outcome => exact kept tag (keyed.named old old_mem tag (outcome.generation ▸ tagged))
      | tagged _ _ _ made _ same =>
        rw [same] at tagged
        cases tagged
        exact List.mem_append_left _ made

theorem FeedStore.saved_keyed (keyed : s.Keyed) : (s.saved t).Keyed := by
  unfold FeedStore.saved
  split
  next accepted => exact accepted
  next => exact keyed

theorem FeedStore.next_keyed (event : FeedEvent) (ordered : s.Ordered) (keyed : s.Keyed) :
    (s.next event).Keyed := by
  cases event with
  | workflow =>
    apply commit_preserves FeedStore.Keyed s _ keyed
    intro t outcome step
    exact (perform_effect ordered keyed step).keyed ordered keyed
  | accountSaved => exact ⟨keyed.keys, keyed.named⟩
  | listingsSaved => exact FeedStore.saved_keyed keyed
  | artifactAttached =>
    apply commit_preserves FeedStore.Keyed s _ keyed
    intro t result step
    simp only [attachArtifact, bind_ok, orRaise_ok] at step
    obtain ⟨_, -, _, written, same⟩ := step
    cases same
    obtain ⟨-, rfl⟩ := updateRun_ok.mp written
    refine ⟨keyed.keys, fun listing mem tag tagged => ?_⟩
    rw [map_key_put]
    exact keyed.named listing mem tag tagged
  | elsewhere => exact FeedStore.saved_keyed keyed

def FeedStore.blank (start : FeedStore) : FeedStore := { start with runs := [], listings := [] }

theorem FeedStore.blank_ordered (start : FeedStore) : start.blank.Ordered :=
  (FeedStore.empty_ordered start).congr rfl

theorem FeedStore.blank_keyed (start : FeedStore) : start.blank.Keyed :=
  ⟨List.nodup_nil, fun _ mem => absurd mem List.not_mem_nil⟩

theorem FeedStore.reached_keyed (start : FeedStore) (events : List FeedEvent) :
    (run FeedStore.next start.blank events).Ordered ∧ (run FeedStore.next start.blank events).Keyed := by
  have kept : ∀ (s : FeedStore) (event : FeedEvent), s.Ordered ∧ s.Keyed →
      (s.next event).Ordered ∧ (s.next event).Keyed := by
    intro s event ⟨ordered, keyed⟩
    exact ⟨FeedStore.next_ordered s event ordered, FeedStore.next_keyed event ordered keyed⟩
  exact run_always FeedStore.next kept ⟨start.blank_ordered, start.blank_keyed⟩ events

end Keys

def acceptedPage (runId : Uuid) (s : FeedStore) : FeedEvent → List ℕ
  | .workflow action =>
    match action.reportPage?, perform s action with
    | some (pk, page), .ok _ => if pk = runId then [page] else []
    | _, _ => []
  | _ => []

def acceptedPages (runId : Uuid) : FeedStore → List FeedEvent → List ℕ
  | _, [] => []
  | s, event :: rest => acceptedPage runId s event ++ acceptedPages runId (s.next event) rest

/-- The generation expects the page after `last`, the first page, or none any more. -/
def Expects (runId : Uuid) (last : ℕ) (s : FeedStore) : Prop :=
  ∀ run ∈ s.runs, run.pk = runId → run.state = .succeeded ∨ run.reportPage = 1 ∨ run.reportPage = last + 1

section Pages

variable {s t : FeedStore} {action : FeedAction} {runId : Uuid} {last : ℕ}

theorem FeedEffect.page {pk : Uuid} {page : ℕ} (effect : FeedEffect s t action)
    (given : action.reportPage? = some (pk, page)) :
    ∃ run ∈ s.runs, run.pk = pk ∧ run.state ≠ .succeeded ∧ run.reportPage = page ∧
      ∃ new, new.pk = pk ∧ t.runs = put MarketplaceFeedRun.pk new s.runs ∧
        (new.state = .succeeded ∨ new.reportPage = 1 ∨ new.reportPage = page + 1) := by
  cases effect with
  | quiet unreported => simp [unreported] at given
  | advanced run _ locked current counters written =>
    obtain ⟨rfl, rfl⟩ := Prod.mk.inj (Option.some.inj given)
    obtain ⟨-, rfl⟩ := updateRun_ok.mp written
    obtain ⟨-, rfl⟩ := counterValues_counts counters
    obtain ⟨mem, fences⟩ := lockClaimedRun_ok locked
    have unfinished := lockClaimedRun_unfinished locked (by decide)
    refine ⟨run, mem, fences.pk, unfinished, current.symm, _, ?_, rfl, ?_⟩
    · exact fences.pk
    · exact .inr (.inr rfl)
  | reported run _ _ _ _ locked current next _ _ turned _ runs =>
    obtain ⟨rfl, rfl⟩ := Prod.mk.inj (Option.some.inj given)
    obtain ⟨mem, fences⟩ := lockClaimedRun_ok locked
    have unfinished := lockClaimedRun_unfinished locked (by decide)
    obtain ⟨pk, -, -⟩ := turnReportPage_identity turned
    obtain ⟨-, report, -⟩ := turnReportPage_frame unfinished (current ▸ next) turned
    refine ⟨run, mem, fences.pk, unfinished, current.symm, _, ?_, runs, ?_⟩
    · exact pk.trans fences.pk
    · exact current ▸ report
  | _ => simp [FeedAction.reportPage?] at given

theorem Expects.keep (expects : Expects runId last s) (effect : FeedEffect s t action) (ordered : s.Ordered)
    (unreported : action.reportPage? = none) : Expects runId last t := by
  intro new mem pk
  rcases (effect.frame ordered).source new mem with ⟨⟨⟨_, _, _, rfl, -⟩, -⟩, -⟩ | ⟨old, old_mem, rfl | step⟩
  · exact .inr (.inl rfl)
  · exact expects new old_mem pk
  · have before := (expects old old_mem (step.pk.symm.trans pk)).resolve_left step.unfinished
    have report := step.report
    simp only [unreported, Option.isSome_none, Bool.false_eq_true, if_false, Nat.add_zero] at report
    rcases report with ended | first | same
    · exact .inl ended
    · exact .inr (.inl first)
    · exact .inr (same ▸ before)

theorem Expects.accept {pk : Uuid} {page : ℕ} (expects : Expects runId last s) (effect : FeedEffect s t action)
    (given : action.reportPage? = some (pk, page)) :
    if pk = runId then (page = last + 1 ∨ page = 1) ∧ Expects runId page t else Expects runId last t := by
  obtain ⟨run, mem, same, unfinished, current, _, new_pk, runs, report⟩ := effect.page given
  split
  next hit =>
    subst hit
    have before := (expects run mem same).resolve_left unfinished
    refine ⟨current ▸ before.symm, fun row row_mem row_pk => ?_⟩
    rw [runs] at row_mem
    rcases mem_put.mp row_mem with ⟨rfl, -⟩ | ⟨-, other⟩
    · exact report
    · exact absurd (row_pk.trans new_pk.symm) other
  next miss =>
    intro row row_mem row_pk
    rw [runs] at row_mem
    rcases mem_put.mp row_mem with ⟨rfl, -⟩ | ⟨kept, -⟩
    · exact absurd (new_pk.symm.trans row_pk) miss
    · exact expects row kept row_pk

theorem Expects.next (expects : Expects runId last s) (event : FeedEvent) (ordered : s.Ordered) (keyed : s.Keyed) :
    acceptedPage runId s event = [] ∧ Expects runId last (s.next event) ∨
      ∃ page, acceptedPage runId s event = [page] ∧ (page = last + 1 ∨ page = 1) ∧
        Expects runId page (s.next event) := by
  cases event with
  | workflow action =>
    cases step : perform s action with
    | error =>
      have same : s.next (.workflow action) = s := by simp [FeedStore.next, step]
      refine .inl ⟨?_, same.symm ▸ expects⟩
      cases given : action.reportPage? <;> simp [acceptedPage, step, given]
    | ok pair =>
      obtain ⟨t, _⟩ := pair
      have effect := perform_effect ordered keyed step
      rw [next_workflow step]
      cases given : action.reportPage? with
      | none => exact .inl ⟨by simp [acceptedPage, given], expects.keep effect ordered given⟩
      | some named =>
        obtain ⟨pk, page⟩ := named
        have accepted := expects.accept effect given
        by_cases hit : pk = runId
        · rw [if_pos hit] at accepted
          exact .inr ⟨page, by simp [acceptedPage, given, step, hit], accepted⟩
        · rw [if_neg hit] at accepted
          exact .inl ⟨by simp [acceptedPage, given, step, hit], accepted⟩
  | accountSaved => exact .inl ⟨rfl, expects⟩
  | listingsSaved listings =>
    have same : (s.next (.listingsSaved listings)).runs = s.runs := FeedStore.saved_runs rfl
    exact .inl ⟨rfl, fun run mem => expects run (same ▸ mem)⟩
  | elsewhere otherRuns otherExternalIds =>
    have same : (s.next (.elsewhere otherRuns otherExternalIds)).runs = s.runs := FeedStore.saved_runs rfl
    exact .inl ⟨rfl, fun run mem => expects run (same ▸ mem)⟩
  | artifactAttached =>
    refine .inl ⟨rfl, ?_⟩
    apply commit_preserves (Expects runId last) s _ expects
    intro t result step
    obtain ⟨run, mem, -, runs⟩ := attachArtifact_ok step
    intro row row_mem row_pk
    rw [runs] at row_mem
    rcases mem_put.mp row_mem with ⟨rfl, -⟩ | ⟨kept, -⟩
    · exact expects run mem row_pk
    · exact expects row kept row_pk

theorem Expects.chain (events : List FeedEvent) (expects : Expects runId last s) (ordered : s.Ordered)
    (keyed : s.Keyed) :
    (last :: acceptedPages runId s events).IsChain fun page next => next = page + 1 ∨ next = 1 := by
  induction events generalizing s last with
  | nil => exact .singleton last
  | cons event _ ih =>
    have ordered' := FeedStore.next_ordered s event ordered
    have keyed' := FeedStore.next_keyed event ordered keyed
    rcases expects.next event ordered keyed with ⟨none, later⟩ | ⟨page, one, follows, later⟩
    · simpa [acceptedPages, none] using ih later ordered' keyed'
    · simpa [acceptedPages, one] using ⟨follows, ih later ordered' keyed'⟩

end Pages

section Frame

variable {s t : FeedStore} {action : FeedAction}

theorem FeedEffect.keeps_resolved (effect : FeedEffect s t action) {listing : Listing} (mem : listing ∈ s.listings)
    (resolved : listing.status ≠ .pending) : listing ∈ t.listings := by
  obtain ⟨f, listings, change⟩ := effect.listings
  rw [listings]
  refine List.mem_map.mpr ⟨listing, mem, (change listing mem).resolve_right fun step => ?_⟩
  cases step with
  | resolved _ _ _ awaits => exact resolved awaits.pending
  | tagged _ pending => exact resolved pending

theorem keeps_resolved (ordered : s.Ordered) (keyed : s.Keyed) {listing : Listing} (mem : listing ∈ s.listings)
    (resolved : listing.status ≠ .pending) (later : List FeedAction) :
    listing ∈ (run FeedStore.next s (later.map .workflow)).listings := by
  induction later generalizing s with
  | nil => exact mem
  | cons action _ ih =>
    have ordered' := FeedStore.next_ordered s (.workflow action) ordered
    have keyed' := FeedStore.next_keyed (.workflow action) ordered keyed
    apply ih ordered' keyed'
    cases step : perform s action with
    | error => simpa [FeedStore.next, step] using mem
    | ok =>
      rw [next_workflow step]
      exact (perform_effect ordered keyed step).keeps_resolved mem resolved

end Frame

/-- For every order of the workflow's operations and of what else writes the account's rows, from
empty tables: an operation with a claim changes only live pending listings without a provider
id of exactly the claimed generation and its tenant that its page names, and gives them their
first outcome; a listing that is not pending is never changed by any later operations; the
report pages of a generation are acknowledged one after the other, from the first in every round;
and a run becomes succeeded only when no listing of the generation is pending and its report
was completed, or the run was never submitted. -/
theorem outcome_frame (start : FeedStore) (events : List FeedEvent) (action : FeedAction)
    (later : List FeedAction) (runId : Uuid) :
    let s := run FeedStore.next start.blank events
    let t := s.next (.workflow action)
    (∀ claim now, action.claim? = some (claim, now) →
      t.listings.map Listing.pk = s.listings.map Listing.pk ∧
      ∀ old ∈ s.listings, old ∈ t.listings ∨ ∃ new ∈ t.listings, FirstOutcome old new ∧ action.Names old ∧
        ∃ run ∈ s.runs, run.pk = claim.runId ∧ Awaits run old) ∧
      (∀ old ∈ s.listings, old.status ≠ .pending → old ∈ (run FeedStore.next s (later.map .workflow)).listings) ∧
      ((0 :: acceptedPages runId start.blank events).IsChain fun page next => next = page + 1 ∨ next = 1) ∧
      ∀ old ∈ s.runs, ∀ new ∈ t.runs, new.pk = old.pk → old.state ≠ .succeeded → new.state = .succeeded →
        (∀ listing ∈ t.listings, listing.feedRun = some new.pk → listing.tenant = new.tenant →
          listing.status ≠ .pending) ∧ (new.reportCompletedAt ≠ none ∨ new.submittedAt = none) := by
  intro s t
  obtain ⟨ordered, keyed⟩ : s.Ordered ∧ s.Keyed := FeedStore.reached_keyed start events
  refine ⟨?_, ?_, ?_, ?_⟩
  · intro claim now presented
    cases step : perform s action with
    | error =>
      have same : t = s := by simp [t, FeedStore.next, step]
      rw [same]
      exact ⟨rfl, fun old mem => .inl mem⟩
    | ok pair =>
      have same : t = pair.1 := next_workflow step
      have frame := (perform_effect ordered keyed step).listings
      rw [same]
      refine ⟨frame.pks, fun old mem => ?_⟩
      obtain ⟨f, listings, change⟩ := frame
      have made : f old ∈ pair.1.listings := listings ▸ List.mem_map_of_mem mem
      rcases change old mem with kept | moved
      · exact .inl (kept ▸ made)
      · cases moved with
        | resolved given run_mem fences awaits named outcome =>
          obtain ⟨rfl, rfl⟩ := Prod.mk.inj (Option.some.inj (presented.symm.trans given))
          exact .inr ⟨f old, made, outcome, named, _, run_mem, fences.pk, awaits⟩
        | tagged unclaimed => simp [unclaimed] at presented
  · intro old mem resolved
    exact keeps_resolved ordered keyed mem resolved later
  · apply Expects.chain events _ start.blank_ordered start.blank_keyed
    exact fun _ mem => absurd mem List.not_mem_nil
  · intro old old_mem new new_mem pk open' ended
    cases step : perform s action with
    | error =>
      have same : t = s := by simp [t, FeedStore.next, step]
      rw [same] at new_mem
      have one : new = old := row_unique ordered.rows.keys new_mem old_mem pk
      exact absurd (one ▸ ended) open'
    | ok pair =>
      have same : t = pair.1 := next_workflow step
      rw [same] at new_mem ⊢
      have evolves := (perform_effect ordered keyed step).frame ordered
      rcases evolves.row ordered.rows.keys (fun _ _ moved => moved.pk) old_mem new_mem pk with rfl | moved
      · exact absurd ended open'
      · exact ⟨(moved.settled ended).resolved, (moved.settled ended).reported⟩

/-- A run that was never submitted succeeds without a report. -/
theorem unsubmitted_run_succeeds :
    ∃ old ∈ claimedStore.runs,
      ∃ new ∈ (claimedStore.next (.workflow (.finishFeedRun firstClaim .succeeded false 5))).runs,
        new.pk = old.pk ∧ old.state ≠ .succeeded ∧ new.state = .succeeded ∧ new.reportCompletedAt = none := by
  decide +kernel

end MapBackend.Marketplaces
