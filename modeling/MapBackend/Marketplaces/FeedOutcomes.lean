import MapBackend.Marketplaces.FeedRunSafety

/-!
What the workflow does to listings.
-/

namespace MapBackend.Marketplaces
open MapBackend.Library FeedWorkflow

/-- A live listing of exactly this generation that no outcome is known for. -/
structure Awaits (run : MarketplaceFeedRun) (listing : Listing) : Prop where
  live : listing.deletedAt = none
  generation : listing.feedRun = some run.pk
  tenant : listing.tenant = run.tenant
  pending : listing.status = .pending
  unresolved : listing.externalId = none

/-- The first outcome of a listing: it is published or rejected and keeps its identity. -/
structure FirstOutcome (old new : Listing) : Prop where
  pk : new.pk = old.pk
  tenant : new.tenant = old.tenant
  generation : new.feedRun = old.feedRun
  deleted : new.deletedAt = old.deletedAt
  status : new.status = .active ∨ new.status = .rejected

def pollChange (resolvedExternalIds : List (ℕ × String)) (now : Instant) (listing : Listing) : Option Listing :=
  (resolvedExternalIds.lookup listing.pk).map fun externalId => publishedListing listing externalId now

def errorChange (page : ReportPage) (now : Instant) (listing : Listing) : Option Listing :=
  (page.errors.lookup listing.publishIdempotencyKey).map fun reason => rejectedListing listing reason now

def publishChange (page : ReportPage) (now : Instant) (listing : Listing) : Option Listing :=
  (page.externalIds.lookup listing.publishIdempotencyKey).map fun externalId =>
    publishedListing listing externalId now

def reportChange (page : ReportPage) (now : Instant) (listing : Listing) : Option Listing :=
  (errorChange page now listing).or (publishChange page now listing)

def resolveRows (rows : List Listing) (change : Listing → Option Listing) (listing : Listing) : Listing :=
  if listing ∈ rows then (change listing).getD listing else listing

/-- A page gave the listings of `rows` that `change` knows their first outcome and no other
listing anything. -/
structure Resolved (run : MarketplaceFeedRun) (rows : List Listing) (change : Listing → Option Listing)
    (published rejected : ℕ) (s t : FeedStore) : Prop where
  sub : rows.Subperm s.listings
  awaits : ∀ listing ∈ rows, Awaits run listing
  outcome : ∀ listing new, change listing = some new → FirstOutcome listing new
  published : ((rows.filterMap change).filter fun new => new.status = .active).length = published
  rejected : ((rows.filterMap change).filter fun new => new.status = .rejected).length = rejected
  listings : t.listings = s.listings.map (resolveRows rows change)
  otherRuns : t.otherRuns = s.otherRuns

section Pages

variable {s t : FeedStore} {run : MarketplaceFeedRun} {claim : FeedRunClaim} {now nextAttemptAt : Instant}

theorem pageOf_subperm (limit : ℕ) (cond : Listing → Prop) [DecidablePred cond] (listings : List Listing) :
    (pageOf limit (listings.filter fun listing => cond listing)).Subperm listings := by
  have sorted := List.perm_insertionSort (fun a b : Listing => a.pk ≤ b.pk)
    (listings.filter fun listing => cond listing)
  exact ((List.take_sublist _ _).subperm.trans sorted.subperm).trans List.filter_sublist.subperm

theorem mem_pageOf {limit : ℕ} {cond : Listing → Prop} [DecidablePred cond] {listings : List Listing}
    {listing : Listing} (mem : listing ∈ pageOf limit (listings.filter fun listing => cond listing)) :
    cond listing := by
  have sorted := (List.mem_insertionSort _).mp (List.mem_of_mem_take mem)
  exact of_decide_eq_true (List.mem_filter.mp sorted).2

theorem publishedListing_outcome (listing : Listing) (externalId : String) (now : Instant) :
    FirstOutcome listing (publishedListing listing externalId now) := ⟨rfl, rfl, rfl, rfl, .inl rfl⟩

theorem rejectedListing_outcome (listing : Listing) (reason : String) (now : Instant) :
    FirstOutcome listing (rejectedListing listing reason now) := ⟨rfl, rfl, rfl, rfl, .inr rfl⟩

variable {listing new : Listing}

theorem pollChange_published {resolvedExternalIds : List (ℕ × String)}
    (changed : pollChange resolvedExternalIds now listing = some new) :
    FirstOutcome listing new ∧ new.status = .active := by
  obtain ⟨externalId, -, rfl⟩ := Option.map_eq_some_iff.mp changed
  exact ⟨publishedListing_outcome listing externalId now, rfl⟩

variable {page : ReportPage}

theorem errorChange_rejected
    (changed : errorChange page now listing = some new) :
    FirstOutcome listing new ∧ new.status = .rejected := by
  obtain ⟨reason, -, rfl⟩ := Option.map_eq_some_iff.mp changed
  exact ⟨rejectedListing_outcome listing reason now, rfl⟩

theorem publishChange_published
    (changed : publishChange page now listing = some new) :
    FirstOutcome listing new ∧ new.status = .active := by
  obtain ⟨externalId, -, rfl⟩ := Option.map_eq_some_iff.mp changed
  exact ⟨publishedListing_outcome listing externalId now, rfl⟩

theorem reportChange_outcome
    (changed : reportChange page now listing = some new) : FirstOutcome listing new := by
  rcases Option.or_eq_some_iff.mp changed with refused | ⟨-, accepted⟩
  · exact (errorChange_rejected refused).1
  · exact (publishChange_published accepted).1

theorem updateListings_ok {changed : List Listing} (step : updateListings s changed = .ok t) :
    t = { s with listings := s.listings.map fun listing =>
      (changed.find? fun row => row.pk = listing.pk).getD listing } := by
  simp only [updateListings, writeListings] at step
  split at step
  next =>
    cases step
    rfl
  next => cases step

variable {change : Listing → Option Listing}

theorem resolveRows_of_find {listings rows changed : List Listing}
    (found : ∀ listing ∈ listings, changed.find? (fun row => decide (row.pk = listing.pk)) =
      if listing ∈ rows then change listing else none) :
    (listings.map fun listing => (changed.find? fun row => row.pk = listing.pk).getD listing) =
      listings.map (resolveRows rows change) := by
  apply List.map_congr_left
  intro listing mem
  rw [found listing mem, resolveRows]
  split <;> rfl

theorem filter_published {status : ListingStatus}
    (always : ∀ listing new, change listing = some new → new.status = status) (rows : List Listing) :
    ((rows.filterMap change).filter fun new => new.status = status) = rows.filterMap change := by
  apply List.filter_eq_self.mpr
  intro new mem
  obtain ⟨listing, -, changed⟩ := List.mem_filterMap.mp mem
  exact decide_eq_true (always listing new changed)

theorem filter_other {status other : ListingStatus} (different : other ≠ status)
    (always : ∀ listing new, change listing = some new → new.status = other) (rows : List Listing) :
    ((rows.filterMap change).filter fun new => new.status = status) = [] := by
  apply List.filter_eq_nil_iff.mpr
  intro new mem
  obtain ⟨listing, -, changed⟩ := List.mem_filterMap.mp mem
  simp [always listing new changed, different]

@[simp] theorem afterPublishing_listings (published : List Listing) :
    (afterPublishing published now s).listings = s.listings := by
  unfold afterPublishing
  split <;> rfl

@[simp] theorem afterPublishing_otherRuns (published : List Listing) :
    (afterPublishing published now s).otherRuns = s.otherRuns := by
  unfold afterPublishing
  split <;> rfl

theorem applyPollPage_effect {batchListingIds : List ℕ} {resolvedExternalIds : List (ℕ × String)}
    {lastListingId : ℕ} (keyed : s.Keyed)
    (step : applyPollPage claim batchListingIds resolvedExternalIds lastListingId nextAttemptAt now s = .ok t) :
    ∃ run rows resolved, lockClaimedRun claim [.polling] now s = .ok run ∧
      rows.map Listing.pk = batchListingIds ∧
      Resolved run rows (pollChange resolvedExternalIds now) resolved 0 s t ∧ resolved ≤ run.pendingCount ∧
      FeedRunConstraints t.runs ∧
      t.runs = put MarketplaceFeedRun.pk { run with
        publishedCount := run.publishedCount + resolved
        pendingCount := run.pendingCount - resolved
        pollCursorListingId := lastListingId
        nextAttemptAt := some nextAttemptAt
        revision := run.revision + 1
        claimToken := none
        claimedUntil := none } s.runs := by
  simp only [applyPollPage, bind_ok, raiseIf_ok, not_not] at step
  obtain ⟨_, -, _, -, _, -, _, -, _, -, _, -, _, -, run, locked, _, -, _, batch, written, listings, counted,
    counters, after, step, same⟩ := step
  cases same
  simp only [counterValues, bind_ok, raiseIf_ok, Nat.add_zero] at counters
  obtain ⟨_, enough, _, -, same⟩ := counters
  cases same
  obtain ⟨rows, rfl⟩ := updateRun_ok.mp step
  obtain rfl := updateListings_ok listings
  have sub := pageOf_subperm maxPollBatchSize
    (fun listing => afterCursor run listing ∧ listing.tenant = run.tenant) s.listings
  have active : ∀ listing new, pollChange resolvedExternalIds now listing = some new → new.status = .active :=
    fun _ _ made => (pollChange_published made).2
  refine ⟨run, _, _, locked, batch, ⟨sub, ?_, ?_, ?_, ?_, ?_, ?_⟩, Nat.le_of_not_lt enough, ?_, ?_⟩
  · intro listing mem
    obtain ⟨⟨live, generation, pending, unresolved, -⟩, tenant⟩ := mem_pageOf mem
    exact ⟨live, generation, tenant, pending, unresolved⟩
  · intro listing new changed
    exact (pollChange_published changed).1
  · exact congrArg List.length (filter_published active _)
  · exact congrArg List.length (filter_other (by decide) active _)
  · rw [afterPublishing_listings]
    apply resolveRows_of_find
    intro listing mem
    exact find_change keyed.keys sub.subset (fun _ _ changed => (pollChange_published changed).1.pk) mem
  · exact afterPublishing_otherRuns _
  · rw [afterPublishing_runs]
    exact rows
  · rw [afterPublishing_runs]

theorem publishChange_none {u : Unit} (checked : checkReportPage page = .ok u) (refused : errorChange page now listing = some new) :
    publishChange page now listing = none := by
  simp only [checkReportPage, bind_ok, raiseIf_ok] at checked
  obtain ⟨_, -, _, -, _, -, _, -, _, -, _, -, _, -, _, -, _, -, _, -, _, disjoint, -⟩ := checked
  obtain ⟨reason, error, -⟩ := Option.map_eq_some_iff.mp refused
  apply Option.map_eq_none_iff.mpr
  apply List.lookup_eq_none_iff.mpr
  intro row mem
  obtain ⟨_, _, named, -⟩ := List.lookup_eq_some_iff.mp error
  have listed : (listing.publishIdempotencyKey, reason) ∈ page.errors := by simp [named]
  apply bne_iff_ne.mpr
  intro same
  exact disjoint ⟨_, listed, List.mem_map.mpr ⟨row, mem, same.symm⟩⟩

theorem reportChange_split {u : Unit} (checked : checkReportPage page = .ok u)
    (rows : List Listing) :
    ((rows.filterMap (reportChange page now)).filter fun new => new.status = .rejected) =
        rows.filterMap (errorChange page now) ∧
      ((rows.filterMap (reportChange page now)).filter fun new => new.status = .active) =
        rows.filterMap (publishChange page now) := by
  induction rows with
  | nil => exact ⟨rfl, rfl⟩
  | cons listing _ ih =>
    cases refused : errorChange page now listing with
    | some =>
      have unpublished := publishChange_none checked refused
      have status := (errorChange_rejected refused).2
      simp [reportChange, refused, unpublished, status, ih]
    | none =>
      cases accepted : publishChange page now listing with
      | none => simpa [reportChange, refused, accepted] using ih
      | some =>
        have status := (publishChange_published accepted).2
        simp [reportChange, refused, accepted, status, ih]

theorem applyReportPage_effect (keyed : s.Keyed)
    (step : applyReportPage claim page now s = .ok t) :
    ∃ run rows published rejected updated, lockClaimedRun claim [.reporting] now s = .ok run ∧
      page.currentPage = run.reportPage ∧ (∀ next, page.nextPage = some next → next = page.currentPage + 1) ∧
      (∀ listing ∈ rows, listing.publishIdempotencyKey ∈
        page.errors.map Prod.fst ++ page.externalIds.map Prod.fst) ∧
      Resolved run rows (reportChange page now) published rejected s t ∧
      turnReportPage page run { published, rejected, otherResolved := 0 } t.listings now = .ok updated ∧
      FeedRunConstraints t.runs ∧
      t.runs = put MarketplaceFeedRun.pk { updated with
        revision := updated.revision + 1
        claimToken := none
        claimedUntil := none } s.runs := by
  simp only [applyReportPage, bind_ok, raiseIf_ok, not_or, not_not] at step
  obtain ⟨_, checked, run, locked, _, ⟨current, -⟩, _, listings, updated, turned, _, step, same⟩ := step
  cases same
  obtain ⟨accepted, rfl⟩ := updateRun_ok.mp step
  obtain rfl := updateListings_ok listings
  let rows := pageOf maxPollBatchSize (s.listings.filter fun listing => listing.deletedAt = none ∧
    listing.feedRun = some run.pk ∧ listing.tenant = run.tenant ∧ listing.status = .pending ∧
      listing.externalId = none ∧
      listing.publishIdempotencyKey ∈ page.errors.map Prod.fst ++ page.externalIds.map Prod.fst)
  have sub : rows.Subperm s.listings := pageOf_subperm maxPollBatchSize _ s.listings
  have next : ∀ next, page.nextPage = some next → next = page.currentPage + 1 := by
    simp only [checkReportPage, bind_ok, raiseIf_ok] at checked
    obtain ⟨_, -, _, one, -⟩ := checked
    intro next given
    simpa [given] using one
  refine ⟨run, rows, (rows.filterMap (publishChange page now)).length,
    (rows.filterMap (errorChange page now)).length, updated, locked, current, next, ?_,
    ⟨sub, ?_, ?_, ?_, ?_, ?_, ?_⟩, ?_, ?_, ?_⟩
  · intro listing mem
    exact (mem_pageOf mem).2.2.2.2.2
  · intro listing mem
    obtain ⟨live, generation, tenant, pending, unresolved, -⟩ := mem_pageOf mem
    exact ⟨live, generation, tenant, pending, unresolved⟩
  · intro listing new changed
    exact reportChange_outcome changed
  · exact congrArg List.length (reportChange_split checked rows).2
  · exact congrArg List.length (reportChange_split checked rows).1
  · rw [afterPublishing_listings]
    apply resolveRows_of_find
    intro listing mem
    have refused := find_change keyed.keys sub.subset
      (fun _ _ (changed : errorChange page now _ = some _) => (errorChange_rejected changed).1.pk) mem
    have published := find_change keyed.keys sub.subset
      (fun _ _ (changed : publishChange page now _ = some _) => (publishChange_published changed).1.pk) mem
    refine List.find?_append.trans ((congrArg₂ Option.or refused published).trans ?_)
    split <;> rfl
  · exact afterPublishing_otherRuns _
  · rw [afterPublishing_listings]
    exact turned
  · rw [afterPublishing_runs]
    exact accepted
  · rw [afterPublishing_runs]

end Pages

section CountedOperations

variable {s t : FeedStore} {run : MarketplaceFeedRun} {claim : FeedRunClaim} {now nextAttemptAt : Instant}

variable {delta : CounterDeltas}

theorem counterValues_counts {counted : MarketplaceFeedRun}
    (step : counterValues run delta = .ok counted) :
    delta.published + delta.rejected + delta.otherResolved ≤ run.pendingCount ∧ counted = { run with
      publishedCount := run.publishedCount + delta.published
      rejectedCount := run.rejectedCount + delta.rejected
      pendingCount := run.pendingCount - (delta.published + delta.rejected + delta.otherResolved) } := by
  simp only [counterValues, bind_ok, raiseIf_ok] at step
  obtain ⟨_, enough, _, -, same⟩ := step
  cases same
  exact ⟨Nat.le_of_not_lt enough, rfl⟩

def tally (run : MarketplaceFeedRun) (status : ListingStatus) (listings : List Listing) : ℕ :=
  (listings.filter fun listing =>
    listing.feedRun = some run.pk ∧ listing.tenant = run.tenant ∧ listing.status = status).length

theorem recomputedCounters_counts {listings : List Listing} {counted : MarketplaceFeedRun} :
    recomputedCounters run listings = .ok counted ↔
      tally run .active listings + tally run .rejected listings + tally run .pending listings ≤ run.totalCount ∧
        counted = { run with
          publishedCount := tally run .active listings
          rejectedCount := tally run .rejected listings
          pendingCount := tally run .pending listings } := by
  simp only [recomputedCounters, bind_ok, raiseIf_ok, Nat.not_lt]
  constructor
  · rintro ⟨_, fits, same⟩
    cases same
    exact ⟨fits, rfl⟩
  · rintro ⟨fits, rfl⟩
    exact ⟨(), fits, rfl⟩

theorem completePollStep_effect {lastListingId : ℕ}
    (step : completePollStep claim lastListingId delta nextAttemptAt now s = .ok t) :
    ∃ run counted, lockClaimedRun claim [.polling] now s = .ok run ∧ counterValues run delta = .ok counted ∧
      transitionClaimed { counted with
        pollCursorListingId := lastListingId
        nextAttemptAt := some nextAttemptAt } s = .ok t := by
  simp only [completePollStep, bind_ok, raiseIf_ok] at step
  obtain ⟨run, locked, _, -, counted, counters, step⟩ := step
  exact ⟨run, counted, locked, counters, step⟩

theorem advanceReportPage_effect {currentPage : ℕ}
    (step : advanceReportPage claim currentPage delta nextAttemptAt now s = .ok t) :
    ∃ run counted, lockClaimedRun claim [.reporting] now s = .ok run ∧ currentPage = run.reportPage ∧
      counterValues run delta = .ok counted ∧ transitionClaimed { counted with
        reportPage := currentPage + 1
        reportAttempt := 0
        nextAttemptAt := some nextAttemptAt } s = .ok t := by
  simp only [advanceReportPage, bind_ok, raiseIf_ok, not_or, not_not] at step
  obtain ⟨_, -, run, locked, _, ⟨current, -⟩, counted, counters, step⟩ := step
  exact ⟨run, counted, locked, current, counters, step⟩

def livePending (run : MarketplaceFeedRun) (listings : List Listing) : List Listing :=
  listings.filter fun listing => listing.deletedAt = none ∧ listing.feedRun = some run.pk ∧
    listing.status = .pending ∧ listing.externalId = none

theorem resetPollRound_effect (step : resetPollRound claim nextAttemptAt now s = .ok t) :
    ∃ run, lockClaimedRun claim [.polling] now s = .ok run ∧ transitionClaimed { run with
      pollCursorListingId := 0
      pollRound := run.pollRound + 1
      pendingCount := (livePending run s.listings).length
      nextAttemptAt := some nextAttemptAt } s = .ok t := by
  simp only [resetPollRound, bind_ok, raiseIf_ok] at step
  obtain ⟨_, -, run, locked, _, -, step⟩ := step
  exact ⟨run, locked, step⟩

theorem finishFeedRun_effect {state : FeedRunState} {submission : Bool}
    (step : finishFeedRun claim state submission now s = .ok t) :
    ∃ run counted attempt, lockClaimedRun claim FeedRunState.activeStates now s = .ok run ∧
      recomputedCounters run s.listings = .ok counted ∧
      state ∈ [FeedRunState.succeeded, .failed, .outcomeUncertain, .cancelled] ∧
      (state = .succeeded → counted.pendingCount = 0 ∧ (run.submittedAt = none ∨ run.reportCompletedAt ≠ none)) ∧
      transitionClaimed { counted with
        state
        submissionReconcileAttempt := attempt
        nextAttemptAt := none
        finishedAt := some now } s = .ok t := by
  simp only [finishFeedRun, bind_ok, raiseIf_ok, not_not] at step
  obtain ⟨_, allowed, run, locked, _, -, counted, counters, _, resolved, _, reported, step⟩ := step
  refine ⟨run, counted, _, locked, counters, allowed, fun succeeded => ⟨?_, ?_⟩, step⟩
  · by_contra pending
    exact resolved ⟨succeeded, pending⟩
  · by_contra unreported
    simp only [not_or, not_not] at unreported
    exact reported ⟨succeeded, unreported.1, unreported.2⟩

theorem resumeFailed_effect {accountId : ℕ} {generationId : Uuid} {expectedRevision : ℕ}
    {payloadSha256 : String} {hasUploadAttempts : Bool}
    (step : resumeFailedPreSubmissionFeedRun accountId generationId expectedRevision payloadSha256
      hasUploadAttempts now s = .ok t) :
    ∃ run account, run ∈ s.runs ∧ safePreSubmissionFailure account run expectedRevision payloadSha256 ∧
      (s.listings.filter fun listing => isPendingRow account listing ∧ listing.feedRun = some run.pk).length =
        run.pendingCount ∧
      updateRun s { run with
        state := .preparing
        revision := run.revision + 1
        nextAttemptAt := some now
        finishedAt := none } = .ok t := by
  simp only [resumeFailedPreSubmissionFeedRun, bind_ok, raiseIf_ok, orRaise_ok, not_not] at step
  obtain ⟨account, -, _, -, run, found, _, safe, _, -, _, members, step⟩ := step
  exact ⟨run, account, findRun_mem found, safe, members, step⟩

end CountedOperations

section Creation

variable {s t : FeedStore} {now : Instant}

def tagged (account : MarketplaceAccount) (generation : Uuid) (listing : Listing) : Listing :=
  if isPendingRow account listing then { listing with feedRun := some generation } else listing

theorem createOrSupersede_effect {accountId : ℕ} {new : NewGeneration} {generation : Uuid} (ordered : s.Ordered)
    (step : createOrSupersedeFeedRun accountId new now s = .ok (t, generation)) :
    t = s ∨ ∃ account mid, Quiet s mid ∧ findRun s new.generationId = none ∧ new.generationId ∉ s.otherRuns ∧
      FeedRunConstraints t.runs ∧
      t.runs = mid.runs ++ [freshRun account new
        (mid.listings.filter fun listing => isPendingRow account listing).length now] ∧
      t.listings = mid.listings.map (tagged account new.generationId) ∧ t.otherRuns = mid.otherRuns := by
  simp only [createOrSupersedeFeedRun, bind_ok, raiseIf_ok, orRaise_ok] at step
  obtain ⟨_, -, account, -, _, -, _, elsewhere, step⟩ := step
  split at step
  next =>
    simp only [bind_ok] at step
    obtain ⟨_, -, _, -, same⟩ := step
    cases same
    exact .inl rfl
  next unused =>
    simp only [bind_ok] at step
    obtain ⟨_, -, _, -, mid, superseded, inserted⟩ := step
    obtain ⟨next, written, step⟩ := bind_ok.mp inserted
    cases step
    obtain ⟨rows, rfl⟩ := writeRuns_ok.mp written
    exact .inr ⟨account, mid, (supersedeActive_unheld ordered superseded).quiet ordered, unused, elsewhere, rows, rfl, rfl, rfl⟩

end Creation

def FeedAction.reportPage? : FeedAction → Option (Uuid × ℕ)
  | .advanceReportPage claim currentPage _ _ _ => some (claim.runId, currentPage)
  | .applyReportPage claim page _ => some (claim.runId, page.currentPage)
  | _ => none

inductive FeedEffect (s t : FeedStore) : FeedAction → Prop
  | quiet {action : FeedAction} (unreported : action.reportPage? = none) (quiet : Quiet s t) :
      FeedEffect s t action
  | created {accountId : ℕ} {new : NewGeneration} {now : Instant} (account : MarketplaceAccount)
      (mid : FeedStore) (quiet : Quiet s mid) (unused : findRun s new.generationId = none)
      (elsewhere : new.generationId ∉ s.otherRuns) (rows : FeedRunConstraints t.runs)
      (runs : t.runs = mid.runs ++ [freshRun account new
        (mid.listings.filter fun listing => isPendingRow account listing).length now])
      (listings : t.listings = mid.listings.map (tagged account new.generationId))
      (otherRuns : t.otherRuns = mid.otherRuns) :
      FeedEffect s t (.createOrSupersedeFeedRun accountId new now)
  | resumed {accountId : ℕ} {generationId : Uuid} {expectedRevision : ℕ} {payloadSha256 : String}
      {hasUploadAttempts : Bool} {now : Instant} (run : MarketplaceFeedRun) (account : MarketplaceAccount)
      (mem : run ∈ s.runs) (safe : safePreSubmissionFailure account run expectedRevision payloadSha256)
      (members : (s.listings.filter fun listing =>
        isPendingRow account listing ∧ listing.feedRun = some run.pk).length = run.pendingCount)
      (written : updateRun s { run with
        state := .preparing
        revision := run.revision + 1
        nextAttemptAt := some now
        finishedAt := none } = .ok t) :
      FeedEffect s t (.resumeFailedPreSubmissionFeedRun accountId generationId expectedRevision payloadSha256
        hasUploadAttempts now)
  | pollStep {claim : FeedRunClaim} {lastListingId : ℕ} {delta : CounterDeltas} {nextAttemptAt now : Instant}
      (run counted : MarketplaceFeedRun) (locked : lockClaimedRun claim [.polling] now s = .ok run)
      (counters : counterValues run delta = .ok counted)
      (written : transitionClaimed { counted with
        pollCursorListingId := lastListingId
        nextAttemptAt := some nextAttemptAt } s = .ok t) :
      FeedEffect s t (.completePollStep claim lastListingId delta nextAttemptAt now)
  | polled {claim : FeedRunClaim} {batchListingIds : List ℕ} {resolvedExternalIds : List (ℕ × String)}
      {lastListingId : ℕ} {nextAttemptAt now : Instant} (run : MarketplaceFeedRun) (rows : List Listing)
      (resolved : ℕ) (locked : lockClaimedRun claim [.polling] now s = .ok run)
      (batch : rows.map Listing.pk = batchListingIds)
      (outcomes : Resolved run rows (pollChange resolvedExternalIds now) resolved 0 s t)
      (enough : resolved ≤ run.pendingCount) (accepted : FeedRunConstraints t.runs)
      (runs : t.runs = put MarketplaceFeedRun.pk { run with
        publishedCount := run.publishedCount + resolved
        pendingCount := run.pendingCount - resolved
        pollCursorListingId := lastListingId
        nextAttemptAt := some nextAttemptAt
        revision := run.revision + 1
        claimToken := none
        claimedUntil := none } s.runs) :
      FeedEffect s t (.applyPollPage claim batchListingIds resolvedExternalIds lastListingId nextAttemptAt now)
  | roundReset {claim : FeedRunClaim} {nextAttemptAt now : Instant} (run : MarketplaceFeedRun)
      (locked : lockClaimedRun claim [.polling] now s = .ok run)
      (written : transitionClaimed { run with
        pollCursorListingId := 0
        pollRound := run.pollRound + 1
        pendingCount := (livePending run s.listings).length
        nextAttemptAt := some nextAttemptAt } s = .ok t) :
      FeedEffect s t (.resetPollRound claim nextAttemptAt now)
  | advanced {claim : FeedRunClaim} {currentPage : ℕ} {delta : CounterDeltas} {nextAttemptAt now : Instant}
      (run counted : MarketplaceFeedRun) (locked : lockClaimedRun claim [.reporting] now s = .ok run)
      (current : currentPage = run.reportPage) (counters : counterValues run delta = .ok counted)
      (written : transitionClaimed { counted with
        reportPage := currentPage + 1
        reportAttempt := 0
        nextAttemptAt := some nextAttemptAt } s = .ok t) :
      FeedEffect s t (.advanceReportPage claim currentPage delta nextAttemptAt now)
  | reported {claim : FeedRunClaim} {page : ReportPage} {now : Instant} (run : MarketplaceFeedRun)
      (rows : List Listing) (published rejected : ℕ) (updated : MarketplaceFeedRun)
      (locked : lockClaimedRun claim [.reporting] now s = .ok run) (current : page.currentPage = run.reportPage)
      (next : ∀ next, page.nextPage = some next → next = page.currentPage + 1)
      (named : ∀ listing ∈ rows, listing.publishIdempotencyKey ∈
        page.errors.map Prod.fst ++ page.externalIds.map Prod.fst)
      (outcomes : Resolved run rows (reportChange page now) published rejected s t)
      (turned : turnReportPage page run { published, rejected, otherResolved := 0 } t.listings now = .ok updated)
      (accepted : FeedRunConstraints t.runs)
      (runs : t.runs = put MarketplaceFeedRun.pk { updated with
        revision := updated.revision + 1
        claimToken := none
        claimedUntil := none } s.runs) :
      FeedEffect s t (.applyReportPage claim page now)
  | finished {claim : FeedRunClaim} {state : FeedRunState} {submission : Bool} {now : Instant}
      (run counted : MarketplaceFeedRun) (attempt : ℕ)
      (locked : lockClaimedRun claim FeedRunState.activeStates now s = .ok run)
      (counters : recomputedCounters run s.listings = .ok counted)
      (ends : state ∈ [FeedRunState.succeeded, .failed, .outcomeUncertain, .cancelled])
      (settled : state = .succeeded →
        counted.pendingCount = 0 ∧ (run.submittedAt = none ∨ run.reportCompletedAt ≠ none))
      (written : transitionClaimed { counted with
        state
        submissionReconcileAttempt := attempt
        nextAttemptAt := none
        finishedAt := some now } s = .ok t) :
      FeedEffect s t (.finishFeedRun claim state submission now)

section Effects

variable {s t : FeedStore} {action : FeedAction} {outcome : FeedOutcome}

theorem perform_effect (ordered : s.Ordered) (keyed : s.Keyed) (step : perform s action = .ok (t, outcome)) :
    FeedEffect s t action := by
  cases action
  case fenceAccountFeedRunsForOwnerChange =>
    simp only [perform, bind_ok, Prod.exists] at step
    obtain ⟨next, _, made, same⟩ := step
    cases same
    exact .quiet rfl ((fenceAccountFeedRuns_unheld ordered made).quiet ordered)
  case createOrSupersedeFeedRun =>
    simp only [perform, bind_ok, Prod.exists] at step
    obtain ⟨next, _, made, same⟩ := step
    cases same
    rcases createOrSupersede_effect ordered made with
      rfl | ⟨account, mid, quiet, unused, elsewhere, rows, runs, listings, otherRuns⟩
    · exact .quiet rfl (Quiet.refl _)
    · exact .created account mid quiet unused elsewhere rows runs listings otherRuns
  case resumeFailedPreSubmissionFeedRun =>
    obtain ⟨run, account, mem, safe, members, written⟩ := resumeFailed_effect (done_ok.mp step).1
    exact .resumed run account mem safe members written
  case claimDueRunForAccount =>
    obtain ⟨claimed, made, -⟩ := claiming_ok.mp step
    exact .quiet rfl ((claimDueRunForAccount_unheld ordered made).1.quiet ordered)
  case claimDueRuns =>
    obtain ⟨claimed, made, -⟩ := claiming_ok.mp step
    exact .quiet rfl ((claimDueRuns_unheld ordered made).1.quiet ordered)
  case cancelInactiveFeedRun => exact .quiet rfl ((cancelInactiveFeedRun_unheld ordered (done_ok.mp step).1).quiet ordered)
  case reconcileUncertainFeedRun =>
    obtain ⟨_, -, -, wrote⟩ := reconcileUncertainFeedRun_wrote ordered (done_ok.mp step).1
    exact .quiet rfl (wrote.quiet ordered)
  case supersedeFeedRun => exact .quiet rfl ((supersedeFeedRun_unheld ordered (done_ok.mp step).1).quiet ordered)
  case validateFeedSubmissionOwner =>
    simp only [perform, bind_ok, Prod.exists] at step
    obtain ⟨next, _, validated, same⟩ := step
    cases same
    rcases validateFeedSubmissionOwner_claimed ordered validated with ⟨rfl, -⟩ | committed
    · exact .quiet rfl (.refl _)
    · exact .quiet rfl (committed.quiet ordered)
  case persistFeedSubmissionBoundary =>
    obtain ⟨_, made, -⟩ := claiming_ok.mp step
    rcases persistFeedSubmissionBoundary_claimed ordered made with ⟨_, -, -, committed, -⟩ | ⟨-, rfl | committed⟩
    · exact .quiet rfl (committed.quiet ordered)
    · exact .quiet rfl (.refl _)
    · exact .quiet rfl (committed.quiet ordered)
  case clearRejectedFeedSubmissionBoundary =>
    simp only [perform, bind_ok, Prod.exists] at step
    obtain ⟨next, _, made, same⟩ := step
    cases same
    exact .quiet rfl ((clearRejectedFeedSubmissionBoundary_claimed ordered made).1.quiet ordered)
  case markFeedSubmitted => exact .quiet rfl ((markFeedSubmitted_claimed (done_ok.mp step).1).quiet ordered)
  case markFeedSubmissionUnknown =>
    exact .quiet rfl ((markFeedSubmissionUnknown_claimed ordered (done_ok.mp step).1).quiet ordered)
  case recordProviderRunObservation =>
    exact .quiet rfl ((recordProviderRunObservation_claimed (done_ok.mp step).1).quiet ordered)
  case completePollStep =>
    obtain ⟨run, counted, locked, counters, written⟩ := completePollStep_effect (done_ok.mp step).1
    exact .pollStep run counted locked counters written
  case loadPollBatch =>
    simp only [perform, bind_ok] at step
    obtain ⟨_, -, same⟩ := step
    cases same
    exact .quiet rfl (Quiet.refl _)
  case applyPollPage =>
    obtain ⟨run, rows, resolved, locked, batch, outcomes, enough, accepted, runs⟩ :=
      applyPollPage_effect keyed (done_ok.mp step).1
    exact .polled run rows resolved locked batch outcomes enough accepted runs
  case retryStep => exact .quiet rfl ((retryStep_claimed ordered (done_ok.mp step).1).quiet ordered)
  case resetPollRound =>
    obtain ⟨run, locked, written⟩ := resetPollRound_effect (done_ok.mp step).1
    exact .roundReset run locked written
  case startReporting => exact .quiet rfl ((startReporting_claimed ordered (done_ok.mp step).1).quiet ordered)
  case advanceReportPage =>
    obtain ⟨run, counted, locked, current, counters, written⟩ := advanceReportPage_effect (done_ok.mp step).1
    exact .advanced run counted locked current counters written
  case applyReportPage =>
    obtain ⟨run, rows, published, rejected, updated, locked, current, next, named, outcomes, turned, accepted,
      runs⟩ := applyReportPage_effect keyed (done_ok.mp step).1
    exact .reported run rows published rejected updated locked current next named outcomes turned accepted runs
  case finishFeedRun =>
    obtain ⟨run, counted, attempt, locked, counters, ends, settled, written⟩ :=
      finishFeedRun_effect (done_ok.mp step).1
    exact .finished run counted attempt locked counters ends settled written

end Effects

end MapBackend.Marketplaces
