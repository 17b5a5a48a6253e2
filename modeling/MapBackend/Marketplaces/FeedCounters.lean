import MapBackend.Marketplaces.FeedOutcomeFrame

/-!
The counters of a generation against its listings.
-/

namespace MapBackend.Marketplaces
open MapBackend.Library FeedWorkflow

section Tallies

variable {run : MarketplaceFeedRun} {status : ListingStatus} {s t : FeedStore}

def countsAs (run : MarketplaceFeedRun) (status : ListingStatus) (listing : Listing) : Bool :=
  decide (listing.feedRun = some run.pk ∧ listing.tenant = run.tenant ∧ listing.status = status)

theorem tally_countP (listings : List Listing) : tally run status listings = listings.countP (countsAs run status) :=
  List.countP_eq_length_filter.symm

theorem tally_append (first second : List Listing) :
    tally run status (first ++ second) = tally run status first + tally run status second := by
  simp only [tally_countP, List.countP_append]

theorem tally_perm {first second : List Listing} (perm : first.Perm second) :
    tally run status first = tally run status second := by
  simp only [tally_countP, perm.countP_eq]

theorem tally_map {f : Listing → Listing} {listings : List Listing}
    (same : ∀ listing ∈ listings, countsAs run status (f listing) = countsAs run status listing) :
    tally run status (listings.map f) = tally run status listings := by
  rw [tally_countP, tally_countP, List.countP_map]
  apply List.countP_congr
  intro listing mem
  simp [same listing mem]

variable {change : Listing → Option Listing} {rows : List Listing}

theorem tally_rows
    (awaits : ∀ listing ∈ rows, Awaits run listing)
    (outcome : ∀ listing new, change listing = some new → FirstOutcome listing new) :
    let after := rows.map fun listing => (change listing).getD listing
    let published := ((rows.filterMap change).filter fun new => new.status = .active).length
    let rejected := ((rows.filterMap change).filter fun new => new.status = .rejected).length
    tally run .active after = tally run .active rows + published ∧
      tally run .rejected after = tally run .rejected rows + rejected ∧
      tally run .pending after + (published + rejected) = tally run .pending rows := by
  induction rows with
  | nil => simp [tally]
  | cons listing _ ih =>
    obtain ⟨_, generation, tenant, pending, _⟩ := awaits listing List.mem_cons_self
    obtain ⟨active, rejected, open'⟩ := ih fun other mem => awaits other (List.mem_cons_of_mem _ mem)
    simp only [tally_countP] at active rejected open' ⊢
    cases changed : change listing with
    | none =>
      simp [changed, countsAs, generation, tenant, pending] at active rejected open' ⊢
      omega
    | some new =>
      obtain ⟨-, new_tenant, new_generation, -, status⟩ := outcome listing new changed
      rcases status with status | status
      · simp [changed, countsAs, generation, tenant, pending, new_tenant, new_generation, status]
          at active rejected open' ⊢
        omega
      · simp [changed, countsAs, generation, tenant, pending, new_tenant, new_generation, status]
          at active rejected open' ⊢
        omega

theorem Resolved.counts {published rejected : ℕ}
    (resolved : Resolved run rows change published rejected s t) (keyed : s.Keyed) :
    tally run .active t.listings = tally run .active s.listings + published ∧
      tally run .rejected t.listings = tally run .rejected s.listings + rejected ∧
      tally run .pending t.listings + (published + rejected) = tally run .pending s.listings := by
  have outside : ∀ listing, listing ∉ rows → resolveRows rows change listing = listing := by
    intro listing miss
    rw [resolveRows, if_neg miss]
  obtain ⟨_, before, after⟩ := perm_rest keyed.keys resolved.sub outside
  have inside : rows.map (resolveRows rows change) = rows.map fun listing => (change listing).getD listing := by
    apply List.map_congr_left
    intro listing mem
    rw [resolveRows, if_pos mem]
  have counts := tally_rows resolved.awaits resolved.outcome
  simp only [resolved.published, resolved.rejected] at counts
  rw [resolved.listings]
  simp only [tally_perm before, tally_perm after, tally_append, inside]
  omega

theorem Resolved.counts_other {published rejected : ℕ}
    (resolved : Resolved run rows change published rejected s t) {other : MarketplaceFeedRun}
    (different : other.pk ≠ run.pk) (status : ListingStatus) :
    tally other status t.listings = tally other status s.listings := by
  rw [resolved.listings]
  apply tally_map
  intro listing mem
  unfold resolveRows
  split
  next inside =>
    have generation := (resolved.awaits listing inside).generation
    cases changed : change listing with
    | none => rfl
    | some new =>
      have same := (resolved.outcome listing new changed).generation
      simp [countsAs, generation, same, different.symm]
  next => rfl

end Tallies

def MarketplaceFeedRun.inPlay (run : MarketplaceFeedRun) : Prop :=
  run.owns ∨ run.state = .failed ∧ run.submittedAt = none

instance (run : MarketplaceFeedRun) : Decidable run.inPlay := inferInstanceAs (Decidable (_ ∨ _))

/-- The counters of a run describe its listings, and its pending listings wait for an outcome.
A later generation may have taken pending listings of a run that no longer owns the account. -/
structure Tallied (run : MarketplaceFeedRun) (listings : List Listing) : Prop where
  published : tally run .active listings = run.publishedCount
  rejected : tally run .rejected listings = run.rejectedCount
  pending : tally run .pending listings ≤ run.pendingCount
  exact' : run.owns → tally run .pending listings = run.pendingCount
  total : run.publishedCount + run.rejectedCount + run.pendingCount ≤ run.totalCount
  members : ∀ listing ∈ listings, listing.feedRun = some run.pk → listing.tenant = run.tenant ∧
    (listing.status = .pending → listing.deletedAt = none ∧ listing.externalId = none)

def FeedStore.Tallied (s : FeedStore) : Prop := ∀ run ∈ s.runs, run.inPlay → Marketplaces.Tallied run s.listings

section TalliedRuns

variable {s t : FeedStore} {run new : MarketplaceFeedRun} {listings : List Listing} {action : FeedAction}

theorem tally_congr (pk : new.pk = run.pk) (tenant : new.tenant = run.tenant) (status : ListingStatus) :
    tally new status listings = tally run status listings := by
  simp [tally, pk, tenant]

theorem Tallied.move (tallied : Tallied run listings) (pk : new.pk = run.pk) (tenant : new.tenant = run.tenant)
    (total : new.totalCount = run.totalCount) (published : new.publishedCount = run.publishedCount)
    (rejected : new.rejectedCount = run.rejectedCount) (pending : new.pendingCount = run.pendingCount)
    (owner : new.owns → tally run .pending listings = run.pendingCount) : Tallied new listings where
  published := by rw [tally_congr pk tenant, tallied.published, published]
  rejected := by rw [tally_congr pk tenant, tallied.rejected, rejected]
  pending := by rw [tally_congr pk tenant, pending]; exact tallied.pending
  exact' owns := by rw [tally_congr pk tenant, pending]; exact owner owns
  total := by rw [published, rejected, pending, total]; exact tallied.total
  members listing mem generation := by
    rw [pk] at generation
    rw [tenant]
    exact tallied.members listing mem generation

theorem Tallied.recount (tallied : Tallied run listings) (pk : new.pk = run.pk) (tenant : new.tenant = run.tenant)
    (total : new.totalCount = run.totalCount)
    (fits : tally run .active listings + tally run .rejected listings + tally run .pending listings ≤ run.totalCount)
    (published : new.publishedCount = tally run .active listings)
    (rejected : new.rejectedCount = tally run .rejected listings)
    (pending : new.pendingCount = tally run .pending listings) : Tallied new listings where
  published := by rw [tally_congr pk tenant, published]
  rejected := by rw [tally_congr pk tenant, rejected]
  pending := by rw [tally_congr pk tenant, pending]
  exact' _ := by rw [tally_congr pk tenant, pending]
  total := by rw [published, rejected, pending, total]; exact fits
  members listing mem generation := by
    rw [pk] at generation
    rw [tenant]
    exact tallied.members listing mem generation

theorem Tallied.frame {after : List Listing} (tallied : Tallied run listings)
    (active : tally run .active after = tally run .active listings)
    (rejected : tally run .rejected after = tally run .rejected listings)
    (pending : tally run .pending after ≤ tally run .pending listings)
    (owner : run.owns → tally run .pending after = tally run .pending listings)
    (members : ∀ listing ∈ after, listing.feedRun = some run.pk → listing.tenant = run.tenant ∧
      (listing.status = .pending → listing.deletedAt = none ∧ listing.externalId = none)) : Tallied run after where
  published := active.trans tallied.published
  rejected := rejected.trans tallied.rejected
  pending := pending.trans tallied.pending
  exact' owns := (owner owns).trans (tallied.exact' owns)
  total := tallied.total
  members := members

theorem Tallied.live_pending (tallied : Tallied run listings) :
    (livePending run listings).length = tally run .pending listings := by
  unfold livePending tally
  congr 1
  apply List.filter_congr
  intro listing mem
  apply decide_eq_decide.mpr
  constructor
  · rintro ⟨-, generation, pending, -⟩
    exact ⟨generation, (tallied.members listing mem generation).1, pending⟩
  · rintro ⟨generation, -, pending⟩
    obtain ⟨live, unresolved⟩ := (tallied.members listing mem generation).2 pending
    exact ⟨live, generation, pending, unresolved⟩

theorem KeepsOutcome.tallied (keeps : KeepsOutcome run new) (tallied : s.Tallied) (mem : run ∈ s.runs) :
    Tallied new s.listings := by
  have before := tallied run mem (.inl keeps.owner)
  exact before.move keeps.pk keeps.tenant keeps.total keeps.published keeps.rejected keeps.pending
    fun _ => before.exact' keeps.owner

theorem Quiet.tallied (quiet : Quiet s t) (tallied : s.Tallied) : t.Tallied := by
  intro new mem play
  rw [quiet.listings]
  rcases quiet.runs.source new mem with ⟨never, -⟩ | ⟨_, old_mem, rfl | keeps⟩
  · exact never.elim
  · exact tallied new old_mem play
  · exact keeps.tallied tallied old_mem

theorem FeedStore.Tallied.put (tallied : s.Tallied) (listings : t.listings = s.listings)
    (runs : t.runs = put MarketplaceFeedRun.pk new s.runs) (made : new.inPlay → Marketplaces.Tallied new s.listings) :
    t.Tallied := by
  intro row mem play
  rw [runs] at mem
  rw [listings]
  rcases mem_put.mp mem with ⟨rfl, -⟩ | ⟨kept, -⟩
  · exact made play
  · exact tallied row kept play

variable {account : MarketplaceAccount} {now : Instant} {given : NewGeneration}

theorem tally_fresh {total : ℕ}
    (unnamed : ∀ listing ∈ listings, listing.feedRun ≠ some given.generationId) (status : ListingStatus) :
    tally (freshRun account given total now) status (listings.map (tagged account given.generationId)) =
      listings.countP fun listing => decide (isPendingRow account listing ∧ status = .pending) := by
  rw [tally_countP, List.countP_map]
  apply List.countP_congr
  intro listing mem
  simp only [Function.comp_apply, tagged, countsAs, freshRun, decide_eq_true_eq]
  split
  next pending => simp [pending, pending.2.1, pending.2.2.1, eq_comm]
  next unpending => simp [unpending, unnamed listing mem]

theorem Tallied.fresh
    (unnamed : ∀ listing ∈ listings, listing.feedRun ≠ some given.generationId) :
    Tallied (freshRun account given (listings.filter fun listing => isPendingRow account listing).length now)
      (listings.map (tagged account given.generationId)) := by
  have none : ∀ status : ListingStatus, status ≠ .pending → (listings.countP fun listing =>
      decide (isPendingRow account listing ∧ status = .pending)) = 0 := by
    intro status other
    simp [other]
  have all : (listings.countP fun listing => decide (isPendingRow account listing ∧ ListingStatus.pending = .pending)) =
      (listings.filter fun listing => isPendingRow account listing).length := by
    simp [List.countP_eq_length_filter]
  constructor
  · exact (tally_fresh unnamed .active).trans (none .active (by decide))
  · exact (tally_fresh unnamed .rejected).trans (none .rejected (by decide))
  · exact ((tally_fresh unnamed .pending).trans all).le
  · exact fun _ => (tally_fresh unnamed .pending).trans all
  · simp [freshRun]
  · intro listing mem generation
    obtain ⟨source, source_mem, rfl⟩ := List.mem_map.mp mem
    unfold tagged at generation ⊢
    split at generation
    next open' =>
      rw [if_pos open']
      exact ⟨open'.2.1, fun _ => ⟨open'.1, open'.2.2.2⟩⟩
    next => exact absurd generation (unnamed source source_mem)

theorem Tallied.taken {generation : Uuid} (tallied : Tallied run listings)
    (other : run.pk ≠ generation) (closed : ¬ run.owns) :
    Tallied run (listings.map (tagged account generation)) := by
  have settled : ∀ status : ListingStatus, status ≠ .pending →
      tally run status (listings.map (tagged account generation)) = tally run status listings := by
    intro status resolved
    apply tally_map
    intro listing _
    unfold tagged
    split
    next pending => simp [countsAs, pending.2.2.1, resolved.symm]
    next => rfl
  apply tallied.frame (settled .active (by decide)) (settled .rejected (by decide))
  · rw [tally_countP, tally_countP, List.countP_map]
    apply List.countP_mono_left
    intro listing _ counted
    simp only [Function.comp_apply, tagged] at counted
    split at counted
    next => simp [countsAs, other.symm] at counted
    next => exact counted
  · exact fun owns => absurd owns closed
  · intro listing mem named
    obtain ⟨source, source_mem, rfl⟩ := List.mem_map.mp mem
    unfold tagged at named ⊢
    split at named
    next => exact absurd (Option.some.inj named).symm other
    next unpending =>
      rw [if_neg unpending]
      exact tallied.members source source_mem named

theorem FeedStore.Tallied.created {mid : FeedStore} (tallied : mid.Tallied)
    (unnamed : ∀ listing ∈ mid.listings, listing.feedRun ≠ some given.generationId)
    (rows : FeedRunConstraints t.runs)
    (runs : t.runs = mid.runs ++ [freshRun account given
      (mid.listings.filter fun listing => isPendingRow account listing).length now])
    (written : t.listings = mid.listings.map (tagged account given.generationId)) : t.Tallied := by
  intro row mem play
  rw [written]
  rw [runs] at mem
  rcases List.mem_append.mp mem with old | last
  · have other : row.pk ≠ given.generationId := by
      intro same
      have keys := rows.keys
      rw [runs, List.map_append] at keys
      exact (List.nodup_append.mp keys).2.2 row.pk (List.mem_map_of_mem old) row.pk (by simp [freshRun, same]) rfl
    have closed : ¬ row.owns := by
      intro owns
      have fresh_mem := List.mem_append_right mid.runs (List.mem_singleton_self (freshRun account given
        (mid.listings.filter fun listing => isPendingRow account listing).length now))
      have one := only_row rows.owner (runs ▸ mem) (runs ▸ fresh_mem) owns (owns_of_active List.mem_cons_self)
      exact other (congrArg MarketplaceFeedRun.pk one)
    exact (tallied row old play).taken other closed
  · rw [List.mem_singleton.mp last]
    exact .fresh unnamed

/-- No report or poll page is acknowledged without its listings: nothing in the program does so. -/
def FeedAction.Listed : FeedAction → Prop
  | .completePollStep _ _ delta _ _ | .advanceReportPage _ _ delta _ _ => delta = ⟨0, 0, 0⟩
  | _ => True

instance (action : FeedAction) : Decidable action.Listed := by
  cases action <;> unfold FeedAction.Listed <;> infer_instance

theorem lockClaimedRun_tallied {claim : FeedRunClaim} {allowedStates : List FeedRunState}
    (tallied : s.Tallied) (locked : lockClaimedRun claim allowedStates now s = .ok run)
    (active : allowedStates ⊆ FeedRunState.activeStates) :
    Tallied run s.listings ∧ tally run .pending s.listings = run.pendingCount := by
  have owner := lockClaimedRun_owns locked active
  have held := tallied run (lockClaimedRun_ok locked).1 (.inl owner)
  exact ⟨held, held.exact' owner⟩

variable {change : Listing → Option Listing} {published rejected : ℕ} {rows : List Listing}

theorem Resolved.members
    {other : MarketplaceFeedRun} (resolved : Resolved run rows change published rejected s t)
    (members : ∀ listing ∈ s.listings, listing.feedRun = some other.pk → listing.tenant = other.tenant ∧
      (listing.status = .pending → listing.deletedAt = none ∧ listing.externalId = none)) :
    ∀ listing ∈ t.listings, listing.feedRun = some other.pk → listing.tenant = other.tenant ∧
      (listing.status = .pending → listing.deletedAt = none ∧ listing.externalId = none) := by
  intro listing mem generation
  rw [resolved.listings] at mem
  obtain ⟨source, source_mem, rfl⟩ := List.mem_map.mp mem
  unfold resolveRows at generation ⊢
  by_cases inside : source ∈ rows
  · rw [if_pos inside] at generation ⊢
    cases changed : change source with
    | none =>
      rw [changed] at generation
      exact members source source_mem generation
    | some new =>
      rw [changed] at generation
      have outcome := resolved.outcome source new changed
      refine ⟨outcome.tenant.trans (members source source_mem (outcome.generation ▸ generation)).1, fun pending => ?_⟩
      have settled := outcome.status
      rw [show new.status = .pending from pending] at settled
      exact absurd settled (by decide)
  · rw [if_neg inside] at generation ⊢
    exact members source source_mem generation

theorem Resolved.recounted
    (resolved : Resolved run rows change published rejected s t) (keyed : s.Keyed)
    (held : Tallied run s.listings) (exact' : tally run .pending s.listings = run.pendingCount) :
    Tallied { run with
      publishedCount := run.publishedCount + published
      rejectedCount := run.rejectedCount + rejected
      pendingCount := run.pendingCount - (published + rejected) } t.listings := by
  obtain ⟨active, refused, _⟩ := resolved.counts keyed
  have pending : tally run .pending t.listings = run.pendingCount - (published + rejected) := by omega
  have total := held.total
  constructor
  · exact active.trans (congrArg (· + published) held.published)
  · exact refused.trans (congrArg (· + rejected) held.rejected)
  · exact pending.le
  · exact fun _ => pending
  · show run.publishedCount + published + (run.rejectedCount + rejected) +
      (run.pendingCount - (published + rejected)) ≤ run.totalCount
    omega
  · exact resolved.members held.members

theorem Resolved.tallied
    (resolved : Resolved run rows change published rejected s t) (tallied : s.Tallied)
    (runs : t.runs = put MarketplaceFeedRun.pk new s.runs) (pk : new.pk = run.pk)
    (made : new.inPlay → Tallied new t.listings) : t.Tallied := by
  intro row mem play
  rw [runs] at mem
  rcases mem_put.mp mem with ⟨rfl, -⟩ | ⟨kept, other⟩
  · exact made play
  · rw [pk] at other
    have same := resolved.counts_other other
    apply (tallied row kept play).frame (same .active) (same .rejected) (same .pending).le fun _ => same .pending
    exact resolved.members (tallied row kept play).members

theorem turnReportPage_tallied {page : ReportPage} {delta : CounterDeltas}
    {updated : MarketplaceFeedRun} (tallied : Tallied { run with
      publishedCount := run.publishedCount + delta.published
      rejectedCount := run.rejectedCount + delta.rejected
      pendingCount := run.pendingCount - (delta.published + delta.rejected + delta.otherResolved) } listings)
    (owner : run.owns) (turned : turnReportPage page run delta listings now = .ok updated) :
    Tallied updated listings := by
  unfold turnReportPage at turned
  split at turned
  next =>
    obtain ⟨counted, counters, same⟩ := bind_ok.mp turned
    cases same
    obtain ⟨fits, rfl⟩ := recomputedCounters_counts.mp counters
    unfold afterLastPage
    split
    · split
      · exact tallied.recount rfl rfl rfl fits rfl rfl rfl
      · exact tallied.recount rfl rfl rfl fits rfl rfl rfl
    · exact tallied.recount rfl rfl rfl fits rfl rfl rfl
  next =>
    obtain ⟨counted, counters, same⟩ := bind_ok.mp turned
    cases same
    obtain ⟨-, rfl⟩ := counterValues_counts counters
    exact tallied.move rfl rfl rfl rfl rfl rfl fun _ => tallied.exact' owner

theorem FeedEffect.tallied (effect : FeedEffect s t action) (_ : s.Ordered) (keyed : s.Keyed)
    (listed : action.Listed) (tallied : s.Tallied) : t.Tallied := by
  cases effect with
  | quiet _ quiet => exact quiet.tallied tallied
  | created _ _ quiet unused elsewhere rows runs listings =>
    apply (quiet.tallied tallied).created _ rows runs listings
    intro listing mem named
    rcases List.mem_append.mp (keyed.named listing (quiet.listings ▸ mem) _ named) with known | known
    · obtain ⟨old, old_mem, pk⟩ := List.mem_map.mp known
      exact List.find?_eq_none.mp unused old old_mem (decide_eq_true pk)
    · exact elsewhere known
  | resumed run _ mem safe members written =>
    obtain ⟨-, rfl⟩ := updateRun_ok.mp written
    have held := tallied run mem (.inr ⟨safe.1, safe.2.2.2.2.2.2.2.1⟩)
    refine tallied.put rfl rfl fun _ => held.move rfl rfl rfl rfl rfl rfl fun _ => le_antisymm held.pending ?_
    -- the guard of the operation found as many pending listings as the run counts
    rw [← members, ← List.countP_eq_length_filter, tally_countP]
    apply List.countP_mono_left
    intro listing listing_mem counted
    simp only [decide_eq_true_eq] at counted
    exact decide_eq_true ⟨counted.2, (held.members listing listing_mem counted.2).1, counted.1.2.2.1⟩
  | pollStep _ _ locked counters written =>
    obtain ⟨-, rfl⟩ := updateRun_ok.mp written
    obtain ⟨-, rfl⟩ := counterValues_counts counters
    obtain ⟨held, exact'⟩ := lockClaimedRun_tallied tallied locked (by decide)
    obtain rfl : _ = _ := listed
    exact tallied.put rfl rfl fun _ => held.move rfl rfl rfl rfl rfl rfl fun _ => exact'
  | polled _ _ _ locked _ outcomes _ _ runs =>
    obtain ⟨held, exact'⟩ := lockClaimedRun_tallied tallied locked (by decide)
    have owner := lockClaimedRun_owns locked (by decide)
    have counted := outcomes.recounted keyed held exact'
    exact outcomes.tallied tallied runs rfl fun _ =>
      counted.move rfl rfl rfl rfl rfl rfl fun _ => counted.exact' owner
  | roundReset run locked written =>
    obtain ⟨-, rfl⟩ := updateRun_ok.mp written
    obtain ⟨held, exact'⟩ := lockClaimedRun_tallied tallied locked (by decide)
    have same : (livePending run s.listings).length = run.pendingCount := held.live_pending.trans exact'
    exact tallied.put rfl rfl fun _ => held.move rfl rfl rfl rfl rfl same fun _ => exact'
  | advanced _ _ locked _ counters written =>
    obtain ⟨-, rfl⟩ := updateRun_ok.mp written
    obtain ⟨-, rfl⟩ := counterValues_counts counters
    obtain ⟨held, exact'⟩ := lockClaimedRun_tallied tallied locked (by decide)
    obtain rfl : _ = _ := listed
    exact tallied.put rfl rfl fun _ => held.move rfl rfl rfl rfl rfl rfl fun _ => exact'
  | reported _ _ _ _ _ locked _ _ _ outcomes turned _ runs =>
    obtain ⟨held, exact'⟩ := lockClaimedRun_tallied tallied locked (by decide)
    have owner := lockClaimedRun_owns locked (by decide)
    have counted := outcomes.recounted keyed held exact'
    obtain ⟨pk, -, -⟩ := turnReportPage_identity turned
    have made := turnReportPage_tallied counted owner turned
    refine outcomes.tallied tallied runs pk fun play => made.move rfl rfl rfl rfl rfl rfl fun owns => ?_
    exact made.exact' owns
  | finished _ _ _ locked counters _ _ written =>
    obtain ⟨-, rfl⟩ := updateRun_ok.mp written
    obtain ⟨fits, rfl⟩ := recomputedCounters_counts.mp counters
    obtain ⟨held, -⟩ := lockClaimedRun_tallied tallied locked (by decide)
    exact tallied.put rfl rfl fun _ => held.recount rfl rfl rfl fits rfl rfl rfl

end TalliedRuns

/-- What the counters see of a listing, and whether it is pending without waiting for an outcome. -/
def Listing.standing (listing : Listing) : ℕ × ListingStatus × Bool :=
  (listing.tenant, listing.status,
    decide (listing.status = .pending ∧ ¬ (listing.deletedAt = none ∧ listing.externalId = none)))

def standings (run : MarketplaceFeedRun) (listings : List Listing) : List (ℕ × ListingStatus × Bool) :=
  (listings.filter fun listing => listing.feedRun = some run.pk).map Listing.standing

/-- A write outside the workflow moves, deletes or identifies no listing that a run in play waits for
or has counted, and a page is acknowledged with its listings. -/
def FeedStore.Calm (s : FeedStore) : FeedEvent → Prop
  | .workflow action => action.Listed
  | .listingsSaved listings => ∀ run ∈ s.runs, run.inPlay → (standings run listings).Perm (standings run s.listings)
  | _ => True

instance (s : FeedStore) (event : FeedEvent) : Decidable (s.Calm event) := by
  cases event <;> unfold FeedStore.Calm <;> infer_instance

section Calm

variable {s t : FeedStore} {run : MarketplaceFeedRun} {listings : List Listing}

theorem tally_standings (status : ListingStatus) :
    tally run status listings =
      (standings run listings).countP fun standing => decide (standing.1 = run.tenant ∧ standing.2.1 = status) := by
  rw [standings, List.countP_map, List.countP_filter, tally_countP]
  apply List.countP_congr
  intro listing _
  simp [countsAs, Listing.standing, and_comm, and_assoc]

theorem Tallied.saved (tallied : Tallied run s.listings)
    (calm : (standings run listings).Perm (standings run s.listings)) : Tallied run listings := by
  have same : ∀ status, tally run status listings = tally run status s.listings := by
    intro status
    rw [tally_standings, tally_standings, calm.countP_eq]
  apply tallied.frame (same .active) (same .rejected) (same .pending).le fun _ => same .pending
  intro listing mem generation
  have standing : listing.standing ∈ standings run listings :=
    List.mem_map_of_mem (List.mem_filter.mpr ⟨mem, decide_eq_true generation⟩)
  obtain ⟨old, old_mem, seen⟩ := List.mem_map.mp (calm.subset standing)
  obtain ⟨old_mem, old_generation⟩ := List.mem_filter.mp old_mem
  obtain ⟨tenant, waits⟩ := tallied.members old old_mem (of_decide_eq_true old_generation)
  simp only [Listing.standing, Prod.mk.injEq, decide_eq_decide] at seen
  obtain ⟨same_tenant, _, stuck⟩ := seen
  refine ⟨same_tenant ▸ tenant, fun pending => ?_⟩
  by_contra lost
  obtain ⟨old_pending, old_lost⟩ := stuck.mpr ⟨pending, lost⟩
  exact old_lost (waits old_pending)

structure FeedStore.Counted (s : FeedStore) : Prop where
  ordered : s.Ordered
  keyed : s.Keyed
  tallied : s.Tallied

theorem FeedStore.saved_tallied (tallied : s.Tallied) (runs : t.runs = s.runs)
    (kept : ∀ run ∈ s.runs, run.inPlay → Marketplaces.Tallied run t.listings) : (s.saved t).Tallied := by
  unfold FeedStore.saved
  split
  next =>
    intro run mem play
    exact kept run (runs ▸ mem) play
  next => exact tallied

theorem FeedStore.next_counted (s : FeedStore) (event : FeedEvent) (counted : s.Counted) (calm : s.Calm event) :
    (s.next event).Counted := by
  obtain ⟨ordered, keyed, tallied⟩ := counted
  refine ⟨FeedStore.next_ordered s event ordered, FeedStore.next_keyed event ordered keyed, ?_⟩
  cases event with
  | workflow =>
    apply commit_preserves FeedStore.Tallied s _ tallied
    intro t outcome step
    exact (perform_effect ordered keyed step).tallied ordered keyed calm tallied
  | accountSaved => exact tallied
  | listingsSaved =>
    exact FeedStore.saved_tallied tallied rfl fun run mem play => (tallied run mem play).saved (calm run mem play)
  | artifactAttached =>
    apply commit_preserves FeedStore.Tallied s _ tallied
    intro t result step
    simp only [attachArtifact, bind_ok, orRaise_ok] at step
    obtain ⟨run, found, _, written, same⟩ := step
    cases same
    obtain ⟨-, rfl⟩ := updateRun_ok.mp written
    refine tallied.put rfl rfl fun play => ?_
    have held := tallied run (findRun_mem found) play
    exact held.move rfl rfl rfl rfl rfl rfl held.exact'
  | elsewhere => exact FeedStore.saved_tallied tallied rfl tallied

theorem FeedStore.reached_counted (start : FeedStore) {events : List FeedEvent}
    (calm : Meets FeedStore.next FeedStore.Calm start.blank events) :
    (Library.run FeedStore.next start.blank events).Counted := by
  apply run_invariant FeedStore.next FeedStore.next_counted _ calm
  exact ⟨start.blank_ordered, start.blank_keyed, fun _ mem => absurd mem List.not_mem_nil⟩

theorem FeedRunConstraints.move {runs : List MarketplaceFeedRun} {new : MarketplaceFeedRun}
    (rows : FeedRunConstraints runs) (mem : run ∈ runs) (pk : new.pk = run.pk) (owner : new.owns → run.owns)
    (provider : new.providerRunId = run.providerRunId)
    (source : new.sourceIntentRevision = run.sourceIntentRevision) (checked : new.Checked) :
    FeedRunConstraints (put MarketplaceFeedRun.pk new runs) where
  keys := by
    rw [map_key_put]
    exact rows.keys
  owner := (filter_put_le rows.keys mem pk owner).trans rows.owner
  provider := by
    rw [filterMap_put rows.keys mem pk provider]
    exact rows.provider
  source := by
    rw [filterMap_put rows.keys mem pk source]
    exact rows.source
  checked row row_mem := by
    rcases mem_put.mp row_mem with ⟨rfl, -⟩ | ⟨kept, -⟩
    · exact checked
    · exact rows.checked row kept

theorem Tallied.recomputed (tallied : Tallied run listings) (owner : run.owns) :
    recomputedCounters run listings = .ok run := by
  have pending := tallied.exact' owner
  apply recomputedCounters_counts.mpr
  rw [tallied.published, tallied.rejected, pending]
  exact ⟨tallied.total, rfl⟩

theorem FeedStore.Counted.finishes (counted : s.Counted) {claim : FeedRunClaim} {now : Instant}
    (locked : lockClaimedRun claim FeedRunState.activeStates now s = .ok run)
    (reported : run.reportCompletedAt ≠ none)
    (resolved : ∀ listing ∈ s.listings, listing.deletedAt = none → listing.feedRun = some run.pk →
      listing.status ≠ .pending) : ∃ t, finishFeedRun claim .succeeded false now s = .ok t := by
  have owner := lockClaimedRun_owns locked (fun _ => id)
  have mem := (lockClaimedRun_ok locked).1
  have held := counted.tallied run mem (.inl owner)
  have none : tally run .pending s.listings = 0 := by
    apply List.length_eq_zero_iff.mpr
    apply List.filter_eq_nil_iff.mpr
    intro listing listing_mem
    simp only [decide_eq_true_eq]
    rintro ⟨generation, -, pending⟩
    have live := ((held.members listing listing_mem generation).2 pending).1
    exact resolved listing listing_mem live generation pending
  have zero : run.pendingCount = 0 := (held.exact' owner).symm.trans none
  have closed : FeedRunState.succeeded ∉ FeedRunState.ownershipStates := by decide
  have rows : FeedRunConstraints (put MarketplaceFeedRun.pk { run with
      state := .succeeded
      revision := run.revision + 1
      nextAttemptAt := Option.none
      finishedAt := some now
      claimToken := Option.none
      claimedUntil := Option.none } s.runs) :=
    counted.ordered.rows.move mem rfl (fun owns => absurd owns closed) rfl rfl
      (counted.ordered.rows.checked run mem)
  simp only [finishFeedRun, bind_ok, raiseIf_ok]
  refine ⟨_, (), by decide, run, locked, (), by simp, run, held.recomputed owner, (), ?_, (), ?_,
    updateRun_ok.mpr ⟨rows, rfl⟩⟩
  · simp [zero]
  · simp [reported]

end Calm

/-- For every order of operations and of what else writes the account's rows, from empty tables, in
which outside writes are calm: the counters of every run that owns the account are those that
counting its listings gives, and a claimed run whose live listings all have outcomes and whose
report is complete can be finished as succeeded. -/
theorem counters_agree_of_calm_run (start : FeedStore) (events : List FeedEvent)
    (calm : Meets FeedStore.next FeedStore.Calm start.blank events) :
    let s := run FeedStore.next start.blank events
    (∀ run ∈ s.runs, run.owns → recomputedCounters run s.listings = .ok run) ∧
      ∀ claim now run, lockClaimedRun claim FeedRunState.activeStates now s = .ok run →
        run.reportCompletedAt ≠ none →
        (∀ listing ∈ s.listings, listing.deletedAt = none → listing.feedRun = some run.pk →
          listing.status ≠ .pending) →
        ∃ t, finishFeedRun claim .succeeded false now s = .ok t := by
  intro s
  have counted : s.Counted := FeedStore.reached_counted start calm
  constructor
  · intro run mem owner
    exact (counted.tallied run mem (.inl owner)).recomputed owner
  · intro claim now run locked reported resolved
    exact counted.finishes locked reported resolved

def pendingListing : Listing :=
  { pk := 1, tenant := 1, product := 1, feedRun := none, status := .pending, externalId := none,
    publishIdempotencyKey := 11, deletedAt := none, rejectionReason := "", publishedAt := none, lastSyncAt := none,
    remoteStatus := none, remoteStatusCheckedAt := none, nextStatusCheckAt := none,
    statusCheckClaimToken := none, statusCheckClaimedUntil := none }

def generationClaim (state : FeedRunState) (revision : ℕ) (submittedAt : Option Instant) (token : Uuid)
    (until' : Instant) : FeedRunClaim :=
  { firstClaim with state, revision, submittedAt, claimToken := token, claimedUntil := until' }

def claimAt (now : Instant) (token : Uuid) : FeedEvent :=
  .workflow (.claimDueRunForAccount 1 none none { now, lease := 10, token })

def polledGeneration : List FeedEvent :=
  [.listingsSaved [pendingListing], .workflow (.createOrSupersedeFeedRun 1 feedGeneration 0), claimAt 0 100,
   .workflow (.markFeedSubmitted (generationClaim .preparing 1 none 100 10) "digest" (some "upload") 1 2 1),
   claimAt 2 200]

def polledClaim : FeedRunClaim := generationClaim .polling 3 (some 1) 200 12

def deletedGeneration : List FeedEvent :=
  polledGeneration ++
    [.listingsSaved [{ pendingListing with feedRun := some 7, deletedAt := some 2 }],
     .workflow (.resetPollRound polledClaim 4 3)]

def reportPage : ReportPage :=
  { currentPage := 1, errors := [], externalIds := [], nextPage := none, nextAttemptAt := none,
    providerComplete := true }

def reportedGeneration : List FeedEvent :=
  deletedGeneration ++
    [claimAt 4 300, .workflow (.startReporting (generationClaim .polling 5 (some 1) 300 14) 6 none 5),
     claimAt 6 400, .workflow (.applyReportPage (generationClaim .reporting 7 (some 1) 400 16) reportPage 7),
     claimAt 2000000000 500]

def reportedClaim : FeedRunClaim := generationClaim .polling 9 (some 1) 500 2000000010

/-- After the deletion the counters differ from the count, and the finished report does not help. -/
theorem deleted_listing_blocks_success :
    (∃ row ∈ (run FeedStore.next feedStore.blank deletedGeneration).runs, row.owns ∧
      recomputedCounters row (run FeedStore.next feedStore.blank deletedGeneration).listings ≠ .ok row) ∧
    ∃ row ∈ (run FeedStore.next feedStore.blank reportedGeneration).runs,
      lockClaimedRun reportedClaim FeedRunState.activeStates 2000000001
        (run FeedStore.next feedStore.blank reportedGeneration) = .ok row ∧
      row.reportCompletedAt ≠ none ∧
      (∀ listing ∈ (run FeedStore.next feedStore.blank reportedGeneration).listings, listing.deletedAt = none →
        listing.feedRun = some row.pk → listing.status ≠ .pending) ∧
      finishFeedRun reportedClaim .succeeded false 2000000001 (run FeedStore.next feedStore.blank reportedGeneration) =
        .error (.conflict "A feed run with pending listings cannot succeed.") := by
  decide +kernel

/-- While nothing is deleted the polled generation counts its pending listing. -/
theorem counters_agree_polled :
    Meets FeedStore.next FeedStore.Calm feedStore.blank polledGeneration ∧
      ∀ row ∈ (run FeedStore.next feedStore.blank polledGeneration).runs, row.owns →
        recomputedCounters row (run FeedStore.next feedStore.blank polledGeneration).listings = .ok row :=
  have calm : Meets FeedStore.next FeedStore.Calm feedStore.blank polledGeneration := by decide +kernel
  ⟨calm, (counters_agree_of_calm_run feedStore polledGeneration calm).1⟩

end MapBackend.Marketplaces
