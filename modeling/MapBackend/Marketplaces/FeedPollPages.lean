import MapBackend.Library.Dicts
import MapBackend.Marketplaces.FeedCounters

/-!
The pages of a poll.
-/

namespace MapBackend.Marketplaces
open MapBackend.Library FeedWorkflow

/-! ## Pages -/

section Pages

variable {listings first second : List Listing} {limit : ℕ}

theorem sorted_by_pk (keys : (listings.map Listing.pk).Nodup) :
    (listings.insertionSort fun a b => a.pk ≤ b.pk).Pairwise fun a b => a.pk < b.pk := by
  have perm := List.perm_insertionSort (fun a b : Listing => a.pk ≤ b.pk) listings
  have distinct : (listings.insertionSort fun a b => a.pk ≤ b.pk).Pairwise fun a b => a.pk ≠ b.pk :=
    List.pairwise_map.mp ((perm.map Listing.pk).nodup_iff.mpr keys)
  have total : Std.Total fun a b : Listing => a.pk ≤ b.pk := ⟨fun a b => le_total a.pk b.pk⟩
  have chain : IsTrans Listing fun a b => a.pk ≤ b.pk := ⟨fun a b c => le_trans⟩
  have ascending := List.pairwise_insertionSort (fun a b : Listing => a.pk ≤ b.pk) listings
  exact (ascending.and distinct).imp fun both => lt_of_le_of_ne both.1 both.2

theorem pageOf_ascending (keys : (listings.map Listing.pk).Nodup) (limit : ℕ) :
    ((pageOf limit listings).map Listing.pk).Pairwise (· < ·) :=
  List.pairwise_map.mpr ((sorted_by_pk keys).sublist (List.take_sublist limit _))

theorem eq_of_sorted (perm : first.Perm second) (left : first.Pairwise fun a b => a.pk < b.pk)
    (right : second.Pairwise fun a b => a.pk < b.pk) : first = second :=
  perm.eq_of_pairwise (fun _ _ _ _ less more => absurd less (lt_asymm more)) left right

theorem pageOf_perm (keys : (first.map Listing.pk).Nodup) (perm : first.Perm second) (limit : ℕ) :
    pageOf limit first = pageOf limit second := by
  have same : (first.insertionSort fun a b => a.pk ≤ b.pk) = second.insertionSort fun a b => a.pk ≤ b.pk := by
    have order := fun listings : List Listing => List.perm_insertionSort (fun a b => a.pk ≤ b.pk) listings
    have sorted := (order first).trans (perm.trans (order second).symm)
    exact eq_of_sorted sorted (sorted_by_pk keys) (sorted_by_pk ((perm.map Listing.pk).nodup_iff.mp keys))
  rw [pageOf, pageOf, same]

theorem pageOf_length (limit : ℕ) (listings : List Listing) : (pageOf limit listings).length = min limit listings.length := by
  rw [pageOf, List.length_take, List.length_insertionSort]

theorem sort_filter (keys : (listings.map Listing.pk).Nodup) (keep : Listing → Bool) :
    (listings.filter keep).insertionSort (fun a b => a.pk ≤ b.pk) =
      (listings.insertionSort fun a b => a.pk ≤ b.pk).filter keep := by
  have some : ((listings.filter keep).map Listing.pk).Nodup := keys.sublist (List.filter_sublist.map Listing.pk)
  have perm := (List.perm_insertionSort (fun a b : Listing => a.pk ≤ b.pk) listings).filter keep
  exact eq_of_sorted ((List.perm_insertionSort _ _).trans perm.symm) (sorted_by_pk some)
    ((sorted_by_pk keys).sublist List.filter_sublist)

theorem mem_pageOf_of_le {listing last : Listing} (keys : (listings.map Listing.pk).Nodup) (mem : listing ∈ listings)
    (ends : last ∈ pageOf limit listings) (before : listing.pk ≤ last.pk) : listing ∈ pageOf limit listings := by
  have sorted := sorted_by_pk keys
  have inside : listing ∈ listings.insertionSort fun a b => a.pk ≤ b.pk := (List.mem_insertionSort _).mpr mem
  unfold pageOf at ends ⊢
  rw [← List.take_append_drop limit (listings.insertionSort _)] at sorted inside
  rcases List.mem_append.mp inside with page | beyond
  · exact page
  · exact absurd ((List.pairwise_append.mp sorted).2.2 last ends listing beyond) (not_lt.mpr before)

theorem pageOf_filter_iff (keys : (listings.map Listing.pk).Nodup) (keep : Listing → Bool) (atMost : limit ≤ maxPollBatchSize) :
    (pageOf limit listings).map Listing.pk = (pageOf maxPollBatchSize (listings.filter keep)).map Listing.pk ↔
      (∀ listing ∈ pageOf limit listings, keep listing = true) ∧
        (limit = maxPollBatchSize ∨ (listings.filter keep).length ≤ limit) := by
  have count : (listings.filter keep).length ≤ listings.length := List.length_filter_le keep listings
  constructor
  · intro same
    constructor
    · intro listing mem
      have named : listing.pk ∈ (pageOf maxPollBatchSize (listings.filter keep)).map Listing.pk := same ▸ List.mem_map_of_mem mem
      obtain ⟨_, page, equal⟩ := List.mem_map.mp named
      have kept := List.mem_filter.mp ((List.mem_insertionSort _).mp (List.mem_of_mem_take page))
      have inside : listing ∈ listings := (List.mem_insertionSort _).mp (List.mem_of_mem_take mem)
      exact List.inj_on_of_nodup_map keys kept.1 inside equal ▸ kept.2
    · have lengths := congrArg List.length same
      rw [List.length_map, List.length_map, pageOf_length, pageOf_length] at lengths
      omega
  · rintro ⟨kept, _⟩
    apply congrArg (List.map Listing.pk)
    have split : (listings.filter keep).insertionSort (fun a b => a.pk ≤ b.pk) =
        pageOf limit listings ++ ((listings.insertionSort fun a b => a.pk ≤ b.pk).drop limit).filter keep := by
      rw [sort_filter keys, ← List.filter_eq_self.mpr kept, pageOf, ← List.filter_append, List.take_append_drop]
    have whole := congrArg List.length split
    have front := pageOf_length limit listings
    rw [List.length_insertionSort, List.length_append] at whole
    have rest : listings.length ≤ limit →
        ((listings.insertionSort fun a b => a.pk ≤ b.pk).drop limit).filter keep = [] := fun short => by
      rw [List.drop_eq_nil_of_le ((List.length_insertionSort _ listings).trans_le short)]
      rfl
    conv_rhs => rw [pageOf, split, List.take_append]
    by_cases full : maxPollBatchSize ≤ (pageOf limit listings).length
    · rw [Nat.sub_eq_zero_of_le full, List.take_zero, List.append_nil, List.take_of_length_le (by omega)]
    · have none : ((listings.insertionSort fun a b => a.pk ≤ b.pk).drop limit).filter keep = [] := by
        by_cases short : listings.length ≤ limit
        · exact rest short
        · exact List.length_eq_zero_iff.mp (by omega)
      rw [none, List.take_nil, List.append_nil, List.take_of_length_le (by omega)]

end Pages

/-! ## What the applier accepts -/

/-- The outcomes of a batch: a provider id for some of its listings, the others are still pending. -/
structure OutcomesOf (batchListingIds : List ℕ) (resolvedExternalIds : List (ℕ × String)) : Prop where
  keys : (resolvedExternalIds.map Prod.fst).Nodup
  members : ∀ row ∈ resolvedExternalIds, row.1 ∈ batchListingIds
  ids : ∀ row ∈ resolvedExternalIds, validExternalId row.2

theorem OutcomesOf.length_le {ids : List ℕ} {resolved : List (ℕ × String)} (outcomes : OutcomesOf ids resolved) :
    resolved.length ≤ ids.length := by
  have among : resolved.map Prod.fst ⊆ ids := by
    intro key named
    obtain ⟨entry, inside, rfl⟩ := List.mem_map.mp named
    exact outcomes.members entry inside
  have bound := (outcomes.keys.subperm among).length_le
  rwa [List.length_map] at bound

def FeedStore.NewIds (s : FeedStore) (resolvedExternalIds : List (ℕ × String)) : Prop :=
  (s.listings.filterMap Listing.externalId ++ resolvedExternalIds.map Prod.snd).Nodup ∧
    ∀ id ∈ s.listings.filterMap Listing.externalId ++ resolvedExternalIds.map Prod.snd, id ∉ s.otherExternalIds

def MarketplaceFeedRun.HasRoom (row : MarketplaceFeedRun) (resolved : ℕ) : Prop :=
  resolved ≤ row.pendingCount ∧ row.publishedCount + row.rejectedCount + row.pendingCount ≤ row.totalCount

def FeedStore.rest (s : FeedStore) (row : MarketplaceFeedRun) : List Listing :=
  s.listings.filter fun listing => afterCursor row listing

def FeedStore.expectedPage (s : FeedStore) (row : MarketplaceFeedRun) : List Listing :=
  pageOf maxPollBatchSize (s.listings.filter fun listing => afterCursor row listing ∧ listing.tenant = row.tenant)

section Accepting

variable {s t : FeedStore} {claim : FeedRunClaim} {now nextAttemptAt : Instant} {row : MarketplaceFeedRun} {limit last : ℕ}
  {batch : List Listing} {resolved : List (ℕ × String)} {ids : List ℕ}

theorem counterValues_published {count : ℕ} :
    (∃ counted, counterValues row { published := count, rejected := 0, otherResolved := 0 } = .ok counted) ↔ row.HasRoom count := by
  simp only [counterValues, bind_ok, raiseIf_ok, MarketplaceFeedRun.HasRoom, Nat.add_zero, Nat.not_lt]
  constructor
  · rintro ⟨_, _, fits, _, total, _⟩
    exact ⟨fits, by omega⟩
  · rintro ⟨fits, total⟩
    exact ⟨_, (), fits, (), by omega, rfl⟩

theorem given_ids (keys : (batch.map Listing.pk).Nodup) (outcomes : OutcomesOf (batch.map Listing.pk) resolved) :
    (batch.filterMap fun listing => resolved.lookup listing.pk).Perm (resolved.map Prod.snd) := by
  have given := Dictionary.lookup_perm outcomes.keys keys outcomes.members
  rwa [List.filterMap_map] at given

theorem updateListings_page (keyed : s.Keyed) (sub : batch.Subperm s.listings)
    (waiting : ∀ listing ∈ batch, listing.externalId = none) (outcomes : OutcomesOf (batch.map Listing.pk) resolved) :
    (∃ t, updateListings s (batch.filterMap (pollChange resolved now)) = .ok t) ↔ s.NewIds resolved := by
  have keys : (batch.map Listing.pk).Nodup := by
    obtain ⟨page, perm, inside⟩ := sub
    exact (perm.map Listing.pk).nodup_iff.mp (keyed.keys.sublist (inside.map Listing.pk))
  have outside : ∀ listing, listing ∉ batch → resolveRows batch (pollChange resolved now) listing = listing := by
    intro listing miss
    rw [resolveRows, if_neg miss]
  have after : (s.listings.map fun listing => ((batch.filterMap (pollChange resolved now)).find? fun row =>
      row.pk = listing.pk).getD listing) = s.listings.map (resolveRows batch (pollChange resolved now)) := by
    apply resolveRows_of_find
    intro listing mem
    exact find_change keyed.keys sub.subset (fun _ _ changed => (pollChange_published changed).1.pk) mem
  obtain ⟨rest, whole, changed⟩ := perm_rest keyed.keys sub outside
  -- the ids of the page are those of its outcomes, and the other listings keep theirs
  have given : ((batch.map (resolveRows batch (pollChange resolved now))).filterMap Listing.externalId) =
      batch.filterMap fun listing => resolved.lookup listing.pk := by
    rw [List.filterMap_map]
    apply List.filterMap_congr
    intro listing mem
    rw [Function.comp_apply, resolveRows, if_pos mem, pollChange]
    cases resolved.lookup listing.pk with
    | none => exact waiting listing mem
    | some => rfl
  have empty : batch.filterMap Listing.externalId = [] := List.filterMap_eq_nil_iff.mpr waiting
  have before : (s.listings.filterMap Listing.externalId).Perm (rest.filterMap Listing.externalId) := by
    have split := whole.filterMap Listing.externalId
    rwa [List.filterMap_append, empty, List.nil_append] at split
  have ids : ((s.listings.map (resolveRows batch (pollChange resolved now))).filterMap Listing.externalId).Perm
      (s.listings.filterMap Listing.externalId ++ resolved.map Prod.snd) := by
    have split := changed.filterMap Listing.externalId
    rw [List.filterMap_append, given] at split
    exact split.trans (((given_ids keys outcomes).append before.symm).trans List.perm_append_comm)
  rw [updateListings, writeListings, after]
  constructor
  · rintro ⟨t, step⟩
    split at step
    · next unique => exact ⟨ids.nodup_iff.mp unique.1, fun id mem => unique.2 id (ids.mem_iff.mpr mem)⟩
    · cases step
  · intro fresh
    exact ⟨_, if_pos ⟨ids.nodup_iff.mpr fresh.1, fun id mem => fresh.2 id (ids.mem_iff.mp mem)⟩⟩

theorem changed_length (keys : (batch.map Listing.pk).Nodup) (outcomes : OutcomesOf (batch.map Listing.pk) resolved) :
    (batch.filterMap (pollChange resolved now)).length = resolved.length := by
  have given := (given_ids keys outcomes).length_eq
  rw [List.length_map, List.length_filterMap_eq_countP] at given
  rw [List.length_filterMap_eq_countP, ← given]
  apply List.countP_congr
  intro listing _
  rw [pollChange, Option.isSome_map]

theorem waiting_of_expected {listing : Listing} (mem : listing ∈ s.expectedPage row) : afterCursor row listing :=
  (mem_pageOf mem).1

theorem expectedPage_nodup (keyed : s.Keyed) :
    ((s.listings.filter fun listing => afterCursor row listing ∧ listing.tenant = row.tenant).map Listing.pk).Nodup :=
  keyed.keys.sublist (List.filter_sublist.map Listing.pk)

theorem expectedPage_accepted (ordered : s.Ordered) (keyed : s.Keyed) (locked : lockClaimedRun claim [.polling] now s = .ok row)
    (cursor : row.pollCursorListingId = claim.pollCursorListingId) (page : (s.expectedPage row).map Listing.pk = ids)
    (ends : ids.getLast? = some last) (outcomes : OutcomesOf ids resolved) (fresh : s.NewIds resolved)
    (room : row.HasRoom resolved.length) : ∃ t, applyPollPage claim ids resolved last nextAttemptAt now s = .ok t ∧
      ∃ new ∈ t.runs, new.pk = row.pk ∧ new.pollCursorListingId = last := by
  subst page
  have mem := (lockClaimedRun_ok locked).1
  have written : (s.expectedPage row).map Listing.pk ≠ [] := fun none => by
    rw [none] at ends
    cases ends
  have ascending : ((s.expectedPage row).map Listing.pk).Pairwise (· < ·) :=
    pageOf_ascending (expectedPage_nodup keyed) maxPollBatchSize
  have short : ((s.expectedPage row).map Listing.pk).length ≤ maxPollBatchSize := by
    rw [List.length_map, FeedStore.expectedPage, pageOf_length]
    exact min_le_left _ _
  have few := outcomes.length_le
  have positive : 0 ∉ (s.expectedPage row).map Listing.pk := by
    intro zero
    obtain ⟨listing, inside, none⟩ := List.mem_map.mp zero
    have behind := (waiting_of_expected inside).2.2.2.2
    omega
  have outside : ¬ ∃ entry ∈ resolved, entry.1 ∉ (s.expectedPage row).map Listing.pk := by
    rintro ⟨entry, inside, miss⟩
    exact miss (outcomes.members entry inside)
  have valid : ¬ ∃ entry ∈ resolved, ¬ validExternalId entry.2 := by
    rintro ⟨entry, inside, miss⟩
    exact miss (outcomes.ids entry inside)
  have waiting : ∀ listing ∈ s.expectedPage row, listing.externalId = none := fun _ mem => (waiting_of_expected mem).2.2.2.1
  have nodup : ((s.expectedPage row).map Listing.pk).Nodup := ascending.imp fun less => ne_of_lt less
  obtain ⟨mid, listings⟩ : ∃ t, updateListings s ((s.expectedPage row).filterMap (pollChange resolved now)) = .ok t :=
    (updateListings_page keyed (pageOf_subperm maxPollBatchSize _ s.listings) waiting outcomes).mpr fresh
  obtain ⟨counted, counters⟩ := counterValues_published.mpr room
  obtain ⟨-, shape⟩ := counterValues_counts counters
  have runs : mid.runs = s.runs := by rw [updateListings_ok listings]
  have accepted : FeedRunConstraints (put MarketplaceFeedRun.pk { counted with
      pollCursorListingId := last
      nextAttemptAt := some nextAttemptAt
      revision := counted.revision + 1
      claimToken := none
      claimedUntil := none } s.runs) := by
    subst shape
    exact ordered.rows.move mem rfl (fun owns => owns) rfl rfl (ordered.rows.checked row mem)
  have count : counterValues row ⟨((s.expectedPage row).filterMap (pollChange resolved now)).length, 0, 0⟩ = .ok counted := by
    rw [changed_length nodup outcomes, counters]
  refine ⟨afterPublishing ((s.expectedPage row).filterMap (pollChange resolved now)) now
    { mid with
      runs := put MarketplaceFeedRun.pk { counted with
        pollCursorListingId := last
        nextAttemptAt := some nextAttemptAt
        revision := counted.revision + 1
        claimToken := none
        claimedUntil := none } s.runs
      syncLog := mid.syncLog ++ ((s.expectedPage row).filterMap (pollChange resolved now)).map (publishLog row) }, ?_, ?_⟩
  · simp only [applyPollPage, bind_ok, raiseIf_ok, not_not]
    exact ⟨(), not_or.mpr ⟨written, not_lt.mpr short⟩, (), positive, (), ascending, (), ends, (),
      not_lt.mpr (few.trans short), (), outside, (), valid, row, locked, (), cursor, (), rfl, mid, listings, counted, count, _,
      updateRun_ok.mpr ⟨by rw [runs]; exact accepted, rfl⟩, by rw [runs]; rfl⟩
  · rw [afterPublishing_runs]
    refine ⟨_, mem_put.mpr (.inl ⟨rfl, ?_⟩), ?_, rfl⟩
    · subst shape
      exact ⟨row, mem, rfl⟩
    · rw [shape]

theorem applyPollPage_iff (ordered : s.Ordered) (keyed : s.Keyed) (mem : row ∈ s.runs) (own : row.pk = claim.runId)
    (ends : ids.getLast? = some last) (outcomes : OutcomesOf ids resolved) :
    (∃ t, applyPollPage claim ids resolved last nextAttemptAt now s = .ok t ∧
      ∃ new ∈ t.runs, new.pk = row.pk ∧ new.pollCursorListingId = last) ↔
      lockClaimedRun claim [.polling] now s = .ok row ∧ row.pollCursorListingId = claim.pollCursorListingId ∧
        (s.expectedPage row).map Listing.pk = ids ∧ s.NewIds resolved ∧ row.HasRoom resolved.length := by
  constructor
  · rintro ⟨t, step, -⟩
    simp only [applyPollPage, bind_ok, raiseIf_ok, not_not] at step
    obtain ⟨_, -, _, -, _, -, _, -, _, -, _, -, _, -, run, locked, _, cursor, _, page, mid, listings, counted, counters, -⟩ := step
    obtain ⟨run_mem, fences⟩ := lockClaimedRun_ok locked
    obtain rfl : run = row := row_unique ordered.rows.keys run_mem mem (fences.pk.trans own.symm)
    have page : (s.expectedPage run).map Listing.pk = ids := page
    have nodup : ((s.expectedPage run).map Listing.pk).Nodup :=
      (pageOf_ascending (expectedPage_nodup keyed) maxPollBatchSize).imp fun less => ne_of_lt less
    have waiting : ∀ listing ∈ s.expectedPage run, listing.externalId = none := fun _ mem => (waiting_of_expected mem).2.2.2.1
    subst page
    have fresh := (updateListings_page keyed (pageOf_subperm maxPollBatchSize _ s.listings) waiting outcomes).mp
      ⟨mid, listings⟩
    have count : ((s.expectedPage run).filterMap (pollChange resolved now)).length = resolved.length := changed_length nodup outcomes
    exact ⟨locked, cursor, rfl, fresh, count ▸ counterValues_published.mp ⟨counted, counters⟩⟩
  · rintro ⟨locked, cursor, page, fresh, room⟩
    exact expectedPage_accepted ordered keyed locked cursor page ends outcomes fresh room

/-! ## A loaded batch -/

theorem loadPollBatch_ok (loaded : loadPollBatch claim limit now s = .ok batch) :
    1 ≤ limit ∧ limit ≤ maxPollBatchSize ∧ ∃ row ∈ s.runs, claim.Fences row now ∧ row.state = claim.state ∧
      row.state = .polling ∧ row.pollCursorListingId = claim.pollCursorListingId ∧ batch = pageOf limit (s.rest row) := by
  simp only [loadPollBatch, bind_ok, raiseIf_ok, orRaise_ok, not_or, not_lt, not_not] at loaded
  obtain ⟨_, ⟨least, most⟩, _, -, row, found, _, -, _, cursor, same⟩ := loaded
  have fenced := List.find?_some found
  simp only [decide_eq_true_eq] at fenced
  cases same
  exact ⟨least, most, row, List.mem_of_find?_eq_some found, fenced.1, fenced.2.1, fenced.2.2, cursor, rfl⟩

theorem rest_nodup (keyed : s.Keyed) (row : MarketplaceFeedRun) : ((s.rest row).map Listing.pk).Nodup :=
  keyed.keys.sublist (List.filter_sublist.map Listing.pk)

theorem rest_filter (row : MarketplaceFeedRun) : ((s.rest row).filter fun listing => decide (listing.tenant = row.tenant)) =
    s.listings.filter fun listing => afterCursor row listing ∧ listing.tenant = row.tenant := by
  rw [FeedStore.rest, List.filter_filter]
  apply List.filter_congr
  intro listing _
  rw [Bool.decide_and, Bool.and_comm]

/-- The page of this limit has only listings of the run's tenant, and leaves none of them out that the page of
a hundred would have. -/
def FeedStore.WholePage (s : FeedStore) (row : MarketplaceFeedRun) (limit : ℕ) : Prop :=
  (∀ listing ∈ pageOf limit (s.rest row), listing.tenant = row.tenant) ∧ (limit = maxPollBatchSize ∨
    (s.listings.filter fun listing => afterCursor row listing ∧ listing.tenant = row.tenant).length ≤ limit)

theorem wholePage_iff (keyed : s.Keyed) (atMost : limit ≤ maxPollBatchSize) :
    (s.expectedPage row).map Listing.pk = (pageOf limit (s.rest row)).map Listing.pk ↔ s.WholePage row limit := by
  have pages := pageOf_filter_iff (rest_nodup keyed row) (fun listing => decide (listing.tenant = row.tenant)) atMost
  rw [rest_filter] at pages
  simp only [decide_eq_true_eq] at pages
  rw [eq_comm]
  exact pages

theorem rest_perm (keyed : s.Keyed) (keyed' : t.Keyed)
    (same : ∀ listing : Listing, listing.feedRun = some row.pk → (listing ∈ s.listings ↔ listing ∈ t.listings)) :
    (s.rest row).Perm (t.rest row) := by
  refine (List.perm_ext_iff_of_nodup (rest_nodup keyed row).of_map (rest_nodup keyed' row).of_map).mpr fun listing => ?_
  rw [FeedStore.rest, FeedStore.rest, List.mem_filter, List.mem_filter, decide_eq_true_eq]
  exact and_congr_left fun waits => same listing waits.2.1

end Accepting

section Counted

variable {s : FeedStore} {row : MarketplaceFeedRun} {limit : ℕ} {resolved : List (ℕ × String)}

theorem Tallied.rest_tenant (tallied : Tallied row s.listings) :
    (s.listings.filter fun listing => afterCursor row listing ∧ listing.tenant = row.tenant) = s.rest row := by
  apply List.filter_congr
  intro listing mem
  apply decide_eq_decide.mpr
  exact ⟨And.left, fun waits => ⟨waits, (tallied.members listing mem waits.2.1).1⟩⟩

theorem Tallied.wholePage (tallied : Tallied row s.listings) :
    s.WholePage row limit ↔ limit = maxPollBatchSize ∨ (s.rest row).length ≤ limit := by
  rw [FeedStore.WholePage, tallied.rest_tenant]
  refine and_iff_right fun listing mem => ?_
  have waits := List.mem_filter.mp ((List.mem_insertionSort _).mp (List.mem_of_mem_take mem))
  exact (tallied.members listing waits.1 (of_decide_eq_true waits.2).2.1).1

theorem Tallied.hasRoom (tallied : Tallied row s.listings) (owner : row.owns)
    (outcomes : OutcomesOf ((pageOf limit (s.rest row)).map Listing.pk) resolved) : row.HasRoom resolved.length := by
  have total := tallied.total
  have waiting : (s.rest row).length ≤ row.pendingCount := by
    rw [← tallied.exact' owner, tally_countP, FeedStore.rest, ← List.countP_eq_length_filter]
    apply List.countP_mono_left
    intro listing mem waits
    have behind := of_decide_eq_true waits
    exact decide_eq_true ⟨behind.2.1, (tallied.members listing mem behind.2.1).1, behind.2.2.1⟩
  have few := outcomes.length_le
  rw [List.length_map, pageOf_length] at few
  exact ⟨by omega, by omega⟩

end Counted

/-- For every order of operations and of outside writes, from empty tables: a batch that was loaded under a claim, of
a run that has not changed since, nor its listings, is accepted with any outcomes exactly when the claim still holds
the run, the page has the tenant's listings only and is not cut short by its limit, and the provider ids are new and
the counters have room for them; its last listing is then the cursor. -/
theorem loaded_batch_accepted_iff (start : FeedStore) (events later : List FeedEvent) (claim : FeedRunClaim)
    (limit : ℕ) (loadedAt now nextAttemptAt : Instant) (batch : List Listing) (row : MarketplaceFeedRun)
    (resolved : List (ℕ × String)) (last : ℕ)
    (loaded : loadPollBatch claim limit loadedAt (run FeedStore.next start.blank events) = .ok batch)
    (own : row.pk = claim.runId) (before : row ∈ (run FeedStore.next start.blank events).runs)
    (after : row ∈ (run FeedStore.next start.blank (events ++ later)).runs)
    (same : ∀ listing : Listing, listing.feedRun = some row.pk →
      (listing ∈ (run FeedStore.next start.blank events).listings ↔
        listing ∈ (run FeedStore.next start.blank (events ++ later)).listings))
    (ends : (batch.map Listing.pk).getLast? = some last) (outcomes : OutcomesOf (batch.map Listing.pk) resolved) :
    let t := run FeedStore.next start.blank (events ++ later)
    (∃ u, applyPollPage claim (batch.map Listing.pk) resolved last nextAttemptAt now t = .ok u ∧
      ∃ new ∈ u.runs, new.pk = row.pk ∧ new.pollCursorListingId = last) ↔
      lockClaimedRun claim [.polling] now t = .ok row ∧ t.WholePage row limit ∧ t.NewIds resolved ∧
        row.HasRoom resolved.length := by
  intro t
  obtain ⟨ordered, keyed⟩ := FeedStore.reached_keyed start events
  obtain ⟨ordered', keyed'⟩ := FeedStore.reached_keyed start (events ++ later)
  obtain ⟨-, atMost, found, found_mem, fences, -, -, cursor, rfl⟩ := loadPollBatch_ok loaded
  obtain rfl : found = row := row_unique ordered.rows.keys found_mem before (fences.pk.trans own.symm)
  have page : pageOf limit ((run FeedStore.next start.blank events).rest found) = pageOf limit (t.rest found) :=
    pageOf_perm (rest_nodup keyed found) (rest_perm keyed keyed' same) limit
  rw [page] at ends outcomes ⊢
  rw [applyPollPage_iff ordered' keyed' after own ends outcomes, wholePage_iff keyed' atMost]
  exact ⟨fun ⟨locked, _, rest⟩ => ⟨locked, rest⟩, fun ⟨locked, rest⟩ => ⟨locked, cursor, rest⟩⟩

def twoListings : List FeedEvent :=
  [.listingsSaved [pendingListing, { pendingListing with pk := 2, product := 2, publishIdempotencyKey := 12 }],
   .workflow (.createOrSupersedeFeedRun 1 feedGeneration 0), claimAt 0 100,
   .workflow (.markFeedSubmitted (generationClaim .preparing 1 none 100 10) "digest" (some "upload") 1 2 1), claimAt 2 200]

def twoListingsPolled : FeedStore := run FeedStore.next feedStore.blank twoListings

def firstListing : Listing := { pendingListing with feedRun := some 7 }

def secondListing : Listing := { firstListing with pk := 2, product := 2, publishIdempotencyKey := 12 }

theorem outcomesOf_first : OutcomesOf [1, 2] [(1, "avito-1")] := ⟨by decide, by decide, by decide⟩

/-- The batch of both listings is accepted with the outcome of the first one, if the run has room for it. -/
theorem loaded_batch_accepted_two : ∃ row ∈ twoListingsPolled.runs,
    ((∃ u, applyPollPage polledClaim [1, 2] [(1, "avito-1")] 2 5 4 twoListingsPolled = .ok u ∧
      ∃ new ∈ u.runs, new.pk = row.pk ∧ new.pollCursorListingId = 2) ↔
      lockClaimedRun polledClaim [.polling] 4 twoListingsPolled = .ok row ∧ twoListingsPolled.WholePage row 100 ∧
        twoListingsPolled.NewIds [(1, "avito-1")] ∧ row.HasRoom 1) := by
  have loaded : loadPollBatch polledClaim 100 3 twoListingsPolled = .ok [firstListing, secondListing] := by decide +kernel
  obtain ⟨-, -, row, mem, fences, -⟩ := loadPollBatch_ok loaded
  exact ⟨row, mem, loaded_batch_accepted_iff feedStore twoListings [] polledClaim 100 3 4 5 [firstListing, secondListing] row
    [(1, "avito-1")] 2 loaded fences.pk mem mem (fun _ _ => Iff.rfl) rfl outcomesOf_first⟩

/-- The batch of one listing is not the page of a hundred, with nothing changed in between. -/
theorem short_batch_conflicts :
    loadPollBatch polledClaim 1 3 twoListingsPolled = .ok [firstListing] ∧ OutcomesOf [1] [(1, "avito-1")] ∧
      applyPollPage polledClaim [1] [(1, "avito-1")] 1 5 4 twoListingsPolled =
        .error (.conflict "batch_listing_ids no longer matches the exact poll batch.") ∧
      (applyPollPage polledClaim [1, 2] [(1, "avito-1")] 2 5 4 twoListingsPolled).toOption.isSome = true :=
  ⟨by decide +kernel, ⟨by decide, by decide, by decide⟩, by decide +kernel, by decide +kernel⟩

end MapBackend.Marketplaces
