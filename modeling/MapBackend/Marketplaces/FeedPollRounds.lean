import MapBackend.Marketplaces.FeedPollPages

/-!
A round of a poll: pages are applied from cursor zero until the loader returns an empty batch.
-/

namespace MapBackend.Marketplaces
open MapBackend.Library FeedWorkflow

def FeedStore.cursor? (s : FeedStore) (runId : Uuid) : Option ℕ := (findRun s runId).map MarketplaceFeedRun.pollCursorListingId

/-- The listing of this key is live and pending without a provider id, and belongs to the run. -/
def Waits (runId : Uuid) (key : ℕ) (s : FeedStore) : Prop :=
  0 < key ∧ ∃ row ∈ s.runs, row.pk = runId ∧ ∃ listing ∈ s.listings, listing.pk = key ∧ Awaits row listing

def appliedPage (runId : Uuid) (s : FeedStore) : FeedEvent → List (List ℕ)
  | .workflow (.applyPollPage claim batchListingIds resolvedExternalIds lastListingId nextAttemptAt now) =>
    if claim.runId = runId ∧ (applyPollPage claim batchListingIds resolvedExternalIds lastListingId nextAttemptAt now
      s).toOption.isSome = true then [batchListingIds] else []
  | _ => []

def appliedPages (runId : Uuid) : FeedStore → List FeedEvent → List (List ℕ)
  | _, [] => []
  | s, event :: rest => appliedPage runId s event ++ appliedPages runId (s.next event) rest

def KeepsRound (runId : Uuid) (s : FeedStore) (event : FeedEvent) : Prop :=
  appliedPage runId s event ≠ [] ∨ (s.next event).cursor? runId = s.cursor? runId

instance (runId : Uuid) (s : FeedStore) (event : FeedEvent) : Decidable (KeepsRound runId s event) :=
  inferInstanceAs (Decidable (_ ∨ _))

def AddsNone (runId : Uuid) (s : FeedStore) (event : FeedEvent) : Prop :=
  ∀ key, Waits runId key (s.next event) → Waits runId key s

section Page

variable {s t : FeedStore} {runId : Uuid} {row : MarketplaceFeedRun} {claim : FeedRunClaim} {ids : List ℕ}
  {resolved : List (ℕ × String)} {last key : ℕ} {now nextAttemptAt : Instant} {event : FeedEvent}

theorem cursor?_of_mem (keys : (s.runs.map MarketplaceFeedRun.pk).Nodup) (mem : row ∈ s.runs) (own : row.pk = runId) :
    s.cursor? runId = some row.pollCursorListingId := by
  cases found : findRun s runId with
  | none => exact absurd (decide_eq_true own) (List.find?_eq_none.mp found row mem)
  | some other =>
    have named := List.find?_some found
    have same : other.pk = runId := of_decide_eq_true named
    have one : other = row := row_unique keys (findRun_mem found) mem (same.trans own.symm)
    rw [FeedStore.cursor?, found, one]
    rfl

theorem cursor?_put {new : MarketplaceFeedRun} (rows : FeedRunConstraints t.runs) (runs : t.runs = put MarketplaceFeedRun.pk new s.runs)
    (mem : row ∈ s.runs) (own : new.pk = row.pk) (named : row.pk = runId) : t.cursor? runId = some new.pollCursorListingId := by
  have written : new ∈ t.runs := runs ▸ mem_put.mpr (.inl ⟨rfl, row, mem, own.symm⟩)
  exact cursor?_of_mem rows.keys written (own.trans named)

theorem applyPollPage_page (keyed : s.Keyed)
    (step : applyPollPage claim ids resolved last nextAttemptAt now s = .ok t) :
    ∃ row ∈ s.runs, row.pk = claim.runId ∧ ids = (s.expectedPage row).map Listing.pk ∧ ids.getLast? = some last ∧
      t.cursor? claim.runId = some last := by
  obtain ⟨row, _, _, locked, -, -, -, rows, runs⟩ := applyPollPage_effect keyed step
  obtain ⟨mem, fences⟩ := lockClaimedRun_ok locked
  simp only [applyPollPage, bind_ok, raiseIf_ok, not_not] at step
  obtain ⟨_, -, _, -, _, -, _, ends, _, -, _, -, _, -, found, locked', _, -, _, page, -⟩ := step
  obtain rfl : found = row := Except.ok.inj (locked'.symm.trans locked)
  exact ⟨found, mem, fences.pk, page.symm, ends, cursor?_put rows runs mem rfl fences.pk⟩

theorem expectedPage_covers (keyed : s.Keyed) (mem : row ∈ s.runs) (ordered : s.Ordered)
    (ends : ((s.expectedPage row).map Listing.pk).getLast? = some last) :
    (row.pollCursorListingId :: (s.expectedPage row).map Listing.pk).Pairwise (· < ·) ∧
      ∀ key, Waits row.pk key s → row.pollCursorListingId < key → key ≤ last → key ∈ (s.expectedPage row).map Listing.pk := by
  have keys : ((s.listings.filter fun listing => afterCursor row listing ∧ listing.tenant = row.tenant).map Listing.pk).Nodup :=
    expectedPage_nodup keyed
  constructor
  · refine List.pairwise_cons.mpr ⟨fun key mem => ?_, pageOf_ascending keys maxPollBatchSize⟩
    obtain ⟨listing, inside, rfl⟩ := List.mem_map.mp mem
    exact (waiting_of_expected inside).2.2.2.2
  · rintro key ⟨-, other, other_mem, own, listing, inside, rfl, waits⟩ behind before
    obtain rfl : other = row := row_unique ordered.rows.keys other_mem mem own
    obtain ⟨_, page, rfl⟩ := List.mem_map.mp (List.mem_of_mem_getLast? ends)
    have listed : listing ∈ s.listings.filter fun listing => afterCursor other listing ∧ listing.tenant = other.tenant :=
      List.mem_filter.mpr ⟨inside, decide_eq_true
        ⟨⟨waits.live, waits.generation, waits.pending, waits.unresolved, behind⟩, waits.tenant⟩⟩
    exact List.mem_map_of_mem (mem_pageOf_of_le keys listed page before)

theorem appliedPage_moves (ordered : s.Ordered) (keyed : s.Keyed) (applied : appliedPage runId s event ≠ []) {cursor : ℕ}
    (at' : s.cursor? runId = some cursor) : ∃ ids last, appliedPage runId s event = [ids] ∧ ids.getLast? = some last ∧
      (s.next event).cursor? runId = some last ∧ (cursor :: ids).Pairwise (· < ·) ∧
      (∀ key ∈ ids, Waits runId key s) ∧ ∀ key, Waits runId key s → cursor < key → key ≤ last → key ∈ ids := by
  unfold appliedPage at applied ⊢
  split at applied
  · next claim ids resolved last nextAttemptAt now =>
    by_cases taken : claim.runId = runId ∧ (applyPollPage claim ids resolved last nextAttemptAt now s).toOption.isSome = true
    · obtain ⟨rfl, accepted⟩ := taken
      obtain ⟨t, some⟩ := Option.isSome_iff_exists.mp accepted
      have step := ok_of_toOption some
      obtain ⟨row, mem, own, rfl, ends, cursor'⟩ := applyPollPage_page keyed step
      have here : s.cursor? claim.runId = Option.some row.pollCursorListingId := cursor?_of_mem ordered.rows.keys mem own
      obtain rfl : row.pollCursorListingId = cursor := Option.some.inj (here.symm.trans at')
      obtain ⟨ascending, covers⟩ := expectedPage_covers keyed mem ordered ends
      have after : s.next (.workflow (.applyPollPage claim ((s.expectedPage row).map Listing.pk) resolved last nextAttemptAt now)) = t :=
        next_workflow (done_ok.mpr ⟨step, rfl⟩)
      refine ⟨_, last, if_pos ⟨rfl, accepted⟩, ends, after ▸ cursor', ascending, fun key key_mem => ?_, own ▸ covers⟩
      obtain ⟨listing, inside, rfl⟩ := List.mem_map.mp key_mem
      obtain ⟨⟨live, generation, pending, unresolved, _⟩, tenant⟩ := mem_pageOf inside
      exact ⟨by omega, row, mem, own, listing, (pageOf_subperm maxPollBatchSize _ s.listings).subset inside, rfl,
        live, generation, tenant, pending, unresolved⟩
    · exact absurd (if_neg taken) applied
  · exact absurd rfl applied

end Page

section Round

variable {s : FeedStore} {runId : Uuid} {round : List FeedEvent} {cursor key : ℕ}

theorem ascending_append {ids more : List ℕ} {last : ℕ} (first : (cursor :: ids).Pairwise (· < ·))
    (ends : ids.getLast? = some last) (second : (last :: more).Pairwise (· < ·)) : (cursor :: (ids ++ more)).Pairwise (· < ·) := by
  obtain ⟨front, rfl⟩ := List.getLast?_eq_some_iff.mp ends
  have shape : cursor :: (front ++ [last] ++ more) = (cursor :: front) ++ last :: more := by simp
  rw [← List.cons_append, List.pairwise_append] at first
  rw [shape, List.pairwise_append]
  refine ⟨first.1, second, fun a before b behind => ?_⟩
  have up := first.2.2 a before last (List.mem_singleton_self last)
  rcases List.mem_cons.mp behind with rfl | later
  · exact up
  · exact up.trans ((List.pairwise_cons.mp second).1 b later)

theorem round_ascending (ordered : s.Ordered) (keyed : s.Keyed) (at' : s.cursor? runId = some cursor)
    (kept : Meets FeedStore.next (KeepsRound runId) s round) :
    (cursor :: (appliedPages runId s round).flatten).Pairwise (· < ·) ∧
      (run FeedStore.next s round).cursor? runId = (cursor :: (appliedPages runId s round).flatten).getLast? := by
  induction round generalizing s cursor with
  | nil => exact ⟨List.pairwise_singleton _ _, at'⟩
  | cons event _ ih =>
    obtain ⟨here, later⟩ := (meets_cons ..).mp kept
    have ordered' := FeedStore.next_ordered s event ordered
    have keyed' := FeedStore.next_keyed event ordered keyed
    rw [run_cons, appliedPages, List.flatten_append]
    by_cases applied : appliedPage runId s event = []
    · rw [applied, List.flatten_nil, List.nil_append]
      exact ih ordered' keyed' ((here.resolve_left fun other => other applied).trans at') later
    · obtain ⟨_, _, page, ends, moved, ascending, -, -⟩ := appliedPage_moves ordered keyed applied at'
      obtain ⟨more, final⟩ := ih ordered' keyed' moved later
      rw [page, List.flatten_singleton]
      refine ⟨ascending_append ascending ends more, final.trans ?_⟩
      obtain ⟨_, rfl⟩ := List.getLast?_eq_some_iff.mp ends
      simp [List.getLast?_cons, List.getLast?_append]

theorem round_covers (ordered : s.Ordered) (keyed : s.Keyed) (at' : s.cursor? runId = some cursor)
    (kept : Meets FeedStore.next (KeepsRound runId) s round) (waits : Meets FeedStore.next (fun s _ => Waits runId key s) s round)
    (behind : cursor < key) {final : ℕ} (ends : (run FeedStore.next s round).cursor? runId = some final) (before : key ≤ final) :
    key ∈ (appliedPages runId s round).flatten := by
  induction round generalizing s cursor with
  | nil =>
    have same : cursor = final := Option.some.inj (at'.symm.trans ends)
    omega
  | cons event _ ih =>
    obtain ⟨here, later⟩ := (meets_cons ..).mp kept
    obtain ⟨waiting, after⟩ := (meets_cons ..).mp waits
    have ordered' := FeedStore.next_ordered s event ordered
    have keyed' := FeedStore.next_keyed event ordered keyed
    rw [appliedPages, List.flatten_append]
    by_cases applied : appliedPage runId s event = []
    · rw [applied, List.flatten_nil, List.nil_append]
      exact ih ordered' keyed' ((here.resolve_left fun other => other applied).trans at') later after behind ends
    · obtain ⟨_, last, page, -, moved, -, -, covers⟩ := appliedPage_moves ordered keyed applied at'
      rw [page, List.flatten_singleton]
      by_cases passed : key ≤ last
      · exact List.mem_append_left _ (covers key waiting behind passed)
      · exact List.mem_append_right _ (ih ordered' keyed' moved later after (not_le.mp passed) ends)

theorem round_waiting (ordered : s.Ordered) (keyed : s.Keyed) (at' : s.cursor? runId = some cursor)
    (kept : Meets FeedStore.next (KeepsRound runId) s round) (adds : Meets FeedStore.next (AddsNone runId) s round) :
    ∀ key ∈ (appliedPages runId s round).flatten, Waits runId key s := by
  induction round generalizing s cursor with
  | nil => exact fun key mem => by cases mem
  | cons event _ ih =>
    obtain ⟨here, later⟩ := (meets_cons ..).mp kept
    obtain ⟨none, after⟩ := (meets_cons ..).mp adds
    have ordered' := FeedStore.next_ordered s event ordered
    have keyed' := FeedStore.next_keyed event ordered keyed
    rw [appliedPages, List.flatten_append]
    by_cases applied : appliedPage runId s event = []
    · rw [applied, List.flatten_nil, List.nil_append]
      intro key mem
      exact none key (ih ordered' keyed' ((here.resolve_left fun other => other applied).trans at') later after key mem)
    · obtain ⟨_, _, page, -, moved, -, waiting, -⟩ := appliedPage_moves ordered keyed applied at'
      rw [page, List.flatten_singleton]
      intro key mem
      rcases List.mem_append.mp mem with first | second
      · exact waiting key first
      · exact none key (ih ordered' keyed' moved later after key second)

theorem appliedPage_filled {event : FeedEvent} {page : List ℕ} (mem : page ∈ appliedPage runId s event) :
    page ≠ [] ∧ page.length ≤ maxPollBatchSize := by
  unfold appliedPage at mem
  split at mem
  · split at mem
    · next taken =>
      obtain rfl := List.mem_singleton.mp mem
      obtain ⟨t, some⟩ := Option.isSome_iff_exists.mp taken.2
      have step := ok_of_toOption some
      simp only [applyPollPage, bind_ok, raiseIf_ok, not_or, not_lt] at step
      obtain ⟨_, sized, -⟩ := step
      exact sized
    · cases mem
  · cases mem

theorem appliedPages_filled : ∀ page ∈ appliedPages runId s round, page ≠ [] ∧ page.length ≤ maxPollBatchSize := by
  induction round generalizing s with
  | nil => exact fun page mem => by cases mem
  | cons _ _ ih =>
    intro page mem
    rcases List.mem_append.mp mem with here | later
    · exact appliedPage_filled here
    · exact ih page later

theorem length_le_flatten {pages : List (List ℕ)} (filled : ∀ page ∈ pages, page ≠ []) : pages.length ≤ pages.flatten.length := by
  induction pages with
  | nil => exact le_rfl
  | cons page _ ih =>
    have one := List.length_pos_of_ne_nil (filled page List.mem_cons_self)
    have others := ih fun page mem => filled page (List.mem_cons_of_mem _ mem)
    rw [List.flatten_cons, List.length_append, List.length_cons]
    omega

theorem round_ends (ordered : s.Ordered) (keyed : s.Keyed) (at' : s.cursor? runId = some cursor)
    (kept : Meets FeedStore.next (KeepsRound runId) s round) (adds : Meets FeedStore.next (AddsNone runId) s round) :
    (appliedPages runId s round).length ≤ (s.listings.filter fun listing => listing.feedRun = some runId).length := by
  have ascending := (List.pairwise_cons.mp (round_ascending ordered keyed at' kept).1).2
  have once : (appliedPages runId s round).flatten.Nodup := ascending.imp fun less => ne_of_lt less
  have among : (appliedPages runId s round).flatten ⊆
      (s.listings.filter fun listing => listing.feedRun = some runId).map Listing.pk := by
    intro key mem
    obtain ⟨-, _, -, own, listing, inside, rfl, waits⟩ := round_waiting ordered keyed at' kept adds key mem
    exact List.mem_map_of_mem (List.mem_filter.mpr ⟨inside, decide_eq_true (own ▸ waits.generation)⟩)
  have bound := (once.subperm among).length_le
  rw [List.length_map] at bound
  exact (length_le_flatten fun page mem => (appliedPages_filled page mem).1).trans bound

end Round

section Claimed

variable {s t : FeedStore} {claim : FeedRunClaim} {row : MarketplaceFeedRun} {now nextAttemptAt : Instant} {limit : ℕ}

theorem loadPollBatch_locked (locked : lockClaimedRun claim [.polling] now s = .ok row)
    (cursor : row.pollCursorListingId = claim.pollCursorListingId) (least : 1 ≤ limit) (most : limit ≤ maxPollBatchSize) :
    loadPollBatch claim limit now s = .ok (pageOf limit (s.rest row)) := by
  simp only [lockClaimedRun, bind_ok, raiseIf_ok, orRaise_ok] at locked
  obtain ⟨account, live, _, same, found⟩ := locked
  simp only [List.mem_singleton] at found
  simp only [loadPollBatch, bind_ok, raiseIf_ok, orRaise_ok, not_or, not_lt, not_not]
  exact ⟨(), ⟨least, most⟩, account, live, row, found, (), by simpa only [not_not] using not_or.mp same, (),
    cursor, rfl⟩

theorem pageOf_eq_nil {listings : List Listing} (least : 1 ≤ limit) : pageOf limit listings = [] ↔ listings = [] := by
  rw [← List.length_eq_zero_iff, pageOf_length, ← List.length_eq_zero_iff (l := listings)]
  omega

theorem resetPollRound_iff (ordered : s.Ordered) (locked : lockClaimedRun claim [.polling] now s = .ok row)
    (later : now < nextAttemptAt) : (∃ t, resetPollRound claim nextAttemptAt now s = .ok t) ↔ s.rest row = [] := by
  have mem := (lockClaimedRun_ok locked).1
  constructor
  · rintro ⟨t, step⟩
    simp only [resetPollRound, bind_ok, raiseIf_ok] at step
    obtain ⟨_, -, found, locked', _, none, -⟩ := step
    obtain rfl : found = row := Except.ok.inj (locked'.symm.trans locked)
    refine List.filter_eq_nil_iff.mpr fun listing inside waits => none ⟨listing, inside, of_decide_eq_true waits⟩
  · intro none
    have quiet : ¬ ∃ listing ∈ s.listings, afterCursor row listing := by
      rintro ⟨listing, inside, waits⟩
      exact List.filter_eq_nil_iff.mp none listing inside (decide_eq_true waits)
    simp only [resetPollRound, bind_ok, raiseIf_ok, future]
    refine ⟨_, (), not_le.mpr later, row, locked, (), quiet, updateRun_ok.mpr ⟨?_, rfl⟩⟩
    exact ordered.rows.move mem rfl (fun owns => owns) rfl rfl (ordered.rows.checked row mem)

theorem resetPollRound_cursor (step : resetPollRound claim nextAttemptAt now s = .ok t) : t.cursor? claim.runId = some 0 := by
  obtain ⟨_, locked, written⟩ := resetPollRound_effect step
  obtain ⟨mem, fences⟩ := lockClaimedRun_ok locked
  obtain ⟨rows, same⟩ := updateRun_ok.mp written
  have runs := congrArg FeedStore.runs same
  exact cursor?_put (by rw [runs]; exact rows) runs mem rfl fences.pk

end Claimed

/-- For every order of operations and of outside writes, from empty tables, and every round of a run that starts with
its cursor at zero, in which nothing but its pages moves the cursor: the pages are not empty and go up strictly, the
cursor is always the last listing on them, and there are no more of them than the run has listings while none begins
to wait; once the loader returns an empty batch, every listing that waited throughout was on them exactly once; as long
as it returns one, the batch is accepted if the outside writes were calm; the round can be reset exactly when it
returns none, and the cursor is zero then. -/
theorem poll_round_covers (start : FeedStore) (events round : List FeedEvent) (runId : Uuid)
    (began : (run FeedStore.next start.blank events).cursor? runId = some 0)
    (kept : Meets FeedStore.next (KeepsRound runId) (run FeedStore.next start.blank events) round) :
    let s := run FeedStore.next start.blank events
    let t := run FeedStore.next s round
    let pages := appliedPages runId s round
    (∀ page ∈ pages, page ≠ [] ∧ page.length ≤ maxPollBatchSize) ∧ (0 :: pages.flatten).Pairwise (· < ·) ∧
      t.cursor? runId = (0 :: pages.flatten).getLast? ∧
      (Meets FeedStore.next (AddsNone runId) s round →
        pages.length ≤ (s.listings.filter fun listing => listing.feedRun = some runId).length) ∧
      (∀ claim limit now key, claim.runId = runId → loadPollBatch claim limit now t = .ok [] →
        Meets FeedStore.next (fun s _ => Waits runId key s) s round → Waits runId key t → pages.flatten.count key = 1) ∧
      ∀ claim now row, claim.runId = runId → lockClaimedRun claim [.polling] now t = .ok row →
        row.pollCursorListingId = claim.pollCursorListingId →
        (∀ loadedAt nextAttemptAt batch resolved last,
          Meets FeedStore.next FeedStore.Calm start.blank (events ++ round) →
          loadPollBatch claim maxPollBatchSize loadedAt t = .ok batch → (batch.map Listing.pk).getLast? = some last →
          OutcomesOf (batch.map Listing.pk) resolved → t.NewIds resolved →
          ∃ u, applyPollPage claim (batch.map Listing.pk) resolved last nextAttemptAt now t = .ok u) ∧
        ∀ nextAttemptAt, now < nextAttemptAt →
          ((∃ u, resetPollRound claim nextAttemptAt now t = .ok u) ↔ loadPollBatch claim maxPollBatchSize now t = .ok []) ∧
          ∀ u, resetPollRound claim nextAttemptAt now t = .ok u → u.cursor? runId = some 0 := by
  intro s t pages
  obtain ⟨ordered, keyed⟩ := FeedStore.reached_keyed start events
  have reached : t = run FeedStore.next start.blank (events ++ round) := (run_append ..).symm
  obtain ⟨ordered', keyed'⟩ : t.Ordered ∧ t.Keyed := reached ▸ FeedStore.reached_keyed start (events ++ round)
  obtain ⟨ascending, final⟩ := round_ascending ordered keyed began kept
  refine ⟨appliedPages_filled, ascending, final, round_ends ordered keyed began kept, ?_, ?_⟩
  · rintro claim limit now key rfl loaded waits ⟨positive, row, mem, own, listing, inside, rfl, waiting⟩
    obtain ⟨least, -, found, found_mem, fences, -, -, -, page⟩ := loadPollBatch_ok loaded
    obtain rfl : found = row := row_unique ordered'.rows.keys found_mem mem (fences.pk.trans own.symm)
    have none : t.rest found = [] := (pageOf_eq_nil least).mp page.symm
    -- the listing waits at the end, so the cursor has passed it
    have passed : listing.pk ≤ found.pollCursorListingId := by
      by_contra behind
      exact List.filter_eq_nil_iff.mp none listing inside (decide_eq_true
        ⟨waiting.live, waiting.generation, waiting.pending, waiting.unresolved, not_le.mp behind⟩)
    have covered := round_covers ordered keyed began kept waits positive (cursor?_of_mem ordered'.rows.keys mem own) passed
    have once : pages.flatten.Nodup := (List.pairwise_cons.mp ascending).2.imp fun less => ne_of_lt less
    exact List.count_eq_one_of_mem once covered
  · rintro claim now row rfl locked cursor
    obtain ⟨mem, fences⟩ := lockClaimedRun_ok locked
    refine ⟨fun loadedAt nextAttemptAt batch resolved last calm loaded ends outcomes fresh => ?_, fun nextAttemptAt later => ⟨?_, ?_⟩⟩
    · obtain ⟨-, -, found, found_mem, fences', -, -, -, rfl⟩ := loadPollBatch_ok loaded
      obtain rfl : found = row := row_unique ordered'.rows.keys found_mem mem (fences'.pk.trans fences.pk.symm)
      have owner := lockClaimedRun_owns locked (by decide)
      have tallied : Tallied found t.listings := (reached ▸ FeedStore.reached_counted start calm).tallied found mem (.inl owner)
      have page := (wholePage_iff keyed' le_rfl).mpr (tallied.wholePage.mpr (.inl rfl))
      exact (expectedPage_accepted ordered' keyed' locked cursor page ends outcomes fresh (tallied.hasRoom owner outcomes)).imp
        fun u accepted => accepted.1
    · rw [resetPollRound_iff ordered' locked later, loadPollBatch_locked locked cursor (by decide) le_rfl]
      exact ⟨fun none => by rw [(pageOf_eq_nil (by decide)).mpr none], fun none => (pageOf_eq_nil (by decide)).mp (Except.ok.inj none)⟩
    · exact fun u step => resetPollRound_cursor step

def twoListingsRound : List FeedEvent :=
  [.workflow (.applyPollPage polledClaim [1, 2] [(1, "avito-1")] 2 5 4), claimAt 5 300]

/-- A round of one page, with the first of two listings published. -/
theorem poll_round_covers_two : twoListingsPolled.cursor? 7 = some 0 ∧
    appliedPages 7 twoListingsPolled twoListingsRound = [[1, 2]] ∧
    (run FeedStore.next twoListingsPolled twoListingsRound).cursor? 7 = some 2 :=
  have began : twoListingsPolled.cursor? 7 = some 0 := by decide +kernel
  have kept : Meets FeedStore.next (KeepsRound 7) twoListingsPolled twoListingsRound := by decide +kernel
  have pages : appliedPages 7 twoListingsPolled twoListingsRound = [[1, 2]] := by decide +kernel
  have final := (poll_round_covers feedStore twoListings twoListingsRound 7 began kept).2.2.1
  ⟨began, pages, final.trans (congrArg (fun pages : List (List ℕ) => (0 :: pages.flatten).getLast?) pages)⟩

end MapBackend.Marketplaces
