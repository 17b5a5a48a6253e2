import MapBackend.Marketplaces.OzonAttestation
import MapBackend.Marketplaces.OzonConvergence

/-!
The last synced values of an offer over whole runs.
-/

namespace MapBackend.Marketplaces
open MapBackend.Library

def OzonOperation.Busy (row : OzonOperation) : Prop := row.active ∧ row.state ≠ .outcomeUnknown

theorem OzonOperation.busy_of_queued {row : OzonOperation} (queued : row.state = .queued) : row.Busy :=
  ⟨OzonOperation.active_of_state queued (by decide), by simp [queued]⟩

theorem OzonOperation.busy_of_sending {row : OzonOperation} (sending : row.state = .sending) : row.Busy :=
  ⟨OzonOperation.active_of_state sending (by decide), by simp [sending]⟩

def OzonOperation.Fits (row : OzonOperation) : Prop := row.kind.task = .commerce → row.requestSummary.kind? = some row.kind

namespace OzonStore

variable {s next : OzonStore} {offer : Uuid} {kind : OzonOperationKind}

/-! ## The last update -/

theorem owns_iff (sound : s.Sound) {row : OzonOperation} (mem : row ∈ s.operations) :
    s.owns offer kind row.pk = true ↔ row.offer = offer ∧ row.kind = kind := by
  rw [owns, List.any_eq_true]
  constructor
  · rintro ⟨_, other_mem, holds⟩
    obtain ⟨same, of_offer, of_kind⟩ := of_decide_eq_true holds
    obtain rfl := row_unique sound.pks other_mem mem same
    exact ⟨of_offer, of_kind⟩
  · rintro ⟨of_offer, of_kind⟩
    exact ⟨row, mem, decide_eq_true ⟨rfl, of_offer, of_kind⟩⟩

variable {update : SentUpdate}

theorem lastUpdate_mem (found : s.lastUpdate? offer kind = some update) :
    update ∈ s.updates ∧ s.owns offer kind update.operation = true :=
  List.mem_filter.mp (List.mem_of_getLast? found)

theorem lastUpdate_row (found : s.lastUpdate? offer kind = some update) :
    ∃ row ∈ s.operations, row.pk = update.operation ∧ row.offer = offer ∧ row.kind = kind := by
  obtain ⟨row, mem, holds⟩ := List.any_eq_true.mp (lastUpdate_mem found).2
  exact ⟨row, mem, of_decide_eq_true holds⟩

def KeepsRows (s next : OzonStore) : Prop := ∀ row ∈ s.operations, ∃ new ∈ next.operations, SameOperation row new

def Known (s : OzonStore) : Prop := ∀ update ∈ s.updates, ∃ row ∈ s.operations, row.pk = update.operation

theorem owns_kept (sound : s.Sound) (later : next.Sound) (kept : KeepsRows s next) {row : OzonOperation} (mem : row ∈ s.operations) :
    next.owns offer kind row.pk = s.owns offer kind row.pk := by
  obtain ⟨_, new_mem, same⟩ := kept row mem
  rw [Bool.eq_iff_iff, owns_iff sound mem, ← same.pk, owns_iff later new_mem, same.offer, same.kind]

theorem lastUpdate_kept (sound : s.Sound) (later : next.Sound) (known : s.Known) (kept : KeepsRows s next)
    (quiet : next.updates = s.updates) : next.lastUpdate? offer kind = s.lastUpdate? offer kind := by
  have same : (s.updates.filter fun update => next.owns offer kind update.operation) =
      s.updates.filter fun update => s.owns offer kind update.operation := by
    apply List.filter_congr
    intro update mem
    obtain ⟨_, row_mem, pk⟩ := known update mem
    rw [← pk, owns_kept sound later kept row_mem]
  rw [lastUpdate?, quiet, same, lastUpdate?]

theorem lastUpdate_record {events : List OzonEvent} (sent : (s.record events).updates = s.updates ++ [update]) :
    (s.record events).lastUpdate? offer kind =
      if s.owns offer kind update.operation = true then some update else s.lastUpdate? offer kind := by
  have owner : (s.record events).owns offer kind = s.owns offer kind := rfl
  rw [lastUpdate?, sent, owner, List.filter_append]
  by_cases own : s.owns offer kind update.operation = true
  · have alone : [update].filter (fun update => s.owns offer kind update.operation) = [update] := List.filter_cons_of_pos own
    rw [if_pos own, alone, List.getLast?_concat]
  · have nothing : [update].filter (fun update => s.owns offer kind update.operation) = [] := List.filter_cons_of_neg own
    rw [if_neg own, nothing, List.append_nil, lastUpdate?]

/-! ## The invariant -/

/-- One operation of a kind is busy, and an answered last update that was confirmed is the synced value. -/
structure Booked (s : OzonStore) : Prop where
  single : ∀ a ∈ s.operations, ∀ b ∈ s.operations, a.Busy → b.Busy → a.offer = b.offer → a.kind = b.kind → a.kind.task = .commerce → a = b
  known : s.Known
  last : ∀ draft ∈ s.drafts, ∀ kind update, s.lastUpdate? draft.pk kind = some update → ∀ row ∈ s.operations,
    row.pk = update.operation → row.kind.task = .commerce →
      row.state ≠ .queued ∧ (row.state = .sending ∨ (update.Confirmed → draft.synced? kind = update.request.value?))

end OzonStore

/-- A worker sends what its operation asks for, and writes the answer of its update. -/
def OzonWorker.Asks (s : OzonStore) : OzonWorker → Prop
  | sendCommerce rows request _ => ∃ row ∈ s.operations, row.pk = rows.operation.pk ∧ row.requestSummary = request
  | answered rows write _ => write.task = some .commerce → ∃ row ∈ s.operations, row.pk = rows.operation.pk ∧
      ∃ update, s.lastUpdate? row.offer row.kind = some update ∧ update.operation = row.pk ∧ update.request = row.requestSummary ∧
        write = OzonCommerce.updateWrite update.request update.answer
  | _ => True

namespace OzonStore

variable {s next : OzonStore}

theorem asks_kept (sound : s.Sound) (later : next.Sound) (known : s.Known) (kept : KeepsRows s next) (quiet : next.updates = s.updates)
    {w : OzonWorker} (asks : w.Asks s) : w.Asks next := by
  cases w with
  | sendCommerce =>
    obtain ⟨row, mem, pk, summary⟩ := asks
    obtain ⟨new, new_mem, same⟩ := kept row mem
    exact ⟨new, new_mem, same.pk.trans pk, same.requestSummary.trans summary⟩
  | answered =>
    intro commerce
    obtain ⟨row, mem, pk, update, last, own, request, answer⟩ := asks commerce
    obtain ⟨new, new_mem, same⟩ := kept row mem
    refine ⟨new, new_mem, same.pk.trans pk, update, ?_, own.trans same.pk.symm, request.trans same.requestSummary.symm, answer⟩
    rw [same.offer, same.kind, lastUpdate_kept sound later known kept quiet, last]
  | _ => trivial

theorem Known.kept (known : s.Known) (rows : KeepsRows s next) (quiet : next.updates = s.updates) : next.Known := by
  intro update mem
  rw [quiet] at mem
  obtain ⟨row, row_mem, pk⟩ := known update mem
  obtain ⟨new, new_mem, same⟩ := rows row row_mem
  exact ⟨new, new_mem, same.pk.trans pk⟩

theorem Booked.insert (booked : s.Booked) (sound : s.Sound) {row : OzonOperation} (pk : row.pk = s.nextPk) (later : (s.insert row).Sound)
    (unblocked : row.kind.task = .commerce → ∀ old ∈ s.operations, old.offer = row.offer → old.kind = row.kind → ¬ old.Busy) :
    (s.insert row).Booked := by
  have kept : KeepsRows s (s.insert row) := fun old mem => ⟨old, List.mem_append_left _ mem, rfl, rfl, rfl, rfl, rfl, rfl⟩
  refine ⟨?_, booked.known.kept kept rfl, ?_⟩
  · intro a a_mem b b_mem a_busy b_busy same_offer same_kind commerce
    rcases List.mem_append.mp a_mem with a_old | a_new
    · rcases List.mem_append.mp b_mem with b_old | b_new
      · exact booked.single a a_old b b_old a_busy b_busy same_offer same_kind commerce
      · obtain rfl := List.mem_singleton.mp b_new
        exact absurd a_busy (unblocked (same_kind ▸ commerce) a a_old same_offer same_kind)
    · obtain rfl := List.mem_singleton.mp a_new
      rcases List.mem_append.mp b_mem with b_old | b_new
      · exact absurd b_busy (unblocked commerce b b_old same_offer.symm same_kind.symm)
      · exact (List.mem_singleton.mp b_new).symm
  · intro draft draft_mem kind update last new new_mem same commerce
    rw [lastUpdate_kept sound later booked.known kept rfl] at last
    obtain ⟨old, old_mem, own⟩ := booked.known update (lastUpdate_mem last).1
    obtain rfl := row_insert sound pk old_mem new_mem (same.trans own.symm)
    exact booked.last draft draft_mem kind update last _ old_mem same commerce

theorem Booked.saveDraft (booked : s.Booked) {draft : OzonOfferDraft} (mem : draft ∈ s.drafts) (status : PublicationStatus) :
    (s.saveDraft { draft with publicationStatus := status }).Booked := by
  refine ⟨booked.single, booked.known, ?_⟩
  intro new new_mem kind update last row row_mem same commerce
  rcases mem_put.mp new_mem with ⟨rfl, -⟩ | ⟨old, -⟩
  · have before := booked.last draft mem kind update last row row_mem same commerce
    cases kind <;> exact before
  · exact booked.last new old kind update last row row_mem same commerce

end OzonStore

/-! ## What an answer writes -/

namespace OzonCommerce

theorem updateWrite_succeeded {request other : OzonRequest} {answer : Except OzonAPIError (List UpdateResult)}
    (write : updateWrite request answer = .commerceSucceeded other) : other = request ∧ ∃ results, answer = .ok results ∧
      ∃ exact ∈ results.find? fun result => matchesRequest request result, exact.errors = [] ∧ exact.updated = true := by
  cases answer with
  | error => cases write
  | ok results =>
    simp only [updateWrite] at write
    split at write
    next => cases write
    next exact found =>
      split at write
      next => cases write
      next clean =>
        split at write
        next => cases write
        next updated =>
          cases write
          exact ⟨rfl, results, rfl, exact, found, not_not.mp clean, by simpa using updated⟩

theorem updateWrite_of_confirmed {update : SentUpdate} (confirmed : update.Confirmed) :
    updateWrite update.request update.answer = .commerceSucceeded update.request := by
  obtain ⟨_, answered, _, found, clean, updated⟩ := confirmed
  rw [answered]
  simp only [updateWrite, Option.mem_def.mp found]
  rw [if_neg (not_not.mpr clean), if_neg (by simp [updated])]

end OzonCommerce

namespace OzonWrite

theorem apply_synced {write : OzonWrite} (commerce : ∀ request, write ≠ .commerceSucceeded request) (stock : ∀ item, write ≠ .stockZeroed item)
    (now : Instant) (rows : OfferRows) (kind : OzonOperationKind) : (write.apply now rows).draft.synced? kind = rows.draft.synced? kind := by
  cases write with
  | commerceSucceeded request => exact absurd rfl (commerce request)
  | stockZeroed item => exact absurd rfl (stock item)
  | importAnswered answer => cases answer <;> cases kind <;> rfl
  | productProjection =>
    simp only [apply, OfferRows.persistProductProjection]
    split
    · cases kind <;> rfl
    · split <;> cases kind <;> rfl
  | notFound =>
    simp only [apply, OfferRows.persistNotFound]
    split <;> cases kind <;> rfl
  | archiveProjection =>
    simp only [apply, OfferRows.persistArchiveProjection]
    split
    · cases kind <;> rfl
    · split <;> cases kind <;> rfl
  | _ => cases kind <;> rfl

theorem succeeded_synced {request : OzonRequest} {kind : OzonOperationKind} (fits : request.kind? = some kind) (now : Instant) (rows : OfferRows) :
    ((commerceSucceeded request).apply now rows).draft.synced? kind = request.value? ∧
      ∀ other, other ≠ kind → ((commerceSucceeded request).apply now rows).draft.synced? other = rows.draft.synced? other := by
  cases request with
  | product => cases fits
  | price =>
    obtain rfl : OzonOperationKind.priceUpdate = kind := Option.some.inj fits
    refine ⟨rfl, fun other apart => ?_⟩
    cases other with
    | priceUpdate => exact absurd rfl apart
    | _ => rfl
  | stock =>
    obtain rfl : OzonOperationKind.stockUpdate = kind := Option.some.inj fits
    refine ⟨rfl, fun other apart => ?_⟩
    cases other with
    | stockUpdate => exact absurd rfl apart
    | _ => rfl

end OzonWrite

theorem OzonWrite.events_quiet (pk : Uuid) (write : OzonWrite) : (write.events pk).filterMap OzonEvent.update? = [] := by
  cases write with
  | claimReconciliation terminalRefresh => cases terminalRefresh <;> rfl
  | productProjection =>
    simp only [OzonWrite.events]
    split <;> rfl
  | _ => rfl

theorem OzonStore.written_updates (s : OzonStore) (rows : OfferRows) (write : OzonWrite) (now : Instant) :
    (s.written rows write now).updates = s.updates := by
  rw [OzonStore.updates, OzonStore.written_history, List.filterMap_append, OzonWrite.events_quiet, List.append_nil, OzonStore.updates]

namespace OzonMove
open OzonStore

section Writes

variable {input : OzonInput} {s : OzonStore} {w : OzonWorker} {rows : OfferRows} {write : OzonWrite} {next : OfferRows → OzonWorker}

theorem answers_last (sound : s.Sound) (asks : w.Asks s) (held : s.Holds rows) {left : OfferRows} {after : AfterWrite}
    (worker : w = .answered left write after) (commerce : write.task = some .commerce) (same : left.operation.pk = rows.operation.pk) :
    ∃ update, s.lastUpdate? rows.operation.offer rows.operation.kind = some update ∧ update.operation = rows.operation.pk ∧
      update.request = rows.operation.requestSummary ∧ write = OzonCommerce.updateWrite update.request update.answer := by
  subst worker
  obtain ⟨_, mem, pk, update, last, own, request, answer⟩ := asks commerce
  obtain rfl := row_unique sound.pks mem held.operation (pk.trans same)
  exact ⟨update, last, own, request, answer⟩

theorem writes_synced (sound : s.Sound) (placed : w.Placed s) (marked : w.Marked s) (asks : w.Asks s)
    (fits : ∀ row ∈ s.operations, row.Fits) (selling : ∀ row ∈ s.operations, row.kind ≠ .archive) (held : s.Holds rows)
    (writes : OzonWorker.Writes input s w rows.operation write next) :
    (∀ kind, (write.apply input.now rows).draft.synced? kind = rows.draft.synced? kind) ∨
      ∃ update, s.lastUpdate? rows.operation.offer rows.operation.kind = some update ∧ update.operation = rows.operation.pk ∧
        write = .commerceSucceeded update.request ∧ rows.operation.kind.task = .commerce ∧ update.request.kind? = some rows.operation.kind := by
  have stock : ∀ item, write ≠ .stockZeroed item := by
    rintro item rfl
    rcases writes_task sound placed held writes with mark | task
    · cases mark
    · exact selling _ held.operation (archiving_kind.mp (Option.some.inj task).symm)
  by_cases success : ∃ request, write = .commerceSucceeded request
  · obtain ⟨request, rfl⟩ := success
    have commerce : rows.operation.kind.task = .commerce := by
      rcases writes_task sound placed held writes with mark | task
      · cases mark
      · exact (Option.some.inj task).symm
    rcases writes_commerce sound placed marked held writes commerce with queued | ⟨-, task, _, _, worker, same⟩
    · cases writes with
      | refuseImport _ _ _ _ refused => rcases refused with refused | ⟨error, refused⟩ <;> cases refused
      | answered _ _ _ _ here =>
        have sending := marked rfl
        rw [← here] at sending
        cases queued.symm.trans (sending.row sound held.operation)
    · obtain ⟨update, last, own, summary, answer⟩ := answers_last sound asks held worker task same
      obtain ⟨rfl, -⟩ := OzonCommerce.updateWrite_succeeded answer.symm
      exact .inr ⟨update, last, own, rfl, commerce, summary ▸ fits _ held.operation commerce⟩
  · exact .inl fun kind => OzonWrite.apply_synced (fun request same => success ⟨request, same⟩) stock input.now rows kind

theorem writes_busy (sound : s.Sound) (placed : w.Placed s) (marked : w.Marked s) (held : s.Holds rows)
    (writes : OzonWorker.Writes input s w rows.operation write next) (commerce : rows.operation.kind.task = .commerce) : rows.operation.Busy := by
  rcases writes_commerce sound placed marked held writes commerce with queued | ⟨sending, -⟩
  · exact OzonOperation.busy_of_queued queued
  · exact OzonOperation.busy_of_sending sending

theorem keepsRows_written (sound : s.Sound) (held : s.Holds rows) (write : OzonWrite) (now : Instant) : KeepsRows s (s.written rows write now) :=
  fun _ mem => row_written sound held mem

theorem writes_booked (sound : s.Sound) (booked : s.Booked) (placed : w.Placed s) (marked : w.Marked s) (asks : w.Asks s)
    (fits : ∀ row ∈ s.operations, row.Fits) (selling : ∀ row ∈ s.operations, row.kind ≠ .archive) (held : s.Holds rows)
    (writes : OzonWorker.Writes input s w rows.operation write next) : (s.written rows write input.now).Booked := by
  have kept := keepsRows_written sound held write input.now
  have quiet := s.written_updates rows write input.now
  have later := sound.written held write input.now
  have same := write.apply_same input.now rows
  -- A row after the write stands for the one before it, which was busy if the new one is.
  have before {new : OzonOperation} (mem : new ∈ (s.written rows write input.now).operations) (commerce : new.kind.task = .commerce)
      (busy : new.Busy) : ∃ old ∈ s.operations, old.Busy ∧ SameOperation old new := by
    rcases (mem_written held).mp mem with rfl | ⟨old, -⟩
    · exact ⟨rows.operation, held.operation, writes_busy sound placed marked held writes (same.kind ▸ commerce), same⟩
    · exact ⟨new, old, busy, rfl, rfl, rfl, rfl, rfl, rfl⟩
  refine ⟨?_, booked.known.kept kept quiet, ?_⟩
  · intro a a_mem b b_mem a_busy b_busy same_offer same_kind commerce
    obtain ⟨a', a_old, a_was, a_same⟩ := before a_mem commerce a_busy
    obtain ⟨b', b_old, b_was, b_same⟩ := before b_mem (same_kind ▸ commerce) b_busy
    have one : a' = b' := by
      refine booked.single a' a_old b' b_old a_was b_was ?_ ?_ (a_same.kind ▸ commerce)
      · rw [← a_same.offer, ← b_same.offer, same_offer]
      · rw [← a_same.kind, ← b_same.kind, same_kind]
    exact row_unique later.pks a_mem b_mem (a_same.pk.trans ((congrArg OzonOperation.pk one).trans b_same.pk.symm))
  · intro draft draft_mem kind update last row row_mem own commerce
    rw [lastUpdate_kept sound later booked.known kept quiet] at last
    obtain ⟨old, old_mem, old_pk, old_offer, old_kind⟩ := lastUpdate_row last
    rcases (mem_written held).mp row_mem with rfl | ⟨row_old, elsewhere⟩
    · -- The written operation is the one of the last update, so its answer is written.
      obtain rfl := row_unique sound.pks old_mem held.operation (old_pk.trans (own.symm.trans same.pk))
      have was := booked.last rows.draft held.draft kind update (by rw [held.offer, old_offer]; exact last) _ held.operation
        (same.pk.symm.trans own) (same.kind ▸ commerce)
      rcases writes_commerce sound placed marked held writes (same.kind ▸ commerce) with queued | ⟨_, task, _, after, worker, here⟩
      · exact absurd queued was.1
      · refine ⟨fun queued => was.1 (OzonWrite.apply_queued queued), .inr fun confirmed => ?_⟩
        obtain ⟨final, final_last, -, summary, answer⟩ := answers_last sound asks held worker task here
        rw [old_offer, old_kind, last] at final_last
        obtain rfl := Option.some.inj final_last
        rw [OzonCommerce.updateWrite_of_confirmed confirmed] at answer
        subst answer
        have values := OzonWrite.succeeded_synced (summary ▸ fits _ held.operation (same.kind ▸ commerce)) input.now rows
        have offer : draft = ((OzonWrite.commerceSucceeded update.request).apply input.now rows).draft := by
          refine row_unique later.offers draft_mem ((mem_written_drafts held).mpr (.inl rfl)) ?_
          rw [(OzonWrite.apply_offer _ _ _).pk, held.offer, old_offer]
        rw [offer, ← old_kind]
        exact values.1
    · obtain rfl := row_unique sound.pks old_mem row_old (old_pk.trans own.symm)
      rcases (mem_written_drafts held).mp draft_mem with rfl | ⟨draft_old, -⟩
      · rw [(OzonWrite.apply_offer _ _ _).pk] at last old_offer
        have was := booked.last rows.draft held.draft kind update last _ old_mem own commerce
        refine ⟨was.1, was.2.imp_right fun values confirmed => ?_⟩
        rcases writes_synced sound placed marked asks fits selling held writes with unchanged | ⟨final, final_last, final_own, rfl, -, final_fits⟩
        · rw [unchanged]
          exact values confirmed
        · have other : kind ≠ rows.operation.kind := by
            rintro rfl
            rw [← held.offer, last] at final_last
            obtain rfl := Option.some.inj final_last
            exact elsewhere (own.trans final_own)
          rw [(OzonWrite.succeeded_synced final_fits input.now rows).2 kind other]
          exact values confirmed
      · exact booked.last draft draft_old kind update last _ old_mem own commerce

end Writes

section Calls

variable {s : OzonStore} {rows : OfferRows} {request : OzonRequest} {pending : List Uuid}

theorem updateEvents_update {kind : OzonOperationKind} (fits : request.kind? = some kind) (pk : Uuid)
    (answer : Except OzonAPIError (List UpdateResult)) :
    (OzonCommerce.updateEvents pk answer request).filterMap OzonEvent.update? = [⟨pk, request, answer⟩] := by
  cases request with
  | product => cases fits
  | price => rfl
  | stock => rfl

theorem sent_row (sound : s.Sound) (fits : ∀ row ∈ s.operations, row.Fits) (placed : (OzonWorker.sendCommerce rows request pending).Placed s)
    (marked : (OzonWorker.sendCommerce rows request pending).Marked s) (asks : (OzonWorker.sendCommerce rows request pending).Asks s) :
    ∃ row ∈ s.operations, row.pk = rows.operation.pk ∧ row.state = .sending ∧ row.kind.task = .commerce ∧ request.kind? = some row.kind := by
  obtain ⟨row, mem, pk, summary⟩ := asks
  have commerce : row.kind.task = .commerce := Has.row sound mem (pk ▸ placed.1)
  exact ⟨row, mem, pk, Sending.row sound mem (pk ▸ marked), commerce, summary ▸ fits row mem commerce⟩

theorem calls_booked (sound : s.Sound) (booked : s.Booked) {row : OzonOperation} (mem : row ∈ s.operations) (sending : row.state = .sending)
    {update : SentUpdate} (pk : row.pk = update.operation) {events : List OzonEvent} (sent : (s.record events).updates = s.updates ++ [update]) :
    (s.record events).Booked := by
  refine ⟨booked.single, ?_, ?_⟩
  · intro other other_mem
    rw [sent] at other_mem
    rcases List.mem_append.mp other_mem with old | new
    · exact booked.known other old
    · exact ⟨row, mem, pk.trans (congrArg SentUpdate.operation (List.mem_singleton.mp new)).symm⟩
  · intro draft draft_mem kind last found other other_mem own commerce
    rw [lastUpdate_record sent] at found
    split at found
    · obtain rfl := Option.some.inj found
      obtain rfl := row_unique sound.pks other_mem mem (own.trans pk.symm)
      exact ⟨by simp [sending], .inl sending⟩
    · exact booked.last draft draft_mem kind last found other other_mem own commerce

theorem calls_asks (sound : s.Sound) (booked : s.Booked) {row : OzonOperation} (mem : row ∈ s.operations) (sending : row.state = .sending)
    {update : SentUpdate} (pk : row.pk = update.operation) {events : List OzonEvent} (sent : (s.record events).updates = s.updates ++ [update])
    {v : OzonWorker} (placed : v.Placed s) (marked : v.Marked s) (apart : v.sends row.pk = 0) (asks : v.Asks s) : v.Asks (s.record events) := by
  cases v with
  | sendCommerce => exact asks
  | answered rows write after =>
    intro commerce
    obtain ⟨other, other_mem, same, last, found, own, summary, answer⟩ := asks commerce
    refine ⟨other, other_mem, same, last, ?_, own, summary, answer⟩
    rw [lastUpdate_record sent, if_neg, found]
    intro owned
    rw [← pk, owns_iff sound mem] at owned
    have waits : other.state = .sending := Sending.row sound other_mem (same ▸ marked commerce)
    obtain ⟨task, known, has, -⟩ := placed
    obtain rfl : task = .commerce := Option.some.inj (known.symm.trans commerce)
    have one : other = row := booked.single other other_mem row mem (OzonOperation.busy_of_sending waits)
      (OzonOperation.busy_of_sending sending) owned.1.symm owned.2.symm (Has.row sound other_mem (same ▸ has))
    have twice : (OzonWorker.answered rows write after).sends row.pk = 1 := if_pos ⟨commerce, same.symm.trans (congrArg OzonOperation.pk one)⟩
    rw [twice] at apart
    cases apart
  | _ => trivial

end Calls

section Parts

variable {input : OzonInput} {draft : OzonOfferDraft} {kind : OzonOperationKind} {key : String} {s next : OzonStore} {result : Option OzonOperation}

theorem part_keepsRows (part : CommercePart input draft kind key s next result) : KeepsRows s next :=
  fun row mem => ⟨row, part.kept mem, rfl, rfl, rfl, rfl, rfl, rfl⟩

theorem part_updates (part : CommercePart input draft kind key s next result) : next.updates = s.updates := by
  rw [updates, part.history, updates]

theorem part_booked (sound : s.Sound) (later : next.Sound) (booked : s.Booked) (part : CommercePart input draft kind key s next result) :
    next.Booked := by
  cases part with
  | settled => exact booked
  | found => exact booked
  | created _ _ unblocked =>
    refine booked.insert sound rfl later fun _ old mem offer same busy => ?_
    exact busy.2 (unblocked old mem offer same busy.1)

end Parts

theorem moved_selling {input : OzonInput} {s next : OzonStore} {w moved : OzonWorker} (move : OzonMove input s w next moved)
    (offer : Uuid) (key : String) : moved ≠ .requestProductArchive offer key := by
  cases move with
  | reads reads =>
    cases reads with
    | importInfo rows =>
      rcases importInfoRead_cases rows input with ⟨write, read, -⟩ | read
      · rw [read]
        nofun
      · rw [read]
        nofun
    | archive rows =>
      obtain ⟨write, read, -⟩ := archiveRead_cases rows input.productInfo
      rw [read]
      nofun
    | productInfo => nofun
    | skipCommerce => nofun
    | ended => nofun
  | calls calls =>
    cases calls with
    | zeroStock rows item =>
      rcases stockAnswered_cases rows item input.updateResults with ⟨write, answered, -⟩ | ⟨_, -, -, answered⟩
      · rw [answered]
        nofun
      · rw [answered]
        nofun
    | archiveProducts rows =>
      rcases archiveAnswered_cases rows input.archiveProducts with ⟨write, answered, -⟩ | ⟨write, answered, -⟩
      · rw [answered]
        nofun
      · rw [answered]
        nofun
    | importProducts => nofun
    | sendCommerce => nofun
  | writes _ writes =>
    cases writes with
    | claimImport =>
      dsimp only
      split
      · nofun
      · nofun
    | answered _ _ after => cases after <;> nofun
    | _ => nofun
  | createImport => nofun
  | createArchive => nofun
  | syncCommerce => nofun

end OzonMove

namespace OzonCommerce

variable {draft : OzonOfferDraft} {key : String}

theorem newOperation_fits {s next : OzonStore} {kind : OzonOperationKind} {request : OzonRequest}
    {now : Instant} {row : OzonOperation} (step : newOperation s draft kind key request now = .ok (next, row))
    (summary : request.kind? = some kind) (fits : ∀ row ∈ s.operations, row.Fits) : ∀ row ∈ next.operations, row.Fits := by
  obtain ⟨-, rfl, rfl⟩ := newOperation_ok step
  intro row mem
  rcases List.mem_append.mp mem with old | new
  · exact fits row old
  · obtain rfl := List.mem_singleton.mp new
    exact fun _ => summary

theorem priceOperation_fits {productId : ℕ} {desired : ℤ} {input : OzonInput} {s next : OzonStore}
    {result : Option OzonOperation} (step : priceOperation draft key productId desired input s = .ok (next, result))
    (fits : ∀ row ∈ s.operations, row.Fits) : ∀ row ∈ next.operations, row.Fits := by
  simp only [priceOperation, bind_ok] at step
  obtain ⟨_, -, step⟩ := step
  split at step
  next =>
    simp only [bind_ok, Prod.exists] at step
    obtain ⟨_, _, _, row, made, done⟩ := step
    cases done
    exact newOperation_fits made rfl fits
  next =>
    cases step
    exact fits

theorem stockOperation_fits {productId warehouseId desired : ℕ} {input : OzonInput}
    {s next : OzonStore} {result : Option OzonOperation}
    (step : stockOperation draft key productId warehouseId desired input s = .ok (next, result))
    (fits : ∀ row ∈ s.operations, row.Fits) : ∀ row ∈ next.operations, row.Fits := by
  simp only [stockOperation, bind_ok] at step
  obtain ⟨_, -, step⟩ := step
  split at step
  next =>
    simp only [bind_ok, Prod.exists] at step
    obtain ⟨_, _, _, row, made, done⟩ := step
    cases done
    exact newOperation_fits made rfl fits
  next =>
    cases step
    exact fits

end OzonCommerce

theorem OzonWorker.advance_fits {w : OzonWorker} {input : OzonInput} {s : OzonStore} (sound : s.Sound) (fits : ∀ row ∈ s.operations, row.Fits) :
    ∀ row ∈ (w.advance input s).1.operations, row.Fits := by
  have move := w.advance_move input sound.pks
  generalize performed : w.advance input s = reached at move
  obtain ⟨next, _⟩ := reached
  cases move with
  | reads => exact fits
  | calls => exact fits
  | @writes _ rows write worker held writes =>
    intro row mem
    rcases (OzonStore.mem_written held).mp mem with rfl | ⟨old, -⟩
    · have same := write.apply_same input.now rows
      intro commerce
      rw [same.requestSummary, same.kind]
      exact fits _ held.operation (same.kind ▸ commerce)
    · exact fits row old
  | createImport =>
    intro row row_mem
    rcases List.mem_append.mp row_mem with old | new
    · exact fits row old
    · obtain rfl := List.mem_singleton.mp new
      exact fun commerce => by cases commerce
  | createArchive =>
    intro row row_mem
    rcases List.mem_append.mp row_mem with old | new
    · exact fits row old
    · obtain rfl := List.mem_singleton.mp new
      exact fun commerce => by cases commerce
  | syncCommerce draft key =>
    rw [OzonWorker.advance] at performed
    cases step : OzonCommerce.syncOfferCommerce draft.pk key input s with
    | error =>
      rw [step] at performed
      cases performed
    | ok committed =>
      rw [step] at performed
      have reached : committed.1 = next := congrArg Prod.fst performed
      obtain ⟨call⟩ := @OzonCommerce.SyncReturn.of_ok _ _ _ _ committed.1 committed.2 step
      have same := Except.ok.inj (step.symm.trans call.returned)
      rw [← reached, same]
      exact OzonCommerce.stockOperation_fits call.stocked (OzonCommerce.priceOperation_fits call.priced fits)

namespace OzonCrew
open OzonStore

structure Trading (c : OzonCrew) : Prop where
  sound : c.Sound
  sender : c.OneSender
  fits : ∀ row ∈ c.store.operations, row.Fits
  sale : c.Keeps (fun s => ∀ row ∈ s.operations, row.kind ≠ .archive) fun _ w => ∀ offer key, w ≠ .requestProductArchive offer key
  books : c.Keeps OzonStore.Booked fun s w => w.Asks s

theorem Trading.idle {s : OzonStore} (fresh : s.Fresh) : Trading s.idle where
  sound := .idle fresh
  sender := .idle
  fits row mem := by
    rw [show s.idle.store.operations = [] from fresh.operations] at mem
    cases mem
  sale := by
    refine ⟨fun row mem => ?_, fun _ mem => absurd mem List.not_mem_nil⟩
    rw [show s.idle.store.operations = [] from fresh.operations] at mem
    cases mem
  books := by
    have empty : s.idle.store.updates = [] := by
      rw [updates, show s.idle.store.history = [] from fresh.history]
      rfl
    refine ⟨⟨fun a mem => ?_, fun update mem => ?_, fun draft mem kind update last => ?_⟩, fun _ mem => absurd mem List.not_mem_nil⟩
    · rw [show s.idle.store.operations = [] from fresh.operations] at mem
      cases mem
    · rw [empty] at mem
      cases mem
    · rw [lastUpdate?, empty] at last
      cases last

variable {c : OzonCrew}

theorem sale_next (trading : c.Trading) {a : OzonAction} (selling : a.Selling) :
    (c.next a).Keeps (fun s => ∀ row ∈ s.operations, row.kind ≠ .archive) fun _ w => ∀ offer key, w ≠ .requestProductArchive offer key := by
  have sale := trading.sale
  apply sale.step a.crewAction
  · intro w begun
    cases a with
    | call request =>
      cases begun
      cases request with
      | requestProductArchive => exact selling.elim
      | _ => nofun
    | move => cases begun
    | crash => cases begun
  · exact nofun
  · intro k input w _ found
    have move := w.advance_move input trading.sound.store.pks
    generalize w.advance input c.store = reached at move
    obtain ⟨_, _⟩ := reached
    refine ⟨?_, move.moved_selling, fun j v _ _ kept => kept⟩
    have added {row made : OzonOperation} (kind : made.kind ≠ .archive) (mem : row ∈ c.store.operations ++ [made]) : row.kind ≠ .archive := by
      rcases List.mem_append.mp mem with old | new
      · exact sale.store row old
      · exact List.mem_singleton.mp new ▸ kind
    intro row mem
    cases move with
    | reads => exact sale.store row mem
    | calls => exact sale.store row mem
    | @writes _ rows write worker held writes =>
      rcases (mem_written held).mp mem with rfl | ⟨old, -⟩
      · rw [(write.apply_same input.now rows).kind]
        exact sale.store _ held.operation
      · exact sale.store row old
    | createImport => exact added (by nofun) mem
    | createArchive =>
      exact absurd rfl (sale.workers _ (List.mem_of_getElem? found) _ _)
    | syncCommerce _ _ _ _ _ priced stocked =>
      cases stocked with
      | created request free unblocked =>
        rcases List.mem_append.mp mem with old | new
        · cases priced with
          | created => exact added (by nofun) old
          | _ => exact sale.store row old
        · exact List.mem_singleton.mp new ▸ (by nofun)
      | settled =>
        cases priced with
        | created => exact added (by nofun) mem
        | _ => exact sale.store row mem
      | found =>
        cases priced with
        | created => exact added (by nofun) mem
        | _ => exact sale.store row mem

theorem books_next (trading : c.Trading) (a : OzonAction) : (c.next a).Keeps OzonStore.Booked fun s w => w.Asks s := by
  have sound := trading.sound.store
  have booked := trading.books.store
  apply next_keeps trading.sound trading.books a
  · intro request
    cases request <;> trivial
  · rintro k input w _ _ rfl found move
    have mem := List.mem_of_getElem? found
    have placed := trading.sound.workers w mem
    have marked := trading.sender.kept.workers w mem
    have asks := trading.books.workers w mem
    have later := (move.sound sound).1
    cases move with
    | reads reads =>
      refine ⟨booked, ?_, fun j v _ _ held => held⟩
      cases reads with
      | importInfo rows =>
        rcases OzonMove.importInfoRead_cases rows input with ⟨write, read, decided⟩ | read
        · rw [read]
          intro commerce
          rw [OzonMove.importInfoWrite_task decided] at commerce
          cases commerce
        · rw [read]
          trivial
      | productInfo =>
        intro commerce
        rw [OzonMove.productInfoWrite_task] at commerce
        cases commerce
      | archive rows =>
        obtain ⟨write, read, task⟩ := OzonMove.archiveRead_cases rows input.productInfo
        rw [read]
        intro commerce
        rw [task] at commerce
        cases commerce
      | skipCommerce => trivial
      | ended => trivial
    | calls calls =>
      cases calls with
      | importProducts rows item =>
        have kept : KeepsRows c.store (c.store.record [.importPosted rows.operation.pk item input.importProducts]) :=
          fun row mem => ⟨row, mem, rfl, rfl, rfl, rfl, rfl, rfl⟩
        have quiet : (c.store.record [.importPosted rows.operation.pk item input.importProducts]).updates = c.store.updates := by
          rw [updates, record_history, List.filterMap_append]
          exact List.append_nil _
        refine ⟨⟨booked.single, booked.known.kept kept quiet, ?_⟩, nofun, fun j v _ _ held => asks_kept sound later booked.known kept quiet held⟩
        intro draft draft_mem kind update last
        rw [lastUpdate_kept sound later booked.known kept quiet] at last
        exact booked.last draft draft_mem kind update last
      | zeroStock =>
        obtain ⟨row, row_mem, -, task⟩ := placed
        exact absurd (archiving_kind.mp task) (trading.sale.store row row_mem)
      | archiveProducts =>
        obtain ⟨row, row_mem, -, task⟩ := placed
        exact absurd (archiving_kind.mp task) (trading.sale.store row row_mem)
      | sendCommerce rows request pending =>
        obtain ⟨row, row_mem, pk, sending, commerce, of_kind⟩ := OzonMove.sent_row sound trading.fits placed marked asks
        have sent : (c.store.record (OzonCommerce.updateEvents rows.operation.pk input.updateResults request)).updates =
            c.store.updates ++ [⟨rows.operation.pk, request, input.updateResults⟩] := by
          rw [updates, record_history, List.filterMap_append, OzonMove.updateEvents_update of_kind, updates]
        have summary : request = row.requestSummary := by
          obtain ⟨other, other_mem, same, asked⟩ := asks
          rw [← asked, row_unique sound.pks other_mem row_mem (same.trans pk.symm)]
        refine ⟨OzonMove.calls_booked sound booked row_mem sending pk sent, fun _ => ?_, ?_⟩
        · refine ⟨row, row_mem, pk, ⟨rows.operation.pk, request, input.updateResults⟩, ?_, pk.symm, summary, rfl⟩
          rw [lastUpdate_record sent, if_pos]
          exact pk ▸ (owns_iff sound row_mem).mpr ⟨rfl, rfl⟩
        · intro j v other at_j held
          have few := trading.sender.one rows.operation.pk
          have both := Crew.load_pair (OzonWorker.sends rows.operation.pk) other at_j found
          have sends : (OzonWorker.sendCommerce rows request pending).sends rows.operation.pk = 1 := if_pos rfl
          have v_mem := List.mem_of_getElem? at_j
          refine OzonMove.calls_asks sound booked row_mem sending pk sent (trading.sound.workers v v_mem) (trading.sender.kept.workers v v_mem) ?_ held
          rw [pk]
          omega
    | @writes _ rows write next held writes =>
      have kept := OzonMove.keepsRows_written sound held write input.now
      have quiet := c.store.written_updates rows write input.now
      refine ⟨OzonMove.writes_booked sound booked placed marked asks trading.fits trading.sale.store held writes, ?_,
        fun j v _ _ held => asks_kept sound later booked.known kept quiet held⟩
      cases writes with
      | sendCommerce => exact ⟨_, (mem_written held).mpr (.inl rfl), rfl, rfl⟩
      | claimImport =>
        dsimp only
        split <;> trivial
      | answered _ _ after => cases after <;> trivial
      | _ => trivial
    | createImport draft key item valid draft_mem free =>
      let made := OzonOperation.create c.store.nextPk draft.pk .productImport key item .product input.now
      have inserted : (c.store.insert made).Sound := sound.insert rfl free valid ⟨draft, draft_mem, rfl⟩
      have kept : KeepsRows c.store (c.store.opened made draft .queued) :=
        fun row mem => ⟨row, List.mem_append_left _ mem, rfl, rfl, rfl, rfl, rfl, rfl⟩
      refine ⟨?_, trivial, fun j v _ _ held => asks_kept sound later booked.known kept rfl held⟩
      exact (booked.insert sound rfl inserted fun commerce => by cases commerce).saveDraft draft_mem .queued
    | createArchive =>
      exact absurd rfl (trading.sale.workers _ mem _ _)
    | syncCommerce draft _ valid draft_mem _ priced stocked =>
      have between := (priced.sound sound ⟨draft, draft_mem, rfl⟩ (key_valid valid (by decide))).1
      have reached := OzonMove.part_booked sound between booked priced
      refine ⟨OzonMove.part_booked between later reached stocked, trivial, fun j v _ _ held => ?_⟩
      have asked := asks_kept sound between booked.known (OzonMove.part_keepsRows priced) (OzonMove.part_updates priced) held
      exact asks_kept between later reached.known (OzonMove.part_keepsRows stocked) (OzonMove.part_updates stocked) asked

theorem Trading.next (trading : c.Trading) {a : OzonAction} (selling : a.Selling) : (c.next a).Trading where
  sound := trading.sound.next a
  sender := trading.sender.next trading.sound a
  fits := by
    cases a with
    | call => exact trading.fits
    | crash => exact trading.fits
    | move k input =>
      cases found : c.workers[k]? with
      | none =>
        have unmoved : c.next (.move k input) = c := by simp [OzonCrew.next, Crew.step, OzonAction.crewAction, found]
        rw [unmoved]
        exact trading.fits
      | some w =>
        have store : (c.next (.move k input)).store = (w.advance input c.store).1 := by
          simp [OzonCrew.next, Crew.step, OzonAction.crewAction, found]
        rw [store]
        exact OzonWorker.advance_fits trading.sound.store trading.fits
  sale := sale_next trading selling
  books := books_next trading a

/-! ## The trust in the last synced value -/

theorem converges_iff (trading : c.Trading) (w : OzonWorker) (input : OzonInput) :
    Converges c w input ↔ TrustsConfirmed c w input := by
  constructor
  · intro converges offer key worker call kind trusts
    have commerce : ∃ value, call.value? kind = some value := by
      cases kind with
      | priceUpdate => exact ⟨_, rfl⟩
      | stockUpdate => exact ⟨_, rfl⟩
      | productImport => exact trusts.elim
      | archive => exact trusts.elim
    obtain ⟨value, wanted⟩ := commerce
    obtain ⟨update, last, confirmed, -⟩ := converges offer key worker call kind value wanted ((call.operation_none wanted).mpr trusts)
    exact ⟨update, last, confirmed⟩
  · intro confirms offer key worker call kind value wanted none
    have trusts := (call.operation_none wanted).mp none
    obtain ⟨update, last, confirmed⟩ := confirms offer key worker call kind trusts
    obtain ⟨row, mem, pk, of_offer, of_kind⟩ := lastUpdate_row last
    obtain ⟨draft_mem, draft_pk⟩ := draft?_some call.found
    have settled : row.active → row.state = .outcomeUnknown := by
      intro active
      cases kind with
      | priceUpdate => exact OzonCommerce.existingOrActive_none trusts.1 mem (of_offer.trans draft_pk.symm) of_kind active
      | stockUpdate => exact OzonCommerce.existingOrActive_none trusts.1 mem (of_offer.trans draft_pk.symm) of_kind active
      | productImport => exact trusts.elim
      | archive => exact trusts.elim
    have synced : call.draft.synced? kind = call.value? kind := by
      cases kind with
      | priceUpdate => exact trusts.2
      | stockUpdate => exact trusts.2
      | productImport => exact trusts.elim
      | archive => exact trusts.elim
    have commerce : row.kind.task = .commerce := by
      rw [of_kind]
      cases kind with
      | priceUpdate => rfl
      | stockUpdate => rfl
      | productImport => exact trusts.elim
      | archive => exact trusts.elim
    have answered := trading.books.store.last call.draft draft_mem kind update (draft_pk.symm ▸ last) row mem pk commerce
    refine ⟨update, last, confirmed, ?_⟩
    rcases answered.2 with sending | values
    · have unknown := settled (OzonOperation.busy_of_sending sending).1
      rw [sending] at unknown
      cases unknown
    · rw [← values confirmed, synced, wanted]

end OzonCrew

/-- In every run of calls that leave the offers on sale, no call skips an update on a guess exactly when all calls that trust the last
synced value of a kind find the last update of this kind confirmed. -/
theorem sync_never_guesses {s : OzonStore} (fresh : s.Fresh) {actions : List OzonAction} (selling : ∀ a ∈ actions, a.Selling) :
    Meets OzonCrew.next (OzonCrew.Allowed Converges) s.idle actions ↔
      Meets OzonCrew.next (OzonCrew.Allowed TrustsConfirmed) s.idle actions := by
  have keeps : ∀ (c : OzonCrew) (a : OzonAction), c.Trading → a.Selling → (c.next a).Trading := fun _ _ trading sells => trading.next sells
  refine meets_congr_on OzonCrew.next keeps ?_ (.idle fresh) selling
  intro c a trading _
  cases a with
  | call => exact Iff.rfl
  | crash => exact Iff.rfl
  | move _ input => exact forall₂_congr fun w _ => OzonCrew.converges_iff trading w input

section Runs

def OzonInput.confirming (now : Instant) (price : ℤ) : OzonInput :=
  { OzonInput.silent now with
    finalPrice := some price
    updateResults := .ok [{ offerId := "offer", warehouseId := some 42, updated := true, errors := [] }] }

def OzonInput.lostAt (now : Instant) (price : ℤ) : OzonInput := { OzonInput.silent now with finalPrice := some price }

def confirmedSync : List OzonAction :=
  attestedImport ++ .call (.syncOfferCommerce 7 "first") :: (List.range 8).map fun t => .move 2 (.confirming (10 + t) 9900)

def lostSync : List OzonAction :=
  confirmedSync ++ .call (.syncOfferCommerce 7 "second") :: (List.range 5).map fun t => .move 3 (.lostAt (20 + t) 12000)

def guessedSync : List OzonAction := lostSync ++ [.call (.syncOfferCommerce 7 "third"), .move 4 (.lostAt 30 9900)]

def lostStore : OzonStore := (run OzonCrew.next (OzonStore.offering [7]).idle lostSync).store

theorem third_trusts (call : OzonCommerce.SyncReturn 7 "third" (.lostAt 30 9900) lostStore) :
    call.value? .priceUpdate = some (.price 9900) ∧ call.Trusts .priceUpdate := by
  have wanted : (some 9900 : Option ℤ) = some call.desired := call.wanted
  have price : call.value? .priceUpdate = some (.price 9900) := by rw [OzonCommerce.SyncReturn.value?, ← Option.some.inj wanted]
  have synced : (lostStore.draft? 7).map (fun draft => draft.synced? .priceUpdate) = some (some (.price 9900)) := by decide +kernel
  have quiet : (lostStore.draft? 7).map (fun draft =>
      (OzonCommerce.existingOrActive lostStore draft .priceUpdate ("third" ++ ":price") 30).toOption) = some (some none) := by decide +kernel
  rw [call.found] at synced quiet
  exact ⟨price, ok_of_toOption (Option.some.inj quiet), (Option.some.inj synced).trans price.symm⟩

/-- Nothing is sent the third time, though the provider may hold 120 rubles. -/
theorem third_price_guessed : (OzonStore.offering [7]).Fresh ∧ (∀ a ∈ guessedSync, a.Selling) ∧
    ¬ Meets OzonCrew.next (OzonCrew.Allowed Converges) (OzonStore.offering [7]).idle guessedSync := by
  refine ⟨by decide, by decide, fun meets => ?_⟩
  rw [guessedSync, meets_append] at meets
  obtain ⟨-, -, last, -⟩ := meets
  have worker : (OzonCrew.next (run OzonCrew.next (OzonStore.offering [7]).idle lostSync) (.call (.syncOfferCommerce 7 "third"))).workers[4]? =
      some (.syncOfferCommerce 7 "third") := rfl
  have returns : (OzonCommerce.syncOfferCommerce 7 "third" (.lostAt 30 9900) lostStore).toOption.isSome = true := by decide +kernel
  obtain ⟨committed, ok⟩ := Option.isSome_iff_exists.mp returns
  obtain ⟨call⟩ := @OzonCommerce.SyncReturn.of_ok _ _ _ _ committed.1 committed.2 (ok_of_toOption ok)
  obtain ⟨price, trusts⟩ := third_trusts call
  obtain ⟨update, found, ⟨results, answered, -⟩, -⟩ :=
    last _ worker 7 "third" rfl call .priceUpdate (.price 9900) price ((call.operation_none price).mpr trusts)
  have lost : ((lostStore.lastUpdate? 7 .priceUpdate).bind fun update => update.answer.toOption) = none := by decide +kernel
  have known : lostStore.lastUpdate? 7 .priceUpdate = some update := found
  rw [known, Option.bind_some, answered] at lost
  cases lost

def repeatedSync : List OzonAction := confirmedSync ++ [.call (.syncOfferCommerce 7 "second"), .move 3 (.lostAt 30 9900)]

theorem sync_never_guesses_repeated :
    Meets OzonCrew.next (OzonCrew.Allowed Converges) (OzonStore.offering [7]).idle repeatedSync ↔
      Meets OzonCrew.next (OzonCrew.Allowed TrustsConfirmed) (OzonStore.offering [7]).idle repeatedSync :=
  sync_never_guesses (by decide) (by decide)

end Runs

end MapBackend.Marketplaces
