import MapBackend.Marketplaces.OzonMoves

/-!
What holds of every account and its workers whatever happens: the constraints of the table,
and that a worker is at an operation of its own kind.
-/

namespace MapBackend.Marketplaces
open MapBackend.Library

structure SameOperation (old new : OzonOperation) : Prop where
  pk : new.pk = old.pk
  offer : new.offer = old.offer
  kind : new.kind = old.kind
  idempotencyKey : new.idempotencyKey = old.idempotencyKey
  requestSummary : new.requestSummary = old.requestSummary
  createdAt : new.createdAt = old.createdAt

structure SameOffer (old new : OzonOfferDraft) : Prop where
  pk : new.pk = old.pk
  offerId : new.offerId = old.offerId

namespace OzonWrite

theorem apply_same (write : OzonWrite) (now : Instant) (rows : OfferRows) :
    SameOperation rows.operation (write.apply now rows).operation := by
  cases write with
  | importAnswered answer => cases answer <;> exact ⟨rfl, rfl, rfl, rfl, rfl, rfl⟩
  | productProjection =>
    simp only [apply, OfferRows.persistProductProjection]
    split
    · exact ⟨rfl, rfl, rfl, rfl, rfl, rfl⟩
    · split <;> exact ⟨rfl, rfl, rfl, rfl, rfl, rfl⟩
  | notFound =>
    simp only [apply, OfferRows.persistNotFound]
    split <;> exact ⟨rfl, rfl, rfl, rfl, rfl, rfl⟩
  | archiveProjection =>
    simp only [apply, OfferRows.persistArchiveProjection]
    split
    · exact ⟨rfl, rfl, rfl, rfl, rfl, rfl⟩
    · split <;> exact ⟨rfl, rfl, rfl, rfl, rfl, rfl⟩
  | commerceSucceeded request => cases request <;> exact ⟨rfl, rfl, rfl, rfl, rfl, rfl⟩
  | _ => exact ⟨rfl, rfl, rfl, rfl, rfl, rfl⟩

theorem apply_offer (write : OzonWrite) (now : Instant) (rows : OfferRows) :
    SameOffer rows.draft (write.apply now rows).draft := by
  cases write with
  | importAnswered answer => cases answer <;> exact ⟨rfl, rfl⟩
  | productProjection =>
    simp only [apply, OfferRows.persistProductProjection]
    split
    · exact ⟨rfl, rfl⟩
    · split <;> exact ⟨rfl, rfl⟩
  | notFound =>
    simp only [apply, OfferRows.persistNotFound]
    split <;> exact ⟨rfl, rfl⟩
  | archiveProjection =>
    simp only [apply, OfferRows.persistArchiveProjection]
    split
    · exact ⟨rfl, rfl⟩
    · split <;> exact ⟨rfl, rfl⟩
  | commerceSucceeded request => cases request <;> exact ⟨rfl, rfl⟩
  | _ => exact ⟨rfl, rfl⟩

end OzonWrite

namespace OzonStore

structure Sound (s : OzonStore) : Prop where
  pks : (s.operations.map OzonOperation.pk).Nodup
  below : ∀ row ∈ s.operations, row.pk < s.nextPk
  keys : (s.operations.map OzonOperation.idempotencyKey).Nodup
  keyed : ∀ row ∈ s.operations, row.idempotencyKey ≠ "" ∧ row.idempotencyKey.length ≤ 100
  offers : (s.drafts.map OzonOfferDraft.pk).Nodup
  offered : ∀ row ∈ s.operations, ∃ draft ∈ s.drafts, draft.pk = row.offer

variable {s : OzonStore}

theorem Fresh.sound (fresh : s.Fresh) : s.Sound := by
  have empty := fresh.operations
  constructor <;> simp [empty, fresh.offers]

@[simp] theorem record_operations (s : OzonStore) (events : List OzonEvent) :
    (s.record events).operations = s.operations := rfl

@[simp] theorem record_drafts (s : OzonStore) (events : List OzonEvent) : (s.record events).drafts = s.drafts := rfl

@[simp] theorem record_nextPk (s : OzonStore) (events : List OzonEvent) : (s.record events).nextPk = s.nextPk := rfl

@[simp] theorem record_history (s : OzonStore) (events : List OzonEvent) :
    (s.record events).history = s.history ++ events := rfl

@[simp] theorem written_history (s : OzonStore) (rows : OfferRows) (write : OzonWrite) (now : Instant) :
    (s.written rows write now).history = s.history ++ write.events rows.operation.pk := rfl

@[simp] theorem written_nextPk (s : OzonStore) (rows : OfferRows) (write : OzonWrite) (now : Instant) :
    (s.written rows write now).nextPk = s.nextPk := rfl

@[simp] theorem insert_operations (s : OzonStore) (row : OzonOperation) :
    (s.insert row).operations = s.operations ++ [row] := rfl

@[simp] theorem insert_drafts (s : OzonStore) (row : OzonOperation) : (s.insert row).drafts = s.drafts := rfl

@[simp] theorem insert_history (s : OzonStore) (row : OzonOperation) : (s.insert row).history = s.history := rfl

@[simp] theorem insert_nextPk (s : OzonStore) (row : OzonOperation) : (s.insert row).nextPk = s.nextPk + 1 := rfl

@[simp] theorem opened_operations (s : OzonStore) (row : OzonOperation) (draft : OzonOfferDraft)
    (status : PublicationStatus) : (s.opened row draft status).operations = s.operations ++ [row] := rfl

@[simp] theorem opened_history (s : OzonStore) (row : OzonOperation) (draft : OzonOfferDraft)
    (status : PublicationStatus) : (s.opened row draft status).history = s.history := rfl

@[simp] theorem saveDraft_operations (s : OzonStore) (draft : OzonOfferDraft) :
    (s.saveDraft draft).operations = s.operations := rfl

@[simp] theorem opened_nextPk (s : OzonStore) (row : OzonOperation) (draft : OzonOfferDraft)
    (status : PublicationStatus) : (s.opened row draft status).nextPk = s.nextPk + 1 := rfl

variable {rows : OfferRows} {write : OzonWrite} {now : Instant}

theorem mem_written (held : s.Holds rows)
    {row : OzonOperation} : row ∈ (s.written rows write now).operations ↔
      row = (write.apply now rows).operation ∨ (row ∈ s.operations ∧ row.pk ≠ rows.operation.pk) := by
  have same := (write.apply_same now rows).pk
  simp only [written, record_operations, save, mem_put, same]
  constructor
  · rintro (⟨rfl, -⟩ | kept)
    · exact .inl rfl
    · exact .inr kept
  · rintro (rfl | kept)
    · exact .inl ⟨rfl, rows.operation, held.operation, rfl⟩
    · exact .inr kept

theorem mem_written_drafts (held : s.Holds rows) {draft : OzonOfferDraft} : draft ∈ (s.written rows write now).drafts ↔
      draft = (write.apply now rows).draft ∨ (draft ∈ s.drafts ∧ draft.pk ≠ rows.draft.pk) := by
  have same := (write.apply_offer now rows).pk
  simp only [written, record_drafts, save, mem_put, same]
  constructor
  · rintro (⟨rfl, -⟩ | kept)
    · exact .inl rfl
    · exact .inr kept
  · rintro (rfl | kept)
    · exact .inl ⟨rfl, rows.draft, held.draft, rfl⟩
    · exact .inr kept

theorem written_pks (s : OzonStore) (rows : OfferRows) (write : OzonWrite) (now : Instant) :
    (s.written rows write now).operations.map OzonOperation.pk = s.operations.map OzonOperation.pk :=
  map_key_put _ _

theorem written_offers (s : OzonStore) (rows : OfferRows) (write : OzonWrite) (now : Instant) :
    (s.written rows write now).drafts.map OzonOfferDraft.pk = s.drafts.map OzonOfferDraft.pk :=
  map_key_put _ _

theorem written_column {A : Type} (column : OzonOperation → A)
    (pks : (s.operations.map OzonOperation.pk).Nodup) (held : s.Holds rows)
    (same : column (write.apply now rows).operation = column rows.operation) :
    (s.written rows write now).operations.map column = s.operations.map column := by
  have kept : (s.written rows write now).operations.filterMap (fun row => some (column row)) =
      s.operations.filterMap fun row => some (column row) :=
    filterMap_put pks held.operation (write.apply_same now rows).pk (congrArg some same)
  simpa [written, save, List.filterMap_eq_map] using kept

theorem offered_written {pk : Uuid} :
    (∃ draft ∈ (s.written rows write now).drafts, draft.pk = pk) ↔ ∃ draft ∈ s.drafts, draft.pk = pk := by
  have same := written_offers s rows write now
  have listed : pk ∈ (s.written rows write now).drafts.map OzonOfferDraft.pk ↔
      pk ∈ s.drafts.map OzonOfferDraft.pk := by rw [same]
  simpa only [List.mem_map] using listed

theorem Sound.record (sound : s.Sound) (events : List OzonEvent) : (s.record events).Sound :=
  ⟨sound.pks, sound.below, sound.keys, sound.keyed, sound.offers, sound.offered⟩

theorem Sound.written (sound : s.Sound) (held : s.Holds rows)
    (write : OzonWrite) (now : Instant) : (s.written rows write now).Sound where
  pks := (written_pks s rows write now).symm ▸ sound.pks
  below row mem := by
    rcases (mem_written held).mp mem with rfl | ⟨old, -⟩
    · exact (write.apply_same now rows).pk ▸ sound.below _ held.operation
    · exact sound.below row old
  keys := by
    rw [written_column OzonOperation.idempotencyKey sound.pks held (write.apply_same now rows).idempotencyKey]
    exact sound.keys
  keyed row mem := by
    rcases (mem_written held).mp mem with rfl | ⟨old, -⟩
    · exact (write.apply_same now rows).idempotencyKey ▸ sound.keyed _ held.operation
    · exact sound.keyed row old
  offers := (written_offers s rows write now).symm ▸ sound.offers
  offered row mem := by
    rw [offered_written]
    rcases (mem_written held).mp mem with rfl | ⟨old, -⟩
    · exact (write.apply_same now rows).offer ▸ sound.offered _ held.operation
    · exact sound.offered row old

theorem Sound.insert (sound : s.Sound) {row : OzonOperation} (pk : row.pk = s.nextPk)
    (free : s.FreeKey row.idempotencyKey)
    (valid : row.idempotencyKey ≠ "" ∧ row.idempotencyKey.length ≤ 100)
    (offer : ∃ draft ∈ s.drafts, draft.pk = row.offer) : (s.insert row).Sound where
  pks := by
    rw [insert_operations, List.map_append, List.map_singleton]
    refine List.Nodup.append sound.pks (List.nodup_singleton _) ?_
    rintro taken mem (_ | ⟨_, ⟨⟩⟩)
    obtain ⟨old, old_mem, same⟩ := List.mem_map.mp mem
    exact Nat.ne_of_lt (sound.below old old_mem) (same.trans pk)
  below old mem := by
    rw [insert_nextPk]
    rcases List.mem_append.mp mem with mem | last
    · exact Nat.lt_succ_of_lt (sound.below old mem)
    · rw [List.mem_singleton.mp last, pk]
      exact Nat.lt_succ_self _
  keys := by
    rw [insert_operations, List.map_append, List.map_singleton]
    refine List.Nodup.append sound.keys (List.nodup_singleton _) ?_
    rintro taken mem (_ | ⟨_, ⟨⟩⟩)
    obtain ⟨old, old_mem, same⟩ := List.mem_map.mp mem
    exact free old old_mem same
  keyed old mem := by
    rcases List.mem_append.mp mem with mem | last
    · exact sound.keyed old mem
    · exact List.mem_singleton.mp last ▸ valid
  offers := sound.offers
  offered old mem := by
    rcases List.mem_append.mp mem with mem | last
    · exact sound.offered old mem
    · exact List.mem_singleton.mp last ▸ offer

theorem Sound.saveDraft (sound : s.Sound) (draft : OzonOfferDraft) : (s.saveDraft draft).Sound where
  pks := sound.pks
  below := sound.below
  keys := sound.keys
  keyed := sound.keyed
  offers := by simpa [OzonStore.saveDraft] using sound.offers
  offered row mem := by
    have listed : row.offer ∈ (s.saveDraft draft).drafts.map OzonOfferDraft.pk := by
      simpa [OzonStore.saveDraft] using sound.offered row mem
    simpa only [List.mem_map] using listed

end OzonStore

variable {s : OzonStore} {rows : OfferRows}

theorem OzonStore.row_written (sound : s.Sound) (held : s.Holds rows)
    {write : OzonWrite} {now : Instant} {row : OzonOperation} (mem : row ∈ s.operations) :
    ∃ new ∈ (s.written rows write now).operations, SameOperation row new := by
  by_cases hit : row.pk = rows.operation.pk
  · have one : row = rows.operation := row_unique sound.pks mem held.operation hit
    exact ⟨_, (mem_written held).mpr (.inl rfl), one ▸ write.apply_same now rows⟩
  · exact ⟨row, (mem_written held).mpr (.inr ⟨mem, hit⟩), ⟨rfl, rfl, rfl, rfl, rfl, rfl⟩⟩

theorem OzonStore.holds_unique (sound : s.Sound) {a b : OfferRows} (first : s.Holds a) (second : s.Holds b)
    (same : a.operation.pk = b.operation.pk) : a = b := by
  obtain ⟨operation, draft⟩ := a
  obtain ⟨other, offer⟩ := b
  obtain rfl : operation = other := row_unique sound.pks first.operation second.operation same
  obtain rfl : draft = offer :=
    row_unique sound.offers first.draft second.draft (first.offer.trans second.offer.symm)
  rfl

theorem OzonStore.holds_written (held : s.Holds rows) (write : OzonWrite) (now : Instant) :
    (s.written rows write now).Holds (write.apply now rows) where
  operation := (mem_written held).mpr (.inl rfl)
  draft := (mem_written_drafts held).mpr (.inl rfl)
  offer := by rw [(write.apply_offer now rows).pk, (write.apply_same now rows).offer, held.offer]

variable {draft : OzonOfferDraft}

theorem OzonStore.draft?_of_mem (offers : (s.drafts.map OzonOfferDraft.pk).Nodup) (mem : draft ∈ s.drafts) : s.draft? draft.pk = some draft := by
  cases found : s.draft? draft.pk with
  | none => exact absurd (List.find?_eq_none.mp found draft mem) (by simp)
  | some =>
    obtain ⟨other_mem, same⟩ := OzonStore.draft?_some found
    rw [row_unique offers other_mem mem same]

theorem OzonStore.Sound.holds (sound : s.Sound) {row : OzonOperation} (mem : row ∈ s.operations) :
    ∃ draft, s.Holds ⟨row, draft⟩ :=
  let ⟨draft, draft_mem, same⟩ := sound.offered row mem
  ⟨draft, mem, draft_mem, same⟩

theorem OzonStore.persist_holds (sound : s.Sound) (held : s.Holds rows)
    (write : OzonWrite) (now : Instant) :
    s.persist rows.operation.pk write now = .ok (s.written rows write now, write.apply now rows) := by
  have offered : s.draft? rows.operation.offer = some rows.draft := held.offer ▸ draft?_of_mem sound.offers held.draft
  simp only [persist, bind_ok, orRaise_ok, pure_ok]
  exact ⟨rows.operation, operation?_of_mem sound.pks held.operation, rows.draft, offered, rfl⟩

/-- The three kinds of work; a price and a stock update are sent by one function. -/
inductive OzonTask where
  | importing | archiving | commerce
  deriving DecidableEq

def OzonOperationKind.task : OzonOperationKind → OzonTask
  | productImport => .importing
  | priceUpdate | stockUpdate => .commerce
  | archive => .archiving

variable {kind : OzonOperationKind}

theorem archiving_kind : kind.task = .archiving ↔ kind = .archive := by
  cases kind <;> simp [OzonOperationKind.task]

theorem commerce_kind : kind.task = .commerce ↔ kind = .priceUpdate ∨ kind = .stockUpdate := by
  cases kind <;> simp [OzonOperationKind.task]

def OzonWrite.task : OzonWrite → Option OzonTask
  | markSending => none
  | desiredStateChanged | importCredentials _ | importAnswered _ | claimReconciliation _ | reconcileLimit
  | transientError _ | offerNotInTask | importPending | finishFailed _ _ | productProjection _ _ | notFound =>
    some .importing
  | operationError _ _ | archiveUnread _ | stockZeroed _ | archiveOutcomeUnknown | archiveAccepted | archiveProjection _
  | claimArchive => some .archiving
  | commerceError _ | commerceOutcome _ _ | commerceSucceeded _ => some .commerce

namespace OzonStore

def Has (s : OzonStore) (task : OzonTask) (pk : Uuid) : Prop :=
  ∃ row ∈ s.operations, row.pk = pk ∧ row.kind.task = task

variable {s : OzonStore}

theorem Has.of_mem {row : OzonOperation} (mem : row ∈ s.operations) :
    s.Has row.kind.task row.pk := ⟨row, mem, rfl, rfl⟩

theorem Has.unique (sound : s.Sound) {a b : OzonTask} {pk : Uuid} (first : s.Has a pk)
    (second : s.Has b pk) : a = b := by
  obtain ⟨_, mem, rfl, rfl⟩ := first
  obtain ⟨_, other_mem, same, rfl⟩ := second
  rw [row_unique sound.pks other_mem mem same]

theorem Has.row (sound : s.Sound) {task : OzonTask} {row : OzonOperation}
    (mem : row ∈ s.operations) (has : s.Has task row.pk) : row.kind.task = task :=
  (Has.of_mem mem).unique sound has

theorem Has.insert {task : OzonTask} {pk : Uuid} (has : s.Has task pk) (row : OzonOperation) :
    (s.insert row).Has task pk :=
  let ⟨old, mem, same, kind⟩ := has
  ⟨old, List.mem_append_left _ mem, same, kind⟩

theorem Has.inserted (s : OzonStore) (row : OzonOperation) : (s.insert row).Has row.kind.task row.pk :=
  ⟨row, List.mem_append_right _ (List.mem_singleton_self _), rfl, rfl⟩

theorem Has.written (sound : s.Sound) {task : OzonTask} {pk : Uuid} (has : s.Has task pk)
    {rows : OfferRows} (held : s.Holds rows) (write : OzonWrite) (now : Instant) :
    (s.written rows write now).Has task pk := by
  obtain ⟨_, mem, rfl, rfl⟩ := has
  obtain ⟨new, new_mem, same⟩ := row_written sound held mem
  exact ⟨new, new_mem, same.pk, by rw [same.kind]⟩

end OzonStore

def AfterWrite.Placed (s : OzonStore) (task : OzonTask) : AfterWrite → Prop
  | finish => True
  | archiveProducts _ | readArchive => task = .archiving
  | submitCommerce pending => ∀ pk ∈ pending, s.Has .commerce pk

def OzonWorker.Placed (s : OzonStore) : OzonWorker → Prop
  | submitProductImport operation _ => s.Has .importing operation
  | importProducts rows _ | getProductImportInfo rows | getProductInfo rows => s.Has .importing rows.operation.pk
  | submitProductArchive operation => s.Has .archiving operation
  | zeroStock rows _ | archiveProducts rows _ | readArchive rows => s.Has .archiving rows.operation.pk
  | submitCommerce pending => ∀ pk ∈ pending, s.Has .commerce pk
  | sendCommerce rows _ pending => s.Has .commerce rows.operation.pk ∧ ∀ pk ∈ pending, s.Has .commerce pk
  | answered rows write after =>
    ∃ task, write.task = some task ∧ s.Has task rows.operation.pk ∧ after.Placed s task
  | _ => True

def KeepsWork (s next : OzonStore) : Prop := ∀ task pk, s.Has task pk → next.Has task pk

theorem KeepsWork.trans {s between next : OzonStore} (first : KeepsWork s between) (second : KeepsWork between next) :
    KeepsWork s next := fun task pk has => second task pk (first task pk has)

theorem AfterWrite.Placed.mono {s next : OzonStore} (keeps : KeepsWork s next) {task : OzonTask} {after : AfterWrite}
    (placed : after.Placed s task) : after.Placed next task := by
  cases after with
  | submitCommerce => exact fun pk mem => keeps _ _ (placed pk mem)
  | _ => exact placed

theorem OzonWorker.Placed.mono {s next : OzonStore} (keeps : KeepsWork s next) {w : OzonWorker}
    (placed : w.Placed s) : w.Placed next := by
  cases w with
  | submitProductImport => exact keeps _ _ placed
  | importProducts => exact keeps _ _ placed
  | getProductImportInfo => exact keeps _ _ placed
  | getProductInfo => exact keeps _ _ placed
  | submitProductArchive => exact keeps _ _ placed
  | zeroStock => exact keeps _ _ placed
  | archiveProducts => exact keeps _ _ placed
  | readArchive => exact keeps _ _ placed
  | submitCommerce => exact fun pk mem => keeps _ _ (placed pk mem)
  | sendCommerce =>
    exact ⟨keeps _ _ placed.1, fun pk mem => keeps _ _ (placed.2 pk mem)⟩
  | answered =>
    obtain ⟨task, known, has, later⟩ := placed
    exact ⟨task, known, keeps _ _ has, later.mono keeps⟩
  | _ => trivial

variable {input : OzonInput} {result : Option OzonOperation} {key : String}

theorem CommercePart.sound
    {s next : OzonStore} (part : CommercePart input draft kind key s next result)
    (sound : s.Sound) (mem : ∃ old ∈ s.drafts, old.pk = draft.pk) (valid : key ≠ "" ∧ key.length ≤ 100) :
    next.Sound ∧ next.drafts = s.drafts ∧ KeepsWork s next ∧ ∀ row ∈ result, next.Has kind.task row.pk := by
  cases part with
  | settled => exact ⟨sound, rfl, fun _ _ has => has, fun row mem => absurd mem (by simp)⟩
  | found _ row_mem _ same =>
    refine ⟨sound, rfl, fun _ _ has => has, ?_⟩
    rintro _ ⟨⟩
    exact same ▸ OzonStore.Has.of_mem row_mem
  | created _ free =>
    refine ⟨sound.insert rfl free valid mem, rfl, fun _ _ has => has.insert _, ?_⟩
    rintro _ ⟨⟩
    exact OzonStore.Has.inserted s _

theorem key_valid {key suffix : String} {limit : ℕ} (valid : key ≠ "" ∧ key.length ≤ limit)
    (room : limit + suffix.length ≤ 100) : key ++ suffix ≠ "" ∧ (key ++ suffix).length ≤ 100 := by
  constructor
  · intro empty
    exact valid.1 (String.append_eq_empty_iff.mp empty).1
  · rw [String.length_append]
    exact (Nat.add_le_add_right valid.2 _).trans room

namespace OzonMove
open OzonStore

variable {input : OzonInput}

theorem sound {s next : OzonStore} {w moved : OzonWorker} (move : OzonMove input s w next moved)
    (sound : s.Sound) : next.Sound ∧ KeepsWork s next := by
  cases move with
  | reads => exact ⟨sound, fun _ _ has => has⟩
  | calls => exact ⟨sound.record _, fun _ _ has => has⟩
  | writes held => exact ⟨sound.written held _ _, fun _ _ has => has.written sound held _ _⟩
  | createImport draft _ _ valid mem free =>
    exact ⟨(sound.insert rfl free valid ⟨draft, mem, rfl⟩).saveDraft _, fun _ _ has => has.insert _⟩
  | createArchive draft _ _ _ valid mem free =>
    exact ⟨(sound.insert rfl free valid ⟨draft, mem, rfl⟩).saveDraft _, fun _ _ has => has.insert _⟩
  | syncCommerce draft _ valid mem _ priced stocked =>
    obtain ⟨between, drafts, kept, -⟩ := priced.sound sound ⟨draft, mem, rfl⟩ (key_valid valid (by decide))
    obtain ⟨final, -, later, -⟩ := stocked.sound between ⟨draft, drafts ▸ mem, rfl⟩ (key_valid valid (by decide))
    exact ⟨final, kept.trans later⟩

variable {write : OzonWrite}

theorem importInfoWrite_task {offerId : String} {answer : Except OzonAPIError (List ImportTaskItem)}
    (decided : OzonReconciliation.importInfoWrite offerId answer = some write) : write.task = some .importing := by
  cases answer with
  | error =>
    cases decided
    rfl
  | ok =>
    simp only [OzonReconciliation.importInfoWrite] at decided
    split at decided
    · cases decided
      rfl
    · split at decided
      · cases decided
        rfl
      · split at decided
        · cases decided
          rfl
        · split at decided <;> cases decided
          rfl

theorem importInfoRead_cases (rows : OfferRows) (input : OzonInput) :
    (∃ write, OzonReconciliation.importInfoRead rows input = .answered rows write .finish ∧
      OzonReconciliation.importInfoWrite rows.draft.offerId input.importInfo = some write) ∨
    OzonReconciliation.importInfoRead rows input = .getProductInfo rows := by
  unfold OzonReconciliation.importInfoRead
  cases decided : OzonReconciliation.importInfoWrite rows.draft.offerId input.importInfo with
  | some write => exact .inl ⟨write, rfl, rfl⟩
  | none => exact .inr rfl

variable {s : OzonStore} {rows : OfferRows}

theorem importInfoRead_placed
    (placed : s.Has .importing rows.operation.pk) : (OzonReconciliation.importInfoRead rows input).Placed s := by
  rcases importInfoRead_cases rows input with ⟨_, read, decided⟩ | read
  · rw [read]
    exact ⟨.importing, importInfoWrite_task decided, placed, trivial⟩
  · rw [read]
    exact placed

theorem productInfoWrite_task (seen : ℕ) (answer : Except OzonAPIError (Option ProductItem)) :
    (OzonReconciliation.productInfoWrite seen answer).task = some .importing := by
  match answer with
  | .error _ => rfl
  | .ok none => rfl
  | .ok (some item) =>
    simp only [OzonReconciliation.productInfoWrite]
    split <;> rfl

theorem archiveRead_cases (rows : OfferRows) (answer : Except OzonAPIError (Option ProductItem)) :
    ∃ write, OzonLifecycle.archiveRead rows answer = .answered rows write .finish ∧
      write.task = some .archiving := by
  cases answer with
  | error => exact ⟨_, rfl, rfl⟩
  | ok => exact ⟨_, rfl, rfl⟩

theorem stockAnswered_cases (rows : OfferRows) (item : StockRequest) (answer : Except OzonAPIError (List UpdateResult)) :
    (∃ write, OzonLifecycle.stockAnswered rows item answer = .answered rows write .finish ∧
      write.task = some .archiving) ∨
    ∃ results, answer = .ok results ∧ (∃ result ∈ results, OzonLifecycle.stockZeroConfirmed result item) ∧
      OzonLifecycle.stockAnswered rows item answer = .answered rows (.stockZeroed item) (.archiveProducts item) := by
  cases answer with
  | error => exact .inl ⟨_, rfl, rfl⟩
  | ok results =>
    by_cases confirmed : ∃ result ∈ results, OzonLifecycle.stockZeroConfirmed result item
    · exact .inr ⟨results, rfl, confirmed, if_pos confirmed⟩
    · exact .inl ⟨_, if_neg confirmed, rfl⟩

theorem archiveAnswered_cases (rows : OfferRows) (answer : Except OzonAPIError Bool) :
    (∃ write, OzonLifecycle.archiveAnswered rows answer = .answered rows write .finish ∧
      write.task = some .archiving) ∨
    ∃ write, OzonLifecycle.archiveAnswered rows answer = .answered rows write .readArchive ∧
      (write = .archiveOutcomeUnknown ∨ write = .archiveAccepted) := by
  cases answer with
  | error error =>
    by_cases unknown : error.unknown
    · exact .inr ⟨_, if_pos unknown, .inl rfl⟩
    · exact .inl ⟨_, if_neg unknown, rfl⟩
  | ok accepted =>
    cases accepted with
    | false => exact .inl ⟨_, rfl, rfl⟩
    | true => exact .inr ⟨_, rfl, .inr rfl⟩

theorem archiveRead_placed {answer : Except OzonAPIError (Option ProductItem)}
    (placed : s.Has .archiving rows.operation.pk) : (OzonLifecycle.archiveRead rows answer).Placed s := by
  obtain ⟨_, read, task⟩ := archiveRead_cases rows answer
  rw [read]
  exact ⟨.archiving, task, placed, trivial⟩

theorem stockAnswered_placed {item : StockRequest}
    {answer : Except OzonAPIError (List UpdateResult)} (placed : s.Has .archiving rows.operation.pk) :
    (OzonLifecycle.stockAnswered rows item answer).Placed s := by
  rcases stockAnswered_cases rows item answer with ⟨_, answered, task⟩ | ⟨_, -, -, answered⟩
  · rw [answered]
    exact ⟨.archiving, task, placed, trivial⟩
  · rw [answered]
    exact ⟨.archiving, rfl, placed, rfl⟩

theorem archiveAnswered_placed {answer : Except OzonAPIError Bool}
    (placed : s.Has .archiving rows.operation.pk) : (OzonLifecycle.archiveAnswered rows answer).Placed s := by
  rcases archiveAnswered_cases rows answer with ⟨write, answered, task⟩ | ⟨write, answered, rfl | rfl⟩
  · rw [answered]
    exact ⟨.archiving, task, placed, trivial⟩
  · rw [answered]
    exact ⟨.archiving, rfl, placed, rfl⟩
  · rw [answered]
    exact ⟨.archiving, rfl, placed, rfl⟩

theorem updateWrite_task (request : OzonRequest) (answer : Except OzonAPIError (List UpdateResult)) :
    (OzonCommerce.updateWrite request answer).task = some .commerce := by
  cases answer with
  | error => rfl
  | ok =>
    simp only [OzonCommerce.updateWrite]
    split
    · rfl
    · split
      · rfl
      · split <;> rfl

theorem worker_placed {task : OzonTask} {after : AfterWrite}
    (placed : after.Placed s task) (has : s.Has task rows.operation.pk) : (after.worker rows).Placed s := by
  cases after with
  | finish => trivial
  | archiveProducts =>
    obtain rfl : task = .archiving := placed
    exact has
  | readArchive =>
    obtain rfl : task = .archiving := placed
    exact has
  | submitCommerce => exact placed

theorem latest_kind {offer : Uuid} {kind : OzonOperationKind} {row : OzonOperation}
    (latest : latest? (s.offerOperations offer kind) = some row) :
    row ∈ s.operations ∧ row.offer = offer ∧ row.kind = kind :=
  mem_offerOperations.mp (latest?_mem latest)

theorem writes_task {w : OzonWorker}
    {next : OfferRows → OzonWorker} (sound : s.Sound) (placed : w.Placed s) (held : s.Holds rows)
    (writes : OzonWorker.Writes input s w rows.operation write next) :
    write = .markSending ∨ write.task = some rows.operation.kind.task := by
  cases writes with
  | sendImport => exact .inl rfl
  | refuseImport _ _ _ _ refused =>
    rw [Has.row sound held.operation placed]
    rcases refused with rfl | ⟨error, rfl⟩ <;> exact .inr rfl
  | claimImport _ _ _ latest =>
    rw [(latest_kind latest).2.2]
    exact .inr rfl
  | limitImport _ _ _ latest =>
    rw [(latest_kind latest).2.2]
    exact .inr rfl
  | sendArchive => exact .inl rfl
  | refuseArchive =>
    rw [Has.row sound held.operation placed]
    exact .inr rfl
  | claimArchive _ _ latest =>
    rw [(latest_kind latest).2.2]
    exact .inr rfl
  | limitArchive _ _ latest =>
    rw [(latest_kind latest).2.2]
    exact .inr rfl
  | sendCommerce => exact .inl rfl
  | refuseCommerce =>
    rw [Has.row sound held.operation (placed _ List.mem_cons_self)]
    exact .inr rfl
  | answered _ _ _ _ here =>
    obtain ⟨_, known, has, -⟩ := placed
    rw [Has.row sound held.operation (here ▸ has)]
    exact .inr known

theorem writes_active {w : OzonWorker} {row : OzonOperation}
    {next : OfferRows → OzonWorker} (writes : OzonWorker.Writes input s w row write next) :
    row.active ∨
      (∃ offer, w = .reconcileProductImport offer true ∧ row ∈ s.operations ∧ row.kind = .productImport ∧
        (write = .claimReconciliation true ∨ write = .reconcileLimit)) ∨
      ∃ rows after, w = .answered rows write after ∧ row.pk = rows.operation.pk := by
  have waiting (queued : row.state = .queued) : row.active := OzonOperation.active_of_state queued (by decide)
  cases writes with
  | sendImport _ _ _ queued => exact .inl (waiting queued)
  | refuseImport _ _ _ queued => exact .inl (waiting queued)
  | claimImport offer _ _ latest due =>
    obtain ⟨mem, -, kind⟩ := latest_kind latest
    rcases due with ⟨found, -⟩ | ⟨finished, rfl⟩
    · exact .inl found
    · exact .inr (.inl ⟨offer, rfl, mem, kind, .inl (by simp [finished])⟩)
  | limitImport offer _ _ latest due =>
    obtain ⟨mem, -, kind⟩ := latest_kind latest
    rcases due with ⟨found, -⟩ | ⟨finished, rfl⟩
    · exact .inl found
    · exact .inr (.inl ⟨offer, rfl, mem, kind, .inr rfl⟩)
  | sendArchive _ _ queued => exact .inl (waiting queued)
  | refuseArchive _ _ queued => exact .inl (waiting queued)
  | claimArchive _ _ _ found => exact .inl found
  | limitArchive _ _ _ found => exact .inl found
  | sendCommerce _ _ queued => exact .inl (waiting queued)
  | refuseCommerce _ _ _ queued => exact .inl (waiting queued)
  | answered rows _ after _ here => exact .inr (.inr ⟨rows, after, rfl, here⟩)

theorem placed {s next : OzonStore} {w moved : OzonWorker} (move : OzonMove input s w next moved)
    (sound : s.Sound) (placed : w.Placed s) : moved.Placed next := by
  have keeps := (move.sound sound).2
  cases move with
  | reads reads =>
    cases reads with
    | importInfo => exact importInfoRead_placed placed
    | productInfo => exact ⟨.importing, productInfoWrite_task _ _, placed, trivial⟩
    | archive => exact archiveRead_placed placed
    | skipCommerce => exact fun pk mem => placed pk (List.mem_cons_of_mem _ mem)
    | ended => trivial
  | calls calls =>
    have kept := placed.mono keeps
    cases calls with
    | importProducts => exact ⟨.importing, rfl, kept, trivial⟩
    | zeroStock => exact stockAnswered_placed kept
    | archiveProducts => exact archiveAnswered_placed kept
    | sendCommerce => exact ⟨.commerce, updateWrite_task _ _, kept.1, kept.2⟩
  | @writes _ rows write _ held writes =>
    have kept := placed.mono keeps
    have left {task : OzonTask} (has : (s.written rows write input.now).Has task rows.operation.pk) :
        (s.written rows write input.now).Has task (write.apply input.now rows).operation.pk := by
      rw [(write.apply_same input.now rows).pk]
      exact has
    cases writes with
    | sendImport => exact left kept
    | refuseImport => trivial
    | claimImport _ _ _ latest =>
      obtain ⟨mem, -, kind⟩ := latest_kind latest
      have has : s.Has .importing rows.operation.pk := ⟨rows.operation, mem, rfl, by rw [kind]; rfl⟩
      dsimp only
      split <;> exact left (keeps _ _ has)
    | limitImport => trivial
    | sendArchive => exact left kept
    | refuseArchive => trivial
    | claimArchive _ _ latest =>
      obtain ⟨mem, -, kind⟩ := latest_kind latest
      have has : s.Has .archiving rows.operation.pk := ⟨rows.operation, mem, rfl, by rw [kind]; rfl⟩
      exact left (keeps _ _ has)
    | limitArchive => trivial
    | sendCommerce =>
      exact ⟨left (kept _ List.mem_cons_self), fun pk mem => kept pk (List.mem_cons_of_mem _ mem)⟩
    | refuseCommerce => exact fun pk mem => kept pk (List.mem_cons_of_mem _ mem)
    | answered _ _ _ _ here =>
      obtain ⟨task, _, has, later⟩ := kept
      exact worker_placed later (left (here ▸ has))
  | createImport => exact Has.inserted s _
  | createArchive => exact Has.inserted s _
  | syncCommerce draft _ valid mem _ priced stocked =>
    obtain ⟨between, drafts, -, sent⟩ := priced.sound sound ⟨draft, mem, rfl⟩ (key_valid valid (by decide))
    obtain ⟨-, -, later, posted⟩ := stocked.sound between ⟨draft, drafts ▸ mem, rfl⟩ (key_valid valid (by decide))
    intro pk listed
    obtain ⟨row, chosen, rfl⟩ := List.mem_map.mp listed
    rcases List.mem_append.mp chosen with price | stock
    · exact later _ _ (sent row (Option.mem_toList.mp price))
    · exact posted row (Option.mem_toList.mp stock)

end OzonMove

theorem OzonStore.row_insert (sound : s.Sound) {made row new : OzonOperation}
    (pk : made.pk = s.nextPk) (mem : row ∈ s.operations) (new_mem : new ∈ (s.insert made).operations)
    (same : new.pk = row.pk) : new = row := by
  rcases List.mem_append.mp new_mem with old | last
  · exact row_unique sound.pks old mem same
  · obtain rfl := List.mem_singleton.mp last
    exact absurd (same.symm.trans pk) (Nat.ne_of_lt (sound.below row mem))

theorem CommercePart.row
    {s next : OzonStore} (part : CommercePart input draft kind key s next result)
    (sound : s.Sound) {row new : OzonOperation} (mem : row ∈ s.operations) (new_mem : new ∈ next.operations)
    (same : new.pk = row.pk) : new = row := by
  cases part with
  | settled => exact row_unique sound.pks new_mem mem same
  | found => exact row_unique sound.pks new_mem mem same
  | created => exact OzonStore.row_insert sound rfl mem new_mem same

theorem CommercePart.kept
    {s next : OzonStore} (part : CommercePart input draft kind key s next result)
    {row : OzonOperation} (mem : row ∈ s.operations) : row ∈ next.operations := by
  cases part with
  | settled => exact mem
  | found => exact mem
  | created => exact List.mem_append_left _ mem

theorem CommercePart.history
    {s next : OzonStore} (part : CommercePart input draft kind key s next result) :
    next.history = s.history := by cases part <;> rfl

variable {w moved : OzonWorker}

theorem OzonMove.history {s next : OzonStore}
    (move : OzonMove input s w next moved) : ∃ events, next.history = s.history ++ events := by
  cases move with
  | reads => exact ⟨[], (List.append_nil _).symm⟩
  | calls => exact ⟨_, rfl⟩
  | writes => exact ⟨_, rfl⟩
  | createImport => exact ⟨[], (List.append_nil _).symm⟩
  | createArchive =>
    exact ⟨[], (List.append_nil _).symm⟩
  | syncCommerce _ _ _ _ _ priced stocked =>
    exact ⟨[], by rw [stocked.history, priced.history, List.append_nil]⟩

theorem OzonMove.row {s next : OzonStore}
    (move : OzonMove input s w next moved) (sound : s.Sound) {row new : OzonOperation} (mem : row ∈ s.operations)
    (new_mem : new ∈ next.operations) (same : new.pk = row.pk) :
    new = row ∨ ∃ rows write worker, s.Holds rows ∧ rows.operation = row ∧
      OzonWorker.Writes input s w row write worker ∧ new = (write.apply input.now rows).operation ∧
      next = s.written rows write input.now := by
  cases move with
  | reads => exact .inl (row_unique sound.pks new_mem mem same)
  | calls => exact .inl (row_unique sound.pks new_mem mem same)
  | writes held writes =>
    rcases (OzonStore.mem_written held).mp new_mem with rfl | ⟨old, -⟩
    · have one : _ = row :=
        row_unique sound.pks held.operation mem ((OzonWrite.apply_same _ _ _).pk.symm.trans same)
      exact .inr ⟨_, _, _, held, one, one ▸ writes, rfl, rfl⟩
    · exact .inl (row_unique sound.pks old mem same)
  | createImport =>
    exact .inl (OzonStore.row_insert sound rfl mem new_mem same)
  | createArchive =>
    exact .inl (OzonStore.row_insert sound rfl mem new_mem same)
  | syncCommerce draft _ valid draft_mem _ priced stocked =>
    obtain ⟨between, -⟩ := priced.sound sound ⟨draft, draft_mem, rfl⟩ (key_valid valid (by decide))
    exact .inl (stocked.row between (priced.kept mem) new_mem same)

theorem OzonMove.kept {s next : OzonStore}
    (move : OzonMove input s w next moved) (sound : s.Sound) {row : OzonOperation} (mem : row ∈ s.operations) :
    ∃ new ∈ next.operations, SameOperation row new := by
  have same : SameOperation row row := ⟨rfl, rfl, rfl, rfl, rfl, rfl⟩
  cases move with
  | reads => exact ⟨row, mem, same⟩
  | calls => exact ⟨row, mem, same⟩
  | writes held => exact OzonStore.row_written sound held mem
  | createImport => exact ⟨row, List.mem_append_left _ mem, same⟩
  | createArchive =>
    exact ⟨row, List.mem_append_left _ mem, same⟩
  | syncCommerce _ _ _ _ _ priced stocked => exact ⟨row, stocked.kept (priced.kept mem), same⟩

theorem CommercePart.drafts
    {s next : OzonStore} (part : CommercePart input draft kind key s next result) :
    next.drafts = s.drafts := by cases part <;> rfl

theorem OzonMove.drafts {s next : OzonStore}
    (move : OzonMove input s w next moved) {new : OzonOfferDraft} (mem : new ∈ next.drafts) :
    ∃ old ∈ s.drafts, SameOffer old new := by
  have opened {row : OzonOperation} {draft : OzonOfferDraft} {status : PublicationStatus} (draft_mem : draft ∈ s.drafts)
      (mem : new ∈ (s.opened row draft status).drafts) : ∃ old ∈ s.drafts, SameOffer old new := by
    rcases mem_put.mp mem with ⟨rfl, -⟩ | ⟨old, -⟩
    · exact ⟨draft, draft_mem, rfl, rfl⟩
    · exact ⟨new, old, rfl, rfl⟩
  cases move with
  | reads => exact ⟨new, mem, rfl, rfl⟩
  | calls => exact ⟨new, mem, rfl, rfl⟩
  | writes held =>
    rcases (OzonStore.mem_written_drafts held).mp mem with rfl | ⟨old, -⟩
    · exact ⟨_, held.draft, OzonWrite.apply_offer _ _ _⟩
    · exact ⟨new, old, rfl, rfl⟩
  | createImport _ _ _ _ draft_mem => exact opened draft_mem mem
  | createArchive _ _ _ _ _ draft_mem =>
    exact opened draft_mem mem
  | syncCommerce _ _ _ _ _ priced stocked =>
    rw [stocked.drafts, priced.drafts] at mem
    exact ⟨new, mem, rfl, rfl⟩

namespace OzonCrew

def Sound (c : OzonCrew) : Prop := c.Keeps OzonStore.Sound fun s w => w.Placed s

theorem Sound.idle {s : OzonStore} (fresh : s.Fresh) : Sound s.idle :=
  ⟨fresh.sound, fun _ mem => absurd mem List.not_mem_nil⟩

variable {c : OzonCrew}

theorem next_keeps {inv : OzonStore → Prop} {held : OzonStore → OzonWorker → Prop} (sound : c.Sound)
    (kept : c.Keeps inv held) (a : OzonAction) (started : ∀ request : OzonCall, held c.store request.worker)
    (moved : ∀ k input w store worker, a = .move k input → c.workers[k]? = some w →
      OzonMove input c.store w store worker →
      inv store ∧ held store worker ∧
        ∀ j v, j ≠ k → c.workers[j]? = some v → held c.store v → held store v) :
    (c.next a).Keeps inv held := by
  apply kept.step a.crewAction
  · intro _ begun
    cases a with
    | call request =>
      cases begun
      exact started request
    | move => cases begun
    | crash => cases begun
  · exact nofun
  · intro k input w begun found
    cases a with
    | call => cases begun
    | crash => cases begun
    | move =>
      cases begun
      exact moved k input w _ _ rfl found (w.advance_move input sound.store.pks)

theorem Sound.next (sound : c.Sound) (a : OzonAction) : (c.next a).Sound := by
  apply next_keeps sound sound a
  · intro request
    cases request <;> trivial
  · intro k input w store worker _ found move
    have placed := sound.workers w (List.mem_of_getElem? found)
    exact ⟨(move.sound sound.store).1, move.placed sound.store placed,
      fun j v _ _ held => held.mono (move.sound sound.store).2⟩

theorem run_sound {s : OzonStore} (fresh : s.Fresh) (actions : List OzonAction) :
    Sound (run next s.idle actions) := by
  have step : ∀ (c : OzonCrew) (a : OzonAction), c.Sound → (c.next a).Sound := fun _ a sound => sound.next a
  exact run_always next step (Sound.idle fresh) actions

theorem next_load (meter : OzonStore → ℕ) (weight : OzonWorker → ℕ) (sound : c.Sound)
    (started : ∀ request : OzonCall, weight request.worker = 0)
    (moved : ∀ input s w next moved, OzonStore.Sound s → OzonMove input s w next moved →
      meter next + weight moved ≤ meter s + weight w) (a : OzonAction) :
    meter (c.next a).store + (c.next a).load weight ≤ meter c.store + c.load weight := by
  apply Crew.step_load c a.crewAction
  · intro _ begun
    cases a with
    | call request =>
      cases begun
      exact started request
    | move => cases begun
    | crash => cases begun
  · exact nofun
  · intro _ input w _ _
    exact moved input c.store w _ _ sound.store (w.advance_move input sound.store.pks)

theorem next_move (sound : c.Sound) {k : ℕ} {input : OzonInput} {w : OzonWorker}
    (found : c.workers[k]? = some w) :
    ∃ worker, OzonMove input c.store w (c.next (.move k input)).store worker := by
  have store : (c.next (.move k input)).store = (w.advance input c.store).1 := by
    simp [next, Crew.step, OzonAction.crewAction, found]
  exact ⟨_, store ▸ w.advance_move input sound.store.pks⟩

theorem next_row (sound : c.Sound) {a : OzonAction} {row new : OzonOperation}
    (mem : row ∈ c.store.operations) (new_mem : new ∈ (c.next a).store.operations) (same : new.pk = row.pk) :
    new = row ∨ ∃ k input w rows write worker, a = .move k input ∧ c.workers[k]? = some w ∧ c.store.Holds rows ∧
      rows.operation = row ∧ OzonWorker.Writes input c.store w row write worker ∧
      new = (write.apply input.now rows).operation ∧ (c.next a).store = c.store.written rows write input.now := by
  cases a with
  | call => exact .inl (row_unique sound.store.pks new_mem mem same)
  | crash => exact .inl (row_unique sound.store.pks new_mem mem same)
  | move k input =>
    cases found : c.workers[k]? with
    | none =>
      have unmoved : c.next (.move k input) = c := by simp [next, Crew.step, OzonAction.crewAction, found]
      rw [unmoved] at new_mem
      exact .inl (row_unique sound.store.pks new_mem mem same)
    | some w =>
      obtain ⟨_, move⟩ := next_move sound found
      rcases move.row sound.store mem new_mem same with kept | ⟨rows, write, worker, held, here, writes, made, moved⟩
      · exact .inl kept
      · exact .inr ⟨k, input, w, rows, write, worker, rfl, found, held, here, writes, made, moved⟩

end OzonCrew

end MapBackend.Marketplaces
