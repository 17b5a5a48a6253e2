import MapBackend.Marketplaces.OzonAttestation
import MapBackend.Marketplaces.OzonSenders

/-!
Which price and stock updates lock their offer.
-/

namespace MapBackend.Marketplaces
open MapBackend.Library

def OzonWrite.losesOutcome : OzonWrite → Prop
  | commerceError error => error.unknown
  | _ => False

def OzonWorker.Finishes (pk : Uuid) : OzonWorker → Prop
  | sendCommerce rows _ _ => rows.operation.pk = pk
  | answered rows write _ => write.task = some .commerce ∧ rows.operation.pk = pk ∧ ¬ write.losesOutcome
  | _ => False

namespace OzonCrew

/-- A price or stock update that is active, waits for no submitter and has no worker that can finish it. -/
def Lost (c : OzonCrew) (row : OzonOperation) : Prop :=
  row.kind.task = .commerce ∧ row.active ∧ row.state ≠ .queued ∧
    ¬ (row.state = .sending ∧ ∃ w ∈ c.workers, w.Finishes row.pk)

def LocksOut (c : OzonCrew) (offer : Uuid) : Prop := ∃ row ∈ c.store.operations, row.offer = offer ∧ c.Lost row

end OzonCrew

def Forward : Instant → List OzonAction → Prop
  | _, [] => True
  | time, .call _ :: rest => Forward time rest
  | time, .move _ input :: rest => time ≤ input.now ∧ Forward input.now rest
  | _, .crash _ :: _ => False

/-- The new values were sent and taken, and nothing of the offer keeps it from being archived. -/
structure OzonStore.Unlocked (s : OzonStore) (offer : Uuid) (price : ℤ) (stock : ℕ) : Prop where
  synced : ∃ draft ∈ s.drafts, draft.pk = offer ∧ draft.lastSyncedPrice = some price ∧ draft.lastSyncedStock = some stock
  settled : ¬ OzonLifecycle.commerceActive s offer

/-- Whatever the time and the new values, some actions send them and leave nothing in progress. -/
def OzonCrew.Unlocks (c : OzonCrew) (offer : Uuid) : Prop :=
  ∀ (time : Instant) (price : ℤ) (stock : ℕ), 0 < price → ∃ actions, Forward time actions ∧
    (run OzonCrew.next c actions).store.Unlocked offer price stock

def OzonStore.SpareKey (s : OzonStore) (key : String) : Prop :=
  (key ≠ "" ∧ key.length ≤ 90) ∧ s.FreeKey (key ++ ":price") ∧ s.FreeKey (key ++ ":stock")

def OzonStore.SpareKeys (s : OzonStore) : Prop := ∃ first second, first ≠ second ∧ s.SpareKey first ∧ s.SpareKey second

def OzonOfferDraft.Listed (draft : OzonOfferDraft) : Prop :=
  draft.publicationStatus = .published ∧ ∃ id ≠ 0, draft.providerProductId = some id

namespace OzonMove
open OzonStore

theorem not_finishes_of_task {rows : OfferRows} {write : OzonWrite} {after : AfterWrite} {task : OzonTask} {pk : Uuid}
    (known : write.task = some task) (other : task ≠ .commerce) : ¬ (OzonWorker.answered rows write after).Finishes pk := by
  rintro ⟨commerce, -⟩
  rw [known] at commerce
  exact other (Option.some.inj commerce)

theorem finishes_before {input : OzonInput} {s next : OzonStore} {w moved : OzonWorker} {pk : Uuid}
    (move : OzonMove input s w next moved) (finishes : moved.Finishes pk) :
    w.Finishes pk ∨ ∃ row ∈ s.operations, row.pk = pk ∧ row.state = .queued := by
  cases move with
  | reads reads =>
    cases reads with
    | importInfo rows =>
      rcases importInfoRead_cases rows input with ⟨write, read, decided⟩ | read
      · rw [read] at finishes
        exact absurd finishes (not_finishes_of_task (importInfoWrite_task decided) (by decide))
      · rw [read] at finishes
        cases finishes
    | productInfo => exact absurd finishes (not_finishes_of_task (productInfoWrite_task _ _) (by decide))
    | archive rows =>
      obtain ⟨write, read, task⟩ := archiveRead_cases rows input.productInfo
      rw [read] at finishes
      exact absurd finishes (not_finishes_of_task task (by decide))
    | skipCommerce => cases finishes
    | ended => cases finishes
  | calls calls =>
    cases calls with
    | importProducts => cases finishes.1
    | zeroStock rows item =>
      rcases stockAnswered_cases rows item input.updateResults with ⟨write, answered, task⟩ | ⟨_, -, -, answered⟩
      · rw [answered] at finishes
        exact absurd finishes (not_finishes_of_task task (by decide))
      · rw [answered] at finishes
        cases finishes.1
    | archiveProducts rows =>
      rcases archiveAnswered_cases rows input.archiveProducts with ⟨write, answered, task⟩ | ⟨write, answered, rfl | rfl⟩
      · rw [answered] at finishes
        exact absurd finishes (not_finishes_of_task task (by decide))
      · rw [answered] at finishes
        cases finishes.1
      · rw [answered] at finishes
        cases finishes.1
    | sendCommerce => exact .inl finishes.2.1
  | writes held writes =>
    cases writes with
    | sendCommerce _ _ queued => exact .inr ⟨_, held.operation, finishes, queued⟩
    | claimImport =>
      dsimp only at finishes
      split at finishes <;> cases finishes
    | answered _ _ after => cases after <;> cases finishes
    | _ => cases finishes
  | _ => cases finishes

end OzonMove

def OzonStore.Remains (s : OzonStore) (row : OzonOperation) : Prop :=
  ∃ new ∈ s.operations, SameOperation row new ∧ new.active ∧ new.state ≠ .queued

/-- The worker is not the one that finishes the update, or the update is not on its way any more. -/
def OzonWorker.Abandons (row : OzonOperation) (s : OzonStore) (w : OzonWorker) : Prop :=
  ¬ w.Finishes row.pk ∨ ∃ new ∈ s.operations, new.pk = row.pk ∧ new.state ≠ .sending

namespace OzonWrite

theorem apply_lost {write : OzonWrite} (lost : write.losesOutcome) (now : Instant) (rows : OfferRows) :
    (write.apply now rows).operation.state = .outcomeUnknown := by
  cases write with
  | commerceError error =>
    have unknown : error.unknown := lost
    simp [apply, OfferRows.callFailed, unknown]
  | _ => cases lost

theorem apply_ended {write : OzonWrite} (commerce : write.task = some .commerce) (known : ¬ write.losesOutcome)
    (now : Instant) (rows : OfferRows) : ¬ (write.apply now rows).operation.active := by
  cases write with
  | commerceError error =>
    have known : ¬ error.unknown := known
    simp [apply, OfferRows.callFailed, known, OzonOperation.active, OzonOperationState.active,
      OzonOperationState.activeStates]
  | commerceOutcome failure =>
    cases failure with
    | failed => exact (show ¬ OzonOperationState.active .failed by decide)
    | manualReview => exact (show ¬ OzonOperationState.active .manualReview by decide)
  | commerceSucceeded request => cases request <;> exact (show ¬ OzonOperationState.active .succeeded by decide)
  | _ => cases commerce

end OzonWrite

namespace OzonCrew
open OzonStore

variable {c : OzonCrew}

theorem Lost.keeps {row : OzonOperation} (mem : row ∈ c.store.operations) (lost : c.Lost row) :
    c.Keeps (fun s => s.Remains row) fun s w => w.Abandons row s where
  store := ⟨row, mem, ⟨rfl, rfl, rfl, rfl, rfl, rfl⟩, lost.2.1, lost.2.2.1⟩
  workers w w_mem := by
    by_cases sending : row.state = .sending
    · exact .inl fun finishes => lost.2.2.2 ⟨sending, w, w_mem, finishes⟩
    · exact .inr ⟨row, mem, rfl, sending⟩

theorem Lost.of_keeps (sound : c.Sound) {row : OzonOperation} (commerce : row.kind.task = .commerce)
    (keeps : c.Keeps (fun s => s.Remains row) fun s w => w.Abandons row s) : c.LocksOut row.offer := by
  obtain ⟨new, mem, same, active, unqueued⟩ := keeps.store
  refine ⟨new, mem, same.offer, same.kind ▸ commerce, active, unqueued, ?_⟩
  rintro ⟨sending, w, w_mem, finishes⟩
  rcases keeps.workers w w_mem with idle | ⟨_, other_mem, pk, away⟩
  · exact idle (same.pk ▸ finishes)
  · rw [row_unique sound.store.pks other_mem mem (pk.trans same.pk.symm)] at away
    exact away sending

theorem LocksOut.next (sound : c.Sound) (sender : c.OneSender) {offer : Uuid} (locked : c.LocksOut offer)
    (a : OzonAction) : (c.next a).LocksOut offer := by
  obtain ⟨row, mem, rfl, lost⟩ := locked
  apply Lost.of_keeps (sound.next a) lost.1
  apply next_keeps sound (lost.keeps mem) a
  · intro request
    cases request <;> exact .inl nofun
  · rintro k input w _ worker rfl found move
    have w_mem := List.mem_of_getElem? found
    have unqueued {other : OzonOperation} (other_mem : other ∈ c.store.operations) (pk : other.pk = row.pk) :
        other.state ≠ .queued := by
      rw [row_unique sound.store.pks other_mem mem pk]
      exact lost.2.2.1
    have still (idle : ¬ w.Finishes row.pk) : ¬ worker.Finishes row.pk := by
      intro finishes
      rcases move.finishes_before finishes with before | ⟨other, other_mem, pk, queued⟩
      · exact idle before
      · exact unqueued other_mem pk queued
    obtain ⟨new, new_mem, same⟩ := move.kept sound.store mem
    rcases move.row sound.store mem new_mem same.pk with rfl | ⟨rows, write, _, held, here, writes, made, -⟩
    · refine ⟨⟨new, new_mem, same, lost.2.1, lost.2.2.1⟩, ?_, ?_⟩
      · by_cases sending : new.state = .sending
        · exact .inl (still fun finishes => lost.2.2.2 ⟨sending, w, w_mem, finishes⟩)
        · exact .inr ⟨new, new_mem, rfl, sending⟩
      · rintro j v - - (idle | ⟨other, other_mem, pk, away⟩)
        · exact .inl idle
        · rw [row_unique sound.store.pks other_mem mem pk] at away
          exact .inr ⟨new, new_mem, rfl, away⟩
    · -- its sender writes the outcome that is lost
      subst here
      have placed := sound.workers w w_mem
      rcases OzonMove.writes_commerce sound.store placed (sender.kept.workers w w_mem) held writes lost.1 with
        queued | ⟨sending, commerce, left, after, rfl, pk⟩
      · exact absurd queued lost.2.2.1
      · have loses : write.losesOutcome := by
          by_contra known
          cases writes
          exact lost.2.2.2 ⟨sending, _, w_mem, commerce, pk, known⟩
        have state : new.state = .outcomeUnknown := made ▸ OzonWrite.apply_lost loses input.now rows
        refine ⟨⟨new, new_mem, same, ?_, ?_⟩, .inr ⟨new, new_mem, same.pk, ?_⟩,
          fun _ _ _ _ _ => .inr ⟨new, new_mem, same.pk, ?_⟩⟩
        · show OzonOperationState.active _
          rw [state]
          decide
        · rw [state]
          decide
        · rw [state]
          decide
        · rw [state]
          decide

theorem LocksOut.forever (sound : c.Sound) (sender : c.OneSender) {offer : Uuid}
    (locked : c.LocksOut offer) : ¬ c.Unlocks offer := by
  intro unlocks
  obtain ⟨actions, -, unlocked⟩ := unlocks 0 1 0 Int.one_pos
  let inv (c : OzonCrew) : Prop := c.Sound ∧ c.OneSender ∧ c.LocksOut offer
  have step : ∀ (c : OzonCrew) (a : OzonAction), inv c → inv (c.next a) :=
    fun c a ⟨sound, sender, locked⟩ => ⟨sound.next a, sender.next sound a, locked.next sound sender a⟩
  have last : inv (run OzonCrew.next c actions) := run_always OzonCrew.next step ⟨sound, sender, locked⟩ actions
  obtain ⟨-, -, row, mem, here, commerce, active, -⟩ := last
  exact unlocked.settled ⟨row, mem, here, commerce_kind.mp commerce, active⟩

end OzonCrew

def OzonOperation.blocks (row : OzonOperation) : Prop := row.active ∧ row.state ≠ .outcomeUnknown

def OzonStore.OneBlocking (s : OzonStore) : Prop :=
  ∀ a ∈ s.operations, ∀ b ∈ s.operations, a.kind.task = .commerce → a.kind = b.kind → a.offer = b.offer → a.blocks →
    b.blocks → a = b

namespace OzonMove
open OzonStore

theorem insert_oneBlocking {s : OzonStore} {row : OzonOperation} (one : s.OneBlocking)
    (first : row.kind.task = .commerce → ∀ old ∈ s.operations, old.offer = row.offer → old.kind = row.kind → ¬ old.blocks) :
    (s.insert row).OneBlocking := by
  intro a a_mem b b_mem task kind offer a_blocks b_blocks
  rcases List.mem_append.mp a_mem with a_old | a_new
  · rcases List.mem_append.mp b_mem with b_old | b_new
    · exact one a a_old b b_old task kind offer a_blocks b_blocks
    · obtain rfl := List.mem_singleton.mp b_new
      exact absurd a_blocks (first (kind ▸ task) a a_old offer kind)
  · obtain rfl := List.mem_singleton.mp a_new
    rcases List.mem_append.mp b_mem with b_old | b_new
    · exact absurd b_blocks (first task b b_old offer.symm kind.symm)
    · exact (List.mem_singleton.mp b_new).symm

theorem written_oneBlocking {s : OzonStore} (one : s.OneBlocking) {rows : OfferRows} (held : s.Holds rows)
    {write : OzonWrite} {now : Instant}
    (found : rows.operation.kind.task = .commerce → rows.operation.blocks) : (s.written rows write now).OneBlocking := by
  have same := write.apply_same now rows
  intro a a_mem b b_mem task kind offer a_blocks b_blocks
  rcases (mem_written held).mp a_mem with rfl | ⟨a_old, a_other⟩
  · rw [same.kind] at task kind
    rw [same.offer] at offer
    rcases (mem_written held).mp b_mem with rfl | ⟨b_old, b_other⟩
    · rfl
    · have hit := one _ held.operation b b_old task kind offer (found task) b_blocks
      exact absurd (congrArg OzonOperation.pk hit.symm) b_other
  · rcases (mem_written held).mp b_mem with rfl | ⟨b_old, b_other⟩
    · rw [same.kind] at kind
      rw [same.offer] at offer
      have hit := one a a_old _ held.operation task kind offer a_blocks (found (kind ▸ task))
      exact absurd (congrArg OzonOperation.pk hit) a_other
    · exact one a a_old b b_old task kind offer a_blocks b_blocks

theorem part_oneBlocking {input : OzonInput} {draft : OzonOfferDraft} {kind : OzonOperationKind} {key : String}
    {s next : OzonStore} {result : Option OzonOperation} (part : CommercePart input draft kind key s next result)
    (one : s.OneBlocking) : next.OneBlocking := by
  cases part with
  | settled => exact one
  | found => exact one
  | created _ _ unblocked =>
    exact insert_oneBlocking one fun _ old mem offer kind blocks => blocks.2 (unblocked old mem offer kind blocks.1)

theorem oneBlocking {input : OzonInput} {s next : OzonStore} {w moved : OzonWorker} (sound : s.Sound)
    (placed : w.Placed s) (marked : w.Marked s) (move : OzonMove input s w next moved) (one : s.OneBlocking) :
    next.OneBlocking := by
  cases move with
  | reads => exact one
  | calls => exact one
  | writes held writes =>
    refine written_oneBlocking one held fun task => ?_
    rcases writes_commerce sound placed marked held writes task with queued | ⟨sending, -⟩
    · exact ⟨OzonOperation.active_of_state queued (by decide), by rw [queued]; decide⟩
    · exact ⟨OzonOperation.active_of_state sending (by decide), by rw [sending]; decide⟩
  | createImport => exact insert_oneBlocking one nofun
  | createArchive =>
    exact insert_oneBlocking one nofun
  | syncCommerce _ _ _ _ _ priced stocked => exact part_oneBlocking stocked (part_oneBlocking priced one)

end OzonMove

structure OzonCrew.Working (c : OzonCrew) : Prop where
  sound : c.Sound
  sender : c.OneSender
  blocking : c.store.OneBlocking

namespace OzonCrew

theorem Working.next {c : OzonCrew} (working : c.Working) (a : OzonAction) : (c.next a).Working := by
  refine ⟨working.sound.next a, working.sender.next working.sound a, ?_⟩
  have kept : c.Keeps OzonStore.OneBlocking fun _ _ => True := ⟨working.blocking, fun _ _ => trivial⟩
  refine (next_keeps working.sound kept a (fun _ => trivial) ?_).store
  rintro k _ w _ _ rfl found move
  have mem := List.mem_of_getElem? found
  have placed := working.sound.workers w mem
  have marked := working.sender.kept.workers w mem
  exact ⟨move.oneBlocking working.sound.store placed marked working.blocking, trivial, fun _ _ _ _ _ => trivial⟩

theorem run_working {c : OzonCrew} (working : c.Working) (actions : List OzonAction) :
    Working (run OzonCrew.next c actions) := by
  have step : ∀ (c : OzonCrew) (a : OzonAction), c.Working → (c.next a).Working := fun _ a working => working.next a
  exact run_always OzonCrew.next step working actions

theorem Working.idle {s : OzonStore} (fresh : s.Fresh) : Working s.idle where
  sound := .idle fresh
  sender := .idle
  blocking a mem := absurd (fresh.operations ▸ mem : a ∈ []) List.not_mem_nil

end OzonCrew

def OzonAction.At (time : Instant) : OzonAction → Prop
  | call _ => True
  | move _ input => input.now = time
  | crash _ => False

def OzonCrew.Reaches (time : Instant) (c next : OzonCrew) : Prop :=
  ∃ actions, (∀ a ∈ actions, OzonAction.At time a) ∧ run OzonCrew.next c actions = next

namespace OzonCrew.Reaches

theorem refl (time : Instant) (c : OzonCrew) : Reaches time c c :=
  ⟨[], fun _ mem => absurd mem List.not_mem_nil, rfl⟩

theorem trans {time : Instant} {a b c : OzonCrew} (first : Reaches time a b) (second : Reaches time b c) :
    Reaches time a c := by
  obtain ⟨before, early, rfl⟩ := first
  obtain ⟨after, late, rfl⟩ := second
  refine ⟨before ++ after, fun a mem => ?_, run_append _ _ _ _⟩
  rcases List.mem_append.mp mem with mem | mem
  · exact early a mem
  · exact late a mem

theorem call (time : Instant) (c : OzonCrew) (request : OzonCall) :
    Reaches time c { store := c.store, workers := c.workers ++ [request.worker] } :=
  ⟨[.call request], by simp [OzonAction.At], rfl⟩

theorem move {c : OzonCrew} {k : ℕ} {w : OzonWorker} (found : c.workers[k]? = some w) (input : OzonInput) :
    Reaches input.now c
      { store := (w.advance input c.store).1, workers := c.workers.set k (w.advance input c.store).2 } := by
  refine ⟨[.move k input], by simp [OzonAction.At], ?_⟩
  simp [OzonCrew.next, Crew.step, OzonAction.crewAction, found]

theorem working {time : Instant} {c next : OzonCrew} (reaches : Reaches time c next) (working : c.Working) :
    next.Working := by
  obtain ⟨actions, -, rfl⟩ := reaches
  exact run_working working actions

theorem forward {start time : Instant} {actions rest : List OzonAction} (early : start ≤ time)
    (once : ∀ a ∈ actions, OzonAction.At time a) (later : Forward time rest) : Forward start (actions ++ rest) := by
  induction actions generalizing start with
  | nil =>
    -- the rest may start earlier than it does
    have relax : ∀ (rest : List OzonAction) (start time : Instant), start ≤ time → Forward time rest → Forward start rest := by
      intro rest
      induction rest with
      | nil => intro _ _ _ _; trivial
      | cons a _ ih =>
        intro start time early later
        cases a with
        | call => exact ih start time early later
        | move => exact ⟨early.trans later.1, later.2⟩
        | crash => exact later
    exact relax rest start time early later
  | cons a actions ih =>
    have first := once a List.mem_cons_self
    have others : ∀ a ∈ actions, OzonAction.At time a := fun a mem => once a (List.mem_cons_of_mem _ mem)
    cases a with
    | call => exact ih early others
    | move _ input =>
      obtain rfl : input.now = time := first
      exact ⟨early, ih (le_refl _) others⟩
    | crash => cases first

end OzonCrew.Reaches

def OzonOfferDraft.synced (draft : OzonOfferDraft) : OzonRequest → OzonOfferDraft
  | .price item => { draft with lastSyncedPrice := some item.price }
  | .stock item => { draft with lastSyncedStock := some item.stock, lastStockWarehouseId := some item.warehouseId }
  | .product => draft

theorem OzonOfferDraft.Listed.synced {draft : OzonOfferDraft} (listed : draft.Listed) (request : OzonRequest) :
    (draft.synced request).Listed := by cases request <;> exact listed

@[simp] theorem OzonOfferDraft.synced_pk (draft : OzonOfferDraft) (request : OzonRequest) :
    (draft.synced request).pk = draft.pk := by cases request <;> rfl

def OzonWrite.syncs : OzonWrite → OzonRequest
  | commerceSucceeded request => request
  | _ => .product

theorem OzonWrite.apply_syncs {write : OzonWrite} (commerce : write.task = some .commerce) (now : Instant)
    (rows : OfferRows) : (write.apply now rows).draft = rows.draft.synced write.syncs := by
  cases write with
  | commerceError => rfl
  | commerceOutcome => rfl
  | commerceSucceeded request => cases request <;> rfl
  | _ => cases commerce

def OzonRequest.accepted : OzonRequest → UpdateResult
  | .price item => { offerId := item.offerId, warehouseId := none, updated := true, errors := [] }
  | .stock item => { offerId := item.offerId, warehouseId := some item.warehouseId, updated := true, errors := [] }
  | .product => { offerId := "", warehouseId := none, updated := true, errors := [] }

/-- A reading of a ready account with these new values, while the provider takes every update. -/
def OzonInput.accepting (now : Instant) (price : ℤ) (stock : ℕ) (request : OzonRequest) : OzonInput :=
  { OzonInput.silent now with finalPrice := some price, stockQty := stock, updateResults := .ok [request.accepted] }

theorem OzonCommerce.updateWrite_accepted (request : OzonRequest) :
    (updateWrite request (.ok [request.accepted])).syncs = request ∧
      ¬ (updateWrite request (.ok [request.accepted])).losesOutcome := by
  cases request with
  | price => simp [updateWrite, matchesRequest, OzonRequest.accepted, OzonWrite.syncs, OzonWrite.losesOutcome]
  | stock => simp [updateWrite, matchesRequest, OzonRequest.accepted, OzonWrite.syncs, OzonWrite.losesOutcome]
  | product => exact ⟨rfl, fun lost => lost⟩

namespace OzonStore

/-- From one store to the other these updates came to their end, and their offer has the synced values. -/
structure Ended (ended : Option OzonOperation) (request : OzonRequest) (s next : OzonStore) : Prop where
  active : ∀ row ∈ next.operations, row.active → row ∈ s.operations ∧ ∀ done ∈ ended, row.pk ≠ done.pk
  kept : ∀ row ∈ s.operations, (∀ done ∈ ended, row.pk ≠ done.pk) → row ∈ next.operations
  drafts : ∀ draft ∈ s.drafts, (∀ done ∈ ended, draft.pk = done.offer) → draft.synced request ∈ next.drafts
  keys : ∀ key, s.FreeKey key → next.FreeKey key

theorem Ended.none (s : OzonStore) : Ended none .product s s where
  active _ mem _ := ⟨mem, fun _ found => absurd found (Option.not_mem_none _)⟩
  kept _ mem _ := mem
  drafts _ mem _ := mem
  keys _ free := free

variable {rows : OfferRows}

theorem FreeKey.written {s : OzonStore} {key : String} (free : s.FreeKey key) (held : s.Holds rows)
    (write : OzonWrite) (now : Instant) : (s.written rows write now).FreeKey key := by
  intro row mem
  rcases (mem_written held).mp mem with rfl | ⟨old, -⟩
  · rw [(write.apply_same now rows).idempotencyKey]
    exact free _ held.operation
  · exact free row old

theorem Ended.written {s : OzonStore} (sound : s.Sound) (held : s.Holds rows) {write : OzonWrite}
    (commerce : write.task = some .commerce) (known : ¬ write.losesOutcome) (now : Instant) :
    Ended (some rows.operation) write.syncs s (s.written rows write now) where
  active row mem active := by
    rcases (mem_written held).mp mem with rfl | ⟨old, other⟩
    · exact absurd active (OzonWrite.apply_ended commerce known now rows)
    · refine ⟨old, ?_⟩
      rintro _ ⟨⟩
      exact other
  kept row mem other := (mem_written held).mpr (.inr ⟨mem, other _ rfl⟩)
  drafts draft mem offer := by
    have one : draft = rows.draft :=
      row_unique sound.offers mem held.draft ((offer _ rfl).trans held.offer.symm)
    rw [one, ← OzonWrite.apply_syncs commerce now rows]
    exact (mem_written_drafts held).mpr (.inl rfl)
  keys key free := free.written held write now

theorem Ended.marked {s next : OzonStore} (sound : s.Sound) (held : s.Holds rows) {now : Instant}
    {request : OzonRequest}
    (ended : Ended (some (OzonWrite.markSending.apply now rows).operation) request (s.written rows .markSending now)
      next) : Ended (some rows.operation) request s next where
  active row mem active := by
    obtain ⟨old, other⟩ := ended.active row mem active
    have apart : row.pk ≠ rows.operation.pk := other (OzonWrite.markSending.apply now rows).operation rfl
    refine ⟨?_, fun done found => Option.some.inj found ▸ apart⟩
    rcases (mem_written held).mp old with rfl | ⟨before, -⟩
    · exact absurd rfl apart
    · exact before
  kept row mem other := by
    have apart : row.pk ≠ rows.operation.pk := other rows.operation rfl
    refine ended.kept row ((mem_written held).mpr (.inr ⟨mem, apart⟩)) fun done found => ?_
    rw [← Option.some.inj found]
    exact apart
  drafts draft mem offer := by
    have here : draft.pk = rows.operation.offer := offer rows.operation rfl
    obtain rfl : draft = rows.draft := row_unique sound.offers mem held.draft (here.trans held.offer.symm)
    refine ended.drafts rows.draft ((mem_written_drafts held).mpr (.inl rfl)) fun done found => ?_
    rw [← Option.some.inj found]
    exact here
  keys key free := ended.keys key (free.written held .markSending now)

theorem Ended.recorded {s next : OzonStore} {ended : Option OzonOperation} {request : OzonRequest}
    {events : List OzonEvent} (done : Ended ended request (s.record events) next) : Ended ended request s next :=
  ⟨done.active, done.kept, done.drafts, done.keys⟩

end OzonStore

namespace OzonCrew
open OzonStore

variable {c : OzonCrew}

theorem answer_reaches (sound : c.store.Sound) {k : ℕ} {left rows : OfferRows} {write : OzonWrite}
    {after : AfterWrite} (found : c.workers[k]? = some (.answered left write after)) (held : c.store.Holds rows)
    (same : rows.operation.pk = left.operation.pk) (now : Instant) :
    Reaches now c
      { store := c.store.written rows write now, workers := c.workers.set k (after.worker (write.apply now rows)) } := by
  have moved := Reaches.move found (.silent now)
  have made : OzonWorker.writeAnswer left write after now c.store =
      .ok (c.store.written rows write now, after.worker (write.apply now rows)) := by
    rw [OzonWorker.writeAnswer, ← same, persist_holds sound held]
    rfl
  rw [OzonWorker.advance, show (OzonInput.silent now).now = now from rfl, made] at moved
  exact moved

theorem send_reaches (sound : c.store.Sound) {k : ℕ} {left rows : OfferRows} {request : OzonRequest}
    {pending : List Uuid} (found : c.workers[k]? = some (.sendCommerce left request pending)) (held : c.store.Holds rows)
    (same : rows.operation.pk = left.operation.pk) (now : Instant) :
    ∃ s, Reaches now c { store := s, workers := c.workers.set k (.submitCommerce pending) } ∧
      Ended (some rows.operation) request c.store s := by
  let write := OzonCommerce.updateWrite request (.ok [request.accepted])
  let events := OzonCommerce.updateEvents left.operation.pk (.ok [request.accepted]) request
  let called : OzonCrew :=
    { store := c.store.record events, workers := c.workers.set k (.answered left write (.submitCommerce pending)) }
  have sent : Reaches now c called := Reaches.move found (.accepting now 1 0 request)
  have answered : called.workers[k]? = some (.answered left write (.submitCommerce pending)) := by
    simp [called, (List.getElem?_eq_some_iff.mp found).1]
  have held : called.store.Holds rows := ⟨held.operation, held.draft, held.offer⟩
  have wrote := answer_reaches (c := called) (sound.record events) answered held same now
  obtain ⟨syncs, known⟩ := OzonCommerce.updateWrite_accepted request
  refine ⟨called.store.written rows write now, sent.trans ?_, ?_⟩
  · have last : called.workers.set k (AfterWrite.worker (write.apply now rows) (.submitCommerce pending)) =
        c.workers.set k (.submitCommerce pending) := List.set_set _
    rw [← last]
    exact wrote
  · have ended := Ended.written (sound.record events) held (OzonMove.updateWrite_task request _) known now
    rw [syncs] at ended
    exact ended.recorded

theorem deliver_reaches (sound : c.store.Sound) {k : ℕ} {update : Option OzonOperation}
    {pending : List Uuid}
    (found : c.workers[k]? = some (.submitCommerce (update.toList.map OzonOperation.pk ++ pending)))
    (waits : ∀ row ∈ update, row ∈ c.store.operations ∧ row.state = .queued) (now : Instant) :
    ∃ s, Reaches now c { store := s, workers := c.workers.set k (.submitCommerce pending) } ∧
      Ended update (update.elim .product OzonOperation.requestSummary) c.store s := by
  cases update with
  | none =>
    have same : c.workers.set k (.submitCommerce pending) = c.workers := by
      obtain ⟨_, here⟩ := List.getElem?_eq_some_iff.mp found
      have itself : OzonWorker.submitCommerce pending = c.workers[k] := here.symm
      rw [itself, List.set_getElem_self]
    refine ⟨c.store, ?_, .none c.store⟩
    rw [same]
    exact .refl now c
  | some row =>
    obtain ⟨mem, queued⟩ := waits row rfl
    obtain ⟨draft, held⟩ := sound.holds mem
    let rows : OfferRows := ⟨row, draft⟩
    let left := OzonWrite.markSending.apply now rows
    have made : OzonCommerce.submitCommerceOperation row.pk pending (.silent now) c.store =
        .ok (c.store.written rows .markSending now, .sendCommerce left row.requestSummary pending) := by
      have performed := persist_holds sound held .markSending now
      simp only [OzonCommerce.submitCommerceOperation, bind_ok, orRaise_ok]
      refine ⟨row, operation?_of_mem sound.pks mem, ?_⟩
      rw [if_neg (not_not.mpr queued)]
      simp only [OzonInput.silent, OzonAccountView.ready, bind_ok, Prod.exists, pure_ok]
      exact ⟨_, _, performed, rfl⟩
    let marked : OzonCrew :=
      { store := c.store.written rows .markSending now
        workers := c.workers.set k (.sendCommerce left row.requestSummary pending) }
    have first : Reaches now c marked := by
      have moved := Reaches.move found (.silent now)
      have step : (OzonWorker.submitCommerce (row.pk :: pending)).advance (.silent now) c.store =
          (c.store.written rows .markSending now, .sendCommerce left row.requestSummary pending) := by
        rw [OzonWorker.advance, made, OzonWorker.settle]
      simp only [Option.toList_some, List.map_cons, List.map_nil, List.cons_append, List.nil_append, step] at moved
      exact moved
    have sending : marked.workers[k]? = some (.sendCommerce left row.requestSummary pending) := by
      simp [marked, (List.getElem?_eq_some_iff.mp found).1]
    obtain ⟨s, sent, ended⟩ := send_reaches (c := marked) (sound.written held .markSending now) sending
      (holds_written held .markSending now) rfl now
    have last : marked.workers.set k (.submitCommerce pending) = c.workers.set k (.submitCommerce pending) :=
      List.set_set _
    rw [last] at sent
    exact ⟨s, first.trans sent, ended.marked sound held⟩

theorem finish_reaches (sound : c.store.Sound) {row : OzonOperation} (mem : row ∈ c.store.operations)
    {w : OzonWorker} (working : w ∈ c.workers) (finishes : w.Finishes row.pk) (now : Instant) :
    ∃ next request, Reaches now c next ∧ Ended (some row) request c.store next.store ∧
      ∀ pk ≠ row.pk, ∀ v ∈ c.workers, v.Finishes pk → v ∈ next.workers := by
  obtain ⟨k, found⟩ := List.mem_iff_getElem?.mp working
  obtain ⟨_, held⟩ := sound.holds mem
  -- every other update has another worker
  have others {moved : OzonWorker} : ∀ pk ≠ row.pk, ∀ v ∈ c.workers, v.Finishes pk → v ∈ c.workers.set k moved := by
    intro pk apart v v_mem holds
    obtain ⟨j, at_j⟩ := List.mem_iff_getElem?.mp v_mem
    have elsewhere : k ≠ j := by
      rintro rfl
      obtain rfl : v = w := Option.some.inj (at_j.symm.trans found)
      cases v with
      | sendCommerce => exact apart (holds.symm.trans finishes)
      | answered => exact apart (holds.2.1.symm.trans finishes.2.1)
      | _ => cases holds
    exact List.mem_iff_getElem?.mpr ⟨j, by rw [List.getElem?_set_ne elsewhere, at_j]⟩
  cases w with
  | sendCommerce _ request =>
    obtain ⟨s, sent, ended⟩ := send_reaches sound found held finishes.symm now
    exact ⟨_, request, sent, ended, others⟩
  | answered _ write =>
    obtain ⟨commerce, here, known⟩ := finishes
    exact ⟨_, write.syncs, answer_reaches sound found held here.symm now, Ended.written sound held commerce known now,
      others⟩
  | _ => cases finishes

end OzonCrew

namespace OzonStore

def Calm (s : OzonStore) (offer : Uuid) : Prop :=
  ∀ row ∈ s.operations, row.offer = offer → row.kind.task = .commerce → row.active → row.state = .queued

structure Ready (s : OzonStore) (offer : Uuid) (keys : List String) : Prop where
  listed : ∃ draft ∈ s.drafts, draft.pk = offer ∧ draft.Listed
  free : ∀ key ∈ keys, s.FreeKey key

theorem Ready.ended {s next : OzonStore} {offer : Uuid} {keys : List String} (ready : s.Ready offer keys)
    {row : OzonOperation} {request : OzonRequest} (here : row.offer = offer) (ended : Ended (some row) request s next) :
    next.Ready offer keys where
  listed := by
    obtain ⟨draft, mem, pk, listed⟩ := ready.listed
    refine ⟨draft.synced request, ended.drafts draft mem fun done found => ?_, ?_, listed.synced request⟩
    · rw [← Option.some.inj found, here, pk]
    · rw [draft.synced_pk, pk]
  free key mem := ended.keys key (ready.free key mem)

end OzonStore

namespace OzonCrew
open OzonStore

theorem settle_reaches {c : OzonCrew} (working : c.Working) {offer : Uuid} {keys : List String}
    (ready : c.store.Ready offer keys) (kept : ¬ c.LocksOut offer) (kind : OzonOperationKind)
    (commerce : kind.task = .commerce) (now : Instant) :
    ∃ next, Reaches now c next ∧ next.store.Ready offer keys ∧ ¬ next.LocksOut offer ∧
      (∀ row ∈ next.store.operations, row.offer = offer → row.kind = kind → row.active → row.state = .queued) ∧
      ∀ row ∈ next.store.operations, row.active → row ∈ c.store.operations := by
  have going {row : OzonOperation} (mem : row ∈ c.store.operations) (here : row.offer = offer)
      (task : row.kind.task = .commerce) (active : row.active) (sent : row.state ≠ .queued) :
      row.state = .sending ∧ ∃ w ∈ c.workers, w.Finishes row.pk := by
    by_contra lost
    exact kept ⟨row, mem, here, task, active, sent, lost⟩
  by_cases marked : ∃ row ∈ c.store.operations, row.offer = offer ∧ row.kind = kind ∧ row.state = .sending
  · obtain ⟨row, mem, here, rfl, sending⟩ := marked
    have active : row.active := show OzonOperationState.active _ by rw [sending]; decide
    obtain ⟨-, w, w_mem, finishes⟩ := going mem here commerce active (by rw [sending]; decide)
    obtain ⟨next, _, reached, ended, others⟩ := finish_reaches working.sound.store mem w_mem finishes now
    refine ⟨next, reached, ready.ended here ended, ?_, ?_, fun row mem active => (ended.active row mem active).1⟩
    · rintro ⟨other, other_mem, at_offer, task, running, sent, lost⟩
      obtain ⟨old, apart⟩ := ended.active other other_mem running
      obtain ⟨going, v, v_mem, holds⟩ := going old at_offer task running sent
      exact lost ⟨going, v, others other.pk (apart row rfl) v v_mem holds, holds⟩
    · intro other other_mem at_offer same running
      obtain ⟨old, apart⟩ := ended.active other other_mem running
      by_contra sent
      have task : other.kind.task = .commerce := by rw [same, commerce]
      obtain ⟨also, -⟩ := going old at_offer task running sent
      have one := working.blocking row mem other old commerce same.symm (here.trans at_offer.symm)
        ⟨active, by rw [sending]; decide⟩ ⟨running, by rw [also]; decide⟩
      exact apart row rfl (congrArg OzonOperation.pk one.symm)
  · refine ⟨c, .refl now c, ready, kept, fun row mem here same active => ?_, fun row mem _ => mem⟩
    by_contra sent
    have task : row.kind.task = .commerce := by rw [same, commerce]
    exact marked ⟨row, mem, here, same, (going mem here task active sent).1⟩

theorem calm_reaches {c : OzonCrew} (working : c.Working) {offer : Uuid} {keys : List String}
    (ready : c.store.Ready offer keys) (kept : ¬ c.LocksOut offer) (now : Instant) :
    ∃ next, Reaches now c next ∧ next.store.Ready offer keys ∧ next.store.Calm offer := by
  obtain ⟨_, first, ready, kept, prices, -⟩ := settle_reaches working ready kept .priceUpdate rfl now
  obtain ⟨next, second, ready, -, stocks, old⟩ :=
    settle_reaches (first.working working) ready kept .stockUpdate rfl now
  refine ⟨next, first.trans second, ready, fun row mem here task active => ?_⟩
  rcases commerce_kind.mp task with price | stock
  · exact prices row (old row mem active) here price active
  · exact stocks row mem here stock active

end OzonCrew

namespace OzonCommerce
open OzonStore

/-- What a part of the synchronisation does with a free key when no limit holds it. -/
inductive PartMade (draft : OzonOfferDraft) (kind : OzonOperationKind) (key : String) (request : OzonRequest)
    (wanted : Prop) (now : Instant) (s : OzonStore) : OzonStore → Option OzonOperation → Prop
  | settled (unblocked : blocking? s draft.pk kind now = none) (unwanted : ¬ wanted) :
    PartMade draft kind key request wanted now s s none
  | blocked (row : OzonOperation) (found : blocking? s draft.pk kind now = some row) :
    PartMade draft kind key request wanted now s s (some row)
  | created (unblocked : blocking? s draft.pk kind now = none) (wants : wanted) :
    PartMade draft kind key request wanted now s
      (s.insert (OzonOperation.create s.nextPk draft.pk kind key "" request now))
      (some (OzonOperation.create s.nextPk draft.pk kind key "" request now))

variable {s : OzonStore} {key : String}

theorem existing?_none (free : s.FreeKey key) : s.existing? key = none :=
  List.find?_eq_none.mpr fun row mem => by simpa using free row mem

theorem insert?_free {row : OzonOperation} (free : s.FreeKey row.idempotencyKey) :
    s.insert? row = some (s.insert row) := by
  have unused : ¬ s.operations.any (fun old => old.idempotencyKey = row.idempotencyKey) = true := by
    intro taken
    obtain ⟨old, mem, same⟩ := List.any_eq_true.mp taken
    exact free old mem (of_decide_eq_true same)
  rw [insert?, if_neg unused, OzonStore.insert]

variable {kind : OzonOperationKind} {draft : OzonOfferDraft} {request : OzonRequest} {now : Instant} {wanted : Prop}

theorem partMade_of {limited : Except OzonErrorCode Unit} [Decidable wanted]
    (free : s.FreeKey key) (unlimited : limited = .ok ()) :
    ∃ next result, (do
        let found ← existingOrActive s draft kind key now
        if found = none ∧ wanted then do
          let _ ← limited
          let (s, operation) ← newOperation s draft kind key request now
          pure (s, some operation)
        else pure (s, found) : Except OzonErrorCode (OzonStore × Option OzonOperation)) = .ok (next, result) ∧
      PartMade draft kind key request wanted now s next result := by
  have looked : existingOrActive s draft kind key now = .ok (blocking? s draft.pk kind now) := by
    rw [existingOrActive, existing?_none free]
    rfl
  have made : newOperation s draft kind key request now =
      .ok (s.insert (OzonOperation.create s.nextPk draft.pk kind key "" request now),
        OzonOperation.create s.nextPk draft.pk kind key "" request now) := by
    have inserted : s.insert? (OzonOperation.create s.nextPk draft.pk kind key "" request now) =
        some (s.insert (OzonOperation.create s.nextPk draft.pk kind key "" request now)) := insert?_free free
    simp only [newOperation, inserted]
    rfl
  cases found : blocking? s draft.pk kind now with
  | some row =>
    refine ⟨s, some row, ?_, .blocked row found⟩
    simp only [bind_ok]
    refine ⟨some row, looked.trans (congrArg _ found), ?_⟩
    rw [if_neg (fun both => absurd both.1 (Option.some_ne_none row))]
    rfl
  | none =>
    by_cases wants : wanted
    · refine ⟨_, _, ?_, .created found wants⟩
      simp only [bind_ok]
      refine ⟨none, looked.trans (congrArg _ found), ?_⟩
      rw [if_pos ⟨rfl, wants⟩]
      simp only [bind_ok, Prod.exists, pure_ok]
      exact ⟨(), unlimited, _, _, made, rfl⟩
    · refine ⟨s, none, ?_, .settled found wants⟩
      simp only [bind_ok]
      refine ⟨none, looked.trans (congrArg _ found), ?_⟩
      rw [if_neg (fun both => wants both.2)]
      rfl

def Rested (s : OzonStore) (now : Instant) : Prop :=
  ∀ row ∈ s.operations, ∀ attempt ∈ row.lastAttemptAt, attempt < now - hour

theorem attemptsSince_quiet {now since : Instant} (quiet : Rested s now) (late : now - hour ≤ since)
    (offer : Uuid) (kind : OzonOperationKind) : attemptsSince s offer kind since = [] := by
  refine List.filter_eq_nil_iff.mpr fun row mem sent => ?_
  obtain ⟨attempt, at_row, recent⟩ := of_decide_eq_true sent
  exact absurd (late.trans recent) (not_le.mpr (quiet row (mem_offerOperations.mp mem).1 attempt at_row))

variable {result : Option OzonOperation}

theorem PartMade.keys {key other : String} {s next : OzonStore}
    (part : PartMade draft kind key request wanted now s next result) (apart : key ≠ other) (free : s.FreeKey other) :
    next.FreeKey other := by
  cases part with
  | settled => exact free
  | blocked => exact free
  | created =>
    intro row mem
    rcases List.mem_append.mp mem with old | new
    · exact free row old
    · rw [List.mem_singleton.mp new]
      exact apart

theorem PartMade.quiet {now time : Instant} {s next : OzonStore}
    (part : PartMade draft kind key request wanted now s next result) (quiet : Rested s time) : Rested next time := by
  cases part with
  | settled => exact quiet
  | blocked => exact quiet
  | created =>
    intro row mem
    rcases List.mem_append.mp mem with old | new
    · exact quiet row old
    · rw [List.mem_singleton.mp new]
      exact fun _ sent => absurd sent (Option.not_mem_none _)

theorem PartMade.drafts {s next : OzonStore}
    (part : PartMade draft kind key request wanted now s next result) : next.drafts = s.drafts := by
  cases part <;> rfl

theorem blocking?_active {offer : Uuid} {row : OzonOperation}
    (found : blocking? s offer kind now = some row) : row.active := by
  simp only [blocking?] at found
  split at found
  next latest =>
    cases found
    have listed := (List.mem_filter.mp (latest?_mem latest)).2
    exact (of_decide_eq_true listed).1
  next =>
    have listed := (List.mem_filter.mp (latest?_mem found)).2
    have unknown := (of_decide_eq_true listed).1
    show OzonOperationState.active _
    rw [unknown]
    decide

theorem blocking?_idle {offer : Uuid}
    (idle : ¬ OzonLifecycle.commerceActive s offer) (commerce : kind.task = .commerce) (now : Instant) :
    blocking? s offer kind now = none := by
  cases found : blocking? s offer kind now with
  | none => rfl
  | some row =>
    obtain ⟨mem, here, rfl⟩ := blocking?_some found
    exact absurd ⟨row, mem, here, commerce_kind.mp commerce, blocking?_active found⟩ idle

section Parts

variable {draft : OzonOfferDraft} {kind : OzonOperationKind} {key : String} {request : OzonRequest} {wanted : Prop}
  {now : Instant} {s next : OzonStore} {result : Option OzonOperation}

variable {row : OzonOperation}

theorem PartMade.kept (part : PartMade draft kind key request wanted now s next result)
    (mem : row ∈ s.operations) : row ∈ next.operations := by
  cases part with
  | settled => exact mem
  | blocked => exact mem
  | created => exact List.mem_append_left _ mem

theorem PartMade.old (part : PartMade draft kind key request wanted now s next result)
    (mem : row ∈ next.operations) (other : row.kind ≠ kind) : row ∈ s.operations := by
  cases part with
  | settled => exact mem
  | blocked => exact mem
  | created =>
    rcases List.mem_append.mp mem with old | new
    · exact old
    · exact absurd (congrArg OzonOperation.kind (List.mem_singleton.mp new)) other

theorem PartMade.calm (part : PartMade draft kind key request wanted now s next result) {offer : Uuid}
    (calm : s.Calm offer) : next.Calm offer := by
  cases part with
  | settled => exact calm
  | blocked => exact calm
  | created =>
    intro row mem here task active
    rcases List.mem_append.mp mem with old | new
    · exact calm row old here task active
    · rw [List.mem_singleton.mp new]
      rfl

theorem PartMade.oneBlocking (part : PartMade draft kind key request wanted now s next result) (one : s.OneBlocking) :
    next.OneBlocking := by
  cases part with
  | settled => exact one
  | blocked => exact one
  | created unblocked =>
    exact OzonMove.insert_oneBlocking one fun _ old mem offer same blocks =>
      blocks.2 (blocking?_none unblocked mem offer same blocks.1)

theorem PartMade.waits (part : PartMade draft kind key request wanted now s next result)
    (commerce : kind.task = .commerce) (calm : s.Calm draft.pk) (chosen : row ∈ result) :
    row ∈ next.operations ∧ row.state = .queued ∧ row.kind = kind ∧ row.offer = draft.pk := by
  cases part with
  | settled => cases chosen
  | blocked _ found =>
    cases chosen
    obtain ⟨mem, offer, same⟩ := blocking?_some found
    exact ⟨mem, calm row mem offer (same ▸ commerce) (blocking?_active found), same, offer⟩
  | created =>
    cases chosen
    exact ⟨List.mem_append_right _ (List.mem_singleton_self _), rfl, rfl, rfl⟩

theorem PartMade.covers (part : PartMade draft kind key request wanted now s next result)
    (commerce : kind.task = .commerce) (calm : s.Calm draft.pk) (one : s.OneBlocking)
    (mem : row ∈ next.operations) (here : row.offer = draft.pk) (same : row.kind = kind) (active : row.active) :
    row ∈ result := by
  have known {other : OzonOperation} (other_mem : other ∈ s.operations) (offer : other.offer = draft.pk)
      (kept : other.kind = kind) (running : other.active) : other.blocks := by
    have queued := calm other other_mem offer (kept ▸ commerce) running
    exact ⟨running, by rw [queued]; decide⟩
  have idle (unblocked : blocking? s draft.pk kind now = none) (old : row ∈ s.operations) : False :=
    (known old here same active).2 (blocking?_none unblocked old here same active)
  cases part with
  | settled unblocked => exact (idle unblocked mem).elim
  | blocked other found =>
    obtain ⟨other_mem, offer, kept⟩ := blocking?_some found
    have blocks := known other_mem offer kept (blocking?_active found)
    have hit := one row mem other other_mem (same ▸ commerce) (same.trans kept.symm) (here.trans offer.symm)
      (known mem here same active) blocks
    rw [hit]
    rfl
  | created unblocked =>
    rcases List.mem_append.mp mem with old | new
    · exact (idle unblocked old).elim
    · rw [List.mem_singleton.mp new]
      rfl

theorem PartMade.sends (part : PartMade draft kind key request wanted now s next result)
    (unblocked : blocking? s draft.pk kind now = none) :
    (¬ wanted ∧ result.elim .product OzonOperation.requestSummary = .product) ∨
      result.elim .product OzonOperation.requestSummary = request := by
  cases part with
  | settled _ unwanted => exact .inl ⟨unwanted, rfl⟩
  | blocked _ found => cases unblocked.symm.trans found
  | created => exact .inr rfl

end Parts

theorem suffix_ne {key other a b : String} (apart : a ≠ b) (same : a.length = b.length) : key ++ a ≠ other ++ b := by
  intro equal
  have lists : key.toList ++ a.toList = other.toList ++ b.toList := by
    rw [← String.toList_append, ← String.toList_append, equal]
  exact apart (String.toList_inj.mp (List.append_inj_right' lists (by rw [String.length_toList, String.length_toList, same])))

theorem syncOfferCommerce_made (sound : s.Sound) (mem : draft ∈ s.drafts)
    (listed : draft.Listed) (valid : key ≠ "" ∧ key.length ≤ 90) (price_free : s.FreeKey (key ++ ":price"))
    (stock_free : s.FreeKey (key ++ ":stock")) (quiet : Rested s now) {price : ℤ} (positive : 0 < price)
    (stock : ℕ) :
    ∃ between next priced stocked productId,
      PartMade draft .priceUpdate (key ++ ":price") (.price ⟨draft.offerId, productId, price⟩)
        (draft.lastSyncedPrice ≠ some price) now s between priced ∧
      PartMade draft .stockUpdate (key ++ ":stock") (.stock ⟨draft.offerId, productId, stock, 42⟩)
        (¬ (draft.lastSyncedStock = some stock ∧ draft.lastStockWarehouseId = some 42)) now between next stocked ∧
      syncOfferCommerce draft.pk key (.accepting now price stock .product) s =
        .ok (next, .submitCommerce ((priced.toList ++ stocked.toList).map OzonOperation.pk)) := by
  obtain ⟨published, id, known, offered⟩ := listed
  let input := OzonInput.accepting now price stock .product
  have made : ∃ between priced, priceOperation draft (key ++ ":price") id price input s = .ok (between, priced) ∧
      PartMade draft .priceUpdate (key ++ ":price") (.price ⟨draft.offerId, id, price⟩)
        (draft.lastSyncedPrice ≠ some price) now s between priced := by
    refine partMade_of price_free ?_
    have unsent := attemptsSince_quiet quiet (le_refl (now - hour)) draft.pk .priceUpdate
    rw [raiseIf_ok, show input.now = now from rfl, unsent]
    decide
  obtain ⟨between, priced, price_step, price_part⟩ := made
  have stock_free : between.FreeKey (key ++ ":stock") := price_part.keys (suffix_ne (by decide) (by decide)) stock_free
  have made : ∃ next stocked, stockOperation draft (key ++ ":stock") id 42 stock input between = .ok (next, stocked) ∧
      PartMade draft .stockUpdate (key ++ ":stock") (.stock ⟨draft.offerId, id, stock, 42⟩)
        (¬ (draft.lastSyncedStock = some stock ∧ draft.lastStockWarehouseId = some 42)) now between next stocked := by
    refine partMade_of stock_free ?_
    have shorter : now - hour ≤ input.now - stockMinInterval := Int.sub_le_sub_left (by decide) now
    rw [raiseIf_ok, attemptsSince_quiet (price_part.quiet quiet) shorter]
    exact not_not.mpr rfl
  obtain ⟨next, stocked, stock_step, stock_part⟩ := made
  refine ⟨between, next, priced, stocked, id, price_part, stock_part, ?_⟩
  have valid_key : OzonPublication.requireKey key 90 = .ok () := by
    simpa [OzonPublication.requireKey, raiseIf_ok] using valid
  have admitted : requireCommerceAdmission OzonAccountView.ready draft = .ok (id, 42) := by
    simp only [requireCommerceAdmission, bind_ok, raiseIf_ok, orRaise_ok, pure_ok]
    refine ⟨(), by decide, (), by decide, 42, rfl, (), not_not.mpr published, id, ?_, rfl⟩
    simp [offered, known]
  simp only [syncOfferCommerce, bind_ok, raiseIf_ok, orRaise_ok, Prod.exists, pure_ok]
  exact ⟨(), valid_key, draft, draft?_of_mem sound.offers mem, id, 42, admitted, price, rfl, (), not_le.mpr positive, (),
    by decide, between, priced, price_step, next, stocked, stock_step, rfl⟩

end OzonCommerce

namespace OzonCrew
open OzonStore OzonCommerce

theorem sync_reaches {c : OzonCrew} (working : c.Working) {offer : Uuid} {key : String} {rest : List String}
    (ready : c.store.Ready offer ((key ++ ":price") :: (key ++ ":stock") :: rest)) (calm : c.store.Calm offer)
    (valid : key ≠ "" ∧ key.length ≤ 90) (apart : ∀ other ∈ rest, key ++ ":price" ≠ other ∧ key ++ ":stock" ≠ other)
    {now : Instant} (quiet : Rested c.store now) {price : ℤ} (positive : 0 < price) (stock : ℕ) :
    ∃ next, Reaches now c next ∧ next.store.Ready offer rest ∧ ¬ OzonLifecycle.commerceActive next.store offer ∧
      (¬ OzonLifecycle.commerceActive c.store offer → next.store.Unlocked offer price stock) := by
  obtain ⟨draft, mem, rfl, listed⟩ := ready.listed
  have price_free := ready.free _ List.mem_cons_self
  have stock_free := ready.free _ (List.mem_cons_of_mem _ List.mem_cons_self)
  obtain ⟨between, opened, priced, stocked, id, price_part, stock_part, step⟩ :=
    syncOfferCommerce_made working.sound.store mem listed valid price_free stock_free quiet positive stock
  -- the call and its first transaction
  let k := c.workers.length
  let called : OzonCrew := { store := c.store, workers := c.workers ++ [.syncOfferCommerce draft.pk key] }
  have begun : Reaches now c called := .call now c (.syncOfferCommerce draft.pk key)
  have at_k : called.workers[k]? = some (.syncOfferCommerce draft.pk key) := by simp [called, k]
  let sync : OzonCrew :=
    { store := opened
      workers := called.workers.set k
        (.submitCommerce (priced.toList.map OzonOperation.pk ++ (stocked.toList.map OzonOperation.pk ++ []))) }
  have opens : Reaches now called sync := by
    have moved : Reaches now called _ := Reaches.move at_k (.accepting now price stock .product)
    rw [OzonWorker.advance, step, OzonWorker.settle, List.map_append] at moved
    simpa only [sync, List.append_nil] using moved
  have working_sync := (begun.trans opens).working working
  have small : k < called.workers.length := by simp [called, k]
  -- the price
  have calm_between := price_part.calm calm
  have price_waits {row : OzonOperation} (chosen : row ∈ priced) := price_part.waits rfl calm chosen
  have stock_waits {row : OzonOperation} (chosen : row ∈ stocked) := stock_part.waits rfl calm_between chosen
  have found : sync.workers[k]? = some (.submitCommerce (priced.toList.map OzonOperation.pk ++
      (stocked.toList.map OzonOperation.pk ++ []))) := by simp [sync, small]
  obtain ⟨paid, sent_price, price_ended⟩ := deliver_reaches working_sync.sound.store found
    (fun row chosen => ⟨stock_part.kept (price_waits chosen).1, (price_waits chosen).2.1⟩) now
  let priceSent : OzonCrew :=
    { store := paid
      workers := sync.workers.set k (.submitCommerce (stocked.toList.map OzonOperation.pk ++ [])) }
  have reached_price : Reaches now c priceSent := (begun.trans opens).trans sent_price
  have working_price := reached_price.working working
  -- the stock
  have found : priceSent.workers[k]? = some (.submitCommerce (stocked.toList.map OzonOperation.pk ++ [])) := by
    simp [priceSent, sync, small]
  have stock_kept (row : OzonOperation) (chosen : row ∈ stocked) : row ∈ paid.operations ∧ row.state = .queued := by
    obtain ⟨row_mem, queued, kind, -⟩ := stock_waits chosen
    refine ⟨price_ended.kept row row_mem fun done paid_for same => ?_, queued⟩
    obtain ⟨done_mem, -, price_kind, -⟩ := price_waits paid_for
    have one := row_unique working_sync.sound.store.pks row_mem (stock_part.kept done_mem) same
    rw [one, price_kind] at kind
    cases kind
  obtain ⟨final, sent_stock, stock_ended⟩ := deliver_reaches working_price.sound.store found stock_kept now
  have draft_opened : draft ∈ opened.drafts := by
    rw [stock_part.drafts, price_part.drafts]
    exact mem
  have draft_paid := price_ended.drafts draft draft_opened fun done chosen => (price_waits chosen).2.2.2.symm
  have draft_final := stock_ended.drafts _ draft_paid fun done chosen => by
    rw [draft.synced_pk]
    exact (stock_waits chosen).2.2.2.symm
  have settled : ¬ OzonLifecycle.commerceActive final draft.pk := by
    rintro ⟨row, row_mem, here, kind, active⟩
    obtain ⟨in_paid, other_stock⟩ := stock_ended.active row row_mem active
    obtain ⟨in_opened, other_price⟩ := price_ended.active row in_paid active
    rcases kind with kind | kind
    · have in_between := stock_part.old in_opened (by rw [kind]; decide)
      exact other_price row (price_part.covers rfl calm working.blocking in_between here kind active) rfl
    · exact other_stock row
        (stock_part.covers rfl calm_between (price_part.oneBlocking working.blocking) in_opened here kind active) rfl
  refine ⟨_, reached_price.trans sent_stock, ⟨⟨_, draft_final, ?_, (listed.synced _).synced _⟩, ?_⟩, settled, ?_⟩
  · rw [OzonOfferDraft.synced_pk, OzonOfferDraft.synced_pk]
  · intro other other_mem
    have free := ready.free other (List.mem_cons_of_mem _ (List.mem_cons_of_mem _ other_mem))
    obtain ⟨price_apart, stock_apart⟩ := apart other other_mem
    exact stock_ended.keys _ (price_ended.keys _ (stock_part.keys stock_apart (price_part.keys price_apart free)))
  · intro idle
    have price_free := price_part.sends (blocking?_idle idle rfl now)
    have stock_free : blocking? between draft.pk .stockUpdate now = none := by
      cases found : blocking? between draft.pk .stockUpdate now with
      | none => rfl
      | some row =>
        obtain ⟨row_mem, here, kind⟩ := blocking?_some found
        have old := price_part.old row_mem (by rw [kind]; decide)
        exact absurd ⟨row, old, here, .inr kind, blocking?_active found⟩ idle
    refine ⟨⟨_, draft_final, ?_, ?_, ?_⟩, settled⟩
    · rw [OzonOfferDraft.synced_pk, OzonOfferDraft.synced_pk]
    · rcases stock_part.sends stock_free with ⟨-, stock_sent⟩ | stock_sent <;> rw [stock_sent]
      all_goals
        rcases price_free with ⟨unwanted, price_sent⟩ | price_sent <;> rw [price_sent]
        · exact not_not.mp unwanted
        · rfl
    · rcases stock_part.sends stock_free with ⟨unwanted, stock_sent⟩ | stock_sent <;> rw [stock_sent]
      · rcases price_free with ⟨-, price_sent⟩ | price_sent <;> rw [price_sent]
        · exact (not_not.mp unwanted).1
        · exact (not_not.mp unwanted).1
      · rfl

theorem quiet_later (s : OzonStore) (time : Instant) : ∃ now, time ≤ now ∧ Rested s now := by
  have bounded : ∀ rows : List OzonOperation, ∃ now, time ≤ now ∧
      ∀ row ∈ rows, ∀ attempt ∈ row.lastAttemptAt, attempt < now - hour := by
    intro rows
    induction rows with
    | nil => exact ⟨time, le_refl _, fun _ mem => absurd mem List.not_mem_nil⟩
    | cons row _ ih =>
      obtain ⟨now, late, quiet⟩ := ih
      have grown {later attempt : Instant} (more : now ≤ later) (sent : attempt < now - hour) :
          attempt < later - hour := sent.trans_le (Int.sub_le_sub_right more hour)
      cases last : row.lastAttemptAt with
      | none =>
        refine ⟨now, late, fun other mem attempt sent => ?_⟩
        rcases List.mem_cons.mp mem with rfl | mem
        · rw [last] at sent
          exact absurd sent (Option.not_mem_none _)
        · exact quiet other mem attempt sent
      | some latest =>
        refine ⟨max now (latest + hour + 1), late.trans (le_max_left _ _), fun other mem attempt sent => ?_⟩
        rcases List.mem_cons.mp mem with rfl | mem
        · obtain rfl : latest = attempt := Option.some.inj (last.symm.trans sent)
          have above : latest + hour + 1 ≤ max now (latest + hour + 1) := le_max_right _ _
          have room : latest < latest + hour + 1 - hour := by
            rw [Int.add_right_comm, Int.add_sub_cancel]
            exact Int.lt_succ latest
          exact room.trans_le (Int.sub_le_sub_right above hour)
        · exact grown (le_max_left _ _) (quiet other mem attempt sent)
  exact bounded s.operations

theorem Working.unlocks {c : OzonCrew} (working : c.Working) {draft : OzonOfferDraft} (mem : draft ∈ c.store.drafts)
    (listed : draft.Listed) (keys : c.store.SpareKeys) (kept : ¬ c.LocksOut draft.pk) : c.Unlocks draft.pk := by
  intro time price stock positive
  obtain ⟨first, second, apart, ⟨first_valid, first_price, first_stock⟩, second_valid, second_price, second_stock⟩ := keys
  have ready : c.store.Ready draft.pk
      [first ++ ":price", first ++ ":stock", second ++ ":price", second ++ ":stock"] := by
    refine ⟨⟨draft, mem, rfl, listed⟩, ?_⟩
    simp only [List.forall_mem_cons]
    exact ⟨first_price, first_stock, second_price, second_stock, fun _ none => absurd none List.not_mem_nil⟩
  -- the senders finish, a synchronisation sends what waits, and a later one the new values
  obtain ⟨calm_crew, calmed, ready, calm⟩ := calm_reaches working ready kept time
  have working := calmed.working working
  obtain ⟨soon, early, quiet⟩ := quiet_later calm_crew.store time
  have other_keys : ∀ other ∈ [second ++ ":price", second ++ ":stock"],
      first ++ ":price" ≠ other ∧ first ++ ":stock" ≠ other := by
    have same_part (part : String) : first ++ part ≠ second ++ part := fun same => apart (String.append_left_inj part |>.mp same)
    simp only [List.forall_mem_cons]
    exact ⟨⟨same_part _, suffix_ne (by decide) (by decide)⟩, ⟨suffix_ne (by decide) (by decide), same_part _⟩,
      fun _ none => absurd none List.not_mem_nil⟩
  obtain ⟨idle_crew, flushed, ready, idle, -⟩ :=
    sync_reaches working ready calm first_valid other_keys quiet positive stock
  have working := flushed.working working
  obtain ⟨_, later, quiet⟩ := quiet_later idle_crew.store soon
  have calm : idle_crew.store.Calm draft.pk := by
    intro row row_mem here task active
    exact absurd ⟨row, row_mem, here, commerce_kind.mp task, active⟩ idle
  obtain ⟨_, sent, -, -, unlocked⟩ := sync_reaches working ready calm second_valid
    (fun _ none => absurd none List.not_mem_nil) quiet positive stock
  obtain ⟨calming, at_time, rfl⟩ := calmed
  obtain ⟨flushing, at_soon, rfl⟩ := flushed
  obtain ⟨sending, at_late, rfl⟩ := sent
  refine ⟨calming ++ (flushing ++ (sending ++ [])), ?_, ?_⟩
  · exact Reaches.forward (le_refl _) at_time
      (Reaches.forward early at_soon (Reaches.forward later at_late trivial))
  · rw [List.append_nil, run_append, run_append]
    exact unlocked idle

end OzonCrew

/-- In every reachable state a listed offer can be worked free exactly when none of its updates is lost. -/
theorem offer_unlocks_iff {s : OzonStore} (fresh : s.Fresh) (actions : List OzonAction) {draft : OzonOfferDraft}
    (mem : draft ∈ (run OzonCrew.next s.idle actions).store.drafts) (listed : draft.Listed)
    (keys : (run OzonCrew.next s.idle actions).store.SpareKeys) :
    (run OzonCrew.next s.idle actions).Unlocks draft.pk ↔ ¬ (run OzonCrew.next s.idle actions).LocksOut draft.pk := by
  have working := OzonCrew.run_working (.idle fresh) actions
  constructor
  · intro unlocks locked
    exact locked.forever working.sound working.sender unlocks
  · exact working.unlocks mem listed keys

def queuedUpdates : List OzonAction :=
  attestedImport ++ [.call (.syncOfferCommerce 7 "sync"), .move 2 (.silent 8), .crash 2]

theorem queued_updates_unlock : (run OzonCrew.next (OzonStore.offering [7]).idle queuedUpdates).Unlocks 7 := by
  have fresh : (OzonStore.offering [7]).Fresh := by decide
  obtain ⟨draft, mem, pk, published, product⟩ :
      ∃ draft ∈ (run OzonCrew.next (OzonStore.offering [7]).idle queuedUpdates).store.drafts,
        draft.pk = 7 ∧ draft.publicationStatus = .published ∧ draft.providerProductId = some 77 := by decide +kernel
  have spare (key : String) (valid : key ≠ "" ∧ key.length ≤ 90)
      (free : ∀ row ∈ (run OzonCrew.next (OzonStore.offering [7]).idle queuedUpdates).store.operations,
        row.idempotencyKey ≠ key ++ ":price" ∧ row.idempotencyKey ≠ key ++ ":stock") :
      (run OzonCrew.next (OzonStore.offering [7]).idle queuedUpdates).store.SpareKey key :=
    ⟨valid, fun row mem => (free row mem).1, fun row mem => (free row mem).2⟩
  have keys : (run OzonCrew.next (OzonStore.offering [7]).idle queuedUpdates).store.SpareKeys :=
    ⟨"one", "two", by decide, spare "one" (by decide) (by decide +kernel), spare "two" (by decide) (by decide +kernel)⟩
  have waiting : ∀ row ∈ (run OzonCrew.next (OzonStore.offering [7]).idle queuedUpdates).store.operations,
      row.kind.task = .commerce → row.state = .queued := by decide +kernel
  have unlocks := (offer_unlocks_iff fresh queuedUpdates mem ⟨published, 77, by decide, product⟩ keys).mpr (by
    rintro ⟨row, row_mem, -, task, -, unqueued, -⟩
    exact unqueued (waiting row row_mem task))
  rwa [pk] at unlocks

def crashedSender : List OzonAction :=
  attestedImport ++ [.call (.syncOfferCommerce 7 "sync"), .move 2 (.silent 8), .move 2 (.silent 9), .crash 2]

def lostOutcome : List OzonAction :=
  attestedImport ++ [.call (.syncOfferCommerce 7 "sync"), .move 2 (.silent 8), .move 2 (.silent 9), .move 2 (.silent 10),
    .move 2 (.silent 11)]

/-- The published offer is locked out for ever by the crash, and by the lost answer. -/
theorem lost_updates_lock_out :
    let crashed := run OzonCrew.next (OzonStore.offering [7]).idle crashedSender
    let lost := run OzonCrew.next (OzonStore.offering [7]).idle lostOutcome
    (OzonStore.offering [7]).Fresh ∧
      crashed.store.drafts.map OzonOfferDraft.publicationStatus = [.published] ∧ ¬ crashed.Unlocks 7 ∧
      lost.store.drafts.map OzonOfferDraft.publicationStatus = [.published] ∧ ¬ lost.Unlocks 7 := by
  intro crashed lost
  have fresh : (OzonStore.offering [7]).Fresh := by decide
  have crashed_working : crashed.Working := OzonCrew.run_working (.idle fresh) crashedSender
  have lost_working : lost.Working := OzonCrew.run_working (.idle fresh) lostOutcome
  refine ⟨fresh, by decide +kernel, ?_, by decide +kernel, ?_⟩
  · refine OzonCrew.LocksOut.forever crashed_working.sound crashed_working.sender ?_
    obtain ⟨row, mem, offer, task, active, unqueued⟩ : ∃ row ∈ crashed.store.operations, row.offer = 7 ∧
        row.kind.task = .commerce ∧ row.active ∧ row.state ≠ .queued := by decide +kernel
    have workers : crashed.workers = [.done (.ok [1]), .done (.ok [1])] := rfl
    refine ⟨row, mem, offer, task, active, unqueued, ?_⟩
    rintro ⟨-, w, w_mem, finishes⟩
    rw [workers] at w_mem
    simp only [List.mem_cons, List.not_mem_nil, or_false, or_self] at w_mem
    rw [w_mem] at finishes
    exact finishes
  · refine OzonCrew.LocksOut.forever lost_working.sound lost_working.sender ?_
    obtain ⟨row, mem, offer, task, active, unqueued, unsent⟩ : ∃ row ∈ lost.store.operations, row.offer = 7 ∧
        row.kind.task = .commerce ∧ row.active ∧ row.state ≠ .queued ∧ row.state ≠ .sending := by decide +kernel
    exact ⟨row, mem, offer, task, active, unqueued, fun going => unsent going.1⟩

end MapBackend.Marketplaces
