import MapBackend.Marketplaces.OzonInvariants

/-!
Who sends a price or a stock.
-/

namespace MapBackend.Marketplaces
open MapBackend.Library

theorem OzonWrite.apply_queued {write : OzonWrite} {now : Instant} {rows : OfferRows}
    (queued : (write.apply now rows).operation.state = .queued) : rows.operation.state = .queued := by
  cases write with
  | importAnswered answer =>
    cases answer with
    | error =>
      simp only [apply, OfferRows.importAnswered, OfferRows.callFailed, OfferRows.setStatus] at queued
      split at queued <;> cases queued
    | ok => cases queued
  | claimReconciliation terminalRefresh =>
    cases terminalRefresh with
    | false => exact queued
    | true => cases queued
  | productProjection =>
    simp only [apply, OfferRows.persistProductProjection] at queued
    split at queued
    · cases queued
    · split at queued <;> cases queued
  | notFound =>
    simp only [apply, OfferRows.persistNotFound] at queued
    split at queued
    · cases queued
    · exact queued
  | archiveProjection =>
    simp only [apply, OfferRows.persistArchiveProjection] at queued
    split at queued
    · cases queued
    · split at queued <;> cases queued
  | commerceError =>
    simp only [apply, OfferRows.callFailed] at queued
    split at queued <;> cases queued
  | commerceSucceeded request => cases request <;> cases queued
  | finishFailed failure => cases failure <;> cases queued
  | operationError failure => cases failure <;> cases queued
  | commerceOutcome failure => cases failure <;> cases queued
  | transientError => exact queued
  | offerNotInTask => exact queued
  | importPending => exact queued
  | stockZeroed => exact queued
  | claimArchive => exact queued
  | _ => cases queued

namespace OzonStore

def Unsent (s : OzonStore) (pk : Uuid) : Prop :=
  s.nextPk ≤ pk ∨ ∃ row ∈ s.operations, row.pk = pk ∧ row.state = .queued

instance (s : OzonStore) (pk : Uuid) : Decidable (s.Unsent pk) :=
  inferInstanceAs (Decidable (_ ∨ ∃ row ∈ s.operations, _))

def unsent (s : OzonStore) (pk : Uuid) : ℕ := if s.Unsent pk then 1 else 0

variable {pk : Uuid}

theorem unsent_mono {s next : OzonStore} (before : next.Unsent pk → s.Unsent pk) :
    next.unsent pk ≤ s.unsent pk := by
  unfold unsent
  by_cases still : next.Unsent pk
  · rw [if_pos still, if_pos (before still)]
  · rw [if_neg still]
    exact Nat.zero_le _

variable {s : OzonStore}

theorem Unsent.of_written {rows : OfferRows} (held : s.Holds rows) {write : OzonWrite}
    {now : Instant} (unsent : (s.written rows write now).Unsent pk) : s.Unsent pk := by
  rcases unsent with later | ⟨row, mem, rfl, queued⟩
  · exact .inl later
  · rcases (mem_written held).mp mem with rfl | ⟨old, -⟩
    · exact .inr ⟨rows.operation, held.operation, ((write.apply_same now rows).pk).symm, OzonWrite.apply_queued queued⟩
    · exact .inr ⟨row, old, rfl, queued⟩

theorem not_unsent_of_sending (sound : s.Sound) {rows : OfferRows} (held : s.Holds rows)
    {now : Instant} : ¬ (s.written rows .markSending now).Unsent rows.operation.pk := by
  rintro (later | ⟨_, mem, same, queued⟩)
  · exact absurd later (Nat.not_le_of_lt (sound.below _ held.operation))
  · rcases (mem_written held).mp mem with rfl | ⟨-, other⟩
    · cases queued
    · exact other same

theorem Unsent.of_insert {row : OzonOperation} (made : row.pk = s.nextPk)
    (unsent : (s.insert row).Unsent pk) : s.Unsent pk := by
  rcases unsent with later | ⟨old, mem, rfl, queued⟩
  · exact .inl (Nat.le_of_succ_le later)
  · rcases List.mem_append.mp mem with old_mem | last
    · exact .inr ⟨old, old_mem, rfl, queued⟩
    · rw [List.mem_singleton.mp last]
      exact .inl (Nat.le_of_eq made.symm)

def Sending (s : OzonStore) (pk : Uuid) : Prop := ∃ row ∈ s.operations, row.pk = pk ∧ row.state = .sending

theorem Sending.insert (sending : s.Sending pk) (row : OzonOperation) :
    (s.insert row).Sending pk :=
  let ⟨old, mem, same, state⟩ := sending
  ⟨old, List.mem_append_left _ mem, same, state⟩

theorem Sending.row (sound : s.Sound) {row : OzonOperation} (mem : row ∈ s.operations)
    (sending : s.Sending row.pk) : row.state = .sending := by
  obtain ⟨_, other_mem, same, state⟩ := sending
  rw [row_unique sound.pks mem other_mem same.symm, state]

end OzonStore

def OzonWorker.sends (pk : Uuid) : OzonWorker → ℕ
  | sendCommerce rows _ _ => if rows.operation.pk = pk then 1 else 0
  | answered rows write _ => if write.task = some .commerce ∧ rows.operation.pk = pk then 1 else 0
  | _ => 0

namespace OzonMove
open OzonStore

variable {input : OzonInput}

theorem reads_sends {s : OzonStore} {w next : OzonWorker} (pk : Uuid)
    (reads : OzonWorker.Reads input s w next) : next.sends pk = 0 := by
  cases reads with
  | importInfo rows =>
    rcases importInfoRead_cases rows input with ⟨write, read, decided⟩ | read
    · simp [read, OzonWorker.sends, importInfoWrite_task decided]
    · rw [read]
      rfl
  | productInfo => simp [OzonWorker.sends, productInfoWrite_task]
  | archive rows =>
    obtain ⟨write, read, task⟩ := archiveRead_cases rows input.productInfo
    simp [read, OzonWorker.sends, task]
  | _ => rfl

theorem calls_sends {w next : OzonWorker} {events : List OzonEvent} (pk : Uuid)
    (calls : OzonWorker.Calls input w events next) : next.sends pk = w.sends pk := by
  cases calls with
  | importProducts => simp [OzonWorker.sends, OzonWrite.task]
  | zeroStock rows item =>
    rcases stockAnswered_cases rows item input.updateResults with ⟨write, answered, task⟩ | ⟨_, -, -, answered⟩
    · simp [answered, OzonWorker.sends, task]
    · simp [answered, OzonWorker.sends, OzonWrite.task]
  | archiveProducts rows =>
    rcases archiveAnswered_cases rows input.archiveProducts with ⟨write, answered, task⟩ | ⟨write, answered, rfl | rfl⟩
    · simp [answered, OzonWorker.sends, task]
    · simp [answered, OzonWorker.sends, OzonWrite.task]
    · simp [answered, OzonWorker.sends, OzonWrite.task]
  | sendCommerce => simp [OzonWorker.sends, updateWrite_task]

theorem writes_sends {s : OzonStore} {w : OzonWorker} {rows : OfferRows} {write : OzonWrite}
    {next : OfferRows → OzonWorker} (pk : Uuid) (sound : s.Sound) (held : s.Holds rows)
    (writes : OzonWorker.Writes input s w rows.operation write next) :
    (s.written rows write input.now).unsent pk + (next (write.apply input.now rows)).sends pk ≤
      s.unsent pk + w.sends pk := by
  have fewer : (s.written rows write input.now).unsent pk ≤ s.unsent pk := unsent_mono (Unsent.of_written held)
  cases writes with
  | sendCommerce _ _ queued =>
    have kept : ((OzonWrite.markSending).apply input.now rows).operation.pk = rows.operation.pk := rfl
    by_cases same : rows.operation.pk = pk
    · subst same
      have before : s.unsent rows.operation.pk = 1 := if_pos (.inr ⟨rows.operation, held.operation, rfl, queued⟩)
      have after : (s.written rows .markSending input.now).unsent rows.operation.pk = 0 :=
        if_neg (not_unsent_of_sending sound held)
      simp [OzonWorker.sends, kept, before, after]
    · simpa [OzonWorker.sends, kept, same] using fewer
  | claimImport =>
    dsimp only
    split <;> exact fewer
  | answered _ _ after => cases after <;> exact fewer.trans (Nat.le_add_right _ _)
  | _ => exact fewer

theorem part_unsent {draft : OzonOfferDraft} {kind : OzonOperationKind} {key : String}
    {s next : OzonStore} {result : Option OzonOperation} (pk : Uuid)
    (part : CommercePart input draft kind key s next result) : next.unsent pk ≤ s.unsent pk := by
  cases part with
  | settled => exact le_refl _
  | found => exact le_refl _
  | created => exact unsent_mono (Unsent.of_insert rfl)

theorem sends {s next : OzonStore} {w moved : OzonWorker} (pk : Uuid) (sound : s.Sound)
    (move : OzonMove input s w next moved) : next.unsent pk + moved.sends pk ≤ s.unsent pk + w.sends pk := by
  cases move with
  | reads reads =>
    rw [reads_sends pk reads]
    exact Nat.le_add_right _ _
  | calls calls =>
    rw [calls_sends pk calls]
    exact Nat.add_le_add_right (unsent_mono id) _
  | writes held writes => exact writes_sends pk sound held writes
  | createImport =>
    exact unsent_mono fun unsent => Unsent.of_insert rfl unsent
  | createArchive =>
    exact unsent_mono fun unsent => Unsent.of_insert rfl unsent
  | syncCommerce _ _ _ _ _ priced stocked =>
    exact (part_unsent pk stocked).trans (part_unsent pk priced)

end OzonMove

/-- A worker that calls for an update, or has its answer, finds the mark that it made. -/
def OzonWorker.Marked (s : OzonStore) : OzonWorker → Prop
  | sendCommerce rows _ _ => s.Sending rows.operation.pk
  | answered rows write _ => write.task = some .commerce → s.Sending rows.operation.pk
  | _ => True

structure OzonCrew.OneSender (c : OzonCrew) : Prop where
  one : ∀ pk, c.store.unsent pk + c.load (OzonWorker.sends pk) ≤ 1
  kept : c.Keeps (fun _ => True) fun s w => w.Marked s

namespace OzonMove
open OzonStore

variable {write : OzonWrite} {rows : OfferRows}

theorem marked_of_task {s : OzonStore} {after : AfterWrite} {task : OzonTask}
    (known : write.task = some task) (other : task ≠ .commerce) : (OzonWorker.answered rows write after).Marked s := by
  intro commerce
  rw [known] at commerce
  exact absurd (Option.some.inj commerce) other

variable {input : OzonInput}

theorem marked {s next : OzonStore} {w moved : OzonWorker} (placed : w.Placed s)
    (marked : w.Marked s) (move : OzonMove input s w next moved) : moved.Marked next := by
  cases move with
  | reads reads =>
    cases reads with
    | importInfo rows =>
      rcases importInfoRead_cases rows input with ⟨write, read, decided⟩ | read
      · rw [read]
        exact marked_of_task (importInfoWrite_task decided) (by decide)
      · rw [read]
        trivial
    | productInfo => exact marked_of_task (productInfoWrite_task _ _) (by decide)
    | archive rows =>
      obtain ⟨write, read, task⟩ := archiveRead_cases rows input.productInfo
      rw [read]
      exact marked_of_task task (by decide)
    | skipCommerce => trivial
    | ended => trivial
  | calls calls =>
    cases calls with
    | importProducts => exact marked_of_task rfl (show OzonTask.importing ≠ .commerce by decide)
    | zeroStock rows item =>
      rcases stockAnswered_cases rows item input.updateResults with ⟨write, answered, task⟩ | ⟨_, -, -, answered⟩
      · rw [answered]
        exact marked_of_task task (by decide)
      · rw [answered]
        exact marked_of_task rfl (show OzonTask.archiving ≠ .commerce by decide)
    | archiveProducts rows =>
      rcases archiveAnswered_cases rows input.archiveProducts with ⟨write, answered, task⟩ | ⟨write, answered, rfl | rfl⟩
      · rw [answered]
        exact marked_of_task task (by decide)
      · rw [answered]
        exact marked_of_task rfl (show OzonTask.archiving ≠ .commerce by decide)
      · rw [answered]
        exact marked_of_task rfl (show OzonTask.archiving ≠ .commerce by decide)
    | sendCommerce => exact fun _ => marked
  | writes held writes =>
    cases writes with
    | sendCommerce => exact ⟨_, (mem_written held).mpr (.inl rfl), rfl, rfl⟩
    | claimImport =>
      dsimp only
      split <;> trivial
    | answered _ _ after => cases after <;> trivial
    | _ => trivial
  | _ => trivial

theorem writes_commerce {s : OzonStore} {w : OzonWorker}
    {next : OfferRows → OzonWorker} (sound : s.Sound) (placed : w.Placed s) (marked : w.Marked s) (held : s.Holds rows)
    (writes : OzonWorker.Writes input s w rows.operation write next) (commerce : rows.operation.kind.task = .commerce) :
    rows.operation.state = .queued ∨ (rows.operation.state = .sending ∧ write.task = some .commerce ∧
      ∃ left after, w = .answered left write after ∧ left.operation.pk = rows.operation.pk) := by
  cases writes with
  | sendImport _ _ _ queued => exact .inl queued
  | refuseImport _ _ _ queued => exact .inl queued
  | claimImport _ _ _ latest =>
    rw [(latest_kind latest).2.2] at commerce
    cases commerce
  | limitImport _ _ _ latest =>
    rw [(latest_kind latest).2.2] at commerce
    cases commerce
  | sendArchive _ _ queued => exact .inl queued
  | refuseArchive _ _ queued => exact .inl queued
  | claimArchive _ _ latest =>
    rw [(latest_kind latest).2.2] at commerce
    cases commerce
  | limitArchive _ _ latest =>
    rw [(latest_kind latest).2.2] at commerce
    cases commerce
  | sendCommerce _ _ queued => exact .inl queued
  | refuseCommerce _ _ _ queued => exact .inl queued
  | answered left _ after _ here =>
    obtain ⟨task, known, has, -⟩ := placed
    obtain rfl : task = .commerce := (Has.row sound held.operation (here ▸ has)).symm.trans commerce
    have sending := marked known
    rw [← here] at sending
    exact .inr ⟨sending.row sound held.operation, known, left, after, rfl, here.symm⟩

theorem writes_unmarked {c : OzonCrew} {k j : ℕ} {v w : OzonWorker} {next : OfferRows → OzonWorker} (sound : c.Sound) (sender : c.OneSender) (other : j ≠ k)
    (found : c.workers[k]? = some w) (sending : c.workers[j]? = some v) (sends : v.sends rows.operation.pk = 1)
    (commerce : c.store.Has .commerce rows.operation.pk) (marked : c.store.Sending rows.operation.pk)
    (held : c.store.Holds rows) (writes : OzonWorker.Writes input c.store w rows.operation write next) : False := by
  have state := marked.row sound.store held.operation
  have task := commerce.row sound.store held.operation
  have mem := List.mem_of_getElem? found
  rcases writes_commerce sound.store (sound.workers w mem) (sender.kept.workers w mem) held writes task with
    queued | ⟨-, known, left, after, rfl, here⟩
  · cases state.symm.trans queued
  · have few := sender.one rows.operation.pk
    have both := Crew.load_pair (OzonWorker.sends rows.operation.pk) other sending found
    have twice : (OzonWorker.answered left write after).sends rows.operation.pk = 1 := if_pos ⟨known, here⟩
    omega

theorem part_sending {draft : OzonOfferDraft} {kind : OzonOperationKind} {key : String}
    {s next : OzonStore} {result : Option OzonOperation} {pk : Uuid}
    (part : CommercePart input draft kind key s next result) (sending : s.Sending pk) : next.Sending pk := by
  cases part with
  | settled => exact sending
  | found => exact sending
  | created => exact sending.insert _

theorem sending {s next : OzonStore} {w moved : OzonWorker} {pk : Uuid}
    (move : OzonMove input s w next moved) (sending : s.Sending pk)
    (elsewhere : ∀ rows write next, s.Holds rows → OzonWorker.Writes input s w rows.operation write next →
      rows.operation.pk ≠ pk) : next.Sending pk := by
  cases move with
  | reads => exact sending
  | calls => exact sending
  | writes held writes =>
    obtain ⟨row, mem, rfl, state⟩ := sending
    exact ⟨row, (mem_written held).mpr (.inr ⟨mem, (elsewhere _ _ _ held writes).symm⟩), rfl, state⟩
  | createImport => exact sending.insert _
  | createArchive => exact sending.insert _
  | syncCommerce _ _ _ _ _ priced stocked => exact part_sending stocked (part_sending priced sending)

end OzonMove

namespace OzonCrew
open OzonStore

theorem OneSender.idle {s : OzonStore} : OneSender s.idle where
  one pk := by
    show s.unsent pk + 0 ≤ 1
    unfold unsent
    split <;> simp
  kept := ⟨trivial, fun _ mem => absurd mem List.not_mem_nil⟩

theorem OneSender.next {c : OzonCrew} (sound : c.Sound) (sender : c.OneSender) (a : OzonAction) :
    (c.next a).OneSender where
  one pk := by
    refine le_trans ?_ (sender.one pk)
    apply next_load (fun s => s.unsent pk) (OzonWorker.sends pk) sound
    · intro request
      cases request <;> rfl
    · intro input s w next moved sound move
      exact move.sends pk sound
  kept := by
    apply next_keeps sound sender.kept a
    · intro request
      cases request <;> trivial
    · rintro k input w _ _ rfl found move
      have placed := sound.workers w (List.mem_of_getElem? found)
      refine ⟨trivial, move.marked placed (sender.kept.workers w (List.mem_of_getElem? found)), ?_⟩
      intro j v other at_j marked
      have has := sound.workers v (List.mem_of_getElem? at_j)
      cases v with
      | sendCommerce =>
        refine move.sending marked fun found_rows write after held writes same => ?_
        exact OzonMove.writes_unmarked sound sender other found at_j (if_pos same.symm) (same ▸ has.1) (same ▸ marked)
          held writes
      | answered =>
        intro commerce
        have sending := marked commerce
        refine move.sending sending fun found_rows _ _ held writes same => ?_
        obtain ⟨task, known, of_task, -⟩ := has
        obtain rfl : task = .commerce := Option.some.inj (known.symm.trans commerce)
        exact OzonMove.writes_unmarked sound sender other found at_j (if_pos ⟨commerce, same.symm⟩) (same ▸ of_task)
          (same ▸ sending) held writes
      | _ => trivial

end OzonCrew

end MapBackend.Marketplaces
