import MapBackend.Marketplaces.OzonOrders
import MapBackend.Marketplaces.OzonWorkers

/-!
A stored posting is the projection of a version of the provider.
-/

namespace MapBackend.Marketplaces
open MapBackend.Library OzonOrders

theorem latest_mem {versions : List RawPosting} {number : String} {raw : RawPosting}
    (found : latest versions number = some raw) : raw ∈ versions ∧ raw.postingNumber = number := by
  have mem := List.mem_of_getLast? found
  simpa using List.mem_filter.mp mem

theorem latest_last {rel : RawPosting → RawPosting → Prop} {versions : List RawPosting} {number : String}
    {old new : RawPosting} (ordered : versions.Pairwise fun a b => a.postingNumber = b.postingNumber → rel a b)
    (found : latest versions number = some new) (mem : old ∈ versions) (same : old.postingNumber = number) :
    old = new ∨ rel old new := by
  obtain ⟨before, split⟩ := List.getLast?_eq_some_iff.mp found
  have chosen : old ∈ before ++ [new] := by
    rw [← split]
    exact List.mem_filter.mpr ⟨mem, decide_eq_true same⟩
  rcases List.mem_append.mp chosen with earlier | last
  · have pair := List.pairwise_append.mp (split ▸ ordered.filter _)
    have number_new := (latest_mem found).2
    exact .inr (pair.2.2 old earlier new List.mem_cons_self (same.trans number_new.symm))
  · exact .inl (List.mem_singleton.mp last)

theorem project_ok {raw : RawPosting} {now : Instant} {row : OzonFbsPosting} (projected : project raw now = .ok row) :
    row.postingNumber = raw.postingNumber ∧ row.providerUpdatedAt = raw.updatedAt := by
  simp only [project, bind_ok, raiseIf_ok, pure_ok] at projected
  obtain ⟨_, -, _, -, rfl⟩ := projected
  exact ⟨rfl, rfl⟩

theorem mem_upsert {row new : OzonFbsPosting} {rows : List OzonFbsPosting} (mem : new ∈ upsert row rows) :
    new = row ∨ new ∈ rows ∧ new.postingNumber ≠ row.postingNumber := by
  unfold upsert at mem
  split at mem
  next =>
    rcases mem_put.mp mem with ⟨written, -⟩ | kept
    · exact .inl written
    · exact .inr kept
  next missing =>
    rcases List.mem_append.mp mem with old | last
    · exact .inr ⟨old, fun same => missing ⟨new, old, same⟩⟩
    · exact .inl (List.mem_singleton.mp last)

theorem writePage_rows {now : Instant} {page : List RawPosting} {rows after : List OzonFbsPosting}
    (written : writePage now page rows = .ok after) {row : OzonFbsPosting} (mem : row ∈ after) :
    (∃ raw ∈ page, project raw now = .ok row) ∨
      row ∈ rows ∧ ∀ raw ∈ page, raw.postingNumber ≠ row.postingNumber := by
  induction page generalizing rows with
  | nil =>
    simp only [writePage, Except.ok.injEq] at written
    exact .inr ⟨written ▸ mem, fun _ none => absurd none List.not_mem_nil⟩
  | cons raw _ ih =>
    simp only [writePage, bind_ok] at written
    obtain ⟨_, projected, written⟩ := written
    rcases ih written with ⟨other, other_mem, made⟩ | ⟨kept, unnamed⟩
    · exact .inl ⟨other, List.mem_cons_of_mem _ other_mem, made⟩
    · rcases mem_upsert kept with rfl | ⟨old, differs⟩
      · exact .inl ⟨raw, List.mem_cons_self, projected⟩
      · refine .inr ⟨old, fun other other_mem => ?_⟩
        rcases List.mem_cons.mp other_mem with rfl | later
        · rw [← (project_ok projected).1]
          exact differs.symm
        · exact unnamed other later

namespace OzonOrderStore

def Read (s : OzonOrderStore) (raw : RawPosting) (seen : ℕ) : Prop :=
  seen ≤ s.versions.length ∧ latest (s.versions.take seen) raw.postingNumber = some raw

/-- No reading that is already written saw a version of the posting that this reading did not see. -/
def Unsurpassed (s : OzonOrderStore) (number : String) (seen : ℕ) : Prop :=
  ∀ commit ∈ s.commits, commit.1 = number →
    ∀ raw ∈ (s.versions.take commit.2).drop seen, raw.postingNumber ≠ number

instance (s : OzonOrderStore) (number : String) (seen : ℕ) : Decidable (s.Unsurpassed number seen) :=
  inferInstanceAs (Decidable (∀ commit ∈ s.commits, commit.1 = number →
    ∀ raw ∈ (s.versions.take commit.2).drop seen, raw.postingNumber ≠ number))

structure Projects (s : OzonOrderStore) (row : OzonFbsPosting) (raw : RawPosting) (seen : ℕ) : Prop where
  read : s.Read raw seen
  number : row.postingNumber = raw.postingNumber
  updated : row.providerUpdatedAt = raw.updatedAt
  noted : (raw.postingNumber, seen) ∈ s.commits
  unsurpassed : s.Unsurpassed raw.postingNumber seen

structure Ordered (s : OzonOrderStore) : Prop where
  versions : s.versions.Pairwise fun old new => old.postingNumber = new.postingNumber → old.Older new
  commits : ∀ commit ∈ s.commits, commit.2 ≤ s.versions.length
  rows : ∀ row ∈ s.postings, ∃ raw seen, s.Projects row raw seen

structure Grows (s later : OzonOrderStore) : Prop where
  versions : s.versions <+: later.versions
  commits : s.commits ⊆ later.commits

theorem Grows.refl (s : OzonOrderStore) : s.Grows s := ⟨List.prefix_rfl, List.Subset.refl _⟩

theorem Grows.trans {a b c : OzonOrderStore} (first : a.Grows b) (second : b.Grows c) : a.Grows c :=
  ⟨first.versions.trans second.versions, List.Subset.trans first.commits second.commits⟩

theorem take_of_extends {A : Type*} {short long : List A} {k : ℕ} (extends_ : short <+: long) (within : k ≤ short.length) :
    long.take k = short.take k := by
  obtain ⟨_, rfl⟩ := extends_
  exact List.take_append_of_le_length within

variable {seen : ℕ}

theorem Read.grow {s later : OzonOrderStore} {raw : RawPosting} (read : s.Read raw seen)
    (grows : s.Grows later) : later.Read raw seen := by
  obtain ⟨within, found⟩ := read
  refine ⟨within.trans grows.versions.length_le, ?_⟩
  rw [take_of_extends grows.versions within]
  exact found

variable {s : OzonOrderStore}

theorem Read.older (ordered : s.Ordered) {old new : RawPosting}
    (read : s.Read new seen) (mem : old ∈ s.versions.take seen) (same : old.postingNumber = new.postingNumber) :
    ∀ t ∈ old.updatedAt, ∀ u ∈ new.updatedAt, t ≤ u := by
  have sorted := ordered.versions.sublist (List.take_sublist seen s.versions)
  rcases latest_last sorted read.2 mem same with rfl | older
  · intro t at_t u at_u
    exact le_of_eq (Option.mem_unique at_t at_u)
  · exact older

theorem Unsurpassed.saw {number : String} {seen noted : ℕ} (unsurpassed : s.Unsurpassed number seen)
    (commit : (number, noted) ∈ s.commits) {raw : RawPosting} (mem : raw ∈ s.versions.take noted)
    (same : raw.postingNumber = number) : raw ∈ s.versions.take seen := by
  rw [← List.take_append_drop seen (s.versions.take noted)] at mem
  rcases List.mem_append.mp mem with early | late
  · rw [List.take_take] at early
    exact List.take_subset_take_left _ (min_le_left _ _) early
  · exact absurd same (unsurpassed _ commit rfl raw late)

theorem Ordered.older {s later : OzonOrderStore} (before : s.Ordered) (after : later.Ordered) (grows : s.Grows later)
    {old new : OzonFbsPosting} (old_mem : old ∈ s.postings) (new_mem : new ∈ later.postings)
    (same : old.postingNumber = new.postingNumber) :
    ∀ t ∈ old.providerUpdatedAt, ∀ u ∈ new.providerUpdatedAt, t ≤ u := by
  obtain ⟨first, _, projects⟩ := before.rows old old_mem
  obtain ⟨second, _, shows⟩ := after.rows new new_mem
  have numbers : first.postingNumber = second.postingNumber := by
    rw [← projects.number, ← shows.number]
    exact same
  have read := projects.read.grow grows
  have found := (latest_mem read.2).1
  have saw := shows.unsurpassed.saw (numbers ▸ grows.commits projects.noted) found numbers
  rw [projects.updated, shows.updated]
  exact shows.read.older after saw numbers

theorem next_grows (s : OzonOrderStore) (raw : RawPosting) : s.Grows (s.next raw) := by
  unfold OzonOrderStore.next
  split
  · exact ⟨List.prefix_append _ _, List.Subset.refl _⟩
  · exact Grows.refl s

theorem Ordered.next (ordered : s.Ordered) (raw : RawPosting) : (s.next raw).Ordered := by
  have grows := s.next_grows raw
  unfold OzonOrderStore.next at *
  split
  next latest =>
    rw [if_pos latest] at grows
    refine ⟨?_, fun commit mem => ?_, fun row mem => ?_⟩
    · refine List.pairwise_append.mpr ⟨ordered.versions, List.pairwise_singleton _ _, fun old old_mem new new_mem same => ?_⟩
      rw [List.mem_singleton.mp new_mem] at same ⊢
      exact latest old old_mem same
    · exact (ordered.commits commit mem).trans grows.versions.length_le
    · obtain ⟨source, seen, projects⟩ := ordered.rows row mem
      refine ⟨source, seen, projects.read.grow grows, projects.number, projects.updated, projects.noted, ?_⟩
      intro commit commit_mem same
      rw [take_of_extends grows.versions (ordered.commits commit commit_mem)]
      exact projects.unsurpassed commit commit_mem same
  next => exact ordered

theorem Ordered.write (ordered : s.Ordered) {now : Instant} {page : List RawPosting}
    {rows : List OzonFbsPosting} (reads : ∀ raw ∈ page, s.Read raw seen)
    (unsurpassed : ∀ raw ∈ page, s.Unsurpassed raw.postingNumber seen) (written : writePage now page s.postings = .ok rows) :
    OzonOrderStore.Ordered
      { s with postings := rows, commits := s.commits ++ page.map fun raw => (raw.postingNumber, seen) } := by
  have after (number : String) (before : s.Unsurpassed number seen) : OzonOrderStore.Unsurpassed
      { s with postings := rows, commits := s.commits ++ page.map fun raw => (raw.postingNumber, seen) } number seen := by
    intro commit mem same
    rcases List.mem_append.mp mem with old | new
    · exact before commit old same
    · obtain ⟨raw, -, rfl⟩ := List.mem_map.mp new
      simp
  refine ⟨ordered.versions, fun commit mem => ?_, fun row mem => ?_⟩
  · rcases List.mem_append.mp mem with old | new
    · exact ordered.commits commit old
    · obtain ⟨raw, raw_mem, rfl⟩ := List.mem_map.mp new
      exact (reads raw raw_mem).1
  · rcases writePage_rows written mem with ⟨raw, raw_mem, projected⟩ | ⟨kept, unnamed⟩
    · obtain ⟨number, updated⟩ := project_ok projected
      have noted : (raw.postingNumber, seen) ∈ page.map fun raw => (raw.postingNumber, seen) :=
        List.mem_map_of_mem (f := fun raw => (raw.postingNumber, seen)) raw_mem
      exact ⟨raw, seen, reads raw raw_mem, number, updated, List.mem_append_right _ noted,
        after _ (unsurpassed raw raw_mem)⟩
    · obtain ⟨source, noted, projects⟩ := ordered.rows row kept
      refine ⟨source, noted, projects.read, projects.number, projects.updated,
        List.mem_append_left _ projects.noted, fun commit commit_mem same => ?_⟩
      rcases List.mem_append.mp commit_mem with old | new
      · exact projects.unsurpassed commit old same
      · obtain ⟨raw, raw_mem, rfl⟩ := List.mem_map.mp new
        exact absurd (same.trans projects.number.symm) (unnamed raw raw_mem)

end OzonOrderStore

def OzonOrderWorker.Holds (s : OzonOrderStore) : OzonOrderWorker → Prop
  | .writePage _ _ postings seen _ => ∀ raw ∈ postings, s.Read raw seen
  | _ => True

theorem OzonOrderWorker.Holds.grow {s later : OzonOrderStore} {w : OzonOrderWorker} (holds : w.Holds s)
    (grows : s.Grows later) : w.Holds later := by
  cases w with
  | writePage => exact fun raw mem => (holds raw mem).grow grows
  | _ => trivial

theorem OzonOrderWorker.listFbsPostings_read {s : OzonOrderStore} {numbers : List String} {page : List RawPosting}
    (listed : listFbsPostings s numbers = .ok page) : ∀ raw ∈ page, s.Read raw s.versions.length := by
  simp only [listFbsPostings, bind_ok, pure_ok] at listed
  obtain ⟨_, -, rfl⟩ := listed
  intro raw mem
  obtain ⟨_, -, found⟩ := List.mem_filterMap.mp mem
  refine ⟨le_rfl, ?_⟩
  rw [List.take_length, (latest_mem found).2]
  exact found

namespace OzonOrderCrew

/-- A page is written only while the provider gave its postings no version that a later reading, already
written, has seen. -/
def InOrder (c : OzonOrderCrew) : OzonOrderWorker → OzonOrderInput → Prop
  | .writePage _ _ postings seen _, _ => ∀ raw ∈ postings, c.store.Unsurpassed raw.postingNumber seen
  | _, _ => True

instance (c : OzonOrderCrew) : (w : OzonOrderWorker) → (input : OzonOrderInput) → Decidable (c.InOrder w input)
  | .writePage _ _ postings seen _, _ =>
    inferInstanceAs (Decidable (∀ raw ∈ postings, c.store.Unsurpassed raw.postingNumber seen))
  | .sync _, _ => isTrue trivial
  | .readPage _ _, _ => isTrue trivial
  | .done _, _ => isTrue trivial

def idle : OzonOrderCrew := ⟨⟨[], [], []⟩, []⟩

end OzonOrderCrew

theorem OzonOrderWorker.advance_grows (w : OzonOrderWorker) (input : OzonOrderInput) (s : OzonOrderStore) :
    s.Grows (w.advance input s).1 := by
  cases w with
  | sync =>
    simp only [advance]
    split <;> exact .refl s
  | readPage =>
    simp only [advance]
    repeat' split
    all_goals exact .refl s
  | writePage =>
    simp only [advance]
    split
    · exact .refl s
    · exact ⟨List.prefix_rfl, List.subset_append_left _ _⟩
  | done => exact .refl s

theorem OzonOrderWorker.advance_ordered {c : OzonOrderCrew} {w : OzonOrderWorker} {input : OzonOrderInput}
    (ordered : c.store.Ordered) (holds : w.Holds c.store) (allowed : c.InOrder w input) :
    (w.advance input c.store).1.Ordered ∧ (w.advance input c.store).2.Holds (w.advance input c.store).1 := by
  cases w with
  | sync =>
    simp only [advance]
    split <;> exact ⟨ordered, trivial⟩
  | readPage =>
    simp only [advance]
    split
    · exact ⟨ordered, trivial⟩
    · split
      · exact ⟨ordered, trivial⟩
      · split
        next => exact ⟨ordered, trivial⟩
        next listed => exact ⟨ordered, listFbsPostings_read listed⟩
  | writePage =>
    simp only [advance]
    split
    next => exact ⟨ordered, trivial⟩
    next written =>
      refine ⟨ordered.write holds allowed written, ?_⟩
      dsimp only
      split <;> trivial
  | done => exact ⟨ordered, trivial⟩

namespace OzonOrderCrew

theorem idle_ordered : idle.Keeps OzonOrderStore.Ordered fun s w => w.Holds s where
  store := ⟨List.Pairwise.nil, fun _ none => absurd none List.not_mem_nil, fun _ none => absurd none List.not_mem_nil⟩
  workers := fun _ none => absurd none List.not_mem_nil

theorem next_ordered (c : OzonOrderCrew) (a : OzonOrderAction)
    (kept : c.Keeps OzonOrderStore.Ordered fun s w => w.Holds s) (allowed : c.Allowed InOrder a) :
    (c.next a).Keeps OzonOrderStore.Ordered fun s w => w.Holds s := by
  apply kept.act a allowed
  · intro days
    trivial
  · intro raw
    exact ⟨kept.store.next raw, fun v holds => holds.grow (c.store.next_grows raw)⟩
  · intro k input w found holds inOrder
    obtain ⟨ordered, own⟩ := OzonOrderWorker.advance_ordered kept.store holds inOrder
    exact ⟨ordered, own, fun j v _ _ other => other.grow (w.advance_grows input c.store)⟩

theorem next_grows (c : OzonOrderCrew) (a : OzonOrderAction) : c.store.Grows (c.next a).store := by
  rcases c.act_store a with same | ⟨raw, -, given⟩ | ⟨k, input, w, -, -, moved⟩
  · rw [OzonOrderCrew.next, same]
    exact .refl _
  · rw [OzonOrderCrew.next, given]
    exact c.store.next_grows raw
  · rw [OzonOrderCrew.next, moved]
    exact w.advance_grows input c.store

theorem run_grows (c : OzonOrderCrew) (actions : List OzonOrderAction) :
    c.store.Grows (run OzonOrderCrew.next c actions).store := by
  induction actions generalizing c with
  | nil => exact .refl _
  | cons a _ ih => exact (c.next_grows a).trans (ih (c.next a))

/-- In every run that writes its pages in the order of the versions, a posting never goes back to an earlier date. -/
theorem postings_never_older {first rest : List OzonOrderAction}
    (allowed : Meets OzonOrderCrew.next (Crew.Allowed InOrder) idle (first ++ rest)) :
    ∀ old ∈ (run OzonOrderCrew.next idle first).store.postings,
      ∀ new ∈ (run OzonOrderCrew.next idle (first ++ rest)).store.postings, old.postingNumber = new.postingNumber →
        ∀ t ∈ old.providerUpdatedAt, ∀ u ∈ new.providerUpdatedAt, t ≤ u := by
  intro old old_mem new new_mem same
  have before := run_invariant OzonOrderCrew.next next_ordered idle_ordered ((meets_append _ _ _ _ _).mp allowed).1
  have after := run_invariant OzonOrderCrew.next next_ordered idle_ordered allowed
  have grows := run_grows (run OzonOrderCrew.next idle first) rest
  rw [← run_append] at grows
  exact before.store.older after.store grows old_mem new_mem same

end OzonOrderCrew

def RawPosting.sample (number status : String) (updatedAt : Instant) : RawPosting where
  postingNumber := number
  status
  substatus := ""
  inProcessAt := none
  shipmentDate := none
  warehouseId := none
  deliveryWarehouseId := none
  products := some [⟨"offer", "", "", some 1, "100"⟩]
  updatedAt := some updatedAt

def OzonOrderInput.ready (now : Instant) : OzonOrderInput :=
  ⟨now, .ready, .ok (["posting"], false)⟩

def overlappingReads : List OzonOrderAction :=
  [.direct (.sample "posting" "awaiting_deliver" 1), .start 14, .start 14, .move 0 (.ready 2), .move 0 (.ready 2),
    .direct (.sample "posting" "delivering" 3), .move 1 (.ready 4), .move 1 (.ready 4)]

theorem postings_never_older_overlapping :
    (∀ old ∈ (run OzonOrderCrew.next .idle (overlappingReads ++ [.move 0 (.ready 5)])).store.postings,
      ∀ new ∈ (run OzonOrderCrew.next .idle (overlappingReads ++ [.move 0 (.ready 5)] ++ [.move 1 (.ready 6)])).store.postings,
        old.postingNumber = new.postingNumber → ∀ t ∈ old.providerUpdatedAt, ∀ u ∈ new.providerUpdatedAt, t ≤ u) ∧
      (run OzonOrderCrew.next .idle
        (overlappingReads ++ [.move 0 (.ready 5)] ++ [.move 1 (.ready 6)])).store.postings.map (·.providerUpdatedAt) = [some 3] := by
  have allowed : Meets OzonOrderCrew.next (Crew.Allowed OzonOrderCrew.InOrder) .idle
      (overlappingReads ++ [.move 0 (.ready 5)] ++ [.move 1 (.ready 6)]) := by decide +kernel
  exact ⟨OzonOrderCrew.postings_never_older allowed, by decide +kernel⟩

/-- The later reading is written first, and the earlier one brings the posting back to the state that it has left. -/
theorem slow_page_restores_older :
    ∃ old ∈ (run OzonOrderCrew.next .idle (overlappingReads ++ [.move 1 (.ready 5)])).store.postings,
      ∃ new ∈ (run OzonOrderCrew.next .idle (overlappingReads ++ [.move 1 (.ready 5)] ++ [.move 0 (.ready 6)])).store.postings,
        old.postingNumber = new.postingNumber ∧ old.providerUpdatedAt = some 3 ∧ new.providerUpdatedAt = some 1 ∧
          old.status = "delivering" ∧ new.status = "awaiting_deliver" := by
  decide +kernel

end MapBackend.Marketplaces
