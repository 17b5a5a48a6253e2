import MapBackend.Products.PhotoPipeline
import MapBackend.Library.Tokens

/-!
One copy of a photo and no orphans.
-/

namespace MapBackend.Products.Photos
open MapBackend.Library MapBackend.Core

/-! ## What a move does -/

namespace Stage

def early : Stage → Bool
  | .entered => true
  | .admitted => true
  | .downloaded _ => true
  | .compared _ _ => true
  | .unsaved _ => true
  | _ => false

def pending : Stage → Option (List Text)
  | .half _ original => some [original]
  | .trying _ original thumb _ => some [original, thumb]
  | .captured _ original thumb _ _ => some [original, thumb]
  | _ => none

end Stage

inductive PhotoMove (s : PhotoStore) (w : PhotoWorker) (i : PhotoInput) : PhotoStore → PhotoWorker → Prop
  | went (stage : Stage) (early : stage.early = true → w.stage.early = true) (pending : stage.pending = w.stage.pending) :
      PhotoMove s w i s (w.goto stage)
  | drew (early : w.stage.early = true) :
      PhotoMove s w i { s with attempts := s.attempts + 1 } { w with stage := .returned none, token := some s.attempts }
  | saved (photo : Photo) (name : Text) (early : w.stage.early = true) (saving : w.stage.saving = true) (saves : i.saves = some name) :
      PhotoMove s w i { s with attempts := s.attempts + 1, names := s.names.set name (some s.attempts) }
        ⟨w.call, .half photo name, some s.attempts, [name]⟩
  | paired (photo : Photo) (original name : Text) (at_ : w.stage = .half photo original) (saves : i.saves = some name) :
      PhotoMove s w i { s with names := s.names.set name w.token } ⟨w.call, .trying photo original name 0, w.token, [original, name]⟩
  | dropped (keys : List Text) (stage : Stage) (pending : w.stage.pending = some keys) (late : stage.early = false)
      (done : stage.pending = none) : PhotoMove s w i (s.deleteStorageKeys keys) (w.goto stage)
  | created (photo : Photo) (original thumb : Text) (pending : w.stage.pending = some [original, thumb])
      (other : ∀ image ∈ s.images, image.sha256 ≠ photo.sha) (unlike : ∀ image ∈ s.images, image.resembles photo.phash = false)
      (room : w.call.checkLimit = true → s.liveCount < maxPhotos) :
      PhotoMove s w i { s with images := s.images ++ [newImage w s photo original thumb], nextPk := s.nextPk + 1 }
        (w.goto (.returned (some s.nextPk)))
  | updated (photo : Photo) (row : ProductImage) (late : w.stage.early = false) (free : w.stage.pending = none) :
      PhotoMove s w i { s with images := s.images.map fun old => if old.pk = row.pk then updateMetadata w photo old else old }
        (w.goto (.returned (some row.pk)))

namespace PhotoMove

variable {imaging : Imaging} {s : PhotoStore} {w : PhotoWorker} {i : PhotoInput}

def Goes (w next : PhotoWorker) : Prop :=
  ∃ stage, next = w.goto stage ∧ (stage.early = true → w.stage.early = true) ∧ stage.pending = w.stage.pending

theorem unpaired_of_early (early : w.stage.early = true) : w.stage.pending = none := by
  cases at_ : w.stage <;> simp_all [Stage.early, Stage.pending]

variable {stage : Stage}

theorem goes_of_early (early : w.stage.early = true) (free : stage.pending = none) : Goes w (w.goto stage) :=
  ⟨stage, rfl, fun _ => early, free.trans (unpaired_of_early early).symm⟩

theorem goes_late (late : stage.early = false) (same : stage.pending = w.stage.pending) : Goes w (w.goto stage) :=
  ⟨stage, rfl, fun early => absurd (late.symm.trans early) (by decide), same⟩

theorem of_goes {next : PhotoWorker} (goes : Goes w next) : PhotoMove s w i s next := by
  obtain ⟨stage, rfl, early, pending⟩ := goes
  exact .went stage early pending

theorem of_reading {next : PhotoWorker} (goes : Goes w next) (free : w.stage.pending = none) :
    PhotoMove s w i (reading w i s next).1 (reading w i s next).2 := by
  unfold reading
  dsimp only
  split
  · exact of_goes goes
  · exact of_goes (goes_late rfl free.symm)

theorem goes_encode (early : w.stage.early = true) {next : Stage} (free : next.pending = none) : Goes w (encode w i next) := by
  unfold encode
  apply goes_of_early early
  split
  · exact free
  · rfl

theorem of_receive (early : w.stage.early = true) : PhotoMove s w i s (receive w i) := by
  unfold receive
  cases i.download with
  | refused => exact of_goes (goes_of_early early rfl)
  | broke => exact of_goes (goes_of_early early rfl)
  | answered =>
    dsimp only
    split
    · exact of_goes (goes_of_early early rfl)
    · exact of_goes (goes_of_early early rfl)

theorem of_compareHash (early : w.stage.early = true) (photo : Photo) :
    PhotoMove s w i (compareHash w i s photo).1 (compareHash w i s photo).2 := by
  unfold compareHash
  apply of_reading _ (unpaired_of_early early)
  cases s.findPerceptualDuplicate i.pick photo.phash with
  | some => exact goes_of_early early rfl
  | none => exact goes_encode early rfl

theorem of_compare (early : w.stage.early = true) (raw : List UInt8) (existing : Option ℕ) :
    PhotoMove s w i (compare imaging w i s raw existing).1 (compare imaging w i s raw existing).2 := by
  unfold compare
  cases imaging.load raw with
  | none => exact of_goes (goes_of_early early rfl)
  | some =>
    dsimp only
    split
    · exact of_goes (goes_of_early early rfl)
    · cases existing with
      | some => exact of_goes (goes_encode early rfl)
      | none =>
        dsimp only
        split
        · exact of_goes (goes_encode early rfl)
        · exact of_compareHash early _

variable {original thumb : Text}

theorem of_giveUp (pending : w.stage.pending = some [original, thumb])
    (late : stage.early = false) (done : stage.pending = none) :
    PhotoMove s w i (giveUp w s original thumb stage).1 (giveUp w s original thumb stage).2 :=
  .dropped _ _ pending late done

theorem of_retry (pending : w.stage.pending = some [original, thumb]) (photo : Photo) (attempt : ℕ) :
    PhotoMove s w i (retry w s photo original thumb attempt).1 (retry w s photo original thumb attempt).2 := by
  unfold retry
  split
  · exact of_goes (goes_late rfl pending.symm)
  · exact of_giveUp pending rfl rfl

theorem of_capture (pending : w.stage.pending = some [original, thumb]) (photo : Photo) (attempt : ℕ) :
    PhotoMove s w i (capture w i s photo original thumb attempt).1 (capture w i s photo original thumb attempt).2 := by
  unfold capture
  split
  · exact of_giveUp pending rfl rfl
  · split
    · exact of_goes (goes_late rfl pending.symm)
    · exact of_retry pending photo attempt

theorem of_locked (pending : w.stage.pending = some [original, thumb]) (photo : Photo) (attempt : ℕ)
    (expected : List ImageGeneration) : PhotoMove s w i (locked w i s photo original thumb attempt expected).1
      (locked w i s photo original thumb attempt expected).2 := by
  unfold locked
  split
  · exact of_giveUp pending rfl rfl
  · split
    · exact of_retry pending photo attempt
    · cases same : s.images.find? fun image => image.sha256 == photo.sha with
      | some => exact of_giveUp pending rfl rfl
      | none =>
        cases like : s.images.find? (ProductImage.resembles photo.phash) with
        | some => exact of_giveUp pending rfl rfl
        | none =>
          dsimp only
          split
          · exact of_giveUp pending rfl rfl
          · next room =>
            split
            · exact of_retry pending photo attempt
            · refine .created photo original thumb pending (fun image mem => ?_) (fun image mem => ?_) fun limited => ?_
              · exact fun equal => List.find?_eq_none.mp same image mem (beq_iff_eq.mpr equal)
              · exact Bool.eq_false_iff.mpr (List.find?_eq_none.mp like image mem)
              · exact Nat.lt_of_not_le fun full => room ⟨limited, full⟩

theorem goes_retryUpdate (late : w.stage.early = false) (free : w.stage.pending = none) (image : ℕ) (photo : Photo) (attempt : ℕ) :
    Goes w (retryUpdate w image photo attempt) := by
  unfold retryUpdate
  split
  · exact goes_late rfl free.symm
  · exact goes_late rfl free.symm

theorem of_captureUpdate (late : w.stage.early = false) (free : w.stage.pending = none) (image : ℕ) (photo : Photo) (attempt : ℕ) :
    PhotoMove s w i (captureUpdate w i s image photo attempt).1 (captureUpdate w i s image photo attempt).2 := by
  unfold captureUpdate
  cases s.images.find? fun row => row.pk == image with
  | none => exact of_reading (goes_late rfl free.symm) free
  | some =>
    dsimp only
    apply of_reading _ free
    split
    · exact goes_late rfl free.symm
    · exact goes_retryUpdate late free image photo attempt

theorem of_lockedUpdate (late : w.stage.early = false) (free : w.stage.pending = none) (image : ℕ) (photo : Photo) (attempt : ℕ)
    (expected : List ImageGeneration) : PhotoMove s w i (lockedUpdate w i s image photo attempt expected).1
      (lockedUpdate w i s image photo attempt expected).2 := by
  unfold lockedUpdate
  split
  · exact of_goes (goes_late rfl free.symm)
  · split
    · exact of_goes (goes_retryUpdate late free image photo attempt)
    · cases s.images.find? fun row => row.pk == image && row.sha256 == photo.sha with
      | none => exact of_goes (goes_retryUpdate late free image photo attempt)
      | some row => exact .updated photo row late free

theorem of_advance (imaging : Imaging) (w : PhotoWorker) (i : PhotoInput) (s : PhotoStore) :
    PhotoMove s w i (advance imaging w i s).1 (advance imaging w i s).2 := by
  have stays : PhotoMove s w i s w := .went w.stage id rfl
  unfold advance
  cases at_ : w.stage with
  | entered =>
    have early : w.stage.early = true := by rw [at_]; rfl
    dsimp only [checkEntry]
    split
    · apply of_reading _ (unpaired_of_early early)
      split
      · exact goes_of_early early rfl
      · exact goes_of_early early rfl
    · exact of_goes (goes_of_early early rfl)
  | admitted => exact of_receive (by rw [at_]; rfl)
  | downloaded =>
    have early : w.stage.early = true := by rw [at_]; rfl
    exact of_reading (goes_of_early early rfl) (unpaired_of_early early)
  | compared raw existing => exact of_compare (by rw [at_]; rfl) raw existing
  | unsaved photo =>
    have early : w.stage.early = true := by rw [at_]; rfl
    dsimp only [saveOriginal]
    cases saves : i.saves with
    | none => exact .drew early
    | some name => exact .saved photo name early (by rw [at_]; rfl) saves
  | half photo original =>
    have pending : w.stage.pending = some [original] := by rw [at_]; rfl
    dsimp only [saveThumb]
    cases saves : i.saves with
    | none => exact .dropped _ _ pending rfl rfl
    | some name => exact .paired photo original name at_ saves
  | trying photo _ _ attempt => exact of_capture (by rw [at_]; rfl) photo attempt
  | captured photo _ _ attempt expected => exact of_locked (by rw [at_]; rfl) photo attempt expected
  | finding =>
    have free : w.stage.pending = none := by rw [at_]; rfl
    exact of_reading (goes_late rfl free.symm) free
  | updating image photo attempt => exact of_captureUpdate (by rw [at_]; rfl) (by rw [at_]; rfl) image photo attempt
  | capturedUpdate image photo attempt expected =>
    exact of_lockedUpdate (by rw [at_]; rfl) (by rw [at_]; rfl) image photo attempt expected
  | returned => exact stays
  | raised => exact stays

end PhotoMove

/-! ## Rows and the names of objects -/

/-- The names of objects are those of attempts or of others, and no row refers to a deleted one. -/
structure PhotoStore.Sound (s : PhotoStore) : Prop where
  shas : (s.images.map ProductImage.sha256).Nodup
  pks : (s.images.map ProductImage.pk).Nodup
  below : ∀ image ∈ s.images, image.pk < s.nextPk
  named : ∀ image ∈ s.images, ∀ key ∈ image.keys, (s.names key).isSome = true
  gone : ∀ key ∈ s.deleted, (s.names key).isSome = true
  kept : ∀ image ∈ s.images, ∀ key ∈ image.keys, key ∉ s.deleted

def Settled (s : PhotoStore) (stored : List Text) : Prop :=
  (∃ image ∈ s.images, stored = [image.s3Key, image.s3KeyThumb] ∧
      ∀ key ∈ stored, ∀ other ∈ s.images, key ∈ other.keys ↔ other = image) ∨
    ∀ key ∈ stored, key ∈ s.deleted

structure Waiting (s : PhotoStore) (stored keys : List Text) : Prop where
  same : stored = keys
  unused : ∀ key ∈ keys, ∀ image ∈ s.images, key ∉ image.keys
  there : ∀ key ∈ keys, key ∉ s.deleted

structure Held (s : PhotoStore) (w : PhotoWorker) : Prop where
  owned : ∀ key ∈ w.stored, ∃ token, w.token = some token ∧ s.names key = some (some token)
  clean : ∀ key ∈ w.stored, key ≠ [] ∧ Url.strip key = key
  nothing : w.stage.early = true → w.stored = []
  waiting : ∀ keys, w.stage.pending = some keys → Waiting s w.stored keys
  settled : w.stage.early = false → w.stage.pending = none → Settled s w.stored

theorem Held.enter (s : PhotoStore) (call : PhotoCall) : Held s (enter call) where
  owned key mem := absurd mem List.not_mem_nil
  clean key mem := absurd mem List.not_mem_nil
  nothing _ := rfl
  waiting keys pending := by cases pending
  settled late := by cases late

theorem settled_nil (s : PhotoStore) : Settled s [] := .inr fun key mem => absurd mem List.not_mem_nil

theorem mem_keys_newImage {w : PhotoWorker} {s : PhotoStore} {photo : Photo} {original thumb key : Text} (there : key ≠ []) :
    key ∈ (newImage w s photo original thumb).keys ↔ key ∈ [original, thumb] := by
  simp [ProductImage.keys, newImage, there]

@[simp] theorem keys_updateMetadata (w : PhotoWorker) (photo : Photo) (image : ProductImage) :
    (updateMetadata w photo image).keys = image.keys := rfl

theorem keys_ne_nil {image : ProductImage} {key : Text} (mem : key ∈ image.keys) : key ≠ [] :=
  bne_iff_ne.mp (List.mem_filter.mp mem).2

theorem mem_deleteStorageKeys {s : PhotoStore} {keys : List Text} (clean : ∀ key ∈ keys, key ≠ [] ∧ Url.strip key = key) {key : Text} :
    key ∈ (s.deleteStorageKeys keys).deleted ↔ key ∈ s.deleted ∨ key ∈ keys := by
  have kept : (keys.filter fun key => key != []).map Url.strip = keys := by
    rw [List.filter_eq_self.mpr fun key mem => bne_iff_ne.mpr (clean key mem).1]
    exact (List.map_congr_left fun key mem => (clean key mem).2).trans (List.map_id keys)
  rw [PhotoStore.deleteStorageKeys, kept, List.mem_append]
  apply or_congr_right
  constructor
  · exact fun mem => (distinct.sublist id [] keys).subset mem
  · intro mem
    have covered : id key ∈ ([] : List Text) ∨ ∃ same ∈ distinct id [] keys, id same = id key := distinct.covers mem
    rcases covered with seen | ⟨same, there, rfl⟩
    · exact absurd seen List.not_mem_nil
    · exact there

theorem Held.transfer {s later : PhotoStore} {v : PhotoWorker} (held : Held s v)
    (names : ∀ key ∈ v.stored, (s.names key).isSome = true → later.names key = s.names key)
    (deleted : ∀ key ∈ v.stored, key ∈ later.deleted → key ∈ s.deleted)
    (unused : ∀ key ∈ v.stored, (∀ image ∈ s.images, key ∉ image.keys) → ∀ image ∈ later.images, key ∉ image.keys)
    (settled : Settled s v.stored → Settled later v.stored) : Held later v where
  owned key mem := by
    obtain ⟨token, own, named⟩ := held.owned key mem
    exact ⟨token, own, (names key mem (by rw [named]; rfl)).trans named⟩
  clean := held.clean
  nothing := held.nothing
  waiting keys pending := by
    have waits := held.waiting keys pending
    exact ⟨waits.same, fun key mem => unused key (waits.same ▸ mem) (waits.unused key mem),
      fun key mem gone => waits.there key mem (deleted key (waits.same ▸ mem) gone)⟩
  settled late free := settled (held.settled late free)

namespace PhotoMove

variable {s later : PhotoStore} {w w' v : PhotoWorker} {i : PhotoInput}

theorem apart_stored (own : Held s w) (held : Held s v) (apart : ∀ token ∈ v.token, w.token ≠ some token) {key : Text}
    (mem : key ∈ v.stored) : key ∉ w.stored := by
  intro there
  obtain ⟨token, is, named⟩ := held.owned key mem
  obtain ⟨other, has, same⟩ := own.owned key there
  have equal : token = other := Option.some.inj (Option.some.inj (named.symm.trans same))
  exact apart token is (equal ▸ has)

theorem settled_created {stored : List Text} (settled : Settled s stored) (sound : s.Sound) {row : ProductImage} (fresh : row.pk = s.nextPk)
    (free : ∀ key ∈ stored, key ∉ row.keys) (nextPk : ℕ) :
    Settled { s with images := s.images ++ [row], nextPk := nextPk } stored := by
  rcases settled with ⟨image, mem, pair, only⟩ | gone
  · refine .inl ⟨image, List.mem_append_left _ mem, pair, fun key there other otherMem => ?_⟩
    rcases List.mem_append.mp otherMem with old | new
    · exact only key there other old
    · obtain rfl := List.mem_singleton.mp new
      have apart : other ≠ image := by
        rintro rfl
        exact absurd fresh (Nat.ne_of_lt (sound.below other mem))
      exact iff_of_false (free key there) apart
  · exact .inr gone

def rewritten (w : PhotoWorker) (photo : Photo) (row old : ProductImage) : ProductImage :=
  if old.pk = row.pk then updateMetadata w photo old else old

theorem rewritten_keeps (w : PhotoWorker) (photo : Photo) (row old : ProductImage) :
    (rewritten w photo row old).keys = old.keys ∧ (rewritten w photo row old).s3Key = old.s3Key ∧
      (rewritten w photo row old).s3KeyThumb = old.s3KeyThumb ∧ (rewritten w photo row old).pk = old.pk ∧
      (rewritten w photo row old).sha256 = old.sha256 ∧ (rewritten w photo row old).status = old.status := by
  unfold rewritten
  split <;> exact ⟨rfl, rfl, rfl, rfl, rfl, rfl⟩

theorem settled_rewritten (w : PhotoWorker) (photo : Photo) (row : ProductImage) {stored : List Text} (settled : Settled s stored) :
    Settled { s with images := s.images.map (rewritten w photo row) } stored := by
  have keeps := rewritten_keeps w photo row
  rcases settled with ⟨image, mem, pair, only⟩ | gone
  · refine .inl ⟨rewritten w photo row image, List.mem_map_of_mem mem, ?_, fun key there other otherMem => ?_⟩
    · rw [(keeps image).2.1, (keeps image).2.2.1]
      exact pair
    · obtain ⟨old, oldMem, rfl⟩ := List.mem_map.mp otherMem
      rw [(keeps old).1]
      constructor
      · intro refers
        rw [(only key there old oldMem).mp refers]
      · intro same
        rw [← (keeps old).1, same, (keeps image).1]
        exact (only key there image mem).mpr rfl
  · exact .inr gone

theorem held_other (move : PhotoMove s w i later w') (sound : s.Sound) (own : Held s w) (held : Held s v)
    (apart : ∀ token ∈ v.token, w.token ≠ some token) (fresh : StoresFresh s w i) : Held later v := by
  have foreign {key : Text} (mem : key ∈ v.stored) : key ∉ w.stored := apart_stored own held apart mem
  have renamed {name : Text} (unknown : s.names name = none) (value : Option ℕ) :
      ∀ key ∈ v.stored, (s.names key).isSome = true → (s.names.set name value) key = s.names key := by
    intro key _ known
    apply Dict.set_other
    rintro rfl
    rw [unknown] at known
    cases known
  cases move with
  | went => exact held
  | drew => exact held.transfer (fun _ _ _ => rfl) (fun _ _ gone => gone) (fun _ _ unused => unused) id
  | saved _ name _ saving saves =>
    exact held.transfer (renamed (fresh saving name saves).1 _) (fun _ _ gone => gone) (fun _ _ unused => unused) id
  | paired _ _ name at_ saves =>
    have saving : w.stage.saving = true := by rw [at_]; rfl
    exact held.transfer (renamed (fresh saving name saves).1 _) (fun _ _ gone => gone) (fun _ _ unused => unused) id
  | dropped keys _ pending =>
    have waits := own.waiting keys pending
    have dropped {key : Text} : key ∈ (s.deleteStorageKeys keys).deleted ↔ key ∈ s.deleted ∨ key ∈ keys :=
      mem_deleteStorageKeys (waits.same ▸ own.clean)
    refine held.transfer (fun _ _ _ => rfl) (fun key mem gone => ?_) (fun _ _ unused => unused) fun settled => ?_
    · rcases dropped.mp gone with before | mine
      · exact before
      · exact absurd (waits.same ▸ mine) (foreign mem)
    · rcases settled with adopted | gone
      · exact .inl adopted
      · exact .inr fun key mem => dropped.mpr (.inl (gone key mem))
  | created photo original thumb pending =>
    have waits := own.waiting _ pending
    have free {key : Text} (mem : key ∈ v.stored) : key ∉ (newImage w s photo original thumb).keys := by
      intro refers
      exact foreign mem (waits.same ▸ (mem_keys_newImage (keys_ne_nil refers)).mp refers)
    refine held.transfer (fun _ _ _ => rfl) (fun _ _ gone => gone) (fun key mem unused image there => ?_)
      fun settled => settled_created settled sound rfl (fun key mem => free mem) _
    rcases List.mem_append.mp there with old | new
    · exact unused image old
    · exact List.mem_singleton.mp new ▸ free mem
  | updated photo row =>
    refine held.transfer (fun _ _ _ => rfl) (fun _ _ gone => gone) (fun key mem unused image there => ?_)
      fun settled => settled_rewritten w photo row settled
    obtain ⟨old, oldMem, rfl⟩ := List.mem_map.mp there
    have same := (rewritten_keeps w photo row old).1
    exact fun refers => unused old oldMem (same ▸ refers)

theorem unused_of_fresh (sound : s.Sound) {name : Text} (unknown : s.names name = none) :
    (∀ image ∈ s.images, name ∉ image.keys) ∧ name ∉ s.deleted := by
  refine ⟨fun image mem refers => ?_, fun gone => ?_⟩
  · have known := sound.named image mem name refers
    rw [unknown] at known
    cases known
  · have known := sound.gone name gone
    rw [unknown] at known
    cases known

theorem held_own (move : PhotoMove s w i later w') (sound : s.Sound) (own : Held s w) (fresh : StoresFresh s w i) : Held later w' := by
  cases move with
  | went _ early pending =>
    refine ⟨own.owned, own.clean, fun is => own.nothing (early is), fun keys is => own.waiting keys (pending.symm.trans is), fun late free => ?_⟩
    by_cases is : w.stage.early = true
    · rw [PhotoWorker.goto, own.nothing is]
      exact settled_nil s
    · exact own.settled (Bool.eq_false_iff.mpr is) (pending.symm.trans free)
  | drew early =>
    have nothing := own.nothing early
    refine ⟨fun key mem => ?_, own.clean, fun _ => nothing, fun keys is => (by cases is), fun _ _ => ?_⟩
    · exact absurd (nothing ▸ mem) List.not_mem_nil
    · exact nothing ▸ settled_nil _
  | saved _ name _ saving saves =>
    obtain ⟨unknown, filled, plain⟩ := fresh saving name saves
    obtain ⟨unused, there⟩ := unused_of_fresh sound unknown
    refine ⟨fun key mem => ?_, fun key mem => ?_, fun is => (by cases is), fun keys is => ?_, fun _ free => (by cases free)⟩
    · obtain rfl := List.mem_singleton.mp mem
      exact ⟨s.attempts, rfl, Dict.set_self _ _ _⟩
    · exact List.mem_singleton.mp mem ▸ ⟨filled, plain⟩
    · cases is
      refine ⟨rfl, fun key mem => ?_, fun key mem => ?_⟩
      · exact List.mem_singleton.mp mem ▸ unused
      · exact List.mem_singleton.mp mem ▸ there
  | paired _ original name at_ saves =>
    have saving : w.stage.saving = true := by rw [at_]; rfl
    have waits : Waiting s w.stored [original] := own.waiting [original] (by rw [at_]; rfl)
    obtain ⟨unknown, filled, plain⟩ := fresh saving name saves
    obtain ⟨unused, there⟩ := unused_of_fresh sound unknown
    have first : original ∈ w.stored := waits.same ▸ List.mem_singleton_self original
    obtain ⟨token, is, named⟩ := own.owned original first
    have apart : original ≠ name := by
      rintro rfl
      rw [unknown] at named
      cases named
    refine ⟨fun key mem => ⟨token, is, ?_⟩, fun key mem => ?_, fun is => (by cases is), fun keys is => ?_, fun _ free => (by cases free)⟩
    · rcases List.mem_cons.mp mem with rfl | last
      · exact (Dict.set_other _ _ apart).trans named
      · rw [List.mem_singleton.mp last, is]
        exact Dict.set_self _ _ _
    · rcases List.mem_cons.mp mem with rfl | last
      · exact own.clean _ first
      · exact List.mem_singleton.mp last ▸ ⟨filled, plain⟩
    · cases is
      refine ⟨rfl, fun key mem => ?_, fun key mem => ?_⟩
      · rcases List.mem_cons.mp mem with rfl | last
        · exact waits.unused _ (List.mem_singleton_self _)
        · exact List.mem_singleton.mp last ▸ unused
      · rcases List.mem_cons.mp mem with rfl | last
        · exact waits.there _ (List.mem_singleton_self _)
        · exact List.mem_singleton.mp last ▸ there
  | dropped keys _ pending late done =>
    have waits := own.waiting keys pending
    refine ⟨own.owned, own.clean, fun is => absurd (late.symm.trans is) (by decide), fun keys is => ?_, fun _ _ => .inr fun key mem => ?_⟩
    · cases done.symm.trans is
    · exact (mem_deleteStorageKeys (waits.same ▸ own.clean)).mpr (.inr (waits.same ▸ mem))
  | created photo original thumb pending =>
    have waits := own.waiting _ pending
    refine ⟨own.owned, own.clean, fun is => (by cases is), fun keys is => (by cases is), fun _ _ => .inl ?_⟩
    refine ⟨newImage w s photo original thumb, List.mem_append_right _ (List.mem_singleton_self _), waits.same, fun key mem other otherMem => ?_⟩
    have refers : key ∈ (newImage w s photo original thumb).keys :=
      (mem_keys_newImage (own.clean key mem).1).mpr (waits.same ▸ mem)
    rcases List.mem_append.mp otherMem with old | new
    · refine iff_of_false (waits.unused key (waits.same ▸ mem) other old) ?_
      rintro rfl
      exact absurd (sound.below _ old) (Nat.lt_irrefl _)
    · obtain rfl := List.mem_singleton.mp new
      exact iff_of_true refers rfl
  | updated photo row late free =>
    refine ⟨own.owned, own.clean, fun is => (by cases is), fun keys is => (by cases is), fun _ _ => ?_⟩
    exact settled_rewritten w photo row (own.settled late free)

theorem sound (move : PhotoMove s w i later w') (sound : s.Sound) (own : Held s w) (fresh : StoresFresh s w i) : later.Sound := by
  have renamed {name : Text} (unknown : s.names name = none) (value : Option ℕ) {key : Text} (known : (s.names key).isSome = true) :
      ((s.names.set name value) key).isSome = true := by
    rw [Dict.set_other]
    · exact known
    · rintro rfl
      rw [unknown] at known
      cases known
  cases move with
  | went => exact sound
  | drew => exact ⟨sound.shas, sound.pks, sound.below, sound.named, sound.gone, sound.kept⟩
  | saved _ name _ saving saves =>
    have unknown := (fresh saving name saves).1
    exact ⟨sound.shas, sound.pks, sound.below, fun image mem key refers => renamed unknown _ (sound.named image mem key refers),
      fun key gone => renamed unknown _ (sound.gone key gone), sound.kept⟩
  | paired _ _ name at_ saves =>
    have unknown := (fresh (by rw [at_]; rfl) name saves).1
    exact ⟨sound.shas, sound.pks, sound.below, fun image mem key refers => renamed unknown _ (sound.named image mem key refers),
      fun key gone => renamed unknown _ (sound.gone key gone), sound.kept⟩
  | dropped keys _ pending =>
    have waits := own.waiting keys pending
    have dropped {key : Text} : key ∈ (s.deleteStorageKeys keys).deleted ↔ key ∈ s.deleted ∨ key ∈ keys :=
      mem_deleteStorageKeys (waits.same ▸ own.clean)
    refine ⟨sound.shas, sound.pks, sound.below, sound.named, fun key gone => ?_, fun image mem key refers gone => ?_⟩
    · rcases dropped.mp gone with before | mine
      · exact sound.gone key before
      · obtain ⟨token, -, named⟩ := own.owned key (waits.same ▸ mine)
        exact named ▸ rfl
    · rcases dropped.mp gone with before | mine
      · exact sound.kept image mem key refers before
      · exact waits.unused key mine image mem refers
  | created photo original thumb pending other =>
    have waits := own.waiting _ pending
    have pair {key : Text} (refers : key ∈ (newImage w s photo original thumb).keys) : key ∈ [original, thumb] :=
      (mem_keys_newImage (keys_ne_nil refers)).mp refers
    refine ⟨?_, ?_, fun image mem => ?_, fun image mem key refers => ?_, sound.gone, fun image mem key refers => ?_⟩
    · rw [List.map_append]
      apply List.nodup_append.mpr ⟨sound.shas, List.nodup_singleton _, ?_⟩
      intro sha old sha' new
      obtain ⟨image, mem, rfl⟩ := List.mem_map.mp old
      rw [List.mem_singleton.mp new]
      exact other image mem
    · rw [List.map_append]
      apply List.nodup_append.mpr ⟨sound.pks, List.nodup_singleton _, ?_⟩
      intro pk old pk' new
      obtain ⟨image, mem, rfl⟩ := List.mem_map.mp old
      rw [List.mem_singleton.mp new]
      exact Nat.ne_of_lt (sound.below image mem)
    · rcases List.mem_append.mp mem with old | new
      · exact Nat.lt_succ_of_lt (sound.below image old)
      · rw [List.mem_singleton.mp new]
        exact Nat.lt_succ_self s.nextPk
    · rcases List.mem_append.mp mem with old | new
      · exact sound.named image old key refers
      · obtain ⟨token, -, named⟩ := own.owned key (waits.same ▸ pair (List.mem_singleton.mp new ▸ refers))
        exact named ▸ rfl
    · rcases List.mem_append.mp mem with old | new
      · exact sound.kept image old key refers
      · exact waits.there key (pair (List.mem_singleton.mp new ▸ refers))
  | updated photo row =>
    have keeps := rewritten_keeps w photo row
    have column {A : Type} (f : ProductImage → A) (same : ∀ old, f (rewritten w photo row old) = f old) :
        (s.images.map (rewritten w photo row)).map f = s.images.map f := by
      rw [List.map_map]
      exact List.map_congr_left fun old _ => same old
    refine ⟨?_, ?_, fun image mem => ?_, fun image mem key refers => ?_, sound.gone, fun image mem key refers => ?_⟩
    · exact (column ProductImage.sha256 fun old => (keeps old).2.2.2.2.1) ▸ sound.shas
    · exact (column ProductImage.pk fun old => (keeps old).2.2.2.1) ▸ sound.pks
    all_goals obtain ⟨old, oldMem, rfl⟩ := List.mem_map.mp mem
    · exact (keeps old).2.2.2.1.trans_lt (sound.below old oldMem)
    · exact sound.named old oldMem key ((keeps old).1 ▸ refers)
    · exact sound.kept old oldMem key ((keeps old).1 ▸ refers)

theorem draws (move : PhotoMove s w i later w') : Draws PhotoWorker.token PhotoStore.attempts s w later w' := by
  cases move with
  | drew => exact ⟨Nat.le_succ _, .inr (.inr ⟨rfl, Nat.lt_succ_self _⟩)⟩
  | saved => exact ⟨Nat.le_succ _, .inr (.inr ⟨rfl, Nat.lt_succ_self _⟩)⟩
  | _ => exact ⟨Nat.le_refl _, .inr (.inl rfl)⟩

end PhotoMove

/-! ## Crews -/

namespace PhotoCrew

variable {imaging : Imaging} {c : PhotoCrew}

structure Sound (c : PhotoCrew) : Prop where
  keeps : Crew.Keeps PhotoStore.Sound Held c
  tokens : Crew.Tokens PhotoWorker.token PhotoStore.attempts c

theorem held_takeName {s : PhotoStore} {v : PhotoWorker} (held : Held s v) (name : Text) : Held (takeName s name) v := by
  unfold takeName
  split
  next unknown =>
    refine held.transfer (fun key _ known => ?_) (fun _ _ gone => gone) (fun _ _ unused => unused) id
    apply Dict.set_other
    rintro rfl
    rw [unknown] at known
    cases known
  next => exact held

theorem sound_takeName {s : PhotoStore} (sound : s.Sound) (name : Text) : (takeName s name).Sound := by
  unfold takeName
  split
  next unknown =>
    have renamed {key : Text} (known : (s.names key).isSome = true) : ((s.names.set name none) key).isSome = true := by
      rw [Dict.set_other]
      · exact known
      · rintro rfl
        rw [unknown] at known
        cases known
    exact ⟨sound.shas, sound.pks, sound.below, fun image mem key refers => renamed (sound.named image mem key refers),
      fun key gone => renamed (sound.gone key gone), sound.kept⟩
  next => exact sound

theorem Sound.next (sound : c.Sound) (a : PhotoAction) (fresh : c.Allowed (fun c => StoresFresh c.store) a) : (c.next imaging a).Sound where
  keeps := by
    refine sound.keeps.act a fresh (fun call => Held.enter c.store call)
      (fun name => ⟨sound_takeName sound.keeps.store name, fun v held => held_takeName held name⟩) fun k input w found own stores => ?_
    have move := PhotoMove.of_advance imaging w input c.store
    refine ⟨move.sound sound.keeps.store own stores, move.held_own sound.keeps.store own stores, fun j v other at_j held => ?_⟩
    exact move.held_other sound.keeps.store own held (sound.tokens.apart j k v w other at_j found) stores
  tokens := by
    refine sound.tokens.act a (fun call => rfl) (fun name => ?_) fun k input w _ => (PhotoMove.of_advance imaging w input c.store).draws
    unfold takeName
    split <;> rfl

theorem sound_productWith {images : List ProductImage} {nextPk : ℕ} {others : List Text} (shas : (images.map ProductImage.sha256).Nodup)
    (pks : (images.map ProductImage.pk).Nodup) (below : ∀ image ∈ images, image.pk < nextPk) : Sound (productWith images nextPk others) where
  keeps := by
    refine ⟨⟨shas, pks, below, fun image mem key refers => ?_, fun key gone => absurd gone List.not_mem_nil,
      fun image mem key refers => List.not_mem_nil⟩, fun w mem => absurd mem List.not_mem_nil⟩
    have known : (others.contains key || images.any fun image => image.keys.contains key) = true := by
      rw [Bool.or_eq_true, List.any_eq_true]
      exact .inr ⟨image, mem, List.contains_iff_mem.mpr refers⟩
    simp only [productWith, known, if_true, Option.isSome_some]
  tokens := ⟨fun w mem => absurd mem List.not_mem_nil, fun j k v w _ at_j => by cases at_j⟩

end PhotoCrew

/-! ## What the rows and the objects are -/

namespace PhotoMove

variable {s later : PhotoStore} {w w' : PhotoWorker} {i : PhotoInput}

theorem distant_of_unlike {image : ProductImage} {phash : Text} (unlike : image.resembles phash = false) (live : image.status ≠ rejected) :
    perceptualDupDistance < phashDistance image.phash phash := by
  by_cases blank : image.phash = []
  · rw [blank, phashDistance, if_pos (.inl rfl)]
    decide
  · have lively : image.live = true := bne_iff_ne.mpr live
    have filled : (image.phash != []) = true := bne_iff_ne.mpr blank
    rw [ProductImage.resembles, lively, filled] at unlike
    exact Nat.lt_of_not_le (of_decide_eq_false unlike)

theorem distant (move : PhotoMove s w i later w') {row : ProductImage} (mem : row ∈ later.images)
    (new : ∀ old ∈ s.images, old.pk ≠ row.pk) {other : ProductImage} (there : other ∈ s.images) (live : other.status ≠ rejected) :
    perceptualDupDistance < phashDistance other.phash row.phash := by
  cases move with
  | created _ _ _ _ _ unlike =>
    rcases List.mem_append.mp mem with old | made
    · exact absurd rfl (new row old)
    · rw [List.mem_singleton.mp made]
      exact distant_of_unlike (unlike other there) live
  | updated photo row =>
    obtain ⟨old, oldMem, rfl⟩ := List.mem_map.mp mem
    exact absurd (rewritten_keeps w photo row old).2.2.2.1.symm (new old oldMem)
  | _ => exact absurd rfl (new row mem)

theorem limited (move : PhotoMove s w i later w') (limits : w.call.checkLimit = true) (more : s.liveCount < later.liveCount) :
    later.liveCount ≤ maxPhotos := by
  cases move with
  | created photo original thumb _ _ _ room =>
    have below := room limits
    have one : (s.images ++ [newImage w s photo original thumb]).countP ProductImage.live ≤ s.liveCount + 1 := by
      rw [List.countP_append]
      exact Nat.add_le_add_left List.countP_le_length _
    exact one.trans below
  | updated photo row =>
    have same : (s.images.map (rewritten w photo row)).countP ProductImage.live = s.liveCount := by
      rw [List.countP_map]
      apply List.countP_congr
      intro old _
      rw [Function.comp_apply, ProductImage.live, (rewritten_keeps w photo row old).2.2.2.2.2, ProductImage.live]
    exact absurd more (Nat.not_lt.mpr same.le)
  | _ => exact absurd more (Nat.lt_irrefl _)

end PhotoMove

def PhotoWorker.finished (w : PhotoWorker) : Bool :=
  match w.stage with
  | .returned _ => true
  | .raised => true
  | _ => false

theorem PhotoWorker.free_of_finished {w : PhotoWorker} (over_ : w.finished = true) : w.stage.early = false ∧ w.stage.pending = none := by
  unfold PhotoWorker.finished at over_
  cases at_ : w.stage <;> simp_all [Stage.early, Stage.pending]

structure Ingested (imaging : Imaging) (c : PhotoCrew) (a : PhotoAction) : Prop where
  oneCopy : (c.store.images.map ProductImage.sha256).Nodup
  distant : ∀ row ∈ (c.next imaging a).store.images, (∀ old ∈ c.store.images, old.pk ≠ row.pk) →
    ∀ other ∈ c.store.images, other.status ≠ rejected → perceptualDupDistance < phashDistance other.phash row.phash
  limited : ∀ k input w, a = .move k input → c.workers[k]? = some w → w.call.checkLimit = true →
    c.store.liveCount < (c.next imaging a).store.liveCount → (c.next imaging a).store.liveCount ≤ maxPhotos
  answered : ∀ w ∈ c.workers, w.finished = true →
    (∃ image ∈ c.store.images, w.stored = [image.s3Key, image.s3KeyThumb] ∧
      ∀ key ∈ w.stored, ∀ other ∈ c.store.images, key ∈ other.keys ↔ other = image) ∨
    ∀ key ∈ w.stored, key ∈ c.store.deleted
  kept : ∀ image ∈ c.store.images, ∀ key ∈ image.keys, key ∉ c.store.deleted

theorem PhotoCrew.Sound.ingested {imaging : Imaging} {c : PhotoCrew} (sound : c.Sound) (a : PhotoAction) : Ingested imaging c a where
  oneCopy := sound.keeps.store.shas
  distant row mem new other there live := by
    have acted : (c.next imaging a).store = c.store ∨
        (∃ name, a = .direct name ∧ (c.next imaging a).store = takeName c.store name) ∨
        ∃ k input w, a = .move k input ∧ c.workers[k]? = some w ∧ (c.next imaging a).store = (advance imaging w input c.store).1 :=
      Crew.act_store c a
    rcases acted with same | ⟨name, -, is⟩ | ⟨k, input, w, -, -, is⟩
    · exact absurd rfl (new row (same ▸ mem))
    · have images : (takeName c.store name).images = c.store.images := by
        unfold takeName
        split <;> rfl
      exact absurd rfl (new row (images ▸ is ▸ mem))
    · exact (PhotoMove.of_advance imaging w input c.store).distant (is ▸ mem) new there live
  limited k input w acts found limits more := by
    have moved : (c.next imaging a).store = (advance imaging w input c.store).1 := by
      rw [acts, PhotoCrew.next]
      simp [Crew.act, CrewAction.enter, Crew.step, found]
    rw [moved] at more ⊢
    exact (PhotoMove.of_advance imaging w input c.store).limited limits more
  answered w mem over_ := by
    obtain ⟨late, free⟩ := PhotoWorker.free_of_finished over_
    exact (sound.keeps.workers w mem).settled late free
  kept := sound.keeps.store.kept

/-- Photo ingestion keeps one copy and no orphans, in every run of calls on a product whose photos have distinct hashes. -/
theorem ingests_one_copy (imaging : Imaging) {images : List ProductImage} {nextPk : ℕ} (others : List Text)
    (shas : (images.map ProductImage.sha256).Nodup) (pks : (images.map ProductImage.pk).Nodup) (below : ∀ image ∈ images, image.pk < nextPk)
    {actions : List PhotoAction}
    (fresh : Meets (PhotoCrew.next imaging) (Crew.Allowed fun c => StoresFresh c.store) (productWith images nextPk others) actions)
    (a : PhotoAction) : Ingested imaging (run (PhotoCrew.next imaging) (productWith images nextPk others) actions) a := by
  have step : ∀ (c : PhotoCrew) (a : PhotoAction), c.Sound → Crew.Allowed (fun c => StoresFresh c.store) c a → (c.next imaging a).Sound :=
    fun c a sound allowed => PhotoCrew.Sound.next sound a allowed
  have start : PhotoCrew.Sound (productWith images nextPk others) := PhotoCrew.sound_productWith shas pks below
  have sound := run_invariant (PhotoCrew.next imaging) step start fresh
  exact sound.ingested a

def byteCamera : Imaging where
  sha256 raw := raw.map fun byte => Char.ofNat (97 + byte.toNat)
  open_ raw := some ⟨400, 300, true, 1, some (raw.map UInt8.toNat)⟩
  maxDecodedPixels := 16000000
  minResolution := 300

def photoCall : PhotoCall := ⟨"u".toList, [], none, true, true, false⟩

def photoInput (saves : Text) : PhotoInput := ⟨.answered [1, 0, 1] "image/jpeg".toList, true, 0, some saves, true, .clean⟩

/-- Two calls store the same bytes and take their snapshots before either adds its row. -/
def racingCalls : List PhotoAction :=
  [.start photoCall, .start photoCall] ++ List.replicate 4 (.move 0 (photoInput [])) ++ List.replicate 4 (.move 1 (photoInput [])) ++
    [.move 0 (photoInput "a".toList), .move 0 (photoInput "b".toList), .move 1 (photoInput "c".toList), .move 1 (photoInput "d".toList),
      .move 0 (photoInput []), .move 1 (photoInput []), .move 0 (photoInput [])] ++ List.replicate 5 (.move 1 (photoInput []))

theorem ingests_one_copy_racing :
    (run (PhotoCrew.next byteCamera) (productWith [] 1 []) racingCalls).store.images.map ProductImage.keys = [["a".toList, "b".toList]] ∧
    (run (PhotoCrew.next byteCamera) (productWith [] 1 []) racingCalls).store.deleted = ["c".toList, "d".toList] ∧
    ((run (PhotoCrew.next byteCamera) (productWith [] 1 []) racingCalls).workers.map PhotoWorker.finished = [true, true]) ∧
    Ingested byteCamera (run (PhotoCrew.next byteCamera) (productWith [] 1 []) racingCalls) (.start photoCall) :=
  ⟨by decide +kernel, by decide +kernel, by decide +kernel,
    ingests_one_copy byteCamera [] (by decide +kernel) (by decide +kernel) (by decide +kernel) (by decide +kernel) _⟩

end MapBackend.Products.Photos
