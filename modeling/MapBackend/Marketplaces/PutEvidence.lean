import MapBackend.Marketplaces.PutListing

/-!
What a decision of the listing rests on.
-/

namespace MapBackend.Marketplaces.PutListing
open MapBackend.Library MapBackend.Core

/-! ## The evidence -/

def SafeKey (snapshot : AttemptSnapshot) (entry : Json) : Prop :=
  ∃ key, safeListingKey (field "Key" entry) snapshot.objectKey = .ok key

def isExact (snapshot : AttemptSnapshot) (entry : Json) : Bool := isText snapshot.objectKey (field "Key" entry)

def exactVersions (snapshot : AttemptSnapshot) (pages : List PageEntries) : List Json :=
  (pages.flatMap PageEntries.versions).filter (isExact snapshot)

def exactDeleteMarkers (snapshot : AttemptSnapshot) (pages : List PageEntries) : List Json :=
  (pages.flatMap PageEntries.deleteMarkers).filter (isExact snapshot)

structure Usable (snapshot : AttemptSnapshot) (version : Json) (id : Text) (isLatest : Bool) : Prop where
  id : usableVersionId (field "VersionId" version) = .ok id
  latest : latestFlag snapshot version = some isLatest

/-- Every entry can be read, no delete marker is one of the key and at most one version is, a usable one. -/
structure Clean (snapshot : AttemptSnapshot) (pages : List PageEntries) : Prop where
  keys : ∀ page ∈ pages, ∀ entry ∈ page.versions ++ page.deleteMarkers, SafeKey snapshot entry
  undeleted : exactDeleteMarkers snapshot pages = []
  sole : exactVersions snapshot pages = [] ∨
    ∃ version id isLatest, exactVersions snapshot pages = [version] ∧ Usable snapshot version id isLatest

/-- The pages that the client gives from this request on, the last of them not truncated. -/
inductive Lists (client : ℕ → ListRequest → ListAnswer) (snapshot : AttemptSnapshot) :
    ℕ → ℕ → Option (Text × Text) → List (Text × Text) → List PageEntries → Prop
  | last {remaining pageNumber markers seen response page}
      (answered : client pageNumber ⟨snapshot.storageBucket, snapshot.objectKey, snapshot.expectedBucketOwner, listPageSize, markers⟩ =
        .page response)
      (parsed : pageEntries response snapshot markers = .ok page) (complete : page.nextMarkers = none) :
      Lists client snapshot (remaining + 1) pageNumber markers seen [page]
  | more {remaining pageNumber markers seen response page next rest}
      (answered : client pageNumber ⟨snapshot.storageBucket, snapshot.objectKey, snapshot.expectedBucketOwner, listPageSize, markers⟩ =
        .page response)
      (parsed : pageEntries response snapshot markers = .ok page) (truncated : page.nextMarkers = some next)
      (advances : next ∉ seen) (later : Lists client snapshot remaining (pageNumber + 1) (some next) (next :: seen) rest) :
      Lists client snapshot (remaining + 1) pageNumber markers seen (page :: rest)

/-- A complete listing: well-formed pages up to one that is not truncated, no marker twice, within the bound. -/
def CompleteListing (client : ℕ → ListRequest → ListAnswer) (snapshot : AttemptSnapshot) (pages : List PageEntries) : Prop :=
  Lists client snapshot maxListPages 1 none [] pages

section Lemmas

variable {snapshot : AttemptSnapshot}

theorem exactVersions_append (first second : List PageEntries) :
    exactVersions snapshot (first ++ second) = exactVersions snapshot first ++ exactVersions snapshot second := by
  simp [exactVersions]

theorem exactVersions_single (page : PageEntries) :
    exactVersions snapshot [page] = page.versions.filter (isExact snapshot) := by
  simp [exactVersions]

theorem exactDeleteMarkers_append (first second : List PageEntries) :
    exactDeleteMarkers snapshot (first ++ second) = exactDeleteMarkers snapshot first ++ exactDeleteMarkers snapshot second := by
  simp [exactDeleteMarkers]

theorem exactDeleteMarkers_single (page : PageEntries) :
    exactDeleteMarkers snapshot [page] = page.deleteMarkers.filter (isExact snapshot) := by
  simp [exactDeleteMarkers]

theorem Clean.left {first second : List PageEntries} (clean : Clean snapshot (first ++ second)) : Clean snapshot first where
  keys page mem := clean.keys page (List.mem_append_left _ mem)
  undeleted := by
    have none_there := clean.undeleted
    rw [exactDeleteMarkers_append] at none_there
    exact (List.append_eq_nil_iff.mp none_there).1
  sole := by
    rcases clean.sole with absent | ⟨version, id, isLatest, one, usable⟩
    · rw [exactVersions_append] at absent
      exact .inl (List.append_eq_nil_iff.mp absent).1
    · rw [exactVersions_append] at one
      rcases List.append_eq_singleton_iff.mp one with ⟨absent, -⟩ | ⟨here, -⟩
      · exact .inl absent
      · exact .inr ⟨version, id, isLatest, here, usable⟩

theorem exact_of_key {entry : Json} {key : Text} (read : safeListingKey (field "Key" entry) snapshot.objectKey = .ok key) :
    isExact snapshot entry = decide (key = snapshot.objectKey) := by
  unfold isExact
  cases value : field "Key" entry with
  | none =>
    rw [value] at read
    cases read
  | some json =>
    rw [value] at read
    cases json with
    | text =>
      simp only [safeListingKey] at read
      split at read
      · cases read
        rfl
      · cases read
    | _ => cases read

/-! ## The loops of one page -/

def Scan.frame (scan : Scan) : Option (Text × Text) × List (Text × Text) × ℕ × ℕ × ℕ :=
  (scan.markers, scan.seenMarkers, scan.exactDeleteMarkers, scan.pagesScanned, scan.entriesScanned)

theorem countVersion_frame (scan : Scan) (unusable : Bool) (version : Json) :
    (countVersion snapshot scan unusable version).1.frame = scan.frame ∧
      (countVersion snapshot scan unusable version).1.exactVersionEntries = scan.exactVersionEntries + 1 := by
  unfold countVersion
  cases usableVersionId (field "VersionId" version) with
  | error => exact ⟨rfl, rfl⟩
  | ok =>
    cases latestFlag snapshot version with
    | none => exact ⟨rfl, rfl⟩
    | some =>
      dsimp only
      split <;> exact ⟨rfl, rfl⟩

structure CountedVersions (snapshot : AttemptSnapshot) (scan : Scan) (unusable : Bool) (versions : List Json) (after : Scan × Bool) :
    Prop where
  keys : ∀ version ∈ versions, SafeKey snapshot version
  frame : after.1.frame = scan.frame
  entries : after.1.exactVersionEntries = scan.exactVersionEntries + (versions.filter (isExact snapshot)).length
  none : versions.filter (isExact snapshot) = [] → after = (scan, unusable)
  one : ∀ version, versions.filter (isExact snapshot) = [version] → after = countVersion snapshot scan unusable version

theorem countVersions_ok {versions : List Json} {scan : Scan} {unusable : Bool} {after : Scan × Bool}
    (step : countVersions snapshot scan unusable versions = .ok after) : CountedVersions snapshot scan unusable versions after := by
  induction versions generalizing scan unusable with
  | nil =>
    cases step
    exact ⟨fun _ none_there => (nomatch none_there), rfl, rfl, fun _ => rfl, fun _ one => (nomatch one)⟩
  | cons version rest ih =>
    unfold countVersions at step
    cases read : safeListingKey (field "Key" version) snapshot.objectKey with
    | error =>
      rw [read] at step
      cases step
    | ok key =>
      rw [read] at step
      have exact := exact_of_key read
      dsimp only at step
      by_cases same : key = snapshot.objectKey
      · rw [if_neg (not_not.mpr same)] at step
        rw [decide_eq_true same] at exact
        obtain ⟨keys, frame, entries, stays, -⟩ := ih step
        obtain ⟨own_frame, own_entries⟩ := @countVersion_frame snapshot scan unusable version
        refine ⟨List.forall_mem_cons.mpr ⟨⟨key, read⟩, keys⟩, frame.trans own_frame, ?_, ?_, ?_⟩
        · rw [entries, own_entries, List.filter_cons_of_pos exact, List.length_cons]
          omega
        · rw [List.filter_cons_of_pos exact]
          exact fun absent => nomatch absent
        · intro other one
          rw [List.filter_cons_of_pos exact] at one
          obtain ⟨rfl, absent⟩ := List.cons_eq_cons.mp one
          exact stays absent
      · rw [if_pos same] at step
        rw [decide_eq_false same] at exact
        obtain ⟨keys, frame, entries, stays, single⟩ := ih step
        have skip : (version :: rest).filter (isExact snapshot) = rest.filter (isExact snapshot) :=
          List.filter_cons_of_neg (by rw [exact]; decide)
        exact ⟨List.forall_mem_cons.mpr ⟨⟨key, read⟩, keys⟩, frame, skip ▸ entries, skip ▸ stays, skip ▸ single⟩

theorem countVersions_safe {versions : List Json} (keys : ∀ version ∈ versions, SafeKey snapshot version) (scan : Scan)
    (unusable : Bool) : ∃ after, countVersions snapshot scan unusable versions = .ok after := by
  induction versions generalizing scan unusable with
  | nil => exact ⟨_, rfl⟩
  | cons _ _ ih =>
    obtain ⟨⟨key, read⟩, later⟩ := List.forall_mem_cons.mp keys
    unfold countVersions
    rw [read]
    dsimp only
    by_cases same : key = snapshot.objectKey
    · rw [if_neg (not_not.mpr same)]
      exact ih later _ _
    · rw [if_pos same]
      exact ih later _ _

theorem countDeleteMarkers_ok {markers : List Json} {scan after : Scan}
    (step : countDeleteMarkers snapshot scan markers = .ok after) :
    (∀ marker ∈ markers, SafeKey snapshot marker) ∧
      after = { scan with exactDeleteMarkers := scan.exactDeleteMarkers + (markers.filter (isExact snapshot)).length } := by
  induction markers generalizing scan with
  | nil =>
    cases step
    exact ⟨fun _ none_there => (nomatch none_there), rfl⟩
  | cons marker rest ih =>
    unfold countDeleteMarkers at step
    cases read : safeListingKey (field "Key" marker) snapshot.objectKey with
    | error =>
      rw [read] at step
      cases step
    | ok key =>
      rw [read] at step
      have exact := exact_of_key read
      dsimp only at step
      by_cases same : key = snapshot.objectKey
      · rw [if_neg (not_not.mpr same)] at step
        rw [decide_eq_true same] at exact
        obtain ⟨keys, made⟩ := ih step
        refine ⟨List.forall_mem_cons.mpr ⟨⟨key, read⟩, keys⟩, ?_⟩
        rw [made, List.filter_cons_of_pos exact, List.length_cons, Nat.add_right_comm, Nat.add_assoc]
      · rw [if_pos same] at step
        rw [decide_eq_false same] at exact
        obtain ⟨keys, made⟩ := ih step
        have skip : (marker :: rest).filter (isExact snapshot) = rest.filter (isExact snapshot) :=
          List.filter_cons_of_neg (by rw [exact]; decide)
        exact ⟨List.forall_mem_cons.mpr ⟨⟨key, read⟩, keys⟩, skip ▸ made⟩

theorem countDeleteMarkers_safe {markers : List Json} (keys : ∀ marker ∈ markers, SafeKey snapshot marker) (scan : Scan) :
    ∃ after, countDeleteMarkers snapshot scan markers = .ok after := by
  induction markers generalizing scan with
  | nil => exact ⟨_, rfl⟩
  | cons _ _ ih =>
    obtain ⟨⟨key, read⟩, later⟩ := List.forall_mem_cons.mp keys
    unfold countDeleteMarkers
    rw [read]
    dsimp only
    by_cases same : key = snapshot.objectKey
    · rw [if_neg (not_not.mpr same)]
      exact ih later _
    · rw [if_pos same]
      exact ih later _

/-! ## The scan describes the pages -/

/-- The variables of the loop after some pages, none of which forced a decision. -/
structure Covers (snapshot : AttemptSnapshot) (scan : Scan) (pages : List PageEntries) : Prop where
  clean : Clean snapshot pages
  entries : scan.exactVersionEntries = (exactVersions snapshot pages).length
  undeleted : scan.exactDeleteMarkers = 0
  bounded : scan.entriesScanned ≤ listPageSize * pages.length
  absent : exactVersions snapshot pages = [] → scan.exactVersionIds = [] ∧ scan.singleExactVersionIsLatest = none
  known : ∀ version id isLatest, exactVersions snapshot pages = [version] → Usable snapshot version id isLatest →
    scan.exactVersionIds = [id] ∧ scan.singleExactVersionIsLatest = some isLatest

theorem Covers.initial : Covers snapshot Scan.initial [] where
  clean := ⟨fun _ none_there => (nomatch none_there), rfl, .inl rfl⟩
  entries := rfl
  undeleted := rfl
  bounded := Nat.le_refl 0
  absent := fun _ => ⟨rfl, rfl⟩
  known := fun _ _ _ none_there => nomatch none_there

theorem countVersion_first {scan : Scan} {version : Json} (first : scan.exactVersionEntries = 0) (empty : scan.exactVersionIds = []) :
    ((countVersion snapshot scan false version).2 = false ↔ ∃ id isLatest, Usable snapshot version id isLatest) ∧
      ∀ id isLatest, Usable snapshot version id isLatest →
        (countVersion snapshot scan false version).1.exactVersionIds = [id] ∧
          (countVersion snapshot scan false version).1.singleExactVersionIsLatest = some isLatest := by
  unfold countVersion
  cases read : usableVersionId (field "VersionId" version) with
  | error =>
    have unusable : ∀ id isLatest, ¬ Usable snapshot version id isLatest := by
      intro id isLatest usable
      rw [usable.id] at read
      cases read
    refine ⟨⟨fun claimed => (nomatch claimed), ?_⟩, fun id isLatest usable => absurd usable (unusable id isLatest)⟩
    rintro ⟨id, isLatest, usable⟩
    exact absurd usable (unusable id isLatest)
  | ok own =>
    cases flag : latestFlag snapshot version with
    | none =>
      have unusable : ∀ id isLatest, ¬ Usable snapshot version id isLatest := by
        intro id isLatest usable
        rw [usable.latest] at flag
        cases flag
      refine ⟨⟨fun claimed => (nomatch claimed), ?_⟩, fun id isLatest usable => absurd usable (unusable id isLatest)⟩
      rintro ⟨id, isLatest, usable⟩
      exact absurd usable (unusable id isLatest)
    | some isLatest =>
      simp only [first, empty, Nat.zero_add, if_true]
      refine ⟨⟨fun _ => ⟨own, isLatest, read, flag⟩, fun _ => trivial⟩, fun id latest usable => ?_⟩
      obtain rfl : own = id := Except.ok.inj (read.symm.trans usable.id)
      obtain rfl : isLatest = latest := Option.some.inj (flag.symm.trans usable.latest)
      exact ⟨rfl, rfl⟩

theorem frame_inj {a b : Scan} (same : a.frame = b.frame) : a.markers = b.markers ∧ a.seenMarkers = b.seenMarkers ∧
    a.exactDeleteMarkers = b.exactDeleteMarkers ∧ a.pagesScanned = b.pagesScanned ∧ a.entriesScanned = b.entriesScanned := by
  simpa [Scan.frame] using same

theorem Clean.last_keys {pages : List PageEntries} {page : PageEntries} (clean : Clean snapshot (pages ++ [page])) :
    (∀ version ∈ page.versions, SafeKey snapshot version) ∧ ∀ marker ∈ page.deleteMarkers, SafeKey snapshot marker := by
  have keys := clean.keys page (List.mem_append_right _ List.mem_cons_self)
  exact ⟨fun version mem => keys version (List.mem_append_left _ mem), fun marker mem => keys marker (List.mem_append_right _ mem)⟩

theorem counted_page {scan : Scan} {pages : List PageEntries} {page : PageEntries} (covers : Covers snapshot scan pages)
    {after : Scan × Bool} {entriesScanned : ℕ}
    (counted : CountedVersions snapshot { scan with entriesScanned := entriesScanned } false page.versions after) :
    after.1.exactVersionEntries = (exactVersions snapshot (pages ++ [page])).length ∧
      ((exactVersions snapshot (pages ++ [page])).length ≤ 1 →
        (after.2 = false ↔ exactVersions snapshot (pages ++ [page]) = [] ∨
          ∃ version id isLatest, exactVersions snapshot (pages ++ [page]) = [version] ∧ Usable snapshot version id isLatest) ∧
        (exactVersions snapshot (pages ++ [page]) = [] →
          after.1.exactVersionIds = [] ∧ after.1.singleExactVersionIsLatest = none) ∧
        ∀ version id isLatest, exactVersions snapshot (pages ++ [page]) = [version] → Usable snapshot version id isLatest →
          after.1.exactVersionIds = [id] ∧ after.1.singleExactVersionIsLatest = some isLatest) := by
  have split : exactVersions snapshot (pages ++ [page]) =
      exactVersions snapshot pages ++ page.versions.filter (isExact snapshot) := by
    rw [exactVersions_append, exactVersions_single]
  refine ⟨?_, fun few => ?_⟩
  · rw [counted.entries, split, List.length_append]
    exact congrArg (· + _) covers.entries
  · cases here : page.versions.filter (isExact snapshot) with
    | nil =>
      rw [here, List.append_nil] at split
      rw [split, counted.none here]
      exact ⟨⟨fun _ => covers.clean.sole, fun _ => rfl⟩, covers.absent, covers.known⟩
    | cons version rest =>
      rw [split, here, List.length_append, List.length_cons] at few
      have nothing : exactVersions snapshot pages = [] := List.eq_nil_of_length_eq_zero (by omega)
      have alone : rest = [] := List.eq_nil_of_length_eq_zero (by omega)
      subst alone
      rw [nothing, here, List.nil_append] at split
      have first : scan.exactVersionEntries = 0 := by
        rw [covers.entries, nothing]
        rfl
      obtain ⟨flag, remembered⟩ := @countVersion_first snapshot { scan with entriesScanned := entriesScanned } version first
        (covers.absent nothing).1
      rw [split, counted.one version here]
      refine ⟨flag.trans ⟨?_, ?_⟩, fun absent => (nomatch absent), ?_⟩
      · rintro ⟨id, isLatest, usable⟩
        exact .inr ⟨version, id, isLatest, rfl, usable⟩
      · rintro (absent | ⟨other, id, isLatest, one, usable⟩)
        · cases absent
        · cases one
          exact ⟨id, isLatest, usable⟩
      · intro other id isLatest one usable
        cases one
        exact remembered id isLatest usable

theorem countPage_spec {scan : Scan} {pages : List PageEntries} {page : PageEntries} (covers : Covers snapshot scan pages)
    (size : page.versions.length + page.deleteMarkers.length ≤ listPageSize) (room : pages.length < maxListPages) :
    (Clean snapshot (pages ++ [page]) ∧ ∃ after, countPage snapshot scan page = .ok after ∧
        Covers snapshot after (pages ++ [page]) ∧ after.markers = scan.markers ∧ after.seenMarkers = scan.seenMarkers) ∨
      (¬ Clean snapshot (pages ++ [page]) ∧ ∃ (after : Scan) (code : String), countPage snapshot scan page = .error (after.manual code)) := by
  have bounded := covers.bounded
  have total : scan.entriesScanned + (page.versions.length + page.deleteMarkers.length) ≤ listPageSize * (pages.length + 1) := by
    rw [Nat.mul_add, Nat.mul_one]
    omega
  have few : ¬ maxListEntries < scan.entriesScanned + (page.versions.length + page.deleteMarkers.length) := by
    have most : listPageSize * (pages.length + 1) ≤ maxListEntries := Nat.mul_le_mul_left _ room
    omega
  unfold countPage
  rw [if_neg few]
  generalize scan.entriesScanned + (page.versions.length + page.deleteMarkers.length) = entriesScanned at *
  cases versions : countVersions snapshot { scan with entriesScanned } false page.versions with
  | error after =>
    refine .inr ⟨fun clean => ?_, after, manualMalformedListing, rfl⟩
    obtain ⟨done, counted⟩ := countVersions_safe clean.last_keys.1 { scan with entriesScanned } false
    rw [versions] at counted
    cases counted
  | ok after =>
    have counted := countVersions_ok versions
    obtain ⟨markers, seen, deletes, -, scanned⟩ := frame_inj counted.frame
    obtain ⟨entries, spec⟩ := counted_page covers counted
    dsimp only
    cases deleted : countDeleteMarkers snapshot after.1 page.deleteMarkers with
    | error stopped =>
      refine .inr ⟨fun clean => ?_, stopped, manualMalformedListing, rfl⟩
      obtain ⟨done, made⟩ := countDeleteMarkers_safe clean.last_keys.2 after.1
      rw [deleted] at made
      cases made
    | ok =>
      obtain ⟨keys, rfl⟩ := countDeleteMarkers_ok deleted
      have markers_split : exactDeleteMarkers snapshot (pages ++ [page]) = page.deleteMarkers.filter (isExact snapshot) := by
        rw [exactDeleteMarkers_append, covers.clean.undeleted, exactDeleteMarkers_single, List.nil_append]
      have none_before : after.1.exactDeleteMarkers = 0 := deletes.trans covers.undeleted
      dsimp only
      by_cases many : 1 < after.1.exactVersionEntries
      · rw [if_pos many]
        refine .inr ⟨fun clean => ?_, _, _, rfl⟩
        rcases clean.sole with absent | ⟨version, _, _, one, -⟩
        · rw [entries, absent] at many
          cases many
        · rw [entries, one] at many
          exact absurd many (Nat.lt_irrefl 1)
      · rw [if_neg many]
        have at_most : (exactVersions snapshot (pages ++ [page])).length ≤ 1 := by omega
        obtain ⟨flag, absent, known⟩ := spec at_most
        by_cases marked : after.1.exactDeleteMarkers + (page.deleteMarkers.filter (isExact snapshot)).length ≠ 0
        · rw [if_pos marked]
          refine .inr ⟨fun clean => marked ?_, _, _, rfl⟩
          rw [none_before, ← markers_split, clean.undeleted]
          rfl
        · rw [if_neg marked]
          have undeleted : page.deleteMarkers.filter (isExact snapshot) = [] :=
            List.eq_nil_of_length_eq_zero (by omega)
          cases unusable : after.2 with
          | true =>
            refine .inr ⟨fun clean => ?_, _, _, rfl⟩
            rw [flag.mpr clean.sole] at unusable
            cases unusable
          | false =>
            have clean : Clean snapshot (pages ++ [page]) := by
              refine ⟨fun one mem entry inside => ?_, markers_split.trans undeleted, flag.mp unusable⟩
              rcases List.mem_append.mp mem with before | last_page
              · exact covers.clean.keys one before entry inside
              · obtain rfl := List.mem_singleton.mp last_page
                rcases List.mem_append.mp inside with version | marker
                · exact counted.keys entry version
                · exact keys entry marker
            refine .inl ⟨clean, _, rfl, ⟨clean, entries, ?_, ?_, absent, known⟩, markers, seen⟩
            · rw [none_before, undeleted]
              rfl
            · rw [List.length_append, List.length_singleton]
              exact scanned.le.trans total

theorem settle_spec {scan : Scan} {pages : List PageEntries} (covers : Covers snapshot scan pages) :
    ((settle scan).state = .noObject ↔ exactVersions snapshot pages = []) ∧
      ((settle scan).state = .versionKnown ↔ ∃ version id, exactVersions snapshot pages = [version] ∧
        Usable snapshot version id true ∧ (settle scan).versionId = some id) ∧
      ((settle scan).state = .noObject ∨ (settle scan).state = .versionKnown ∨ (settle scan).state = .manualReview) := by
  have entries := covers.entries
  unfold settle
  rcases covers.clean.sole with absent | ⟨version, id, isLatest, one, usable⟩
  · have uncounted : scan.exactVersionEntries = 0 := by
      rw [entries, absent]
      rfl
    rw [if_pos uncounted, absent]
    refine ⟨⟨fun _ => rfl, fun _ => rfl⟩, ⟨fun known => (nomatch known), ?_⟩, .inl rfl⟩
    rintro ⟨version, id, one, -⟩
    cases one
  · obtain ⟨ids, latest⟩ := covers.known version id isLatest one usable
    have present : ¬ scan.exactVersionEntries = 0 := by
      rw [entries, one]
      exact Nat.one_ne_zero
    rw [if_neg present, latest, one]
    cases isLatest with
    | true =>
      rw [if_neg (not_not.mpr rfl)]
      refine ⟨⟨fun known => (nomatch known), fun absent => (nomatch absent)⟩, ⟨fun _ => ?_, fun _ => rfl⟩, .inr (.inl rfl)⟩
      exact ⟨version, id, rfl, usable, congrArg soleKnownVersionId ids⟩
    | false =>
      rw [if_pos (by decide)]
      refine ⟨⟨fun known => (nomatch known), fun absent => (nomatch absent)⟩, ⟨fun known => (nomatch known), ?_⟩, .inr (.inr rfl)⟩
      rintro ⟨_, _, same, usable_true, -⟩
      cases same
      have flags := usable.latest.symm.trans usable_true.latest
      cases flags

theorem pageEntries_size {response : Json} {requested : Option (Text × Text)} {page : PageEntries}
    (parsed : pageEntries response snapshot requested = .ok page) :
    page.versions.length + page.deleteMarkers.length ≤ listPageSize := by
  simp only [pageEntries, bind_ok, raiseIf_ok, orRaise_ok, not_or] at parsed
  obtain ⟨_, _, _, _, _, _, _, _, _, _, _, _, _, _, _, _, _, ⟨_, few⟩, made⟩ := parsed
  have small := Nat.le_of_not_lt few
  split at made
  · simp only [bind_ok, raiseIf_ok] at made
    obtain ⟨_, _, _, _, _, _, made⟩ := made
    cases made
    exact small
  · simp only [bind_ok, raiseIf_ok] at made
    obtain ⟨_, _, made⟩ := made
    cases made
    exact small
  · cases made

/-! ## The loop over the pages -/

variable {client : ℕ → ListRequest → ListAnswer}

theorem lists_iff {remaining pageNumber : ℕ} {markers : Option (Text × Text)} {seen : List (Text × Text)} {response : Json}
    (answer : client pageNumber ⟨snapshot.storageBucket, snapshot.objectKey, snapshot.expectedBucketOwner, listPageSize, markers⟩ =
      .page response) (pages : List PageEntries) :
    Lists client snapshot (remaining + 1) pageNumber markers seen pages ↔
      ∃ page, pageEntries response snapshot markers = .ok page ∧
        ((page.nextMarkers = none ∧ pages = [page]) ∨ ∃ next rest, page.nextMarkers = some next ∧ next ∉ seen ∧
          pages = page :: rest ∧ Lists client snapshot remaining (pageNumber + 1) (some next) (next :: seen) rest) := by
  constructor
  · intro lists
    cases lists with
    | last answered parsed complete =>
      obtain rfl := ListAnswer.page.inj (answered.symm.trans answer)
      exact ⟨_, parsed, .inl ⟨complete, rfl⟩⟩
    | more answered parsed truncated advances later =>
      obtain rfl := ListAnswer.page.inj (answered.symm.trans answer)
      exact ⟨_, parsed, .inr ⟨_, _, truncated, advances, rfl, later⟩⟩
  · rintro ⟨page, parsed, ⟨complete, rfl⟩ | ⟨next, rest, truncated, advances, rfl, later⟩⟩
    · exact .last answer parsed complete
    · exact .more answer parsed truncated advances later

/-- What a run of the loop from some request on says, after the pages that were read before. -/
structure Decides (client : ℕ → ListRequest → ListAnswer) (snapshot : AttemptSnapshot) (remaining pageNumber : ℕ)
    (markers : Option (Text × Text)) (seen : List (Text × Text)) (done : List PageEntries) (listing : Listing) : Prop where
  requests : listing.requests.length ≤ remaining
  failed : ∀ k asked, listing.requests[k]? = some asked → client (pageNumber + k) asked = .failed →
    listing.result = .error "version_listing_transport_failed"
  undecided : ∀ code, listing.result = .error code → ∃ k asked, listing.requests[k]? = some asked ∧
    (client (pageNumber + k) asked = .failed ∨ client (pageNumber + k) asked = .unreadable)
  noObject : ∀ d, listing.result = .ok d → (d.state = .noObject ↔ ∃ pages,
    Lists client snapshot remaining pageNumber markers seen pages ∧ Clean snapshot (done ++ pages) ∧
      exactVersions snapshot (done ++ pages) = [])
  versionKnown : ∀ d, listing.result = .ok d → (d.state = .versionKnown ↔ ∃ pages version id,
    Lists client snapshot remaining pageNumber markers seen pages ∧ Clean snapshot (done ++ pages) ∧
      exactVersions snapshot (done ++ pages) = [version] ∧ Usable snapshot version id true ∧ d.versionId = some id)
  otherwise : ∀ d, listing.result = .ok d → d.state = .noObject ∨ d.state = .versionKnown ∨ d.state = .manualReview

theorem Decides.of_manual {remaining pageNumber : ℕ} {markers : Option (Text × Text)} {seen : List (Text × Text)}
    {done : List PageEntries} {requests : List ListRequest} {d : ListDecision} (few : requests.length ≤ remaining)
    (alive : ∀ k asked, requests[k]? = some asked → client (pageNumber + k) asked ≠ .failed) (manual : d.state = .manualReview)
    (unclean : ∀ pages, Lists client snapshot remaining pageNumber markers seen pages → ¬ Clean snapshot (done ++ pages)) :
    Decides client snapshot remaining pageNumber markers seen done ⟨requests, .ok d⟩ where
  requests := few
  failed := fun k asked at_k failed => absurd failed (alive k asked at_k)
  undecided := fun _ none_there => nomatch none_there
  noObject := by
    intro decision made
    cases made
    refine ⟨fun claimed => ?_, ?_⟩
    · rw [manual] at claimed
      cases claimed
    · rintro ⟨pages, lists, clean, -⟩
      exact absurd clean (unclean pages lists)
  versionKnown := by
    intro decision made
    cases made
    refine ⟨fun claimed => ?_, ?_⟩
    · rw [manual] at claimed
      cases claimed
    · rintro ⟨pages, _, _, lists, clean, -⟩
      exact absurd clean (unclean pages lists)
  otherwise := by
    intro decision made
    cases made
    exact .inr (.inr manual)

theorem Decides.of_last {remaining pageNumber : ℕ} {markers : Option (Text × Text)} {seen : List (Text × Text)}
    {done : List PageEntries} {asked : ListRequest} {scan : Scan} {page : PageEntries}
    (alive : client pageNumber asked ≠ .failed)
    (lists : ∀ pages, Lists client snapshot (remaining + 1) pageNumber markers seen pages ↔ pages = [page])
    (covers : Covers snapshot scan (done ++ [page])) :
    Decides client snapshot (remaining + 1) pageNumber markers seen done ⟨[asked], .ok (settle scan)⟩ := by
  obtain ⟨noObject, known, states⟩ := settle_spec covers
  refine ⟨Nat.succ_le_succ (Nat.zero_le _), ?_, fun _ none_there => (nomatch none_there), ?_, ?_, ?_⟩
  · intro k other at_k failed
    cases k with
    | zero =>
      cases at_k
      exact absurd failed alive
    | succ => cases at_k
  · intro d made
    cases made
    refine noObject.trans ⟨fun absent => ⟨[page], (lists _).mpr rfl, covers.clean, absent⟩, ?_⟩
    rintro ⟨pages, listed, -, absent⟩
    rwa [(lists pages).mp listed] at absent
  · intro d made
    cases made
    refine known.trans ⟨?_, ?_⟩
    · rintro ⟨version, id, one, usable, captured⟩
      exact ⟨[page], version, id, (lists _).mpr rfl, covers.clean, one, usable, captured⟩
    · rintro ⟨pages, version, id, listed, -, one, usable, captured⟩
      rw [(lists pages).mp listed] at one
      exact ⟨version, id, one, usable, captured⟩
  · intro d made
    cases made
    exact states

theorem Decides.of_later {remaining pageNumber : ℕ} {markers : Option (Text × Text)} {seen : List (Text × Text)}
    {next : Text × Text} {done : List PageEntries} {asked : ListRequest} {page : PageEntries} {later : Listing}
    (alive : client pageNumber asked ≠ .failed)
    (lists : ∀ pages, Lists client snapshot (remaining + 1) pageNumber markers seen pages ↔
      ∃ rest, pages = page :: rest ∧ Lists client snapshot remaining (pageNumber + 1) (some next) (next :: seen) rest)
    (decides : Decides client snapshot remaining (pageNumber + 1) (some next) (next :: seen) (done ++ [page]) later) :
    Decides client snapshot (remaining + 1) pageNumber markers seen done ⟨asked :: later.requests, later.result⟩ := by
  have shift (rest : List PageEntries) : done ++ page :: rest = done ++ [page] ++ rest := List.append_cons done page rest
  have number (k : ℕ) : pageNumber + 1 + k = pageNumber + (k + 1) := by omega
  refine ⟨Nat.succ_le_succ decides.requests, ?_, ?_, ?_, ?_, decides.otherwise⟩
  · intro k other at_k failed
    cases k with
    | zero =>
      cases at_k
      exact absurd failed alive
    | succ k => exact decides.failed k other at_k (number k ▸ failed)
  · intro code made
    obtain ⟨k, other, at_k, broken⟩ := decides.undecided code made
    exact ⟨k + 1, other, at_k, number k ▸ broken⟩
  · intro d made
    refine (decides.noObject d made).trans ⟨?_, ?_⟩
    · rintro ⟨rest, listed, clean, absent⟩
      exact ⟨page :: rest, (lists _).mpr ⟨rest, rfl, listed⟩, shift rest ▸ clean, shift rest ▸ absent⟩
    · rintro ⟨pages, listed, clean, absent⟩
      obtain ⟨rest, rfl, below⟩ := (lists pages).mp listed
      exact ⟨rest, below, shift rest ▸ clean, shift rest ▸ absent⟩
  · intro d made
    refine (decides.versionKnown d made).trans ⟨?_, ?_⟩
    · rintro ⟨rest, version, id, listed, clean, one, usable⟩
      exact ⟨page :: rest, version, id, (lists _).mpr ⟨rest, rfl, listed⟩, shift rest ▸ clean, shift rest ▸ one, usable⟩
    · rintro ⟨pages, version, id, listed, clean, one, usable⟩
      obtain ⟨rest, rfl, below⟩ := (lists pages).mp listed
      exact ⟨rest, version, id, below, shift rest ▸ clean, shift rest ▸ one, usable⟩

theorem Decides.of_failure {remaining pageNumber : ℕ} {markers : Option (Text × Text)} {seen : List (Text × Text)}
    {done : List PageEntries} {asked : ListRequest} {code : String}
    (broken : client pageNumber asked = .failed ∨ client pageNumber asked = .unreadable)
    (named : client pageNumber asked = .failed → code = "version_listing_transport_failed") :
    Decides client snapshot (remaining + 1) pageNumber markers seen done ⟨[asked], .error code⟩ where
  requests := Nat.succ_le_succ (Nat.zero_le _)
  failed := by
    intro k other at_k failed
    cases k with
    | zero =>
      cases at_k
      exact congrArg Except.error (named failed)
    | succ => cases at_k
  undecided := fun _ _ => ⟨0, asked, rfl, broken⟩
  noObject := fun _ none_there => nomatch none_there
  versionKnown := fun _ none_there => nomatch none_there
  otherwise := fun _ none_there => nomatch none_there

theorem listPages_decides (remaining : ℕ) {pageNumber : ℕ} {scan : Scan} {done : List PageEntries}
    (covers : Covers snapshot scan done) (room : done.length + remaining ≤ maxListPages) :
    Decides client snapshot remaining pageNumber scan.markers scan.seenMarkers done
      (listPages client snapshot remaining pageNumber scan) := by
  induction remaining generalizing pageNumber scan done with
  | zero => exact .of_manual (Nat.le_refl 0) (fun _ _ none_there => (nomatch none_there)) rfl fun _ lists => nomatch lists
  | succ remaining ih =>
    unfold listPages
    have asked : request snapshot scan =
      ⟨snapshot.storageBucket, snapshot.objectKey, snapshot.expectedBucketOwner, listPageSize, scan.markers⟩ := rfl
    dsimp only
    cases answer : client pageNumber (request snapshot scan) with
    | failed => exact .of_failure (.inl answer) fun _ => rfl
    | unreadable =>
      refine .of_failure (.inr answer) fun failed => ?_
      rw [answer] at failed
      cases failed
    | page response =>
      have alive : client pageNumber (request snapshot scan) ≠ .failed := by
        rw [answer]
        exact fun failed => nomatch failed
      have single : ∀ k asked, [request snapshot scan][k]? = some asked → client (pageNumber + k) asked ≠ .failed := by
        intro k other at_k
        cases k with
        | zero =>
          cases at_k
          exact alive
        | succ => cases at_k
      have one : [request snapshot scan].length ≤ remaining + 1 := Nat.succ_le_succ (Nat.zero_le _)
      have first := @lists_iff snapshot client remaining pageNumber scan.markers scan.seenMarkers response answer
      dsimp only
      unfold scanPage
      cases parsed : pageEntries response snapshot scan.markers with
      | error =>
        refine .of_manual one single rfl fun pages lists => ?_
        obtain ⟨page, same, -⟩ := (first pages).mp lists
        rw [parsed] at same
        cases same
      | ok page =>
        have numbered : Covers snapshot { scan with pagesScanned := pageNumber } done :=
          ⟨covers.clean, covers.entries, covers.undeleted, covers.bounded, covers.absent, covers.known⟩
        have begins (pages : List PageEntries)
            (lists : Lists client snapshot (remaining + 1) pageNumber scan.markers scan.seenMarkers pages) :
            ∃ rest, pages = page :: rest := by
          obtain ⟨other, same, ⟨-, rfl⟩ | ⟨_, rest, -, -, rfl, -⟩⟩ := (first pages).mp lists
          · obtain rfl : other = page := Except.ok.inj (same.symm.trans parsed)
            exact ⟨[], rfl⟩
          · obtain rfl : other = page := Except.ok.inj (same.symm.trans parsed)
            exact ⟨rest, rfl⟩
        dsimp only
        rcases countPage_spec numbered (pageEntries_size parsed) (by omega) with
          ⟨clean, after, counted, covered, markers, seen⟩ | ⟨unclean, after, code, forced⟩
        · rw [counted]
          cases next : page.nextMarkers with
          | none =>
            refine .of_last alive (fun pages => ⟨fun lists => ?_, ?_⟩) covered
            · obtain ⟨other, same, ⟨-, rfl⟩ | ⟨_, _, more, -⟩⟩ := (first pages).mp lists
              · exact congrArg (fun p => [p]) (Except.ok.inj (same.symm.trans parsed))
              · obtain rfl : other = page := Except.ok.inj (same.symm.trans parsed)
                rw [next] at more
                cases more
            · rintro rfl
              exact (first _).mpr ⟨page, parsed, .inl ⟨next, rfl⟩⟩
          | some marker =>
            have same_seen : after.seenMarkers = scan.seenMarkers := seen
            have truncated (pages : List PageEntries) :
                Lists client snapshot (remaining + 1) pageNumber scan.markers scan.seenMarkers pages ↔
                  marker ∉ scan.seenMarkers ∧ ∃ rest, pages = page :: rest ∧
                    Lists client snapshot remaining (pageNumber + 1) (some marker) (marker :: scan.seenMarkers) rest := by
              refine (first pages).trans ⟨?_, ?_⟩
              · rintro ⟨other, same, ⟨ends, -⟩ | ⟨following, rest, more, advances, split, below⟩⟩
                · obtain rfl : other = page := Except.ok.inj (same.symm.trans parsed)
                  rw [next] at ends
                  cases ends
                · obtain rfl : other = page := Except.ok.inj (same.symm.trans parsed)
                  obtain rfl : following = marker := Option.some.inj (more.symm.trans next)
                  exact ⟨advances, rest, split, below⟩
              · rintro ⟨advances, rest, split, below⟩
                exact ⟨page, parsed, .inr ⟨marker, rest, next, advances, split, below⟩⟩
            dsimp only
            rw [same_seen]
            by_cases stale : scan.seenMarkers.contains marker = true
            · rw [if_pos stale]
              refine .of_manual one single rfl fun pages lists => absurd ?_ ((truncated pages).mp lists).1
              exact List.contains_iff_mem.mp stale
            · have advances : marker ∉ scan.seenMarkers := fun mem => stale (List.contains_iff_mem.mpr mem)
              have onward : Covers snapshot { after with seenMarkers := marker :: after.seenMarkers, markers := some marker }
                  (done ++ [page]) :=
                ⟨covered.clean, covered.entries, covered.undeleted, covered.bounded, covered.absent, covered.known⟩
              have later := @ih (pageNumber + 1) _ (done ++ [page]) onward (by
                rw [List.length_append, List.length_singleton]
                omega)
              dsimp only at later
              rw [same_seen] at later
              rw [if_neg stale]
              exact .of_later alive (fun pages => (truncated pages).trans (and_iff_right advances)) later
        · rw [forced]
          refine .of_manual one single rfl fun pages lists clean => unclean ?_
          obtain ⟨rest, rfl⟩ := begins pages lists
          rw [List.append_cons] at clean
          exact clean.left

end Lemmas

end MapBackend.Marketplaces.PutListing
