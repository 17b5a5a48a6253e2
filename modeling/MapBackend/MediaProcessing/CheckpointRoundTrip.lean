import MapBackend.MediaProcessing.ProviderCheckpoint

/-!
What comes back of a checkpoint: the answer as it was, a refusal, or an answer without the fields that
did not fit.
-/

namespace MapBackend.MediaProcessing.Checkpoint
open MapBackend.Library MapBackend.Core

/-! ## Metadata -/

theorem comparable_ofEntries : ∀ entries : List (Text × Json), comparable ((Value.ofEntries entries).map Prod.fst) = true := by
  intro entries
  have texts : ((Value.ofEntries entries).map Prod.fst).all Key.isText = true := by
    induction entries with
    | nil => rfl
    | cons _ _ ih =>
      rw [Value.ofEntries, List.map_cons, List.all_cons, ih]
      rfl
  simp [comparable, texts]

mutual

theorem toJson_ofJson : ∀ j : Json, j.dumps.isSome = true → (Value.ofJson j).toJson = some j
  | .null, _ => rfl
  | .bool _, _ => rfl
  | .int _, _ => rfl
  | .float _ _, _ => rfl
  | .nonFinite, none_there => by cases none_there
  | .text _, _ => rfl
  | .list items, some_there => by
    have finite : (Json.dumpsItems items).isSome = true := by simpa [Json.dumps] using some_there
    rw [Value.ofJson, Value.toJson, itemsToJson_ofItems items finite]
    rfl
  | .object entries, some_there => by
    have finite : (Json.dumpsEntries entries).isSome = true := by simpa [Json.dumps] using some_there
    rw [Value.ofJson, Value.toJson, entriesToJson_ofEntries entries finite, if_pos (comparable_ofEntries entries)]
    rfl

theorem itemsToJson_ofItems : ∀ items : List Json, (Json.dumpsItems items).isSome = true →
    Value.itemsToJson (Value.ofItems items) = some items
  | [], _ => rfl
  | item :: rest, some_there => by
    obtain ⟨_, some_there⟩ := Option.isSome_iff_exists.mp some_there
    simp only [Json.dumpsItems, Option.bind_eq_bind, Option.bind_eq_some_iff] at some_there
    obtain ⟨_, dumped, _, others, -⟩ := some_there
    rw [Value.ofItems, Value.itemsToJson, toJson_ofJson item (by rw [dumped]; rfl),
      itemsToJson_ofItems rest (by rw [others]; rfl)]
    rfl

theorem entriesToJson_ofEntries : ∀ entries : List (Text × Json), (Json.dumpsEntries entries).isSome = true →
    Value.entriesToJson (Value.ofEntries entries) = some entries
  | [], _ => rfl
  | (name, value) :: rest, some_there => by
    obtain ⟨_, some_there⟩ := Option.isSome_iff_exists.mp some_there
    simp only [Json.dumpsEntries, Option.bind_eq_bind, Option.bind_eq_some_iff] at some_there
    obtain ⟨_, dumped, _, others, -⟩ := some_there
    rw [Value.ofEntries, Value.entriesToJson, toJson_ofJson value (by rw [dumped]; rfl),
      entriesToJson_ofEntries rest (by rw [others]; rfl)]
    rfl

end

theorem dumpsEntries_isSome {entries : List (Text × Json)} :
    (Json.dumpsEntries entries).isSome = true ↔ ∀ entry ∈ entries, entry.2.dumps.isSome = true := by
  induction entries with
  | nil => simp [Json.dumpsEntries]
  | cons entry rest ih =>
    rw [List.forall_mem_cons, ← ih]
    cases own : entry.2.dumps with
    | none => simp [Json.dumpsEntries, own]
    | some => cases later : Json.dumpsEntries rest <;> simp [Json.dumpsEntries, own, later]

mutual

theorem dumps_of_sorted : ∀ j : Json, j.sorted.dumps.isSome = true → j.dumps.isSome = true
  | .null, _ => rfl
  | .bool true, _ => rfl
  | .bool false, _ => rfl
  | .int _, _ => rfl
  | .float _ _, _ => rfl
  | .nonFinite, none_there => by cases none_there
  | .text _, _ => rfl
  | .list items, some_there => by
    have sorted : (Json.dumpsItems (Json.sortedItems items)).isSome = true := by simpa [Json.sorted, Json.dumps] using some_there
    simpa [Json.dumps] using dumpsItems_of_sorted items sorted
  | .object entries, some_there => by
    have sorted : (Json.dumpsEntries ((Json.sortedEntries entries).insertionSort fun a b => Json.upTo a.1 b.1 = true)).isSome = true := by
      simpa [Json.sorted, Json.dumps] using some_there
    have all : ∀ entry ∈ Json.sortedEntries entries, entry.2.dumps.isSome = true := fun entry mem =>
      dumpsEntries_isSome.mp sorted entry ((List.mem_insertionSort _).mpr mem)
    simpa [Json.dumps] using dumpsEntries_of_sorted entries (dumpsEntries_isSome.mpr all)

theorem dumpsItems_of_sorted : ∀ items : List Json, (Json.dumpsItems (Json.sortedItems items)).isSome = true →
    (Json.dumpsItems items).isSome = true
  | [], _ => rfl
  | item :: rest, some_there => by
    obtain ⟨_, some_there⟩ := Option.isSome_iff_exists.mp some_there
    simp only [Json.sortedItems, Json.dumpsItems, Option.bind_eq_bind, Option.bind_eq_some_iff] at some_there
    obtain ⟨_, dumped, _, others, -⟩ := some_there
    obtain ⟨_, one⟩ := Option.isSome_iff_exists.mp (dumps_of_sorted item (by rw [dumped]; rfl))
    obtain ⟨_, more⟩ := Option.isSome_iff_exists.mp (dumpsItems_of_sorted rest (by rw [others]; rfl))
    simp [Json.dumpsItems, one, more]

theorem dumpsEntries_of_sorted : ∀ entries : List (Text × Json), (Json.dumpsEntries (Json.sortedEntries entries)).isSome = true →
    (Json.dumpsEntries entries).isSome = true
  | [], _ => rfl
  | (name, value) :: rest, some_there => by
    obtain ⟨_, some_there⟩ := Option.isSome_iff_exists.mp some_there
    simp only [Json.sortedEntries, Json.dumpsEntries, Option.bind_eq_bind, Option.bind_eq_some_iff] at some_there
    obtain ⟨_, dumped, _, others, -⟩ := some_there
    obtain ⟨_, one⟩ := Option.isSome_iff_exists.mp (dumps_of_sorted value (by rw [dumped]; rfl))
    obtain ⟨_, more⟩ := Option.isSome_iff_exists.mp (dumpsEntries_of_sorted rest (by rw [others]; rfl))
    simp [Json.dumpsEntries, one, more]

end

def FitsMetadata (metadata : Value) : Prop :=
  ∃ j : Json, metadata = .ofJson j ∧ j.isObject = true ∧ ∃ raw ∈ canonicalProviderCheckpoint j, raw.length ≤ metadataMaxBytes

theorem boundedCheckpointMetadata_object (metadata : Value) : (boundedCheckpointMetadata metadata).1.isObject = true := by
  unfold boundedCheckpointMetadata
  split
  · rfl
  · next dict =>
    cases normalized : metadata.toJson with
    | none => rfl
    | some j =>
      have object : j.isObject = true := by
        cases metadata with
        | dict =>
          rw [Value.toJson] at normalized
          split at normalized
          · obtain ⟨_, -, rfl⟩ := Option.map_eq_some_iff.mp normalized
            rfl
          · cases normalized
        | _ => exact absurd rfl dict
      dsimp only
      cases canonicalProviderCheckpoint j with
      | none => rfl
      | some =>
        dsimp only
        split
        · rfl
        · exact object

theorem metadata_kept (metadata : Value) : Value.ofJson (boundedCheckpointMetadata metadata).1 = metadata ↔ FitsMetadata metadata := by
  constructor
  · intro same
    have object := boundedCheckpointMetadata_object metadata
    refine ⟨(boundedCheckpointMetadata metadata).1, same.symm, object, ?_⟩
    have empty : ∃ raw ∈ canonicalProviderCheckpoint (.object []), raw.length ≤ metadataMaxBytes :=
      ⟨['\x7b', '\x7d'], rfl, by decide⟩
    unfold boundedCheckpointMetadata
    split
    · exact empty
    · cases metadata.toJson with
      | none => exact empty
      | some j =>
        dsimp only
        cases canonical : canonicalProviderCheckpoint j with
        | none => exact empty
        | some raw =>
          dsimp only
          split
          · exact empty
          · next small => exact ⟨raw, canonical, Nat.le_of_not_lt small⟩
  · rintro ⟨j, rfl, object, raw, canonical, small⟩
    have finite : j.dumps.isSome = true := by
      obtain ⟨_, sorted, -⟩ := Option.map_eq_some_iff.mp canonical
      exact dumps_of_sorted j (by rw [sorted]; rfl)
    have dict : ¬ (Value.ofJson j).isDict = false := by
      cases j with
      | object => simp [Value.ofJson, Value.isDict]
      | _ => cases object
    have kept : canonicalProviderCheckpoint j = some raw := canonical
    unfold boundedCheckpointMetadata
    rw [if_neg dict, toJson_ofJson j finite]
    dsimp only
    rw [kept]
    dsimp only
    rw [if_neg (Nat.not_lt.mpr small)]


/-! ## Fields -/

theorem costText_read (cost : Option PyDecimal) :
    (if (Value.text (costText cost)).truthy then decimalOf (costText cost) else none) =
      cost.filter fun d => d.val.isFinite && decide (0 ≤ d.val.value) := by
  cases cost with
  | none => rfl
  | some d =>
    by_cases kept : (d.val.isFinite && decide (0 ≤ d.val.value)) = true
    · have finite : d.val.isFinite = true := (Bool.and_eq_true_iff.mp kept).1
      have read := decimalOf_shown d finite
      have written : (Value.text d.val.shown).truthy = true := by
        cases shape : d.val.shown with
        | nil =>
          rw [shape] at read
          cases read
        | cons => rfl
      rw [costText, if_pos kept, if_pos written, read, Option.filter_some, if_pos kept]
    · rw [costText, if_neg kept, Option.filter_some, if_neg kept]
      rfl

theorem statusOf_text (status : MediaProviderResultStatus) : statusOf (statusText (some status)) = some status := by
  cases status <;> rfl

theorem boundedCheckpointText_fits {value : Text} {maxChars : ℕ} :
    (boundedCheckpointText value maxChars).1 = value ↔ value.length ≤ maxChars := by
  unfold boundedCheckpointText
  split
  · next long =>
    constructor
    · rintro rfl
      exact absurd long (Nat.not_lt_zero _)
    · intro short
      omega
  · next short => exact ⟨fun _ => Nat.le_of_not_lt short, fun _ => rfl⟩

theorem boundedCheckpointText_omitted (value : Text) (maxChars : ℕ) :
    (boundedCheckpointText value maxChars).2 = decide (maxChars < value.length) := by
  unfold boundedCheckpointText
  split
  · next long => exact (decide_eq_true long).symm
  · next short => exact (decide_eq_false short).symm

section
variable {Token : Type} (env : Environment Token) (result : MediaProviderResult)

theorem readBytes_payloadOf : readBytes env (payloadOf env result) =
    match result.outputBytes with
    | none => .ok none
    | some bytes => if outputLimit env < bytes.length then .error binaryTooLarge else .ok (some bytes) := by
  have present : flag (payloadOf env result) "output_bytes_present" = result.outputBytes.isSome := rfl
  have omitted : flag (payloadOf env result) "output_bytes_omitted" = (binaryFields env result.outputBytes).omitted := rfl
  have b64 : textField (payloadOf env result) "output_bytes_b64" = (binaryFields env result.outputBytes).b64 := rfl
  have size : sizeField (payloadOf env result) "output_bytes_size" = (binaryFields env result.outputBytes).size := rfl
  have digest : textField (payloadOf env result) "output_bytes_sha256" = (binaryFields env result.outputBytes).sha256 := rfl
  rw [readBytes, present, omitted, b64, size, digest]
  cases result.outputBytes with
  | none => rfl
  | some bytes =>
    by_cases long : outputLimit env < bytes.length
    · simp [binaryFields, long, raiseIf, bind, Except.bind]
    · simp [binaryFields, long, raiseIf, orRaise, bind, Except.bind, Base64.decode_encode]

def refusal : Option CheckpointNotApplicable :=
  if result.status = none then some unknownStatus
  else if result.outputBytes.any fun bytes => decide (outputLimit env < bytes.length) then some binaryTooLarge
  else if urlMaxChars < result.outputUrl.length ∧ result.outputBytes.isNone then some urlOmitted
  else if idMaxChars < result.providerJobId.length ∧ result.status = some .pending then some idOmitted
  else none

def recovered : MediaProviderResult where
  status := result.status
  providerJobId := (boundedCheckpointText result.providerJobId idMaxChars).1
  outputUrl := (boundedCheckpointText result.outputUrl urlMaxChars).1
  outputBytes := result.outputBytes
  outputContentType := (boundedCheckpointText result.outputContentType 255).1
  metadata := Value.ofJson (boundedCheckpointMetadata result.metadata).1
  actualCost := result.actualCost.filter fun d => d.val.isFinite && decide (0 ≤ d.val.value)
  errorCode := result.errorCode.take 100

theorem readMetadata_payloadOf :
    readMetadata (payloadOf env result) = Value.ofJson (boundedCheckpointMetadata result.metadata).1 := by
  have object := boundedCheckpointMetadata_object result.metadata
  have stored : lookup (payloadOf env result) "metadata" = some (boundedCheckpointMetadata result.metadata).1 := rfl
  rw [readMetadata, stored]
  cases shape : (boundedCheckpointMetadata result.metadata).1 with
  | object => rfl
  | _ =>
    rw [shape] at object
    cases object

end

theorem read_serialized {Token : Type} (env : Environment Token) (result : MediaProviderResult) (c : SerializedCheckpoint)
    (made : serializeProviderResultCheckpoint env result = .ok c) :
    providerResultFromCheckpoint env (some (env.encrypt c.payload)) c.digest =
      (refusal env result).elim (.ok (recovered result)) .error := by
  simp only [serializeProviderResultCheckpoint, bind_ok, orRaise_ok, raiseIf_ok] at made
  obtain ⟨canonical, written, -, -, made⟩ := made
  cases made
  have restored : (env.decrypt (env.encrypt (payloadOf env result))).filter Json.isObject = some (payloadOf env result) := by
    rw [env.restores (payloadOf env result) rfl]
    rfl
  have current : isCurrent (payloadOf env result) = true := rfl
  have status : textField (payloadOf env result) "status" = statusText result.status := rfl
  have urlFlag : flag (payloadOf env result) "output_url_omitted" = decide (urlMaxChars < result.outputUrl.length) :=
    boundedCheckpointText_omitted _ _
  have idFlag : flag (payloadOf env result) "provider_job_id_omitted" = decide (idMaxChars < result.providerJobId.length) :=
    boundedCheckpointText_omitted _ _
  have cost : readCost (payloadOf env result) = result.actualCost.filter fun d => d.val.isFinite && decide (0 ≤ d.val.value) :=
    costText_read result.actualCost
  have metadata := readMetadata_payloadOf env result
  have bytes := readBytes_payloadOf env result
  have id : textField (payloadOf env result) "provider_job_id" = (boundedCheckpointText result.providerJobId idMaxChars).1 := rfl
  have url : textField (payloadOf env result) "output_url" = (boundedCheckpointText result.outputUrl urlMaxChars).1 := rfl
  have contentType : textField (payloadOf env result) "output_content_type" =
    (boundedCheckpointText result.outputContentType 255).1 := rfl
  have code : textField (payloadOf env result) "error_code" = result.errorCode.take 100 := rfl
  simp only [providerResultFromCheckpoint, orRaise, restored, written, current, status, urlFlag, idFlag, cost, metadata, bytes,
    id, url, contentType, code, bind, Except.bind]
  have intact : raiseIf (true = false ∨ env.sha256 (bytesOf canonical) ≠ env.sha256 (bytesOf canonical)) integrityFailed = .ok () :=
    if_neg fun failed => failed.elim Bool.noConfusion fun never => never rfl
  rw [intact]
  cases known : result.status with
  | none =>
    have unknown : statusOf (statusText none) = none := rfl
    simp only [unknown, refusal, known, if_true, Option.elim]
  | some status =>
    simp only [statusOf_text, refusal, known, reduceCtorEq, if_false, Option.some.injEq]
    cases received : result.outputBytes with
    | none =>
      by_cases longUrl : urlMaxChars < result.outputUrl.length
      · simp [raiseIf, longUrl]
      · by_cases longId : idMaxChars < result.providerJobId.length ∧ status = .pending
        · simp [raiseIf, longUrl, longId]
        · simp [raiseIf, longUrl, longId, recovered, known, received]
    | some bytes =>
      by_cases long : outputLimit env < bytes.length
      · simp [long]
      · by_cases longId : idMaxChars < result.providerJobId.length ∧ status = .pending
        · simp [raiseIf, long, longId]
        · simp [raiseIf, long, longId, recovered, known, received]

/-! ## What the reader gets -/

structure Fits (result : MediaProviderResult) : Prop where
  providerJobId : result.providerJobId.length ≤ idMaxChars
  outputUrl : result.outputUrl.length ≤ urlMaxChars
  outputContentType : result.outputContentType.length ≤ 255
  metadata : FitsMetadata result.metadata
  actualCost : ∀ d ∈ result.actualCost, d.val.isFinite = true ∧ 0 ≤ d.val.value
  errorCode : result.errorCode.length ≤ 100

theorem filter_eq_self {α : Type*} {p : α → Bool} {x : Option α} : x.filter p = x ↔ ∀ a ∈ x, p a = true := by
  cases x with
  | none => simp
  | some a => by_cases kept : p a = true <;> simp [Option.filter_some, kept]

theorem recovered_eq {result : MediaProviderResult} : recovered result = result ↔ Fits result := by
  have cost : (∀ d ∈ result.actualCost, (d.val.isFinite && decide (0 ≤ d.val.value)) = true) ↔
      ∀ d ∈ result.actualCost, d.val.isFinite = true ∧ 0 ≤ d.val.value := by
    simp only [Bool.and_eq_true, decide_eq_true_iff]
  constructor
  · intro same
    exact {
      providerJobId := boundedCheckpointText_fits.mp (congrArg MediaProviderResult.providerJobId same)
      outputUrl := boundedCheckpointText_fits.mp (congrArg MediaProviderResult.outputUrl same)
      outputContentType := boundedCheckpointText_fits.mp (congrArg MediaProviderResult.outputContentType same)
      metadata := (metadata_kept result.metadata).mp (congrArg MediaProviderResult.metadata same)
      actualCost := cost.mp (filter_eq_self.mp (congrArg MediaProviderResult.actualCost same))
      errorCode := (congrArg List.length (congrArg MediaProviderResult.errorCode same)).ge.trans (List.length_take_le _ _) }
  · intro fits
    have id := boundedCheckpointText_fits.mpr fits.providerJobId
    have url := boundedCheckpointText_fits.mpr fits.outputUrl
    have contentType := boundedCheckpointText_fits.mpr fits.outputContentType
    have metadata := (metadata_kept result.metadata).mpr fits.metadata
    have actualCost := filter_eq_self.mpr (cost.mpr fits.actualCost)
    have errorCode := List.take_of_length_le fits.errorCode
    rw [recovered, id, url, contentType, metadata, actualCost, errorCode]

section
variable {Token : Type} (env : Environment Token) (result : MediaProviderResult)

def Refused : Prop :=
  result.status = none ∨ (∃ bytes ∈ result.outputBytes, outputLimit env < bytes.length) ∨
    (urlMaxChars < result.outputUrl.length ∧ result.outputBytes = none) ∨
    (idMaxChars < result.providerJobId.length ∧ result.status = some .pending)

theorem refusal_isSome : (∃ e, refusal env result = some e) ↔ Refused env result := by
  unfold refusal Refused
  by_cases unknown : result.status = none
  · simp [unknown]
  · rw [if_neg unknown]
    by_cases long : (result.outputBytes.any fun bytes => decide (outputLimit env < bytes.length)) = true
    · rw [if_pos long]
      have some_bytes : ∃ bytes ∈ result.outputBytes, outputLimit env < bytes.length := by
        obtain ⟨bytes, received, many⟩ := (Option.any_eq_true _ _).mp long
        exact ⟨bytes, received, of_decide_eq_true many⟩
      exact ⟨fun _ => .inr (.inl some_bytes), fun _ => ⟨_, rfl⟩⟩
    · have no_bytes : ¬ ∃ bytes ∈ result.outputBytes, outputLimit env < bytes.length := by
        rintro ⟨bytes, received, many⟩
        exact long ((Option.any_eq_true _ _).mpr ⟨bytes, received, decide_eq_true many⟩)
      rw [if_neg long]
      by_cases noUrl : urlMaxChars < result.outputUrl.length ∧ result.outputBytes.isNone = true
      · rw [if_pos noUrl]
        exact ⟨fun _ => .inr (.inr (.inl ⟨noUrl.1, Option.isNone_iff_eq_none.mp noUrl.2⟩)), fun _ => ⟨_, rfl⟩⟩
      · rw [if_neg noUrl]
        by_cases noId : idMaxChars < result.providerJobId.length ∧ result.status = some .pending
        · rw [if_pos noId]
          exact ⟨fun _ => .inr (.inr (.inr noId)), fun _ => ⟨_, rfl⟩⟩
        · rw [if_neg noId]
          constructor
          · rintro ⟨e, never⟩
            cases never
          · rintro (never | never | ⟨url, absent⟩ | never)
            · exact absurd never unknown
            · exact absurd never no_bytes
            · exact absurd ⟨url, Option.isNone_iff_eq_none.mpr absent⟩ noUrl
            · exact absurd never noId

theorem refusal_message {e : CheckpointNotApplicable} (refused : refusal env result = some e) :
    e ≠ integrityFailed ∧ e ≠ binaryIntegrityFailed := by
  have message : e = unknownStatus ∨ e = binaryTooLarge ∨ e = urlOmitted ∨ e = idOmitted := by
    unfold refusal at refused
    split at refused
    · exact .inl (Option.some.inj refused).symm
    · split at refused
      · exact .inr (.inl (Option.some.inj refused).symm)
      · split at refused
        · exact .inr (.inr (.inl (Option.some.inj refused).symm))
        · split at refused
          · exact .inr (.inr (.inr (Option.some.inj refused).symm))
          · cases refused
  rcases message with rfl | rfl | rfl | rfl
  all_goals exact ⟨by decide, by decide⟩

end

/-- Reading the stored checkpoint passes the checks of its digests, and gives the whole answer or refuses it. -/
structure RoundTrips {Token : Type} (env : Environment Token) (result : MediaProviderResult) (c : SerializedCheckpoint) : Prop where
  digest : providerResultFromCheckpoint env (some (env.encrypt c.payload)) c.digest ≠ .error integrityFailed
  binaryDigest : providerResultFromCheckpoint env (some (env.encrypt c.payload)) c.digest ≠ .error binaryIntegrityFailed
  whole : providerResultFromCheckpoint env (some (env.encrypt c.payload)) c.digest = .ok result ∨
    ∃ e, providerResultFromCheckpoint env (some (env.encrypt c.payload)) c.digest = .error e

def storedAsIs : Environment Json where
  outputMaxBytes := 1024
  sha256 := fun bytes => bytes.flatMap fun b => Json.hexDigits b.toNat
  encrypt := id
  decrypt := some
  restores := fun _ _ => rfl

def finished : MediaProviderResult where
  status := some .succeeded
  providerJobId := "job-7".toList
  outputUrl := "https://cdn.example/7.png".toList
  outputBytes := some [137, 80, 78, 71]
  outputContentType := "image/png".toList
  metadata := .dict [(.text "seed".toList, .int 7)]
  actualCost := some ⟨.finite false 120 (-2), rfl⟩
  errorCode := []

def scored : MediaProviderResult :=
  { finished with metadata := .dict [(.text "seed".toList, .int 7), (.text "score".toList, .nonFinite)] }

theorem finished_stored : ((serializeProviderResultCheckpoint storedAsIs finished).toOption.map SerializedCheckpoint.canonical).isSome = true := by
  decide +kernel

theorem scored_stored : ((serializeProviderResultCheckpoint storedAsIs scored).toOption.map SerializedCheckpoint.canonical).isSome = true := by
  decide +kernel

end MapBackend.MediaProcessing.Checkpoint
