import MapBackend.Core.PublicUrl
import MapBackend.Library.Json

/-!
The listing of the versions of one object key after an upload whose outcome is unknown.
-/

namespace MapBackend.Marketplaces
open MapBackend.Library MapBackend.Core

def listPageSize : ℕ := 100
def maxListPages : ℕ := 4
def maxListEntries : ℕ := listPageSize * maxListPages

inductive UploadState where
  | prepared | putPending | versionKnown | verified | attached | noObject | orphaned | manualReview
  deriving DecidableEq

namespace PutListing

def noObjectAuditCode : String := "reviewed_settlement_no_object"
def manualDeleteMarker : String := "put_reconcile_delete_marker"
def manualMultipleVersions : String := "put_reconcile_multiple_versions"
def manualUnusableVersion : String := "put_reconcile_unusable_version"
def manualMalformedListing : String := "put_reconcile_malformed_listing"
def manualPageLimit : String := "put_reconcile_page_limit"

structure AttemptSnapshot where
  attemptId : ℕ
  revision : ℕ
  storageBucket : Text
  expectedBucketOwner : Text
  objectKey : Text
  sizeBytes : ℕ
  putRunRevision : ℕ
  putStartedAt : ℤ
  deriving DecidableEq

structure ListDecision where
  state : UploadState
  safeErrorCode : String
  versionId : Option Text
  pagesScanned : ℕ
  entriesScanned : ℕ
  exactVersionCount : ℕ
  exactDeleteMarkerCount : ℕ

structure ListRequest where
  bucket : Text
  keyPrefix : Text
  expectedBucketOwner : Text
  maxKeys : ℕ
  markers : Option (Text × Text)

inductive ListAnswer where
  /-- The call raises. -/
  | failed
  /-- The mapping raises while it is read. -/
  | unreadable
  | page (response : Json)

/-! ## The shape of a page -/

abbrev MalformedVersionListing := String

def isSafeKey (key : Text) : Bool :=
  decide (1 ≤ key.length) && decide (key.length ≤ 255) && key.all fun c => decide (0x21 ≤ c.toNat) && decide (c.toNat ≤ 0x7e)

def safeListingKey (value : Option Json) (keyPrefix : Text) : Except MalformedVersionListing Text :=
  match value with
  | some (.text key) => if isSafeKey key && keyPrefix.isPrefixOf key then .ok key else .error "malformed listing key"
  | _ => .error "malformed listing key"

def safeMarker (value : Option Json) : Except MalformedVersionListing Text :=
  match value with
  | some (.text marker) =>
    if marker.isEmpty || decide (1024 < marker.length) || !decide (Url.strip marker = marker) ||
        marker.any fun c => decide (c.toNat < 0x20) || decide (c.toNat = 0x7f) then
      .error "malformed pagination marker"
    else .ok marker
  | _ => .error "malformed pagination marker"

/-- `_usable_version_id`. Only the letters of the word have it as their lower case. -/
def usableVersionId (value : Option Json) : Except MalformedVersionListing Text := do
  let versionId ← safeMarker value
  raiseIf (versionId.map Char.toLower = "null".toList) "unversioned object is not usable"
  .ok versionId

def isText (expected : Text) : Option Json → Bool
  | some (.text s) => decide (s = expected)
  | _ => false

def isPageSize : Option Json → Bool
  | some (.int n) => decide (n = listPageSize)
  | some (.float value _) => decide (value = listPageSize)
  | _ => false

def echoes (requested : Option Text) : Option Json → Bool
  | none => true
  | some .null => requested.isNone
  | some (.text s) => decide (s = requested.getD [])
  | some _ => false

/-- `response.get(key, [])` that is a list of mappings. -/
def entriesOf : Option Json → Option (List Json)
  | none => some []
  | some (.list items) => if items.all Json.isObject then some items else none
  | some _ => none

def isEmptyList : Option Json → Bool
  | none => true
  | some .null => true
  | some (.list []) => true
  | some _ => false

def isEmptyText : Option Json → Bool
  | none => true
  | some .null => true
  | some (.text []) => true
  | some _ => false

def field (name : String) (response : Json) : Option Json := response.get name.toList

structure PageEntries where
  versions : List Json
  deleteMarkers : List Json
  /-- The markers of the next page of a truncated one. -/
  nextMarkers : Option (Text × Text)

/-- `_page_entries`. The flag of a truncated page is the presence of the next markers. -/
def pageEntries (response : Json) (snapshot : AttemptSnapshot) (requested : Option (Text × Text)) :
    Except MalformedVersionListing PageEntries := do
  raiseIf (response.isObject = false) "version listing response is not a mapping"
  raiseIf (isText snapshot.storageBucket (field "Name" response) = false) "version listing bucket changed"
  raiseIf (isText snapshot.objectKey (field "Prefix" response) = false) "version listing prefix changed"
  raiseIf (isPageSize (field "MaxKeys" response) = false) "version listing page size changed"
  raiseIf (echoes (requested.map Prod.fst) (field "KeyMarker" response) = false) "version listing key marker changed"
  raiseIf (echoes (requested.map Prod.snd) (field "VersionIdMarker" response) = false) "version listing version marker changed"
  let versions ← orRaise "malformed version listing entries" (entriesOf (field "Versions" response))
  let deleteMarkers ← orRaise "malformed version listing entries" (entriesOf (field "DeleteMarkers" response))
  raiseIf (isEmptyList (field "CommonPrefixes" response) = false ∨ listPageSize < versions.length + deleteMarkers.length)
    "malformed version listing entries"
  match field "IsTruncated" response with
  | some (.bool true) => do
    raiseIf (versions.isEmpty = true ∧ deleteMarkers.isEmpty = true) "truncated version listing page is empty"
    let key ← safeListingKey (field "NextKeyMarker" response) snapshot.objectKey
    let version ← safeMarker (field "NextVersionIdMarker" response)
    .ok ⟨versions, deleteMarkers, some (key, version)⟩
  | some (.bool false) => do
    raiseIf (isEmptyText (field "NextKeyMarker" response) = false ∨ isEmptyText (field "NextVersionIdMarker" response) = false)
      "terminal version listing has continuation markers"
    .ok ⟨versions, deleteMarkers, none⟩
  | _ => .error "version listing truncation flag is missing"

/-! ## The scan -/

structure Scan where
  markers : Option (Text × Text)
  seenMarkers : List (Text × Text)
  exactVersionIds : List Text
  exactVersionEntries : ℕ
  singleExactVersionIsLatest : Option Bool
  exactDeleteMarkers : ℕ
  pagesScanned : ℕ
  entriesScanned : ℕ

def Scan.initial : Scan := ⟨none, [], [], 0, none, 0, 0, 0⟩

def soleKnownVersionId : List Text → Option Text
  | [id] => some id
  | _ => none

def Scan.decision (scan : Scan) (state : UploadState) (code : String) : ListDecision :=
  ⟨state, code, soleKnownVersionId scan.exactVersionIds, scan.pagesScanned, scan.entriesScanned, scan.exactVersionEntries,
    scan.exactDeleteMarkers⟩

def Scan.manual (scan : Scan) (code : String) : ListDecision := scan.decision .manualReview code

def latestFlag (snapshot : AttemptSnapshot) (version : Json) : Option Bool :=
  match field "Size" version, field "IsLatest" version with
  | some (.int size), some (.bool isLatest) => if size = snapshot.sizeBytes then some isLatest else none
  | _, _ => none

/-- A version of the exact key is counted; the flag says that one of the page is not usable. -/
def countVersion (snapshot : AttemptSnapshot) (scan : Scan) (unusable : Bool) (version : Json) : Scan × Bool :=
  let scan := { scan with exactVersionEntries := scan.exactVersionEntries + 1 }
  match usableVersionId (field "VersionId" version) with
  | .error _ => (scan, true)
  | .ok id =>
    let scan := { scan with exactVersionIds := scan.exactVersionIds.insert id }
    match latestFlag snapshot version with
    | none => (scan, true)
    | some isLatest =>
      if scan.exactVersionEntries = 1 then ({ scan with singleExactVersionIsLatest := some isLatest }, unusable)
      else (scan, unusable)

/-- The loop over the versions of a page. A malformed key stops it with the counters so far. -/
def countVersions (snapshot : AttemptSnapshot) (scan : Scan) (unusable : Bool) : List Json → Except Scan (Scan × Bool)
  | [] => .ok (scan, unusable)
  | version :: rest =>
    match safeListingKey (field "Key" version) snapshot.objectKey with
    | .error _ => .error scan
    | .ok key =>
      if key ≠ snapshot.objectKey then countVersions snapshot scan unusable rest
      else
        let (scan, unusable) := countVersion snapshot scan unusable version
        countVersions snapshot scan unusable rest

def countDeleteMarkers (snapshot : AttemptSnapshot) (scan : Scan) : List Json → Except Scan Scan
  | [] => .ok scan
  | marker :: rest =>
    match safeListingKey (field "Key" marker) snapshot.objectKey with
    | .error _ => .error scan
    | .ok key =>
      if key ≠ snapshot.objectKey then countDeleteMarkers snapshot scan rest
      else countDeleteMarkers snapshot { scan with exactDeleteMarkers := scan.exactDeleteMarkers + 1 } rest

/-- The entries of a page: the counters after it, or the decision that they force. -/
def countPage (snapshot : AttemptSnapshot) (scan : Scan) (page : PageEntries) : Except ListDecision Scan :=
  let scan := { scan with entriesScanned := scan.entriesScanned + (page.versions.length + page.deleteMarkers.length) }
  if maxListEntries < scan.entriesScanned then .error (scan.manual manualMalformedListing)
  else
    match countVersions snapshot scan false page.versions with
    | .error scan => .error (scan.manual manualMalformedListing)
    | .ok (scan, unusable) =>
      match countDeleteMarkers snapshot scan page.deleteMarkers with
      | .error scan => .error (scan.manual manualMalformedListing)
      | .ok scan =>
        if 1 < scan.exactVersionEntries then .error (scan.manual manualMultipleVersions)
        else if scan.exactDeleteMarkers ≠ 0 then .error (scan.manual manualDeleteMarker)
        else if unusable then .error (scan.manual manualUnusableVersion)
        else .ok scan

def settle (scan : Scan) : ListDecision :=
  if scan.exactVersionEntries = 0 then
    { scan.decision .noObject noObjectAuditCode with versionId := none, exactVersionCount := 0, exactDeleteMarkerCount := 0 }
  else if scan.singleExactVersionIsLatest ≠ some true then
    { scan.manual manualUnusableVersion with exactVersionCount := 1, exactDeleteMarkerCount := 0 }
  else { scan.decision .versionKnown "" with exactVersionCount := 1, exactDeleteMarkerCount := 0 }

def scanPage (snapshot : AttemptSnapshot) (scan : Scan) (response : Json) : Except ListDecision Scan :=
  match pageEntries response snapshot scan.markers with
  | .error _ => .error (scan.manual manualMalformedListing)
  | .ok page =>
    match countPage snapshot scan page with
    | .error decision => .error decision
    | .ok scan =>
      match page.nextMarkers with
      | none => .error (settle scan)
      | some next =>
        if scan.seenMarkers.contains next then .error (scan.manual manualMalformedListing)
        else .ok { scan with seenMarkers := next :: scan.seenMarkers, markers := some next }

structure Listing where
  requests : List ListRequest
  result : Except String ListDecision

def request (snapshot : AttemptSnapshot) (scan : Scan) : ListRequest :=
  ⟨snapshot.storageBucket, snapshot.objectKey, snapshot.expectedBucketOwner, listPageSize, scan.markers⟩

def listPages (client : ℕ → ListRequest → ListAnswer) (snapshot : AttemptSnapshot) : ℕ → ℕ → Scan → Listing
  | 0, _, scan => ⟨[], .ok (scan.manual manualPageLimit)⟩
  | remaining + 1, pageNumber, scan =>
    let asked := request snapshot scan
    match client pageNumber asked with
    | .failed => ⟨[asked], .error "version_listing_transport_failed"⟩
    | .unreadable => ⟨[asked], .error "version_listing_parse_failed"⟩
    | .page response =>
      match scanPage snapshot { scan with pagesScanned := pageNumber } response with
      | .error decision => ⟨[asked], .ok decision⟩
      | .ok scan =>
        let later := listPages client snapshot remaining (pageNumber + 1) scan
        ⟨asked :: later.requests, later.result⟩

def listExactVersions (client : ℕ → ListRequest → ListAnswer) (snapshot : AttemptSnapshot) : Listing :=
  listPages client snapshot maxListPages 1 Scan.initial

end PutListing

end MapBackend.Marketplaces
