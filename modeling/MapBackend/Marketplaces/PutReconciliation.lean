import MapBackend.Marketplaces.Models
import MapBackend.Marketplaces.PutEvidence

/-!
The settlement of an upload with an unknown outcome: the decision of the listing and its audit row are
written in one transaction, to an attempt that is still as it was when the listing began.
-/

namespace MapBackend.Marketplaces
open MapBackend.Library MapBackend.Core

namespace PutListing

/-! ## Rows -/

inductive ResolutionSource where
  | putResponse
  | operatorReconciliation
  deriving DecidableEq

/-- `MarketplaceFeedArtifactUploadAttempt`. The blank source is absent. -/
structure UploadAttempt where
  id : ℕ
  account : ℕ
  endpoint : ℕ
  run : ℕ
  revision : ℕ
  state : UploadState
  putResolutionSource : Option ResolutionSource
  storageBucket : Text
  expectedBucketOwner : Text
  objectKey : Text
  sizeBytes : ℕ
  putRunRevision : Option ℕ
  objectVersionId : Option Text
  putStartedAt : Option Instant
  versionKnownAt : Option Instant
  verifiedAt : Option Instant
  attachedAt : Option Instant
  resolvedAt : Option Instant
  safeErrorCode : String
  updatedAt : Instant

structure OperatorAuthorization where
  evidenceDigest : String
  operatorIdentityDigest : String
  originProcessIdentityDigest : String
  digestSchemeRevision : String
  identityDigestKeyRevision : String
  originProcessTerminatedAt : Instant

structure ClientPolicy where
  adapterPolicyRevision : String
  canaryPolicyRevision : String

inductive PutOutcome where
  | noObjectByReviewedSettlementPolicy
  | versionKnown
  | manualReview
  | superseded
  deriving DecidableEq

structure PutAudit where
  attempt : ℕ
  preRevision : ℕ
  postRevision : ℕ
  fromState : UploadState
  toState : UploadState
  outcome : PutOutcome
  decisionCode : String
  versionIdCaptured : Bool
  authorization : OperatorAuthorization
  clientPolicy : ClientPolicy
  reconciliationStartedAt : Instant
  decisionAt : Instant
  settlementWindowSeconds : ℕ
  pagesScanned : ℕ
  entriesScanned : ℕ
  exactVersionCount : ℕ
  exactDeleteMarkerCount : ℕ

/-- The tables: accounts with their tenant, endpoints with their account, runs with both. -/
structure PutStore where
  accounts : List (ℕ × ℕ)
  endpoints : List (ℕ × ℕ)
  runs : List (ℕ × ℕ × ℕ)
  attempts : List UploadAttempt
  audits : List PutAudit

inductive PutError where
  | refused (code : String)
  | integrityError
  deriving DecidableEq

structure PutReference where
  tenantId : ℕ
  accountId : ℕ
  endpointId : ℕ
  runId : ℕ
  attemptId : ℕ
  expectedRevision : ℕ

/-! ## The settlement -/

def putPendingSettlementWindowSeconds : ℕ := 15 * 60

structure Settlement where
  reference : PutReference
  snapshot : AttemptSnapshot
  authorization : OperatorAuthorization
  clientPolicy : ClientPolicy
  reconciliationStartedAt : Instant
  resolvedAt : Instant
  /-- The check constraints of the two tables accept the new rows. -/
  accepted : Bool

def lockScope (s : PutStore) (r : PutReference) : Except PutError UploadAttempt := do
  raiseIf (s.accounts.contains (r.accountId, r.tenantId) = false) (.refused "attempt_scope_unavailable")
  raiseIf (s.endpoints.contains (r.endpointId, r.accountId) = false) (.refused "attempt_scope_unavailable")
  raiseIf (s.runs.contains (r.runId, r.tenantId, r.accountId) = false) (.refused "attempt_scope_unavailable")
  orRaise (.refused "attempt_scope_unavailable") (s.attempts.find? fun o =>
    decide (o.id = r.attemptId) && decide (o.account = r.accountId) && decide (o.endpoint = r.endpointId) && decide (o.run = r.runId))

def unchanged (snapshot : AttemptSnapshot) (o : UploadAttempt) : Bool :=
  decide (o.storageBucket = snapshot.storageBucket) && decide (o.expectedBucketOwner = snapshot.expectedBucketOwner) &&
    decide (o.objectKey = snapshot.objectKey) && decide (o.sizeBytes = snapshot.sizeBytes) &&
    decide (o.putRunRevision = some snapshot.putRunRevision) && decide (o.putStartedAt = some snapshot.putStartedAt) &&
    o.objectVersionId.isNone && o.putResolutionSource.isNone && o.versionKnownAt.isNone && o.verifiedAt.isNone &&
    o.attachedAt.isNone && o.resolvedAt.isNone && decide (o.safeErrorCode = "")

def pendingAt (attemptId : ℕ) (snapshot : AttemptSnapshot) (o : UploadAttempt) : Bool :=
  decide (o.id = attemptId) && decide (o.revision = snapshot.revision) && decide (o.state = .putPending) && unchanged snapshot o

def resolve (d : ListDecision) (resolvedAt : Instant) (o : UploadAttempt) : UploadAttempt :=
  let o := { o with
    state := d.state
    revision := o.revision + 1
    putResolutionSource := some .operatorReconciliation
    updatedAt := resolvedAt }
  if d.state = .versionKnown then { o with objectVersionId := d.versionId, versionKnownAt := some resolvedAt }
  else
    let o := { o with resolvedAt := some resolvedAt, safeErrorCode := d.safeErrorCode }
    if d.versionId.isSome then { o with objectVersionId := d.versionId, versionKnownAt := some resolvedAt } else o

def outcomeOf : UploadState → PutOutcome
  | .versionKnown => .versionKnown
  | .noObject => .noObjectByReviewedSettlementPolicy
  | _ => .manualReview

def auditOf (r : Settlement) (d : ListDecision) : PutAudit where
  attempt := r.reference.attemptId
  preRevision := r.snapshot.revision
  postRevision := r.snapshot.revision + 1
  fromState := .putPending
  toState := d.state
  outcome := outcomeOf d.state
  decisionCode := d.safeErrorCode
  versionIdCaptured := d.versionId.isSome
  authorization := r.authorization
  clientPolicy := r.clientPolicy
  reconciliationStartedAt := r.reconciliationStartedAt
  decisionAt := r.resolvedAt
  settlementWindowSeconds := putPendingSettlementWindowSeconds
  pagesScanned := d.pagesScanned
  entriesScanned := d.entriesScanned
  exactVersionCount := d.exactVersionCount
  exactDeleteMarkerCount := d.exactDeleteMarkerCount

structure PutResult where
  outcome : PutOutcome
  state : UploadState
  revision : ℕ
  applied : Bool

/-- `_apply_decision`. One attempt has one audit row. -/
def applyDecision (s : PutStore) (r : Settlement) (d : ListDecision) : Except PutError (PutStore × PutResult) := do
  let attempt ← lockScope s r.reference
  if attempt.state ≠ .putPending ∨ attempt.revision ≠ r.snapshot.revision ∨ attempt.revision ≠ r.reference.expectedRevision then
    .ok (s, ⟨.superseded, attempt.state, attempt.revision, false⟩)
  else do
    raiseIf (unchanged r.snapshot attempt = false) (.refused "attempt_snapshot_changed")
    raiseIf (s.audits.any fun audit => decide (audit.attempt = attempt.id)) .integrityError
    raiseIf (r.accepted = false) .integrityError
    raiseIf ((s.attempts.filter (pendingAt attempt.id r.snapshot)).length ≠ 1) (.refused "attempt_resolution_cas_failed")
    let updated := s.attempts.map fun o => if pendingAt attempt.id r.snapshot o then resolve d r.resolvedAt o else o
    .ok ({ s with attempts := updated, audits := s.audits ++ [auditOf r d] },
      ⟨outcomeOf d.state, d.state, attempt.revision + 1, true⟩)

/-! ## What is decided and written -/

/-- The transition of the attempt and its audit row: the attempt was pending at the revision of the snapshot. -/
structure Settles (s next : PutStore) (r : Settlement) (d : ListDecision) : Prop where
  pending : ∃ old, s.attempts.filter (pendingAt r.reference.attemptId r.snapshot) = [old] ∧ old.state = .putPending ∧
    old.revision = r.snapshot.revision ∧ old.revision = r.reference.expectedRevision
  attempts : next.attempts = s.attempts.map fun o =>
    if pendingAt r.reference.attemptId r.snapshot o then resolve d r.resolvedAt o else o
  audits : next.audits = s.audits ++ [auditOf r d]
  scope : next.accounts = s.accounts ∧ next.endpoints = s.endpoints ∧ next.runs = s.runs

theorem applyDecision_ok {s next : PutStore} {r : Settlement} {d : ListDecision} {result : PutResult}
    (step : applyDecision s r d = .ok (next, result)) : next = s ∨ Settles s next r d := by
  obtain ⟨_, locked, step⟩ := bind_ok.mp step
  simp only [lockScope, bind_ok, orRaise_ok] at locked
  obtain ⟨_, _, _, _, _, _, found⟩ := locked
  have named := List.find?_some found
  simp only [Bool.and_eq_true, decide_eq_true_eq] at named
  split at step
  · cases step
    exact .inl rfl
  · next current =>
    simp only [not_or, not_not] at current
    simp only [bind_ok, raiseIf_ok, not_not] at step
    obtain ⟨_, _, _, _, _, _, _, one, made⟩ := step
    cases made
    obtain ⟨old, alone⟩ := List.length_eq_one_iff.mp one
    rw [named.1.1.1] at alone ⊢
    refine .inr ⟨⟨old, alone, ?_⟩, rfl, rfl, rfl, rfl, rfl⟩
    have mem : old ∈ s.attempts.filter (pendingAt r.reference.attemptId r.snapshot) := alone ▸ List.mem_cons_self
    have holds := (List.mem_filter.mp mem).2
    simp only [pendingAt, Bool.and_eq_true, decide_eq_true_eq] at holds
    exact ⟨holds.1.2, holds.1.1.2, holds.1.1.2.trans (current.2.1.symm.trans current.2.2)⟩

structure Reconciles (client : ℕ → ListRequest → ListAnswer) (snapshot : AttemptSnapshot) (listing : Listing) : Prop where
  requests : listing.requests.length ≤ maxListPages
  failed : ∀ k asked, listing.requests[k]? = some asked → client (1 + k) asked = .failed →
    listing.result = .error "version_listing_transport_failed"
  undecided : ∀ code, listing.result = .error code → ∃ k asked, listing.requests[k]? = some asked ∧
    (client (1 + k) asked = .failed ∨ client (1 + k) asked = .unreadable)
  noObject : ∀ d, listing.result = .ok d → (d.state = .noObject ↔ ∃ pages, CompleteListing client snapshot pages ∧
    Clean snapshot pages ∧ exactVersions snapshot pages = [] ∧ exactDeleteMarkers snapshot pages = [])
  versionKnown : ∀ d, listing.result = .ok d → (d.state = .versionKnown ↔ ∃ pages version id,
    CompleteListing client snapshot pages ∧ Clean snapshot pages ∧ exactVersions snapshot pages = [version] ∧
      Usable snapshot version id true ∧ exactDeleteMarkers snapshot pages = [] ∧ d.versionId = some id)
  otherwise : ∀ d, listing.result = .ok d → d.state = .noObject ∨ d.state = .versionKnown ∨ d.state = .manualReview

end PutListing

end MapBackend.Marketplaces
