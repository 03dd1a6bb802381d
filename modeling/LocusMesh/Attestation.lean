import Mathlib
import LocusMesh.Policy

/-! Signed receipt construction and exact route verification. -/
namespace LocusMesh

open CanonicalJson PyCollections AwareClock

namespace Attestation

def evidenceRank : EvidenceLevel → ℕ
  | .observed => 0
  | .peerAsserted => 1
  | .hardwareAttested => 2

def effectiveEvidence (level : EvidenceLevel) : EvidenceLevel :=
  if level = .hardwareAttested then .peerAsserted else level

theorem evidenceRank_eq : evidenceRank = Policy.evidenceRank := by
  funext level
  cases level <;> rfl

end Attestation

def getItem {α : Type} (items : List α) (index : ℕ) : Except PyError α :=
  match items[index]? with
  | none => .error .indexError
  | some a => .ok a

def itemBefore {α : Type} (items : List α) (index : ℕ) : Except PyError (Option α) :=
  if index = 0 then .ok none else some <$> getItem items (index - 1)

def itemAfter {α : Type} (items : List α) (index : ℕ) : Except PyError (Option α) :=
  if index + 1 < items.length then some <$> getItem items (index + 1) else .ok none

/-- A signer behind its port; the private key never crosses it. -/
structure Signer where
  keyId : String
  publicKey : String
  sign : List UInt8 → Except PyError String

section Building

variable {τ : Type} [AwareDatetime τ] (plat : Platform)

def HopReceipt.digest (r : HopReceipt τ) : Digest := sha256Digest plat (r.dump plat)

omit [AwareDatetime τ] in
def HopReceipt.construct (r : HopReceipt τ) : Except PyError (HopReceipt τ) :=
  match r.check with
  | .ok _ => .ok r
  | .error e => .error (.validationError e)

omit [AwareDatetime τ] in
/-- Plan and receipts are instances already, so only the bounds are checked. -/
def RouteAttestation.construct (plan : RoutePlan τ) (receipts : List (HopReceipt τ)) :
    Except PyError (RouteAttestation τ) :=
  match (do
    require (decide (1 ≤ receipts.length)) "receipts" "too_short"
    require (decide (receipts.length ≤ 64)) "receipts" "too_long") with
  | .ok _ => .ok ⟨"locusmesh.route-attestation.v1",plan,receipts⟩
  | .error e => .error (.validationError e)

variable (plan : RoutePlan τ) (policy : AdmissionPolicy τ) (signers : PeerId → Option Signer)
  (observedAt : τ) (evidenceLevels : Option (PeerId → Option EvidenceLevel))

/-- The level a hop signs: its override if there is one, else its manifest's. -/
def chosenLevel (peerId : PeerId) (manifest : PeerManifest τ) : EvidenceLevel :=
  match evidenceLevels with
  | none => manifest.evidenceLevel
  | some levels =>
    match levels peerId with
    | none => manifest.evidenceLevel
    | some level => level

def unsignedReceipt (index : ℕ) (peerId : PeerId) (previous next : Option PeerId)
    (manifest : PeerManifest τ) (signer : Signer) (receipts : List (HopReceipt τ)) :
    HopReceipt τ where
  schemaVersion := "locusmesh.hop-receipt.v1"
  requestId := plan.requestId
  nonce := plan.nonce
  requestCommitment := plan.requestCommitment
  routePlanDigest := sha256Digest plat (plan.dump plat)
  policyDigest := policyDigest plat policy
  topologyDigest := topologyDigest plat policy.topology
  intent := plan.intent
  hopIndex := index
  hopCount := plan.hopPeerIds.length
  peerId := peerId
  previousPeerId := previous
  nextPeerId := next
  previousReceiptDigest := receipts.getLast?.map (HopReceipt.digest plat)
  modelDigest := plan.modelDigest
  runtimeDigest := plan.runtimeDigest
  evidenceLevel := chosenLevel evidenceLevels peerId manifest
  observedAt := observedAt
  keyId := signer.keyId
  signatureAlgorithm := "ed25519"
  signature := String.ofList (List.replicate 86 'A')

def buildReceipt (index : ℕ) (peerId : PeerId) (receipts : List (HopReceipt τ)) :
    Except PyError (HopReceipt τ) := do
  let signer ← match signers peerId with
    | none => .error (.keyError peerId.val)
    | some signer => .ok signer
  let manifest ← match policy.peersById peerId with
    | none => .error (.keyError peerId.val)
    | some manifest => .ok manifest
  let previous ← itemBefore plan.hopPeerIds index
  let next ← itemAfter plan.hopPeerIds index
  let unsigned ← (unsignedReceipt plat plan policy observedAt evidenceLevels index peerId
    previous next manifest signer receipts).construct
  let signature ← signer.sign (canonicalJsonBytes (.obj (unsigned.signingPayload plat)))
  .ok {unsigned with signature := signature}

def buildReceipts (index : ℕ) (receipts : List (HopReceipt τ)) :
    List PeerId → Except PyError (List (HopReceipt τ))
  | [] => .ok receipts
  | peerId :: rest => do
    let receipt ← buildReceipt plat plan policy signers observedAt evidenceLevels index peerId
      receipts
    buildReceipts (index + 1) (receipts ++ [receipt]) rest

/-- Build a deterministic signed chain for fixtures and local embedding. -/
def buildAttestation : Except PyError (RouteAttestation τ) := do
  let receipts ← buildReceipts plat plan policy signers observedAt evidenceLevels 0 []
    plan.hopPeerIds
  RouteAttestation.construct plan receipts

end Building

section Verifying

variable {τ : Type} [AwareDatetime τ] (plat : Platform)

omit [AwareDatetime τ] in
def deny (base : AdmissionDecision τ) (reasons : List String) (checkedHops : ℕ)
    (attestationDigest : Digest) : AdmissionDecision τ :=
  {base with
    admitted := false
    decisionKind := .attestationVerification
    reasonCodes := fromKeys reasons
    checkedHops := checkedHops
    attestationDigest := some attestationDigest}

/-- What the loop over receipts carries. -/
structure VerifyState (τ : Type) where
  reasons : List String
  previousReceipt : Option (HopReceipt τ)
  effectiveReceiptEvidence : List EvidenceLevel

variable (plan : RoutePlan τ) (policy : AdmissionPolicy τ) (now : τ)

/-- The bound fields of a receipt against their expected values. -/
def exactFields (index : ℕ) (expectedPeer : PeerId) (expectedPrevious expectedNext : Option PeerId)
    (expectedPreviousDigest : Option Digest) (receipt : HopReceipt τ) : List (String × Bool) :=
  [("REQUEST_ID",decide (receipt.requestId = plan.requestId)),
   ("NONCE",decide (receipt.nonce = plan.nonce)),
   ("REQUEST_COMMITMENT",decide (receipt.requestCommitment = plan.requestCommitment)),
   ("ROUTE_PLAN_DIGEST",decide (receipt.routePlanDigest = sha256Digest plat (plan.dump plat))),
   ("POLICY_DIGEST",decide (receipt.policyDigest = policyDigest plat policy)),
   ("TOPOLOGY_DIGEST",decide (receipt.topologyDigest = topologyDigest plat policy.topology)),
   ("INTENT",decide (receipt.intent = plan.intent)),
   ("HOP_INDEX",decide (receipt.hopIndex = index)),
   ("HOP_COUNT",decide (receipt.hopCount = plan.hopPeerIds.length)),
   ("PEER_ID",decide (receipt.peerId = expectedPeer)),
   ("PREVIOUS_PEER",decide (receipt.previousPeerId = expectedPrevious)),
   ("NEXT_PEER",decide (receipt.nextPeerId = expectedNext)),
   ("PREVIOUS_RECEIPT_DIGEST",decide (receipt.previousReceiptDigest = expectedPreviousDigest)),
   ("MODEL_DIGEST",decide (receipt.modelDigest = plan.modelDigest)),
   ("RUNTIME_DIGEST",decide (receipt.runtimeDigest = plan.runtimeDigest))]

def mismatches (fields : List (String × Bool)) : List String :=
  fields.flatMap fun field => flag (!field.2) ("RECEIPT_" ++ field.1 ++ "_MISMATCH")

/-- The time checks of a receipt whose manifest is known. -/
def timeReasons (manifest : PeerManifest τ) (previous : Option (HopReceipt τ))
    (receipt : HopReceipt τ) : List String :=
  flag (!inWindow plan.createdAt plan.expiresAt receipt.observedAt)
    "RECEIPT_OUTSIDE_PLAN_WINDOW" ++
  flag (gt receipt.observedAt now) "RECEIPT_FROM_FUTURE" ++
  flag (!inWindow policy.topology.capturedAt policy.topology.expiresAt receipt.observedAt)
    "RECEIPT_OUTSIDE_TOPOLOGY_WINDOW" ++
  (match previous with
    | none => []
    | some before => flag (lt receipt.observedAt before.observedAt) "RECEIPT_TIME_REVERSED") ++
  flag (!inWindow manifest.validFrom manifest.expiresAt receipt.observedAt)
    "RECEIPT_OUTSIDE_PEER_WINDOW"

def signatureReasons (manifest : PeerManifest τ) (receipt : HopReceipt τ) : List String :=
  flag (decide (receipt.keyId ≠ manifest.keyId.val)) "RECEIPT_KEY_ID_MISMATCH" ++
  (match deriveKeyId plat manifest.publicKey.val with
    | .error _ => ["PEER_PUBLIC_KEY_INVALID"]
    | .ok keyId =>
      flag (decide (keyId ≠ manifest.keyId)) "PEER_KEY_BINDING_INVALID" ++
      flag (!verifyEd25519 plat manifest.publicKey.val
          (canonicalJsonBytes (.obj (receipt.signingPayload plat))) receipt.signature)
        "SIGNATURE_INVALID")

/-- One turn of the verification loop, past the test for a surplus receipt. -/
def verifyReceipt (index : ℕ) (receipt : HopReceipt τ) (state : VerifyState τ) :
    Except PyError (VerifyState τ) := do
  let expectedPeer ← getItem plan.hopPeerIds index
  let expectedPrevious ← itemBefore plan.hopPeerIds index
  let expectedNext ← itemAfter plan.hopPeerIds index
  let expectedPreviousDigest := state.previousReceipt.map (HopReceipt.digest plat)
  let bound := mismatches (exactFields plat plan policy index expectedPeer expectedPrevious
    expectedNext expectedPreviousDigest receipt)
  match policy.peersById expectedPeer with
  | none =>
    .ok ⟨state.reasons ++ bound ++ ["PEER_UNKNOWN:" ++ expectedPeer.val],some receipt,
      state.effectiveReceiptEvidence⟩
  | some manifest =>
    match policy.floor plan.intent with
    | none => .error (.keyError plan.intent.value)
    | some required =>
      let effective := Attestation.effectiveEvidence receipt.evidenceLevel
      .ok ⟨state.reasons ++ bound ++
          timeReasons plan policy now manifest state.previousReceipt receipt ++
          signatureReasons plat manifest receipt ++
          flag (decide (Attestation.evidenceRank manifest.evidenceLevel <
              Attestation.evidenceRank receipt.evidenceLevel))
            "RECEIPT_EVIDENCE_EXCEEDS_MANIFEST" ++
          flag (decide (Attestation.evidenceRank effective < Attestation.evidenceRank required))
            "RECEIPT_EVIDENCE_BELOW_FLOOR",
        some receipt,state.effectiveReceiptEvidence ++ [effective]⟩

/-- The loop over the receipts; a receipt behind the last hop ends it. -/
def verifyReceipts (index : ℕ) (state : VerifyState τ) :
    List (HopReceipt τ) → Except PyError (VerifyState τ)
  | [] => .ok state
  | receipt :: rest =>
    if plan.hopPeerIds.length ≤ index then
      .ok {state with reasons := state.reasons ++ ["EXTRA_RECEIPT"]}
    else do
      let state ← verifyReceipt plat plan policy now index receipt state
      verifyReceipts (index + 1) state rest

structure Verified (τ : Type) where
  base : AdmissionDecision τ
  attestationHash : Digest
  effectiveReceiptEvidence : List EvidenceLevel

def RouteAttestation.digest (a : RouteAttestation τ) : Digest := sha256Digest plat (a.dump plat)

def initialReasons (attestation : RouteAttestation τ) : List String :=
  flag (decide (attestation.receipts.length ≠ attestation.plan.hopPeerIds.length))
    "RECEIPT_COUNT_MISMATCH"

/-- Everything `verify_attestation` does before it consults the replay store. -/
def checkAttestation (attestation : RouteAttestation τ) :
    Except PyError (AdmissionDecision τ ⊕ Verified τ) := do
  let base ← admitPlan plat attestation.plan policy now
  let attestationHash := attestation.digest plat
  if !base.admitted then
    .ok (.inl {base with
      decisionKind := .attestationVerification
      attestationDigest := some attestationHash})
  else
    let state ← verifyReceipts plat attestation.plan policy now 0
      ⟨initialReasons attestation,none,[]⟩ attestation.receipts
    if !state.reasons.isEmpty then
      .ok (.inl (deny base state.reasons
        (min attestation.receipts.length attestation.plan.hopPeerIds.length) attestationHash))
    else .ok (.inr ⟨base,attestationHash,state.effectiveReceiptEvidence⟩)

omit [AwareDatetime τ] in
def admission (verified : Verified τ) : Except PyError (AdmissionDecision τ) :=
  match minBy Attestation.evidenceRank verified.effectiveReceiptEvidence with
  | none => .error (.valueError "min() iterable argument is empty")
  | some effective =>
    .ok {verified.base with
      decisionKind := .attestationVerification
      attestationDigest := some verified.attestationHash
      effectiveEvidence := some effective}

/-- The replay port: remember a verified nonce and report whether it was new. -/
structure ReplayStore (σ : Type) where
  recordIfNew : (nonce requestCommitment attestationDigest : String) → σ →
    Except PyError Bool × σ

/-- `replay_store is None or replay_store.record_if_new(...)`. -/
def recordFresh {σ : Type} (store : Option (ReplayStore σ)) (plan : RoutePlan τ)
    (attestationHash : Digest) (s : σ) : Except PyError Bool × σ :=
  match store with
  | none => (.ok true,s)
  | some store =>
    store.recordIfNew plan.nonce.val plan.requestCommitment.val attestationHash.val s

omit [AwareDatetime τ] in
def conclude (attestation : RouteAttestation τ) (verified : Verified τ) (fresh : Bool) :
    Except PyError (AdmissionDecision τ) :=
  if fresh then admission verified
  else .ok (deny verified.base ["REPLAY_DETECTED"] attestation.receipts.length
    verified.attestationHash)

/-- Verify policy, exact path, key binding, signatures and optional replay state. -/
def verifyAttestation {σ : Type} (attestation : RouteAttestation τ)
    (store : Option (ReplayStore σ)) (s : σ) : Except PyError (AdmissionDecision τ) × σ :=
  match checkAttestation plat policy now attestation with
  | .error e => (.error e,s)
  | .ok (.inl denied) => (.ok denied,s)
  | .ok (.inr verified) =>
    match recordFresh store attestation.plan verified.attestationHash s with
    | (.error e,s') => (.error e,s')
    | (.ok fresh,s') => (conclude attestation verified fresh,s')

/-- `verify_attestation` without a replay store. -/
def verify (attestation : RouteAttestation τ) : Except PyError (AdmissionDecision τ) :=
  (verifyAttestation plat policy now attestation (σ:=Unit) none ()).1

end Verifying

end LocusMesh
