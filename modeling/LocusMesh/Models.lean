import Mathlib
import LocusMesh.Collections
import LocusMesh.Clock

/-! The wire contracts. A string whose pattern the contract fixes is a subtype; what the
field bounds and the model validators check is `Contract.check`, and `Validated` carries
the fact that it passed. Every contract is generic in its datetime type. -/
namespace LocusMesh

open AwareClock PyCollections

def isAlnum (c : Char) : Bool :=
  ('A' ≤ c && c ≤ 'Z') || ('a' ≤ c && c ≤ 'z') || ('0' ≤ c && c ≤ '9')

def isLowerHex (c : Char) : Bool := ('0' ≤ c && c ≤ '9') || ('a' ≤ c && c ≤ 'f')

/-- `^<tag>[0-9a-f]{64}$`. -/
def taggedHex (tag s : String) : Bool :=
  tag.toList.isPrefixOf s.toList &&
    ((s.toList.drop tag.toList.length).length == 64 &&
      (s.toList.drop tag.toList.length).all isLowerHex)

def peerIdPattern (s : String) : Bool :=
  match s.toList with
  | [] => false
  | c :: cs => isAlnum c && (decide (cs.length ≤ 127) &&
      cs.all fun c => isAlnum c || c == '.' || c == '_' || c == ':' || c == '-')

def noncePattern (s : String) : Bool :=
  decide (16 ≤ s.toList.length) && (decide (s.toList.length ≤ 128) &&
    s.toList.all fun c => isAlnum c || c == '.' || c == '_' || c == '~' || c == '-')

def base64urlPattern (n : ℕ) (s : String) : Bool :=
  s.toList.length == n && s.toList.all fun c => isAlnum c || c == '_' || c == '-'

abbrev Digest := {s : String // taggedHex "sha256:" s = true}
abbrev Commitment := {s : String // taggedHex "hmac-sha256:" s = true}
abbrev KeyId := {s : String // taggedHex "ed25519:sha256:" s = true}
abbrev PeerId := {s : String // peerIdPattern s = true}
abbrev RequestId := {s : String // 1 ≤ s.toList.length ∧ s.toList.length ≤ 128}
abbrev Nonce := {s : String // noncePattern s = true}
abbrev PublicKey := {s : String // base64urlPattern 43 s = true}
abbrev AddressHint := {s : String // s.toList.length ≤ 512}

/-- Maximum permitted execution locality for a route. -/
inductive ExecutionIntent
  | deviceOnly | privateMesh | publicMesh
  deriving DecidableEq, Repr

def ExecutionIntent.value : ExecutionIntent → String
  | .deviceOnly => "device_only"
  | .privateMesh => "private_mesh"
  | .publicMesh => "public_mesh"

theorem ExecutionIntent.value_injective : Function.Injective ExecutionIntent.value := by
  intro a b h
  cases a <;> cases b <;> first | rfl | exact absurd h (by decide)

/-- Strength of the evidence attached to one hop. -/
inductive EvidenceLevel
  | observed | peerAsserted | hardwareAttested
  deriving DecidableEq, Repr

def EvidenceLevel.value : EvidenceLevel → String
  | .observed => "observed"
  | .peerAsserted => "peer_asserted"
  | .hardwareAttested => "hardware_attested"

theorem EvidenceLevel.value_injective : Function.Injective EvidenceLevel.value := by
  intro a b h
  cases a <;> cases b <;> first | rfl | exact absurd h (by decide)

structure ContractError where
  location : String
  message : String
  deriving DecidableEq, Repr

def require (ok : Bool) (location message : String) : Except ContractError Unit :=
  if ok then .ok () else .error ⟨location,message⟩

@[simp] theorem require_ok {c : Bool} {l m : String} {u : Unit} :
    require c l m = .ok u ↔ c = true := by
  cases c <;> simp [require]

theorem andThen_ok {ε α : Type} {x : Except ε Unit} {k : Except ε α} {a : α} :
    (do x; k) = .ok a ↔ x = .ok () ∧ k = .ok a := by
  cases x with
  | error e => simp [bind,Except.bind]
  | ok u => simp [bind,Except.bind]

def checkEach {ε α : Type} (check : α → Except ε Unit) : List α → Except ε Unit
  | [] => .ok ()
  | a :: l => do check a; checkEach check l

theorem checkEach_ok {ε α : Type} {check : α → Except ε Unit} {l : List α} :
    checkEach check l = .ok () ↔ ∀ a ∈ l, check a = .ok () := by
  induction l with
  | nil => simp [checkEach]
  | cons a l ih => simp [checkEach,andThen_ok,ih]

/-- What a contract model checks beyond the types of its fields. -/
class Contract (α : Type) where
  check : α → Except ContractError Unit

structure Validated (α : Type) [Contract α] where
  val : α
  accepted : Contract.check val = .ok ()

def checkSchemaVersion (expected version : String) : Except ContractError Unit :=
  require (decide (version = expected)) "schema_version" s!"schema_version must be {expected}"

section Contracts

variable (τ : Type)

@[ext] structure PeerManifest where
  schemaVersion : String
  peerId : PeerId
  executionScope : ExecutionIntent
  modelDigest : Digest
  runtimeDigest : Digest
  evidenceLevel : EvidenceLevel
  keyId : KeyId
  publicKey : PublicKey
  validFrom : τ
  expiresAt : τ
  addressHint : Option AddressHint

@[ext] structure TopologyEdge where
  schemaVersion : String
  sourcePeerId : PeerId
  targetPeerId : PeerId
  deriving DecidableEq

/-- Bounded peer/edge snapshot, trusted only when pinned by a policy. -/
@[ext] structure TopologySnapshot where
  schemaVersion : String
  snapshotId : RequestId
  localPeerId : PeerId
  capturedAt : τ
  expiresAt : τ
  peers : List (PeerManifest τ)
  edges : List TopologyEdge

/-- Planned path and the exact request it is allowed to carry. -/
@[ext] structure RoutePlan where
  schemaVersion : String
  requestId : RequestId
  nonce : Nonce
  requestCommitment : Commitment
  intent : ExecutionIntent
  modelDigest : Digest
  runtimeDigest : Digest
  hopPeerIds : List PeerId
  createdAt : τ
  expiresAt : τ

/-- Peer-signed evidence for one exact position in a route. The builder writes
`signature` with `model_copy`, past validation, so its pattern is part of `check`. -/
@[ext] structure HopReceipt where
  schemaVersion : String
  requestId : RequestId
  nonce : Nonce
  requestCommitment : Commitment
  routePlanDigest : Digest
  policyDigest : Digest
  topologyDigest : Digest
  intent : ExecutionIntent
  hopIndex : ℕ
  hopCount : ℕ
  peerId : PeerId
  previousPeerId : Option PeerId
  nextPeerId : Option PeerId
  previousReceiptDigest : Option Digest
  modelDigest : Digest
  runtimeDigest : Digest
  evidenceLevel : EvidenceLevel
  observedAt : τ
  keyId : String
  signatureAlgorithm : String
  signature : String

/-- A route plan plus the ordered signed receipts that executed it. -/
@[ext] structure RouteAttestation where
  schemaVersion : String
  plan : RoutePlan τ
  receipts : List (HopReceipt τ)

/-- Operator-owned allowlist and bounded route requirements. -/
@[ext] structure AdmissionPolicy where
  schemaVersion : String
  allowedIntents : {l : List ExecutionIntent // l.Nodup}
  maxHops : ℕ
  minimumEvidence : {l : List (ExecutionIntent × EvidenceLevel) // (l.map Prod.fst).Nodup}
  topology : TopologySnapshot τ

inductive DecisionKind
  | planAdmission | attestationVerification
  deriving DecidableEq, Repr

/-- Decision returned by admission and verification. `model_copy` writes its fields past
validation, so the constraints are all in `check`. -/
@[ext] structure AdmissionDecision where
  schemaVersion : String
  decisionKind : DecisionKind
  admitted : Bool
  reasonCodes : List String
  evaluatedAt : τ
  checkedHops : ℕ
  routeDigest : Option Digest
  attestationDigest : Option Digest
  policyDigest : Option Digest
  topologyDigest : Option Digest
  requestedIntent : Option ExecutionIntent
  effectiveScope : Option ExecutionIntent
  requiredEvidence : Option EvidenceLevel
  effectiveEvidence : Option EvidenceLevel

end Contracts

section Validators

variable {τ : Type} [AwareDatetime τ]

def PeerManifest.check (m : PeerManifest τ) : Except ContractError Unit := do
  checkSchemaVersion "locusmesh.peer-manifest.v1" m.schemaVersion
  require (!ge m.validFrom m.expiresAt) "" "valid_from must be earlier than expires_at"

def TopologyEdge.check (e : TopologyEdge) : Except ContractError Unit :=
  checkSchemaVersion "locusmesh.topology-edge.v1" e.schemaVersion

omit [AwareDatetime τ] in
def TopologySnapshot.edgePairs (t : TopologySnapshot τ) : List (PeerId × PeerId) :=
  t.edges.map fun edge => (edge.sourcePeerId,edge.targetPeerId)

omit [AwareDatetime τ] in
def TopologySnapshot.peerIds (t : TopologySnapshot τ) : List PeerId :=
  t.peers.map PeerManifest.peerId

def TopologySnapshot.check (t : TopologySnapshot τ) : Except ContractError Unit := do
  checkSchemaVersion "locusmesh.topology-snapshot.v1" t.schemaVersion
  require (decide (1 ≤ t.peers.length)) "peers" "too_short"
  require (decide (t.peers.length ≤ 256)) "peers" "too_long"
  require (decide (t.edges.length ≤ 1024)) "edges" "too_long"
  checkEach PeerManifest.check t.peers
  checkEach TopologyEdge.check t.edges
  require (!ge t.capturedAt t.expiresAt) "" "captured_at must be earlier than expires_at"
  require (decide t.peerIds.Nodup) "" "peers must contain unique peer_id values"
  require (decide (t.localPeerId ∈ t.peerIds)) ""
    "local_peer_id must reference a peer in the snapshot"
  require (decide t.edgePairs.Nodup) "" "edges must be unique"
  require (t.edgePairs.all fun e => decide (e.1 ∈ t.peerIds) && decide (e.2 ∈ t.peerIds)) ""
    "every edge endpoint must reference a peer in the snapshot"

def RoutePlan.check (p : RoutePlan τ) : Except ContractError Unit := do
  checkSchemaVersion "locusmesh.route-plan.v1" p.schemaVersion
  require (decide (1 ≤ p.hopPeerIds.length)) "hop_peer_ids" "too_short"
  require (decide (p.hopPeerIds.length ≤ 64)) "hop_peer_ids" "too_long"
  require (!ge p.createdAt p.expiresAt) "" "created_at must be earlier than expires_at"

omit [AwareDatetime τ] in
def HopReceipt.check (r : HopReceipt τ) : Except ContractError Unit := do
  checkSchemaVersion "locusmesh.hop-receipt.v1" r.schemaVersion
  require (decide (r.hopIndex ≤ 63)) "hop_index" "less_than_equal"
  require (decide (1 ≤ r.hopCount)) "hop_count" "greater_than_equal"
  require (decide (r.hopCount ≤ 64)) "hop_count" "less_than_equal"
  require (taggedHex "ed25519:sha256:" r.keyId) "key_id" "string_pattern_mismatch"
  require (decide (r.signatureAlgorithm = "ed25519")) "signature_algorithm" "literal_error"
  require (base64urlPattern 86 r.signature) "signature" "string_pattern_mismatch"

def RouteAttestation.check (a : RouteAttestation τ) : Except ContractError Unit := do
  checkSchemaVersion "locusmesh.route-attestation.v1" a.schemaVersion
  a.plan.check
  require (decide (1 ≤ a.receipts.length)) "receipts" "too_short"
  require (decide (a.receipts.length ≤ 64)) "receipts" "too_long"
  checkEach HopReceipt.check a.receipts

omit [AwareDatetime τ] in
def AdmissionPolicy.floor (policy : AdmissionPolicy τ) (intent : ExecutionIntent) :
    Option EvidenceLevel :=
  policy.minimumEvidence.val.lookup intent

def AdmissionPolicy.check (policy : AdmissionPolicy τ) : Except ContractError Unit := do
  require (decide (1 ≤ policy.maxHops)) "max_hops" "greater_than_equal"
  require (decide (policy.maxHops ≤ 64)) "max_hops" "less_than_equal"
  policy.topology.check
  require (decide (policy.schemaVersion = "locusmesh.admission-policy.v1")) ""
    "schema_version must be locusmesh.admission-policy.v1"
  require (policy.allowedIntents.val.all fun intent => (policy.floor intent).isSome) ""
    "minimum_evidence must cover every allowed intent"

omit [AwareDatetime τ] in
def AdmissionDecision.check (d : AdmissionDecision τ) : Except ContractError Unit := do
  checkSchemaVersion "locusmesh.admission-decision.v1" d.schemaVersion
  require (decide (d.checkedHops ≤ 64)) "checked_hops" "less_than_equal"
  if d.admitted then
    require (decide (d.reasonCodes = ["ADMITTED"])) ""
      "admitted decisions must contain only ADMITTED"
    require (d.routeDigest.isSome && (d.policyDigest.isSome && (d.topologyDigest.isSome &&
      d.requestedIntent.isSome))) "" "admitted decisions require complete lineage"
    require (!(d.decisionKind == .attestationVerification && d.attestationDigest.isNone)) ""
      "verified decisions require an attestation digest"
  else
    require (!(d.reasonCodes.isEmpty || d.reasonCodes.contains "ADMITTED")) ""
      "denied decisions require non-ADMITTED reason codes"
  require (!(d.decisionKind == .planAdmission && d.attestationDigest.isSome)) ""
    "plan admission cannot carry an attestation digest"

instance : Contract (TopologySnapshot τ) := ⟨TopologySnapshot.check⟩
instance : Contract (RoutePlan τ) := ⟨RoutePlan.check⟩
instance : Contract (RouteAttestation τ) := ⟨RouteAttestation.check⟩
instance : Contract (AdmissionPolicy τ) := ⟨AdmissionPolicy.check⟩

theorem RoutePlan.check_ok {p : RoutePlan τ} : p.check = .ok () ↔
    p.schemaVersion = "locusmesh.route-plan.v1" ∧ 1 ≤ p.hopPeerIds.length ∧
      p.hopPeerIds.length ≤ 64 ∧ lt p.createdAt p.expiresAt = true := by
  simp [RoutePlan.check,andThen_ok,checkSchemaVersion,ge_eq_not_lt]

theorem TopologySnapshot.check_ok {t : TopologySnapshot τ} : t.check = .ok () ↔
    t.schemaVersion = "locusmesh.topology-snapshot.v1" ∧
      1 ≤ t.peers.length ∧ t.peers.length ≤ 256 ∧ t.edges.length ≤ 1024 ∧
      (∀ m ∈ t.peers, m.check = .ok ()) ∧ (∀ e ∈ t.edges, e.check = .ok ()) ∧
      lt t.capturedAt t.expiresAt = true ∧ t.peerIds.Nodup ∧ t.localPeerId ∈ t.peerIds ∧
      t.edgePairs.Nodup ∧ ∀ e ∈ t.edgePairs, e.1 ∈ t.peerIds ∧ e.2 ∈ t.peerIds := by
  simp only [TopologySnapshot.check,andThen_ok,checkSchemaVersion,ge_eq_not_lt,require_ok,
    checkEach_ok,decide_eq_true_eq,Bool.not_not,List.all_eq_true,Bool.and_eq_true]

omit [AwareDatetime τ] in
theorem HopReceipt.check_ok {r : HopReceipt τ} : r.check = .ok () ↔
    r.schemaVersion = "locusmesh.hop-receipt.v1" ∧ r.hopIndex ≤ 63 ∧ 1 ≤ r.hopCount ∧
      r.hopCount ≤ 64 ∧ taggedHex "ed25519:sha256:" r.keyId = true ∧
      r.signatureAlgorithm = "ed25519" ∧ base64urlPattern 86 r.signature = true := by
  simp [HopReceipt.check,andThen_ok,checkSchemaVersion]

theorem RouteAttestation.check_ok {a : RouteAttestation τ} : a.check = .ok () ↔
    a.schemaVersion = "locusmesh.route-attestation.v1" ∧ a.plan.check = .ok () ∧
      1 ≤ a.receipts.length ∧ a.receipts.length ≤ 64 ∧
      ∀ r ∈ a.receipts, r.check = .ok () := by
  simp only [RouteAttestation.check,andThen_ok,checkSchemaVersion,require_ok,checkEach_ok,
    decide_eq_true_eq]

theorem AdmissionPolicy.check_ok {policy : AdmissionPolicy τ} : policy.check = .ok () ↔
    1 ≤ policy.maxHops ∧ policy.maxHops ≤ 64 ∧ policy.topology.check = .ok () ∧
      policy.schemaVersion = "locusmesh.admission-policy.v1" ∧
      ∀ intent ∈ policy.allowedIntents.val, (policy.floor intent).isSome = true := by
  simp only [AdmissionPolicy.check,andThen_ok,require_ok,decide_eq_true_eq,List.all_eq_true]

def Validated.plan (a : Validated (RouteAttestation τ)) : Validated (RoutePlan τ) :=
  ⟨a.val.plan,(RouteAttestation.check_ok.mp a.accepted).2.1⟩

theorem Validated.hops_ne_nil (p : Validated (RoutePlan τ)) : p.val.hopPeerIds ≠ [] := by
  intro h
  have hlen := (RoutePlan.check_ok.mp p.accepted).2.1
  simp [h] at hlen

theorem Validated.hops_length_le (p : Validated (RoutePlan τ)) :
    p.val.hopPeerIds.length ≤ 64 :=
  (RoutePlan.check_ok.mp p.accepted).2.2.1

def Validated.topology (policy : Validated (AdmissionPolicy τ)) :
    Validated (TopologySnapshot τ) :=
  ⟨policy.val.topology,(AdmissionPolicy.check_ok.mp policy.accepted).2.2.1⟩

theorem Validated.peerIds_nodup (t : Validated (TopologySnapshot τ)) : t.val.peerIds.Nodup := by
  obtain ⟨_,_,_,_,_,_,_,h,_⟩ := TopologySnapshot.check_ok.mp t.accepted
  exact h

theorem Validated.edgePairs_nodup (t : Validated (TopologySnapshot τ)) :
    t.val.edgePairs.Nodup := by
  obtain ⟨_,_,_,_,_,_,_,_,_,h,_⟩ := TopologySnapshot.check_ok.mp t.accepted
  exact h

theorem Validated.floor_isSome (policy : Validated (AdmissionPolicy τ)) {intent : ExecutionIntent}
    (h : intent ∈ policy.val.allowedIntents.val) : (policy.val.floor intent).isSome = true :=
  (AdmissionPolicy.check_ok.mp policy.accepted).2.2.2.2 intent h

end Validators

end LocusMesh
