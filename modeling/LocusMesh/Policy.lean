import Mathlib
import LocusMesh.Crypto

/-! Pure, fail-closed route admission policy. -/
namespace LocusMesh

open CanonicalJson PyCollections AwareClock

namespace Policy

def scopeRank : ExecutionIntent → ℕ
  | .deviceOnly => 0
  | .privateMesh => 1
  | .publicMesh => 2

def evidenceRank : EvidenceLevel → ℕ
  | .observed => 0
  | .peerAsserted => 1
  | .hardwareAttested => 2

def effectiveEvidence (claimed : EvidenceLevel) : EvidenceLevel :=
  if claimed = .hardwareAttested then .peerAsserted else claimed

def minimumScope (scopes : List ExecutionIntent) : Option ExecutionIntent :=
  maxBy scopeRank scopes

def minimumEvidence (levels : List EvidenceLevel) : Option EvidenceLevel :=
  minBy evidenceRank levels

end Policy

section Admission

variable {τ : Type} [AwareDatetime τ] (plat : Platform)

omit [AwareDatetime τ] in
/-- The policy-pinned topology keyed by peer id. -/
def AdmissionPolicy.peersById (policy : AdmissionPolicy τ) (peerId : PeerId) :
    Option (PeerManifest τ) :=
  dictGet PeerManifest.peerId policy.topology.peers peerId

def TopologyEdge.sortKey (edge : TopologyEdge) : String ×ₗ String :=
  toLex (edge.sourcePeerId.val,edge.targetPeerId.val)

def TopologySnapshot.digestBody (topology : TopologySnapshot τ) : Json := .obj
  [("schema_version",.str topology.schemaVersion),
   ("snapshot_id",text topology.snapshotId),
   ("local_peer_id",text topology.localPeerId),
   ("captured_at",.str (plat.isoformat (stamp topology.capturedAt))),
   ("expires_at",.str (plat.isoformat (stamp topology.expiresAt))),
   ("peers",.arr ((sortedBy (fun peer => peer.peerId.val) topology.peers).map
      (PeerManifest.dump plat))),
   ("edges",.arr ((sortedBy TopologyEdge.sortKey topology.edges).map TopologyEdge.dump))]

/-- Digest a topology independently of input ordering. -/
def topologyDigest (topology : TopologySnapshot τ) : Digest :=
  sha256Digest plat (topology.digestBody plat)

def AdmissionPolicy.digestBody (policy : AdmissionPolicy τ) : Json := .obj
  [("schema_version",.str policy.schemaVersion),
   ("allowed_intents",.arr ((sortedBy id
      (policy.allowedIntents.val.map ExecutionIntent.value)).map .str)),
   ("max_hops",.int policy.maxHops),
   ("minimum_evidence",.obj ((sortedBy (fun entry => entry.1.value)
      policy.minimumEvidence.val).map fun entry => (entry.1.value,.str entry.2.value))),
   ("topology_digest",text (topologyDigest plat policy.topology))]

/-- Digest set-like policy fields in a process-independent order. -/
def policyDigest (policy : AdmissionPolicy τ) : Digest :=
  sha256Digest plat (policy.digestBody plat)

def flag (raised : Bool) (code : String) : List String := if raised then [code] else []

variable (plan : RoutePlan τ) (policy : AdmissionPolicy τ) (now : τ)

/-- The checks before the loop over hops, in their order. -/
def routeReasons : List String :=
  flag (decide (plan.intent ∉ policy.allowedIntents.val)) "INTENT_NOT_ALLOWED" ++
  flag (lt now plan.createdAt) "PLAN_NOT_YET_VALID" ++
  flag (ge now plan.expiresAt) "PLAN_EXPIRED" ++
  flag (lt now policy.topology.capturedAt) "TOPOLOGY_NOT_YET_VALID" ++
  flag (ge now policy.topology.expiresAt) "TOPOLOGY_EXPIRED" ++
  flag (decide (policy.maxHops < plan.hopPeerIds.length)) "MAX_HOPS_EXCEEDED" ++
  flag (decide (¬plan.hopPeerIds.Nodup)) "DUPLICATE_PEER" ++
  flag (decide (plan.intent = .deviceOnly) &&
      (decide (plan.hopPeerIds.length ≠ 1) ||
        decide (plan.hopPeerIds.head? ≠ some policy.topology.localPeerId)))
    "DEVICE_ONLY_REQUIRES_LOCAL_SINGLE_HOP" ++
  (plan.hopPeerIds.zip plan.hopPeerIds.tail).flatMap (fun hop =>
    flag (decide (hop ∉ policy.topology.edgePairs))
      ("EDGE_NOT_ALLOWED:" ++ (hop.1.val ++ ("->" ++ hop.2.val)))) ++
  flag (decide (policy.floor plan.intent = some .hardwareAttested))
    "HARDWARE_ATTESTATION_UNSUPPORTED"

def keyReasons (peerId : PeerId) (peer : PeerManifest τ) : List String :=
  match deriveKeyId plat peer.publicKey.val with
  | .error _ => ["PEER_PUBLIC_KEY_INVALID:" ++ peerId.val]
  | .ok boundKeyId =>
    flag (decide (boundKeyId ≠ peer.keyId)) ("PEER_KEY_BINDING_INVALID:" ++ peerId.val)

def belowFloor (required : Option EvidenceLevel) (effective : EvidenceLevel) : Bool :=
  match required with
  | none => false
  | some floor => decide (Policy.evidenceRank effective < Policy.evidenceRank floor)

def peerReasons (peerId : PeerId) (peer : PeerManifest τ) : List String :=
  flag (lt now peer.validFrom) ("PEER_NOT_YET_VALID:" ++ peerId.val) ++
  flag (ge now peer.expiresAt) ("PEER_EXPIRED:" ++ peerId.val) ++
  flag (decide (Policy.scopeRank plan.intent < Policy.scopeRank peer.executionScope))
    ("SCOPE_WIDENING:" ++ peerId.val) ++
  flag (decide (peer.modelDigest ≠ plan.modelDigest)) ("MODEL_DIGEST_MISMATCH:" ++ peerId.val) ++
  flag (decide (peer.runtimeDigest ≠ plan.runtimeDigest))
    ("RUNTIME_DIGEST_MISMATCH:" ++ peerId.val) ++
  keyReasons plat peerId peer ++
  flag (belowFloor (policy.floor plan.intent) (Policy.effectiveEvidence peer.evidenceLevel))
    ("EVIDENCE_BELOW_FLOOR:" ++ peerId.val)

structure PlanScan where
  reasons : List String
  scopes : List ExecutionIntent
  evidence : List EvidenceLevel

def scanHop (scan : PlanScan) (peerId : PeerId) : PlanScan :=
  match policy.peersById peerId with
  | none => {scan with reasons := scan.reasons ++ ["PEER_UNKNOWN:" ++ peerId.val]}
  | some peer =>
    ⟨scan.reasons ++ peerReasons plat plan policy now peerId peer,
      scan.scopes ++ [peer.executionScope],
      scan.evidence ++ [Policy.effectiveEvidence peer.evidenceLevel]⟩

def scanPlan : PlanScan :=
  plan.hopPeerIds.foldl (scanHop plat plan policy now) ⟨routeReasons plan policy now,[],[]⟩

def planDecision : AdmissionDecision τ where
  schemaVersion := "locusmesh.admission-decision.v1"
  decisionKind := .planAdmission
  admitted := (scanPlan plat plan policy now).reasons.isEmpty
  reasonCodes :=
    if (scanPlan plat plan policy now).reasons.isEmpty then ["ADMITTED"]
    else fromKeys (scanPlan plat plan policy now).reasons
  evaluatedAt := now
  checkedHops := plan.hopPeerIds.length
  routeDigest := some (sha256Digest plat (plan.dump plat))
  attestationDigest := none
  policyDigest := some (policyDigest plat policy)
  topologyDigest := some (topologyDigest plat policy.topology)
  requestedIntent := some plan.intent
  effectiveScope := Policy.minimumScope (scanPlan plat plan policy now).scopes
  requiredEvidence := policy.floor plan.intent
  effectiveEvidence := Policy.minimumEvidence (scanPlan plat plan policy now).evidence

omit [AwareDatetime τ] in
/-- Constructing a decision runs its validators. -/
def AdmissionDecision.construct (d : AdmissionDecision τ) : Except PyError (AdmissionDecision τ) :=
  match d.check with
  | .ok _ => .ok d
  | .error e => .error (.validationError e)

/-- Evaluate a route using only explicit inputs and stable reason codes. -/
def admitPlan : Except PyError (AdmissionDecision τ) :=
  (planDecision plat plan policy now).construct

end Admission

end LocusMesh
