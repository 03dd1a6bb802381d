import Mathlib
import LocusMesh.MeshLlm
import LocusMesh.Observation
import LocusMesh.StrictJson

/-! The projection of a Mesh-LLM status payload onto an observation. A payload is the parsed
JSON object; its strings may hold lone surrogates, those of the contracts may not. -/
namespace LocusMesh

open CanonicalJson AwareClock PyText PyJson Fallible

abbrev Mapping := List (Str × Value)

namespace MeshLlm

def mapping (value : Mapping) (key : String) : Except PyError Mapping :=
  match value.lookup (str key) with
  | some (.dict entries) => .ok entries
  | _ => .error (.typeError (key ++ " must be an object"))

def boundedString (maximum : ℕ) : Value → Option Str
  | .leaf (.str s) => if s ≠ [] ∧ s.length ≤ maximum then some s else none
  | _ => none

def string (value : Mapping) (key : String) (maximum : ℕ) : Except PyError Str :=
  match (value.lookup (str key)).bind (boundedString maximum) with
  | some s => .ok s
  | none => .error (.typeError (key ++ " must be a bounded non-empty string"))

def boolean (value : Mapping) (key : String) : Except PyError Bool :=
  match value.lookup (str key) with
  | some (.leaf (.bool b)) => .ok b
  | _ => .error (.typeError (key ++ " must be a boolean"))

def nodeStates : List String := ["client","standby","loading","serving"]

def state (u : Unicode) (value : Mapping) (key : String) : Except PyError String := do
  let item ← string value key 64
  match item.encodable.map fun s => String.ofList (u.lower s) with
  | some label =>
    if label ∈ nodeStates then .ok label
    else .error (.valueError (key ++ " is not a supported node state"))
  | none => .error (.valueError (key ++ " is not a supported node state"))

def maxModels : ℕ := 256
def maxCandidates : ℕ := 256

def models (value : Mapping) (key : String) : Except PyError (List Str) :=
  match value.lookup (str key) with
  | some (.list items) =>
    if maxModels < items.length then .error (.typeError (key ++ " must be a bounded list"))
    else match items.mapM (boundedString 512) with
      | none => .error (.typeError (key ++ " must contain bounded non-empty strings"))
      | some names =>
        if names.Nodup then .ok names
        else .error (.valueError (key ++ " must contain unique values"))
  | _ => .error (.typeError (key ++ " must be a bounded list"))

structure Discovery where
  meshDiscoveryMode : Str
  discoveryScope : Str
  discoverySource : Str
  nostrDiscovery : Bool
  publicationState : Str
  deriving DecidableEq

/-- What is taken over of the local node, or of a peer. -/
structure ProjectedNode where
  candidateId : Str
  state : String
  servingModels : List Str
  providerClaimedOwnerVerified : Bool
  deriving DecidableEq

structure Projection where
  providerVersion : Str
  localNode : ProjectedNode
  peers : List ProjectedNode
  discovery : Discovery
  deriving DecidableEq

/-- The widest status signal; Mesh transport is never device-only. -/
def observedScope (discovery : Discovery) : ObservedScope :=
  if discovery.publicationState = str "private" ∧
      discovery.discoveryScope ∈ [str "private",str "lan",str "local"] ∧
      discovery.meshDiscoveryMode ∈ [str "mdns",str "private",str "local"] ∧
      discovery.nostrDiscovery = false then ⟨.privateMesh,by decide⟩
  else ⟨.publicMesh,by decide⟩

def strJson (s : Str) : Option Json := s.encodable.map fun t => .str (String.ofList t)

def ProjectedNode.json (n : ProjectedNode) : Option Json := do
  let candidateId ← strJson n.candidateId
  let servingModels ← n.servingModels.mapM strJson
  some (.obj [("candidate_id",candidateId),("state",.str n.state),
    ("serving_models",.arr servingModels),
    ("provider_claimed_owner_verified",.bool n.providerClaimedOwnerVerified)])

def Discovery.json (d : Discovery) : Option Json := do
  let meshDiscoveryMode ← strJson d.meshDiscoveryMode
  let discoveryScope ← strJson d.discoveryScope
  let discoverySource ← strJson d.discoverySource
  let publicationState ← strJson d.publicationState
  some (.obj [("mesh_discovery_mode",meshDiscoveryMode),("discovery_scope",discoveryScope),
    ("discovery_source",discoverySource),("nostr_discovery",.bool d.nostrDiscovery),
    ("publication_state",publicationState)])

def provider : ProviderId := ⟨"mesh_llm",by decide⟩

def Projection.json (p : Projection) : Option Json := do
  let providerVersion ← strJson p.providerVersion
  let localNode ← p.localNode.json
  let peers ← p.peers.mapM ProjectedNode.json
  let discovery ← p.discovery.json
  some (.obj [("provider",text provider),("provider_version",providerVersion),
    ("local",localNode),("peers",.arr peers),("discovery",discovery)])

/-- `sha256_digest(projection)`; UTF-8 has no lone surrogates. -/
def projectionDigest (plat : Platform) (p : Projection) : Except PyError Digest :=
  match p.json with
  | some v => .ok (sha256Digest plat v)
  | none => .error (.valueError "surrogates not allowed")

def projectPeer (u : Unicode) : Value → Except PyError ProjectedNode
  | .dict rawPeer => do
    let peerOwner ← mapping rawPeer "owner"
    let candidateId ← string rawPeer "id" 128
    let label ← state u rawPeer "state"
    let servingModels ← models rawPeer "serving_models"
    let verified ← boolean peerOwner "verified"
    .ok ⟨candidateId,label,servingModels,verified⟩
  | _ => .error (.typeError "peer must be an object")

/-- The selected fields of a payload, each in the shape that is required of it. -/
def projection (u : Unicode) (payload : Mapping) : Except PyError Projection := do
  let version ← string payload "version" 64
  let localId ← string payload "node_id" 128
  let localState ← state u payload "node_state"
  let localModels ← models payload "serving_models"
  let localOwner ← mapping payload "owner"
  let localOwnerVerified ← boolean localOwner "verified"
  let meshDiscoveryMode ← string payload "mesh_discovery_mode" 64
  let discoveryScope ← string payload "discovery_scope" 64
  let discoverySource ← string payload "discovery_source" 128
  let nostrDiscovery ← boolean payload "nostr_discovery"
  let publicationState ← string payload "publication_state" 64
  match payload.lookup (str "peers") with
  | some (.list peers) =>
    if maxCandidates ≤ peers.length then
      .error (.valueError "peer count exceeds observation bound")
    else do
      let projectedPeers ← peers.mapM (projectPeer u)
      .ok ⟨version,⟨localId,localState,localModels,localOwnerVerified⟩,projectedPeers,
        ⟨meshDiscoveryMode,discoveryScope,discoverySource,nostrDiscovery,publicationState⟩⟩
  | _ => .error (.typeError "peers must be a list")

/-- A contract field of a constrained string type. -/
def constrained {p : String → Prop} [DecidablePred p] (location type : String) (s : Option Text) :
    Except PyError {s : String // p s} :=
  match s with
  | none => .error (.validationError ⟨location,"string_unicode"⟩)
  | some t =>
    if h : p (String.ofList t) then .ok ⟨String.ofList t,h⟩
    else .error (.validationError ⟨location,type⟩)

def candidate (projected : ProjectedNode) (localNode : Bool) (scope : ObservedScope) :
    Except PyError (Validated FabricCandidateObservation) := do
  let candidateId ← constrained "candidate_id" "string_pattern_mismatch"
    projected.candidateId.encodable
  let label ← constrained "state" "string_pattern_mismatch" (some projected.state.toList)
  let servingModels ← projected.servingModels.mapM fun model =>
    constrained "serving_models" "string_too_long" model.encodable
  Validated.construct
    {provider := provider
     candidateId := candidateId
     localNode := localNode
     state := label
     servingModels := servingModels
     providerClaimedOwnerVerified := projected.providerClaimedOwnerVerified
     observedScope := scope}

/-- The classes that `observe` catches around `_project`. -/
def projectionErrors : List PyClass := [.keyError,.typeError,.valueError,.validationError]

def Rejected (e : PyError) : Prop := projectionErrors.any e.isInstance = true

@[simp] theorem rejected_typeError (message : String) : Rejected (.typeError message) := rfl
@[simp] theorem rejected_valueError (message : String) : Rejected (.valueError message) := rfl
@[simp] theorem rejected_validationError (error : ContractError) :
    Rejected (.validationError error) := rfl

theorem mapping_raises (value : Mapping) (key : String) : Raises Rejected (mapping value key) := by
  unfold mapping
  split
  · exact raises_ok _
  · exact raises_error (rejected_typeError _)

theorem string_raises (value : Mapping) (key : String) (maximum : ℕ) :
    Raises Rejected (string value key maximum) := by
  unfold string
  split
  · exact raises_ok _
  · exact raises_error (rejected_typeError _)

theorem boolean_raises (value : Mapping) (key : String) : Raises Rejected (boolean value key) := by
  unfold boolean
  split
  · exact raises_ok _
  · exact raises_error (rejected_typeError _)

theorem state_raises (u : Unicode) (value : Mapping) (key : String) :
    Raises Rejected (state u value key) := by
  apply raises_bind (string_raises value key 64)
  intro item
  split
  · split_ifs
    · exact raises_ok _
    · exact raises_error (rejected_valueError _)
  · exact raises_error (rejected_valueError _)

theorem models_raises (value : Mapping) (key : String) : Raises Rejected (models value key) := by
  unfold models
  split
  · split_ifs
    · exact raises_error (rejected_typeError _)
    · split
      · exact raises_error (rejected_typeError _)
      · split_ifs
        · exact raises_ok _
        · exact raises_error (rejected_valueError _)
  · exact raises_error (rejected_typeError _)

theorem projectPeer_raises (u : Unicode) (peer : Value) : Raises Rejected (projectPeer u peer) := by
  cases peer with
  | leaf a => exact raises_error (rejected_typeError _)
  | list items => exact raises_error (rejected_typeError _)
  | dict rawPeer =>
    apply raises_bind (mapping_raises rawPeer _)
    intro peerOwner
    apply raises_bind (string_raises rawPeer _ _)
    intro candidateId
    apply raises_bind (state_raises u rawPeer _)
    intro label
    apply raises_bind (models_raises rawPeer _)
    intro servingModels
    apply raises_bind (boolean_raises peerOwner _)
    intro verified
    exact raises_ok _

theorem projection_raises (u : Unicode) (payload : Mapping) :
    Raises Rejected (projection u payload) := by
  have string := string_raises payload
  apply raises_bind (string _ _)
  intro version
  apply raises_bind (string _ _)
  intro localId
  apply raises_bind (state_raises u payload _)
  intro localState
  apply raises_bind (models_raises payload _)
  intro localModels
  apply raises_bind (mapping_raises payload _)
  intro localOwner
  apply raises_bind (boolean_raises localOwner _)
  intro localOwnerVerified
  apply raises_bind (string _ _)
  intro meshDiscoveryMode
  apply raises_bind (string _ _)
  intro discoveryScope
  apply raises_bind (string _ _)
  intro discoverySource
  apply raises_bind (boolean_raises payload _)
  intro nostrDiscovery
  apply raises_bind (string _ _)
  intro publicationState
  split
  · split_ifs
    · exact raises_error (rejected_valueError _)
    · exact raises_bind (raises_mapM fun peer _ => projectPeer_raises u peer) fun _ => raises_ok _
  · exact raises_error (rejected_typeError _)

theorem constrained_raises {p : String → Prop} [DecidablePred p] (location type : String)
    (s : Option Text) : Raises Rejected (constrained (p:=p) location type s) := by
  unfold constrained
  split
  · exact raises_error (rejected_validationError _)
  · split_ifs
    · exact raises_ok _
    · exact raises_error (rejected_validationError _)

theorem candidate_raises (projected : ProjectedNode) (localNode : Bool) (scope : ObservedScope) :
    Raises Rejected (candidate projected localNode scope) := by
  apply raises_bind (constrained_raises _ _ _)
  intro candidateId
  apply raises_bind (constrained_raises _ _ _)
  intro label
  apply raises_bind (raises_mapM fun model _ => constrained_raises _ _ _)
  intro servingModels
  exact raises_construct rejected_validationError _

theorem projectionDigest_raises (plat : Platform) (p : Projection) :
    Raises Rejected (projectionDigest plat p) := by
  unfold projectionDigest
  split
  · exact raises_ok _
  · exact raises_error (rejected_valueError _)

end MeshLlm

end LocusMesh
