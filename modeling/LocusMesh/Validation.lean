import Mathlib
import LocusMesh.ReadBack

/-! `model_validate` of the contracts that files hold: which parsed values they accept, and what
they make of them. What pydantic makes of a scalar that is not of the field's own type, and what
a `ValidationError` says, are parameters. -/
namespace LocusMesh

open AwareClock CanonicalJson PyCollections PyText PyJson Fallible

/-- A datetime as it is parsed, before any validator has asked for its zone. -/
inductive ParsedTime
  | naive
  | aware (t : FixedTime)

structure Pydantic where
  /-- A `bool` that is not given as one. -/
  laxBool : Leaf → Option Bool
  int : Leaf → Option ℤ
  datetime : Leaf → Option ParsedTime
  /-- The `ValidationError` of a value that is refused. -/
  refused : Value → PyException
  refused_class : ∀ v, PyClass.validationError ∈ (refused v).classes

def asText : Value → Option String
  | .leaf (.str s) => s.encodable.map String.ofList
  | _ => none

def asConstrained (p : String → Prop) [DecidablePred p] (v : Value) : Option {s : String // p s} :=
  (asText v).bind fun s => if h : p s then some ⟨s,h⟩ else none

def asMember {α : Type} (members : List α) (value : α → String) (v : Value) : Option α :=
  (asText v).bind fun s => members.find? fun a => decide (value a = s)

def asIntent : Value → Option ExecutionIntent :=
  asMember [.deviceOnly,.privateMesh,.publicMesh] ExecutionIntent.value

def asLevel : Value → Option EvidenceLevel :=
  asMember [.observed,.peerAsserted,.hardwareAttested] EvidenceLevel.value

def asDecisionKind : Value → Option DecisionKind :=
  asMember [.planAdmission,.attestationVerification] DecisionKind.value

def asOptional {α : Type} (parse : Value → Option α) : Value → Option (Option α)
  | .leaf .null => some none
  | v => (parse v).map some

def asTuple {α : Type} (parse : Value → Option α) : Value → Option (List α)
  | .list items => items.mapM parse
  | _ => none

/-- A `frozenset` of intents: members that come again count once. -/
def asIntents (v : Value) : Option {l : List ExecutionIntent // l.Nodup} :=
  (asTuple asIntent v).map fun l => ⟨fromKeys l,fromKeys_nodup l⟩

def asFloor (field : Str × Value) : Option (ExecutionIntent × EvidenceLevel) := do
  let intent ← asIntent (.leaf (.str field.1))
  let level ← asLevel field.2
  some (intent,level)

/-- A `dict` from intents to levels: where keys differ, the intents that they name do. -/
def asFloors : Value → Option {l : List (ExecutionIntent × EvidenceLevel) // (l.map Prod.fst).Nodup}
  | .dict fields => (fields.mapM asFloor).bind fun l =>
    if h : (l.map Prod.fst).Nodup then some ⟨l,h⟩ else none
  | _ => none

/-- An `int` with a lower bound of zero or more. -/
def Pydantic.asNat (p : Pydantic) : Value → Option ℕ
  | .leaf a => (p.int a).bind fun i => if 0 ≤ i then some i.toNat else none
  | _ => none

def Pydantic.asBool (p : Pydantic) : Value → Option Bool
  | .leaf (.bool b) => some b
  | .leaf a => p.laxBool a
  | _ => none

/-- A `datetime` that passes `_timezone_required`. -/
def Pydantic.asTime (p : Pydantic) : Value → Option FixedTime
  | .leaf a =>
    match p.datetime a with
    | some (.aware t) => some t
    | _ => none
  | _ => none

def item (fields : List (Str × Value)) (name : String) : Option Value :=
  (dictGet Prod.fst fields (str name)).map Prod.snd

def required {α : Type} (get : String → Option Value) (name : String)
    (parse : Value → Option α) : Option α :=
  (get name).bind parse

def defaulted {α : Type} (get : String → Option Value) (name : String) (default : α)
    (parse : Value → Option α) : Option α :=
  match get name with
  | none => some default
  | some v => parse v

/-- A model with `extra="forbid"`: an object with no other names than those of its fields. -/
def modelFields {α : Type} (names : List String) (build : (String → Option Value) → Option α) :
    Value → Option α
  | .dict fields =>
    if fields.all fun field => names.any fun name => decide (field.1 = str name) then
      build (item fields)
    else none
  | _ => none

section Contracts

variable (p : Pydantic)

def PeerManifest.fieldNames : List String :=
  ["schema_version","peer_id","execution_scope","model_digest","runtime_digest",
   "evidence_level","key_id","public_key","valid_from","expires_at","address_hint"]

def PeerManifest.ofFields (get : String → Option Value) : Option (PeerManifest FixedTime) := do
  let schemaVersion ← defaulted get "schema_version" "locusmesh.peer-manifest.v1" asText
  let peerId ← required get "peer_id" (asConstrained _)
  let executionScope ← required get "execution_scope" asIntent
  let modelDigest ← required get "model_digest" (asConstrained _)
  let runtimeDigest ← required get "runtime_digest" (asConstrained _)
  let evidenceLevel ← required get "evidence_level" asLevel
  let keyId ← required get "key_id" (asConstrained _)
  let publicKey ← required get "public_key" (asConstrained _)
  let validFrom ← required get "valid_from" p.asTime
  let expiresAt ← required get "expires_at" p.asTime
  let addressHint ← defaulted get "address_hint" none (asOptional (asConstrained _))
  some ⟨schemaVersion,peerId,executionScope,modelDigest,runtimeDigest,evidenceLevel,keyId,
    publicKey,validFrom,expiresAt,addressHint⟩

def PeerManifest.parse : Value → Option (PeerManifest FixedTime) :=
  modelFields PeerManifest.fieldNames (PeerManifest.ofFields p)

def TopologyEdge.fieldNames : List String :=
  ["schema_version","source_peer_id","target_peer_id"]

def TopologyEdge.ofFields (get : String → Option Value) : Option TopologyEdge := do
  let schemaVersion ← defaulted get "schema_version" "locusmesh.topology-edge.v1" asText
  let sourcePeerId ← required get "source_peer_id" (asConstrained _)
  let targetPeerId ← required get "target_peer_id" (asConstrained _)
  some ⟨schemaVersion,sourcePeerId,targetPeerId⟩

def TopologyEdge.parse : Value → Option TopologyEdge :=
  modelFields TopologyEdge.fieldNames TopologyEdge.ofFields

def TopologySnapshot.fieldNames : List String :=
  ["schema_version","snapshot_id","local_peer_id","captured_at","expires_at","peers",
   "edges"]

def TopologySnapshot.ofFields (get : String → Option Value) :
    Option (TopologySnapshot FixedTime) := do
  let schemaVersion ← defaulted get "schema_version" "locusmesh.topology-snapshot.v1" asText
  let snapshotId ← required get "snapshot_id" (asConstrained _)
  let localPeerId ← required get "local_peer_id" (asConstrained _)
  let capturedAt ← required get "captured_at" p.asTime
  let expiresAt ← required get "expires_at" p.asTime
  let peers ← required get "peers" (asTuple (PeerManifest.parse p))
  let edges ← defaulted get "edges" [] (asTuple TopologyEdge.parse)
  some ⟨schemaVersion,snapshotId,localPeerId,capturedAt,expiresAt,peers,edges⟩

def TopologySnapshot.parse : Value → Option (TopologySnapshot FixedTime) :=
  modelFields TopologySnapshot.fieldNames (TopologySnapshot.ofFields p)

def AdmissionPolicy.fieldNames : List String :=
  ["schema_version","allowed_intents","max_hops","minimum_evidence","topology"]

def AdmissionPolicy.ofFields (get : String → Option Value) :
    Option (AdmissionPolicy FixedTime) := do
  let schemaVersion ← defaulted get "schema_version" "locusmesh.admission-policy.v1" asText
  let allowedIntents ← required get "allowed_intents" asIntents
  let maxHops ← required get "max_hops" p.asNat
  let minimumEvidence ← required get "minimum_evidence" asFloors
  let topology ← required get "topology" (TopologySnapshot.parse p)
  some ⟨schemaVersion,allowedIntents,maxHops,minimumEvidence,topology⟩

def AdmissionPolicy.parse : Value → Option (AdmissionPolicy FixedTime) :=
  modelFields AdmissionPolicy.fieldNames (AdmissionPolicy.ofFields p)

def RoutePlan.fieldNames : List String :=
  ["schema_version","request_id","nonce","request_commitment","intent",
   "model_digest","runtime_digest","hop_peer_ids","created_at","expires_at"]

def RoutePlan.ofFields (get : String → Option Value) : Option (RoutePlan FixedTime) := do
  let schemaVersion ← defaulted get "schema_version" "locusmesh.route-plan.v1" asText
  let requestId ← required get "request_id" (asConstrained _)
  let nonce ← required get "nonce" (asConstrained _)
  let requestCommitment ← required get "request_commitment" (asConstrained _)
  let intent ← required get "intent" asIntent
  let modelDigest ← required get "model_digest" (asConstrained _)
  let runtimeDigest ← required get "runtime_digest" (asConstrained _)
  let hopPeerIds ← required get "hop_peer_ids" (asTuple (asConstrained _))
  let createdAt ← required get "created_at" p.asTime
  let expiresAt ← required get "expires_at" p.asTime
  some ⟨schemaVersion,requestId,nonce,requestCommitment,intent,modelDigest,runtimeDigest,
    hopPeerIds,createdAt,expiresAt⟩

def RoutePlan.parse : Value → Option (RoutePlan FixedTime) :=
  modelFields RoutePlan.fieldNames (RoutePlan.ofFields p)

def HopReceipt.fieldNames : List String :=
  ["schema_version","request_id","nonce","request_commitment","route_plan_digest",
   "policy_digest","topology_digest","intent","hop_index","hop_count","peer_id",
   "previous_peer_id","next_peer_id","previous_receipt_digest","model_digest","runtime_digest",
   "evidence_level","observed_at","key_id","signature_algorithm","signature"]

def HopReceipt.ofFields (get : String → Option Value) : Option (HopReceipt FixedTime) := do
  let schemaVersion ← defaulted get "schema_version" "locusmesh.hop-receipt.v1" asText
  let requestId ← required get "request_id" (asConstrained _)
  let nonce ← required get "nonce" (asConstrained _)
  let requestCommitment ← required get "request_commitment" (asConstrained _)
  let routePlanDigest ← required get "route_plan_digest" (asConstrained _)
  let policyDigest ← required get "policy_digest" (asConstrained _)
  let topologyDigest ← required get "topology_digest" (asConstrained _)
  let intent ← required get "intent" asIntent
  let hopIndex ← required get "hop_index" p.asNat
  let hopCount ← required get "hop_count" p.asNat
  let peerId ← required get "peer_id" (asConstrained _)
  let previousPeerId ← required get "previous_peer_id" (asOptional (asConstrained _))
  let nextPeerId ← required get "next_peer_id" (asOptional (asConstrained _))
  let previousReceiptDigest ←
    required get "previous_receipt_digest" (asOptional (asConstrained _))
  let modelDigest ← required get "model_digest" (asConstrained _)
  let runtimeDigest ← required get "runtime_digest" (asConstrained _)
  let evidenceLevel ← required get "evidence_level" asLevel
  let observedAt ← required get "observed_at" p.asTime
  let keyId ← required get "key_id" asText
  let signatureAlgorithm ← defaulted get "signature_algorithm" "ed25519" asText
  let signature ← required get "signature" asText
  some ⟨schemaVersion,requestId,nonce,requestCommitment,routePlanDigest,policyDigest,
    topologyDigest,intent,hopIndex,hopCount,peerId,previousPeerId,nextPeerId,
    previousReceiptDigest,modelDigest,runtimeDigest,evidenceLevel,observedAt,keyId,
    signatureAlgorithm,signature⟩

def HopReceipt.parse : Value → Option (HopReceipt FixedTime) :=
  modelFields HopReceipt.fieldNames (HopReceipt.ofFields p)

def RouteAttestation.fieldNames : List String :=
  ["schema_version","plan","receipts"]

def RouteAttestation.ofFields (get : String → Option Value) :
    Option (RouteAttestation FixedTime) := do
  let schemaVersion ← defaulted get "schema_version" "locusmesh.route-attestation.v1" asText
  let plan ← required get "plan" (RoutePlan.parse p)
  let receipts ← required get "receipts" (asTuple (HopReceipt.parse p))
  some ⟨schemaVersion,plan,receipts⟩

def RouteAttestation.parse : Value → Option (RouteAttestation FixedTime) :=
  modelFields RouteAttestation.fieldNames (RouteAttestation.ofFields p)

def AdmissionDecision.fieldNames : List String :=
  ["schema_version","decision_kind","admitted","reason_codes","evaluated_at","checked_hops",
   "route_digest","attestation_digest","policy_digest","topology_digest","requested_intent",
   "effective_scope","required_evidence","effective_evidence"]

def AdmissionDecision.ofFields (get : String → Option Value) :
    Option (AdmissionDecision FixedTime) := do
  let schemaVersion ← defaulted get "schema_version" "locusmesh.admission-decision.v1" asText
  let decisionKind ← required get "decision_kind" asDecisionKind
  let admitted ← required get "admitted" p.asBool
  let reasonCodes ← required get "reason_codes" (asTuple asText)
  let evaluatedAt ← required get "evaluated_at" p.asTime
  let checkedHops ← required get "checked_hops" p.asNat
  let routeDigest ← defaulted get "route_digest" none (asOptional (asConstrained _))
  let attestationDigest ← defaulted get "attestation_digest" none (asOptional (asConstrained _))
  let policyDigest ← defaulted get "policy_digest" none (asOptional (asConstrained _))
  let topologyDigest ← defaulted get "topology_digest" none (asOptional (asConstrained _))
  let requestedIntent ← defaulted get "requested_intent" none (asOptional asIntent)
  let effectiveScope ← defaulted get "effective_scope" none (asOptional asIntent)
  let requiredEvidence ← defaulted get "required_evidence" none (asOptional asLevel)
  let effectiveEvidence ← defaulted get "effective_evidence" none (asOptional asLevel)
  some ⟨schemaVersion,decisionKind,admitted,reasonCodes,evaluatedAt,checkedHops,routeDigest,
    attestationDigest,policyDigest,topologyDigest,requestedIntent,effectiveScope,requiredEvidence,
    effectiveEvidence⟩

def AdmissionDecision.parse : Value → Option (AdmissionDecision FixedTime) :=
  modelFields AdmissionDecision.fieldNames (AdmissionDecision.ofFields p)

def modelValidate {α : Type} [Contract α] (parse : Value → Option α) (data : Value) :
    Except PyError (Validated α) :=
  match parse data with
  | none => .error (.external (p.refused data))
  | some a =>
    match h : Contract.check a with
    | .ok () => .ok ⟨a,h⟩
    | .error _ => .error (.external (p.refused data))

end Contracts

/-- A JSON value as it comes back from its text. -/
def readValue (v : Json) : Value := parsedValue (sortKeys v)

def record (es : List (String × Json)) : List (Str × Value) :=
  parsedEntries (sortedBy Prod.fst (sortEntries es))

theorem readValue_arr (vs : List Json) : readValue (.arr vs) = .list (vs.map readValue) := by
  rw [readValue,sortKeys,sortItems_eq_map,parsedValue,parsedItems_eq,List.map_map]
  rfl

theorem mem_record {es : List (String × Json)} {field : Str × Value} :
    field ∈ record es ↔ ∃ e ∈ es, (str e.1,readValue e.2) = field := by
  simp [record,parsedEntries_eq,sortEntries_eq_map,readValue]

theorem record_keys_nodup {es : List (String × Json)} (h : (es.map Prod.fst).Nodup) :
    ((record es).map Prod.fst).Nodup := by
  have hkeys : (record es).map Prod.fst =
      ((sortedBy Prod.fst (sortEntries es)).map Prod.fst).map str := by
    rw [record,parsedEntries_eq,List.map_map,List.map_map]
    rfl
  rw [hkeys]
  refine List.Nodup.map str_injective ?_
  rw [((sortedBy_perm Prod.fst (sortEntries es)).map Prod.fst).nodup_iff,sortEntries_keys]
  exact h

/-- A field is found under its name, wherever the names have been sorted to. -/
theorem item_record {es : List (String × Json)} (hnodup : (es.map Prod.fst).Nodup)
    {e : String × Json} (he : e ∈ es) : item (record es) e.1 = some (readValue e.2) := by
  have hmem : (str e.1,readValue e.2) ∈ record es := mem_record.mpr ⟨e,he,rfl⟩
  rw [item,(dictGet_eq_some (record_keys_nodup hnodup)).mpr ⟨hmem,rfl⟩]
  rfl

theorem encodable_str (s : String) : Str.encodable (str s) = some s.toList := by
  have hchars : ∀ t : List Char, Str.encodable (t.map CodePoint.scalar) = some t := by
    intro t
    induction t with
    | nil => rfl
    | cons c t ih => rw [List.map_cons,Str.encodable,ih]; rfl
  exact hchars s.toList

@[simp] theorem asText_str (s : String) : asText (readValue (.str s)) = some s := by
  show (Str.encodable (str s)).map String.ofList = some s
  rw [encodable_str,Option.map_some,String.ofList_toList]

@[simp] theorem asConstrained_text {p : String → Prop} [DecidablePred p] (s : {s : String // p s}) :
    asConstrained p (readValue (text s)) = some s := by
  rw [asConstrained,text,asText_str,Option.bind_some,dif_pos s.property]

@[simp] theorem asIntent_value (intent : ExecutionIntent) :
    asIntent (readValue (.str intent.value)) = some intent := by
  rw [asIntent,asMember,asText_str]
  cases intent <;> rfl

@[simp] theorem asLevel_value (level : EvidenceLevel) :
    asLevel (readValue (.str level.value)) = some level := by
  rw [asLevel,asMember,asText_str]
  cases level <;> rfl

@[simp] theorem asDecisionKind_value (kind : DecisionKind) :
    asDecisionKind (readValue (.str kind.value)) = some kind := by
  rw [asDecisionKind,asMember,asText_str]
  cases kind <;> rfl

@[simp] theorem asBool_bool (p : Pydantic) (b : Bool) :
    p.asBool (readValue (.bool b)) = some b := rfl

theorem asOptional_dump {α : Type} {parse : Value → Option α} {dump : α → Json}
    (hnull : ∀ a, readValue (dump a) ≠ .leaf .null)
    (h : ∀ a, parse (readValue (dump a)) = some a) (o : Option α) :
    asOptional parse (readValue (optional dump o)) = some o := by
  cases o with
  | none => rfl
  | some a =>
    rw [optional,asOptional.eq_def]
    split
    · rename_i hv
      exact absurd hv (hnull a)
    · rw [h a]
      rfl

@[simp] theorem asOptional_text {p : String → Prop} [DecidablePred p]
    (o : Option {s : String // p s}) :
    asOptional (asConstrained p) (readValue (optional text o)) = some o :=
  asOptional_dump (fun _ h => by cases h) asConstrained_text o

@[simp] theorem asOptional_intent (o : Option ExecutionIntent) :
    asOptional asIntent (readValue (optional (fun intent => .str intent.value) o)) = some o :=
  asOptional_dump (fun _ h => by cases h) asIntent_value o

@[simp] theorem asOptional_level (o : Option EvidenceLevel) :
    asOptional asLevel (readValue (optional (fun level => .str level.value) o)) = some o :=
  asOptional_dump (fun _ h => by cases h) asLevel_value o

mutual
/-- The value holds the JSON value, its objects with their entries in any order. -/
def Shows : Json → Value → Prop
  | .null, v => v = .leaf .null
  | .bool b, v => v = .leaf (.bool b)
  | .int i, v => v = .leaf (.number (intText i))
  | .str s, v => v = .leaf (.str (str s))
  | .arr vs, v => ∃ items, v = .list items ∧ ShowsItems vs items
  | .obj es, v => ∃ fields, v = .dict fields ∧ (fields.map Prod.fst).Nodup ∧
      (∀ field ∈ fields, field.1 ∈ es.map fun e => str e.1) ∧ ShowsEntries es fields
def ShowsItems : List Json → List Value → Prop
  | [], items => items = []
  | j :: js, items => ∃ v rest, items = v :: rest ∧ Shows j v ∧ ShowsItems js rest
def ShowsEntries : List (String × Json) → List (Str × Value) → Prop
  | [], _ => True
  | (name,j) :: es, fields => (∃ v, (str name,v) ∈ fields ∧ Shows j v) ∧ ShowsEntries es fields
end

theorem showsEntries_iff {es : List (String × Json)} {fields : List (Str × Value)} :
    ShowsEntries es fields ↔ ∀ e ∈ es, ∃ v, (str e.1,v) ∈ fields ∧ Shows e.2 v := by
  induction es with
  | nil => simp [ShowsEntries]
  | cons e es ih => rw [ShowsEntries,ih,List.forall_mem_cons]

@[simp] theorem shows_str {s : String} {v : Value} : Shows (.str s) v ↔ v = readValue (.str s) :=
  .rfl

@[simp] theorem shows_bool {b : Bool} {v : Value} :
    Shows (.bool b) v ↔ v = readValue (.bool b) := .rfl

@[simp] theorem shows_int {i : ℤ} {v : Value} : Shows (.int i) v ↔ v = readValue (.int i) := .rfl

@[simp] theorem shows_text {p : String → Prop} {s : {s : String // p s}} {v : Value} :
    Shows (text s) v ↔ v = readValue (text s) := shows_str

@[simp] theorem shows_timestamp {plat : Platform} {t : FixedTime} {v : Value} :
    Shows (timestamp plat t) v ↔ v = readValue (timestamp plat t) := shows_str

theorem shows_optional {α : Type} {dump : α → Json} {v : Value}
    (h : ∀ a, Shows (dump a) v ↔ v = readValue (dump a)) (o : Option α) :
    Shows (optional dump o) v ↔ v = readValue (optional dump o) := by
  cases o with
  | none => exact .rfl
  | some a => exact h a

@[simp] theorem shows_optional_text {p : String → Prop} {o : Option {s : String // p s}}
    {v : Value} : Shows (optional text o) v ↔ v = readValue (optional text o) :=
  shows_optional (fun _ => shows_text) o

@[simp] theorem shows_optional_intent {o : Option ExecutionIntent} {v : Value} :
    Shows (optional (fun intent => .str intent.value) o) v ↔
      v = readValue (optional (fun intent => .str intent.value) o) :=
  shows_optional (fun _ => shows_str) o

@[simp] theorem shows_optional_level {o : Option EvidenceLevel} {v : Value} :
    Shows (optional (fun level => .str level.value) o) v ↔
      v = readValue (optional (fun level => .str level.value) o) :=
  shows_optional (fun _ => shows_str) o

theorem showsItems_read {vs : List Json} (h : ∀ v ∈ vs, Shows v (readValue v)) :
    ShowsItems vs (vs.map readValue) := by
  induction vs with
  | nil => rfl
  | cons v vs ih =>
    obtain ⟨hv,hvs⟩ := List.forall_mem_cons.mp h
    exact ⟨_,_,rfl,hv,ih hvs⟩

theorem shows_read {v : Json} (h : Distinct v) : Shows v (readValue v) := by
  induction v using json_induction with
  | arr vs ih =>
    rw [readValue_arr]
    have hvs := distinctItems_iff.mp h
    exact ⟨_,rfl,showsItems_read fun v hv => ih v hv (hvs v hv)⟩
  | obj es ih =>
    have hes := distinctEntries_iff.mp h.2
    refine ⟨record es,rfl,record_keys_nodup h.1,fun field hfield => ?_,?_⟩
    · obtain ⟨e,he,rfl⟩ := mem_record.mp hfield
      exact List.mem_map.mpr ⟨e,he,rfl⟩
    · rw [showsEntries_iff]
      exact fun e he => ⟨_,mem_record.mpr ⟨e,he,rfl⟩,ih e he (hes e he)⟩
  | _ => exact rfl

theorem modelFields_shows {α : Type} (names : List String)
    (build : (String → Option Value) → Option α) {es : List (String × Json)} {v : Value}
    (hv : Shows (.obj es) v) (hnames : es.map Prod.fst = names) : ∃ get,
      modelFields names build v = build get ∧ ∀ e ∈ es, ∃ w, get e.1 = some w ∧ Shows e.2 w := by
  obtain ⟨fields,rfl,hnodup,hknown,hentries⟩ := hv
  have hall : (fields.all fun field => names.any fun name =>
      decide (field.1 = str name)) = true := by
    rw [List.all_eq_true]
    intro field hfield
    obtain ⟨e,he,heq⟩ := List.mem_map.mp (hknown field hfield)
    rw [List.any_eq_true]
    exact ⟨e.1,hnames ▸ List.mem_map_of_mem he,decide_eq_true heq.symm⟩
  refine ⟨item fields,by rw [modelFields,if_pos hall],fun e he => ?_⟩
  obtain ⟨w,hw,hshows⟩ := showsEntries_iff.mp hentries e he
  refine ⟨w,?_,hshows⟩
  rw [item,(dictGet_eq_some hnodup).mpr ⟨hw,rfl⟩]
  rfl

theorem asTuple_shows {α : Type} {parse : Value → Option α} {dump : α → Json} {l : List α}
    {v : Value} (hv : Shows (.arr (l.map dump)) v)
    (h : ∀ a ∈ l, ∀ w, Shows (dump a) w → parse w = some a) : asTuple parse v = some l := by
  obtain ⟨items,rfl,hitems⟩ := hv
  rw [asTuple]
  induction l generalizing items with
  | nil =>
    obtain rfl : items = [] := hitems
    rfl
  | cons a l ih =>
    obtain ⟨w,rest,rfl,hw,hrest⟩ := hitems
    rw [List.mapM_cons,h a List.mem_cons_self w hw,
      ih (fun b hb => h b (List.mem_cons_of_mem a hb)) rest hrest]
    rfl

def TopologySnapshot.dump {τ : Type} [AwareDatetime τ] (plat : Platform) (t : TopologySnapshot τ) :
    Json := .obj
  [("schema_version",.str t.schemaVersion),
   ("snapshot_id",text t.snapshotId),
   ("local_peer_id",text t.localPeerId),
   ("captured_at",timestamp plat t.capturedAt),
   ("expires_at",timestamp plat t.expiresAt),
   ("peers",.arr (t.peers.map (PeerManifest.dump plat))),
   ("edges",.arr (t.edges.map TopologyEdge.dump))]

/-- `model_dump(mode="json")`, with the intents in any one order. -/
def AdmissionPolicy.dump (plat : Platform) (policy : AdmissionPolicy FixedTime) : Json := .obj
  [("schema_version",.str policy.schemaVersion),
   ("allowed_intents",.arr (policy.allowedIntents.val.map fun intent => .str intent.value)),
   ("max_hops",.int policy.maxHops),
   ("minimum_evidence",.obj (policy.minimumEvidence.val.map fun entry =>
     (entry.1.value,.str entry.2.value))),
   ("topology",policy.topology.dump plat)]

/-- A number of hops is read as itself. -/
def Pydantic.ReadsCounts (p : Pydantic) : Prop := ∀ n ≤ 64, p.int (.number (intText (n : ℕ))) = some n

/-- The rendering of a time is read as that time. -/
def Pydantic.ReadsTime (p : Pydantic) (plat : Platform) (t : FixedTime) : Prop :=
  p.datetime (.str (str (plat.datetimeJson t))) = some (.aware t)

def PeerManifest.times (m : PeerManifest FixedTime) : List FixedTime := [m.validFrom,m.expiresAt]

def TopologySnapshot.times (t : TopologySnapshot FixedTime) : List FixedTime :=
  t.capturedAt :: t.expiresAt :: t.peers.flatMap PeerManifest.times

def RoutePlan.times (p : RoutePlan FixedTime) : List FixedTime := [p.createdAt,p.expiresAt]

def RouteAttestation.times (a : RouteAttestation FixedTime) : List FixedTime :=
  a.plan.times ++ a.receipts.map HopReceipt.observedAt

section RoundTrips

variable {p : Pydantic} {plat : Platform}

theorem asNat_int (h : p.ReadsCounts) {n : ℕ} (hn : n ≤ 64) :
    p.asNat (readValue (.int n)) = some n := by
  show (p.int (.number (intText n))).bind _ = some n
  rw [h n hn]
  simp

theorem asTime_timestamp {t : FixedTime} (h : p.ReadsTime plat t) :
    p.asTime (readValue (timestamp plat t)) = some t := by
  show (match p.datetime (.str (str (plat.datetimeJson (stamp t)))) with
    | some (.aware t) => some t
    | _ => none) = some t
  rw [stamp_fixed,h]

theorem PeerManifest.parse_shows {m : PeerManifest FixedTime}
    (h : ∀ t ∈ m.times, p.ReadsTime plat t) {v : Value} (hv : Shows (m.dump plat) v) :
    PeerManifest.parse p v = some m := by
  have hfrom := asTime_timestamp (h m.validFrom (by simp [times]))
  have hto := asTime_timestamp (h m.expiresAt (by simp [times]))
  obtain ⟨get,hmodel,hget⟩ := modelFields_shows fieldNames (ofFields p) hv rfl
  rw [parse,hmodel]
  simp only [List.forall_mem_cons,shows_str,shows_text,shows_timestamp,shows_optional_text,
    exists_eq_right] at hget
  simp [ofFields,required,defaulted,hget,hfrom,hto]

theorem TopologyEdge.parse_shows {e : TopologyEdge} {v : Value} (hv : Shows e.dump v) :
    TopologyEdge.parse v = some e := by
  obtain ⟨get,hmodel,hget⟩ := modelFields_shows fieldNames ofFields hv rfl
  rw [parse,hmodel]
  simp only [List.forall_mem_cons,shows_str,shows_text,exists_eq_right] at hget
  simp [ofFields,required,defaulted,hget]

theorem TopologySnapshot.parse_shows {t : TopologySnapshot FixedTime}
    (h : ∀ u ∈ t.times, p.ReadsTime plat u) {v : Value} (hv : Shows (t.dump plat) v) :
    TopologySnapshot.parse p v = some t := by
  have hcaptured := asTime_timestamp (h t.capturedAt (by simp [times]))
  have hexpires := asTime_timestamp (h t.expiresAt (by simp [times]))
  have hpeer : ∀ m ∈ t.peers, ∀ w, Shows (m.dump plat) w → PeerManifest.parse p w = some m :=
    fun m hm w hw => PeerManifest.parse_shows (fun u hu => h u
      (List.mem_cons_of_mem _ (List.mem_cons_of_mem _ (List.mem_flatMap.mpr ⟨m,hm,hu⟩)))) hw
  obtain ⟨get,hmodel,hget⟩ := modelFields_shows fieldNames (ofFields p) hv rfl
  rw [parse,hmodel]
  simp only [List.forall_mem_cons,shows_str,shows_text,shows_timestamp,exists_eq_right] at hget
  obtain ⟨hversion,hid,hlocal,hfrom,hto,⟨peers,hpeers,hmanifests⟩,⟨edges,hedges,hpairs⟩,-⟩ := hget
  have hmanifests := asTuple_shows hmanifests hpeer
  have hpairs := asTuple_shows hpairs fun e _ w hw => TopologyEdge.parse_shows hw
  simp [ofFields,required,defaulted,hversion,hid,hlocal,hfrom,hto,hpeers,hedges,hcaptured,hexpires,
    hmanifests,hpairs]

theorem RoutePlan.parse_shows {r : RoutePlan FixedTime} (h : ∀ t ∈ r.times, p.ReadsTime plat t)
    {v : Value} (hv : Shows (r.dump plat) v) : RoutePlan.parse p v = some r := by
  have hcreated := asTime_timestamp (h r.createdAt (by simp [times]))
  have hexpires := asTime_timestamp (h r.expiresAt (by simp [times]))
  obtain ⟨get,hmodel,hget⟩ := modelFields_shows fieldNames (ofFields p) hv rfl
  rw [parse,hmodel]
  simp only [List.forall_mem_cons,shows_str,shows_text,shows_timestamp,exists_eq_right] at hget
  obtain ⟨hversion,hid,hnonce,hcommitment,hintent,hweights,hruntime,⟨hops,hhops,hpeers⟩,hfrom,
    hto,-⟩ := hget
  have hpeers : asTuple (asConstrained _) hops = some r.hopPeerIds :=
    asTuple_shows hpeers fun peerId _ w hw => by rw [shows_text.mp hw,asConstrained_text]
  simp [ofFields,required,defaulted,hversion,hid,hnonce,hcommitment,hintent,hweights,hruntime,hhops,
    hpeers,hfrom,hto,hcreated,hexpires]

theorem HopReceipt.parse_shows {r : HopReceipt FixedTime} (hcounts : p.ReadsCounts)
    (hcheck : r.check = .ok ()) (h : p.ReadsTime plat r.observedAt) {v : Value}
    (hv : Shows (r.dump plat) v) : HopReceipt.parse p v = some r := by
  obtain ⟨_,hbound,_,hhops,_⟩ := HopReceipt.check_ok.mp hcheck
  have htime := asTime_timestamp h
  have hindex := asNat_int hcounts (le_trans hbound (by decide : 63 ≤ 64))
  have hcount := asNat_int hcounts hhops
  obtain ⟨get,hmodel,hget⟩ := modelFields_shows fieldNames (ofFields p) hv rfl
  rw [parse,hmodel]
  simp only [signingPayload,List.cons_append,List.nil_append,List.forall_mem_cons,shows_str,
    shows_int,shows_text,shows_timestamp,shows_optional_text,exists_eq_right] at hget
  simp [ofFields,required,defaulted,hget,htime,hindex,hcount]

theorem RouteAttestation.parse_shows {a : RouteAttestation FixedTime} (hcounts : p.ReadsCounts)
    (hcheck : a.check = .ok ()) (h : ∀ t ∈ a.times, p.ReadsTime plat t) {v : Value}
    (hv : Shows (a.dump plat) v) : RouteAttestation.parse p v = some a := by
  obtain ⟨_,_,_,_,hchecks⟩ := RouteAttestation.check_ok.mp hcheck
  obtain ⟨get,hmodel,hget⟩ := modelFields_shows fieldNames (ofFields p) hv rfl
  rw [parse,hmodel]
  simp only [List.forall_mem_cons,shows_str,exists_eq_right] at hget
  obtain ⟨hversion,⟨plan,hplan,hroute⟩,⟨receipts,hreceipts,hchain⟩,-⟩ := hget
  have hroute := RoutePlan.parse_shows (fun t ht => h t (List.mem_append_left _ ht)) hroute
  have hchain : asTuple (HopReceipt.parse p) receipts = some a.receipts :=
    asTuple_shows hchain fun r hr w hw => HopReceipt.parse_shows hcounts (hchecks r hr)
      (h _ (List.mem_append_right _ (List.mem_map_of_mem hr))) hw
  simp [ofFields,required,defaulted,hversion,hplan,hroute,hreceipts,hchain]

theorem AdmissionDecision.parse_shows {d : AdmissionDecision FixedTime} (hcounts : p.ReadsCounts)
    (hhops : d.checkedHops ≤ 64) (h : p.ReadsTime plat d.evaluatedAt) {v : Value}
    (hv : Shows (d.dump plat) v) : AdmissionDecision.parse p v = some d := by
  have htime := asTime_timestamp h
  have hnat := asNat_int hcounts hhops
  obtain ⟨get,hmodel,hget⟩ := modelFields_shows fieldNames (ofFields p) hv rfl
  rw [parse,hmodel]
  simp only [List.forall_mem_cons,shows_str,shows_bool,shows_int,shows_timestamp,
    shows_optional_text,shows_optional_intent,shows_optional_level,exists_eq_right] at hget
  obtain ⟨hversion,hkind,hadmitted,⟨reasons,hreasons,hcodes⟩,hrest⟩ := hget
  have hcodes : asTuple asText reasons = some d.reasonCodes :=
    asTuple_shows hcodes fun code _ w hw => by rw [shows_str.mp hw,asText_str]
  simp [ofFields,required,defaulted,hversion,hkind,hadmitted,hreasons,hcodes,hrest,htime,hnat]

theorem asIntents_shows {l : {l : List ExecutionIntent // l.Nodup}} {v : Value}
    (hv : Shows (.arr (l.val.map fun intent => .str intent.value)) v) : asIntents v = some l := by
  have htuple : asTuple asIntent v = some l.val := asTuple_shows hv fun intent _ w hw => by
    rw [shows_str.mp hw,asIntent_value]
  have hkeys : fromKeys l.val = l.val := fromKeys_of_nodup l.property
  rw [asIntents,htuple,Option.map_some,Option.some.injEq]
  exact Subtype.ext hkeys

def floorField (entry : ExecutionIntent × EvidenceLevel) : Str × Value :=
  (str entry.1.value,readValue (.str entry.2.value))

theorem asFloor_field (entry : ExecutionIntent × EvidenceLevel) :
    asFloor (floorField entry) = some entry := by
  have hintent : asIntent (.leaf (.str (str entry.1.value))) = some entry.1 :=
    asIntent_value entry.1
  rw [asFloor,floorField,hintent,asLevel_value]
  rfl

theorem asFloors_fields {fields : List (Str × Value)}
    (h : ∀ field ∈ fields, ∃ entry, field = floorField entry) :
    ∃ l, fields.mapM asFloor = some l ∧ l.map floorField = fields := by
  induction fields with
  | nil => exact ⟨[],rfl,rfl⟩
  | cons field fields ih =>
    obtain ⟨⟨entry,rfl⟩,hfields⟩ := List.forall_mem_cons.mp h
    obtain ⟨l,hl,hmap⟩ := ih hfields
    refine ⟨entry :: l,?_,by rw [List.map_cons,hmap]⟩
    rw [List.mapM_cons,asFloor_field,hl]
    rfl

theorem asFloors_shows
    {floors : {l : List (ExecutionIntent × EvidenceLevel) // (l.map Prod.fst).Nodup}} {v : Value}
    (hv : Shows (.obj (floors.val.map fun entry => (entry.1.value,.str entry.2.value))) v) :
    ∃ floors', asFloors v = some floors' ∧
      ∀ intent, floors'.val.lookup intent = floors.val.lookup intent := by
  obtain ⟨fields,rfl,hnodup,hknown,hentries⟩ := hv
  rw [showsEntries_iff] at hentries
  have hmem : ∀ entry ∈ floors.val, floorField entry ∈ fields := by
    intro entry hentry
    obtain ⟨w,hw,hshows⟩ := hentries _ (List.mem_map_of_mem hentry)
    rw [shows_str] at hshows
    rwa [hshows] at hw
  have hfield : ∀ field ∈ fields, ∃ entry ∈ floors.val, field = floorField entry := by
    intro field hfield
    have hname := hknown field hfield
    rw [List.map_map] at hname
    obtain ⟨entry,hentry,hkey⟩ := List.mem_map.mp hname
    exact ⟨entry,hentry,List.inj_on_of_nodup_map hnodup hfield (hmem entry hentry) hkey.symm⟩
  obtain ⟨l,hl,rfl⟩ := asFloors_fields fun field h => (hfield field h).imp fun _ h => h.2
  have hkeys : (l.map Prod.fst).Nodup := by
    rw [List.map_map] at hnodup
    refine List.Nodup.of_map (fun intent => str intent.value) ?_
    rwa [List.map_map]
  have hinj : Function.Injective floorField := by
    intro a b h
    have h := congrArg asFloor h
    rwa [asFloor_field,asFloor_field,Option.some.injEq] at h
  have hsame : ∀ entry, entry ∈ l ↔ entry ∈ floors.val := by
    intro entry
    constructor
    · intro h
      obtain ⟨e,he,heq⟩ := hfield _ (List.mem_map_of_mem h)
      rwa [hinj heq]
    · intro h
      exact (List.mem_map_of_injective hinj).mp (hmem entry h)
  refine ⟨⟨l,hkeys⟩,?_,fun intent => ?_⟩
  · rw [asFloors,hl,Option.bind_some,dif_pos hkeys]
  · ext level
    rw [lookup_eq_some hkeys,lookup_eq_some floors.property,hsame]

/-- What shows the dump of a policy is parsed to that policy, but for the order of the floors. -/
theorem AdmissionPolicy.parse_shows {policy : AdmissionPolicy FixedTime} (hcounts : p.ReadsCounts)
    (hhops : policy.maxHops ≤ 64) (h : ∀ u ∈ policy.topology.times, p.ReadsTime plat u) {v : Value}
    (hv : Shows (policy.dump plat) v) : ∃ floors,
      AdmissionPolicy.parse p v = some {policy with minimumEvidence := floors} ∧
      ∀ intent, floors.val.lookup intent = policy.floor intent := by
  have hmax := asNat_int hcounts hhops
  obtain ⟨get,hmodel,hget⟩ := modelFields_shows fieldNames (ofFields p) hv rfl
  simp only [List.forall_mem_cons,shows_str,shows_int,exists_eq_right] at hget
  obtain ⟨hversion,⟨intents,hintents,hmembers⟩,hcount,⟨floors,hfloors,hlevels⟩,
    ⟨topology,htopology,hsnapshot⟩,-⟩ := hget
  have hmembers := asIntents_shows hmembers
  have hsnapshot := TopologySnapshot.parse_shows h hsnapshot
  obtain ⟨floors',hlevels,hsame⟩ := asFloors_shows hlevels
  refine ⟨floors',?_,hsame⟩
  rw [parse,hmodel]
  simp [ofFields,required,defaulted,hversion,hintents,hmembers,hcount,hmax,hfloors,hlevels,
    htopology,hsnapshot]

theorem modelValidate_parsed {α : Type} [Contract α] {parse : Value → Option α} {v : Value}
    (a : Validated α) (h : parse v = some a.val) : modelValidate p parse v = .ok a := by
  unfold modelValidate
  rw [h]
  simp only
  split
  · rfl
  · rename_i error herror
    exact absurd (a.accepted.symm.trans herror) (by simp)

end RoundTrips

end LocusMesh
