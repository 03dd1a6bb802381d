import Mathlib
import LocusMesh.Projection

/-! The Mesh-LLM status observer: one request to the status URL, whose answer is read,
decoded and projected. The endpoint may do anything with the request. -/
namespace LocusMesh

open CanonicalJson AwareClock PyText PyJson PyUrl PyOpener MeshLlm Fallible

/-- The double nearest to 0.1. -/
def minTimeout : ℚ := 3602879701896397 / 36028797018963968

/-- An observer that was built: its bounds hold and its URL was accepted. -/
structure MeshLlmStatusObserver (u : Unicode) where
  sourceEndpoint : Text
  statusUrl : Text
  requestedMaxScope : ExecutionIntent
  timeoutSeconds : ℚ
  ttlSeconds : ℤ
  timeout_bounds : minTimeout ≤ timeoutSeconds ∧ timeoutSeconds ≤ 30
  ttl_bounds : 1 ≤ ttlSeconds ∧ ttlSeconds ≤ 60
  origin : ∃ value, LocusMesh.statusUrl u value = .ok (sourceEndpoint,statusUrl)

/-- What becomes of the request: the opener raises, or there is a response with a status, a
body whose reading may raise, and a closing that may raise. -/
inductive Exchange
  | refused (e : PyError)
  | responded (status : Option ℕ) (body : Except PyError (List UInt8)) (closing : Option PyError)

def maxResponseBytes : ℕ := 1048576

def unavailable : PyError :=
  .fabricObservationError "Mesh-LLM status endpoint was unavailable"

def notStrict : PyError :=
  .fabricObservationError "Mesh-LLM status response was not strict JSON"

def mismatch : PyError :=
  .fabricObservationError "Mesh-LLM status does not match the supported observation projection"

def decodeUtf8 (raw : List UInt8) : Option Text :=
  (String.fromUTF8? ⟨raw.toArray⟩).map String.toList

theorem decodeUtf8_encode (s : String) : decodeUtf8 (encodeUtf8 s) = some s.toList := by
  have hbytes : (⟨(encodeUtf8 s).toArray⟩ : ByteArray) = s.toByteArray := by
    rw [encodeUtf8_eq]
    rfl
  rw [decodeUtf8,hbytes,String.fromUTF8?,dif_pos s.isValidUTF8]
  rfl

theorem encodeUtf8_replicate_length {c : Char} (hc : (String.utf8EncodeChar c).length = 1)
    (n : ℕ) : (encodeUtf8 (String.ofList (List.replicate n c))).length = n := by
  rw [encodeUtf8,String.toList_ofList,List.length_flatMap,List.map_replicate,List.sum_replicate,
    hc,smul_eq_mul,mul_one]

def shown (key : Str) : String := String.ofList (key.map fun
  | .scalar c => c
  | .surrogate _ => '\uFFFD')

def jsonDecodeError (message : String) (doc : Text) (pos : ℕ) : PyError :=
  let before := doc.take pos
  let line := before.count '\n' + 1
  let column := (before.reverse.takeWhile (· ≠ '\n')).length + 1
  .external ⟨[.jsonDecodeError,.valueError],message ++ ": line " ++ toString line ++ " column " ++
    toString column ++ " (char " ++ toString pos ++ ")",[],by simp [PyClass.base]⟩

/-- What `json.loads` raises, and a hook that names a key that comes again. -/
def jsonError (duplicate : String) (doc : Text) : ScanError Str → PyError
  | .malformed (.decode message left) => jsonDecodeError message doc (doc.length - left)
  | .malformed (.digits count) => .valueError ("Exceeds the limit (4300 digits) for integer string "
      ++ "conversion: value has " ++ toString count ++ " digits; use sys.set_int_max_str_digits() "
      ++ "to increase the limit")
  | .recursion => .recursionError
  | .hook key => .valueError (duplicate ++ shown key)

/-- Every failure is a `ValueError`, but for that of a text that is nested too deep. -/
theorem jsonError_isInstance (duplicate : String) (doc : Text) {e : ScanError Str}
    (h : e ≠ .recursion) : (jsonError duplicate doc e).isInstance .valueError = true := by
  cases e with
  | recursion => exact absurd rfl h
  | hook key => rfl
  | malformed reason => cases reason <;> rfl

/-- `json.loads` with the hook that names a key that comes again; `limit` is the number of
containers that the interpreter lets the scanner enter. -/
def parseJson (duplicate : String) (limit : ℕ) (text : Text) : Except PyError Value :=
  (loads strict limit text).mapError (jsonError duplicate text)

theorem parseJson_ok {duplicate : String} {limit : ℕ} {text : Text} {v : Value} :
    parseJson duplicate limit text = .ok v ↔ loads strict limit text = .ok v := by
  rw [parseJson]
  cases loads strict limit text <;> simp [Except.mapError]

def loadBytes (limit : ℕ) (raw : List UInt8) : Except PyError Value :=
  match decodeUtf8 raw with
  | none => .error (.valueError "invalid UTF-8")
  | some text => parseJson "duplicate JSON key: " limit text

namespace MeshLlmStatusObserver

/-- `__init__`; a timeout that is not finite lies between no bounds. -/
def create (u : Unicode) (managementUrl : Text) (requestedMaxScope : ExecutionIntent)
    (timeoutSeconds : Option ℚ) (ttlSeconds : ℤ) : Except PyError (MeshLlmStatusObserver u) :=
  match timeoutSeconds with
  | none => .error (.valueError "timeout_seconds must be between 0.1 and 30")
  | some timeout =>
    if htimeout : minTimeout ≤ timeout ∧ timeout ≤ 30 then
      if httl : 1 ≤ ttlSeconds ∧ ttlSeconds ≤ 60 then
        match horigin : LocusMesh.statusUrl u managementUrl with
        | .error e => .error e
        | .ok (origin,status) =>
          .ok ⟨origin,status,requestedMaxScope,timeout,ttlSeconds,htimeout,httl,managementUrl,horigin⟩
      else .error (.valueError "ttl_seconds must be between 1 and 60")
    else .error (.valueError "timeout_seconds must be between 0.1 and 30")

variable {u : Unicode} (o : MeshLlmStatusObserver u)

/-- The `with` block of `_fetch`, and what its exit does to it. -/
def exchanged : Exchange → Except PyError (List UInt8)
  | .refused e => .error e
  | .responded status body closing =>
    withExit closing
      (if status.getD 200 ≠ 200 then .error unavailable
      else body.map (List.take (maxResponseBytes + 1)))

/-- What becomes of the bytes that were read. -/
def parsed (limit : ℕ) (raw : List UInt8) : Except PyError Mapping :=
  if maxResponseBytes < raw.length then
    .error (.fabricObservationError "Mesh-LLM status response exceeded 1 MiB")
  else
    match catching [.unicodeError,.jsonDecodeError,.valueError] notStrict (loadBytes limit raw) with
    | .error e => .error e
    | .ok (.dict payload) => .ok payload
    | .ok _ => .error (.fabricObservationError "Mesh-LLM status response must be a JSON object")

def fetch (limit : ℕ) (endpoint : Request → Exchange) : Except PyError Mapping :=
  match Request.ofUrl u o.statusUrl with
  | .error message => .error (.valueError message)
  | .ok request => do
    let raw ← catching [.httpError,.urlError,.osError,.timeoutError] unavailable
      (exchanged (endpoint request))
    parsed limit raw

section Project

variable {τ : Type} [DatetimeArithmetic τ] (plat : Platform)

def scopeRank : ExecutionIntent → ℕ
  | .deviceOnly => 0
  | .privateMesh => 1
  | .publicMesh => 2

def project (payload : Mapping) (now : τ) : Except PyError (Validated (FabricObservation τ)) := do
  let projected ← projection u payload
  let scope := observedScope projected.discovery
  let localCandidate ← candidate projected.localNode true scope
  let peerCandidates ← projected.peers.mapM fun peer => candidate peer false scope
  let within := decide (scopeRank scope.val ≤ scopeRank o.requestedMaxScope)
  let digest ← projectionDigest plat projected
  let version ← constrained "provider_version" "string_too_long" projected.providerVersion.encodable
  let endpoint ← constrained "source_endpoint" "string_too_long" (some o.sourceEndpoint)
  Validated.construct
    {provider := provider
     providerVersion := version
     providerContract := ⟨"mesh-llm.api-status.unversioned",by decide⟩
     sourceEndpoint := endpoint
     projectionDigest := digest
     observedAt := now
     expiresAt := DatetimeArithmetic.add now (o.ttlSeconds * 1000000)
     requestedMaxScope := o.requestedMaxScope
     observedScope := scope
     withinRequestedScope := within
     candidates := (localCandidate :: peerCandidates).map Validated.val
     reasonCodes := [.observationOnly,.unversionedProviderSchema,
      if scope.val = .privateMesh then .privateLanStatusSignal
      else .publicOrAmbiguousStatusSignal,
      if within then .scopeSignalWithinMaximum else .scopeSignalExceedsMaximum]}

def observe (limit : ℕ) (endpoint : Request → Exchange) (now : τ) :
    Except PyError (Validated (FabricObservation τ)) := do
  let payload ← o.fetch limit endpoint
  catching projectionErrors mismatch (o.project plat payload now)

theorem project_raises (payload : Mapping) (now : τ) :
    Raises Rejected (o.project plat payload now) := by
  apply raises_bind (projection_raises u payload)
  intro projected
  apply raises_bind (candidate_raises _ _ _)
  intro localCandidate
  apply raises_bind (raises_mapM fun peer _ => candidate_raises peer _ _)
  intro peerCandidates
  apply raises_bind (projectionDigest_raises plat projected)
  intro digest
  apply raises_bind (constrained_raises _ _ _)
  intro version
  apply raises_bind (constrained_raises _ _ _)
  intro endpoint
  exact raises_construct rejected_validationError _

theorem project_requested {payload : Mapping} {now : τ} {v : Validated (FabricObservation τ)}
    (h : o.project plat payload now = .ok v) :
    v.val.requestedMaxScope = o.requestedMaxScope := by
  simp only [project,bind_ok] at h
  obtain ⟨_,_,_,_,_,_,_,_,_,_,_,_,hconstruct⟩ := h
  rw [construct_val hconstruct]

theorem observe_requested {limit : ℕ} {endpoint : Request → Exchange} {now : τ}
    {v : Validated (FabricObservation τ)} (h : o.observe plat limit endpoint now = .ok v) :
    v.val.requestedMaxScope = o.requestedMaxScope := by
  obtain ⟨payload,_,hproject⟩ := bind_ok.mp h
  exact o.project_requested plat (catching_ok.mp hproject)

end Project

theorem create_requested {u : Unicode} {managementUrl : Text} {maxScope : ExecutionIntent}
    {timeoutSeconds : Option ℚ} {ttlSeconds : ℤ} {o : MeshLlmStatusObserver u}
    (h : create u managementUrl maxScope timeoutSeconds ttlSeconds = .ok o) :
    o.requestedMaxScope = maxScope := by
  unfold create at h
  split at h
  · cases h
  split_ifs at h
  split at h
  · cases h
  · cases h
    rfl

theorem create_eq {u : Unicode} (o : MeshLlmStatusObserver u) {managementUrl : Text}
    (h : LocusMesh.statusUrl u managementUrl = .ok (o.sourceEndpoint,o.statusUrl)) :
    create u managementUrl o.requestedMaxScope (some o.timeoutSeconds) o.ttlSeconds = .ok o := by
  simp only [create,dif_pos o.timeout_bounds,dif_pos o.ttl_bounds]
  split
  · rename_i e herror
    rw [h] at herror
    cases herror
  · rename_i origin status hok
    rw [h] at hok
    cases hok
    rfl

end MeshLlmStatusObserver

end LocusMesh
