import Mathlib
import LocusMesh.Demo
import LocusMesh.Envelopes

/-! What an observer makes of an endpoint that fails, and when its failure is the one that
the command line knows as an unavailable observation. -/
namespace LocusMesh

open CanonicalJson AwareClock PyText PyJson PyUrl PyOpener MeshLlm MeshLlmStatusObserver Fallible

/-- What `urllib` and `http.client` may raise: any exception but the observer's own. Theirs are
`OSError`s and `HTTPException`s, but also the `ValueError` of a redirect to no URL and the
`UnicodeError` of a host that IDNA does not encode. -/
def TransportError (e : PyError) : Prop := e.isInstance .fabricObservationError = false

namespace Exchange

def exceptions : Exchange → List PyError
  | .refused e => [e]
  | .responded _ (.ok _) closing => closing.toList
  | .responded _ (.error e) closing => e :: closing.toList

/-- The exception that leaves the `with` block: a response is only read at status 200, and
an exception of the closing replaces one of the reading. -/
def raised : Exchange → Option PyError
  | .refused e => some e
  | .responded _ _ (some e) => some e
  | .responded status (.error e) none => if status.getD 200 = 200 then some e else none
  | .responded _ (.ok _) none => none

def received : Exchange → Option (List UInt8)
  | .responded status (.ok body) none =>
    if status.getD 200 = 200 ∧ body.length ≤ maxResponseBytes then some body else none
  | _ => none

theorem raised_mem {x : Exchange} {e : PyError} (h : x.raised = some e) : e ∈ x.exceptions := by
  cases x with
  | refused e' =>
    cases h
    simp [exceptions]
  | responded status body closing =>
    cases closing with
    | some e' =>
      cases h
      cases body <;> simp [exceptions]
    | none =>
      cases body with
      | ok raw => cases h
      | error e' =>
        rw [raised] at h
        split_ifs at h
        cases h
        simp [exceptions]

/-- The endpoint keeps to what the observer handles: what it raises is an `OSError`, and what
it sends does not nest deeper than the parser goes. -/
structure Contained (limit : ℕ) (x : Exchange) : Prop where
  os : ∀ e, x.raised = some e → e.isInstance .osError = true
  shallow : ∀ raw text, x.received = some raw → decodeUtf8 raw = some text →
    loads strict limit text ≠ .error .recursion

end Exchange

def Unobserved (e : PyError) : Prop := ∃ message, e = .fabricObservationError message

theorem unobserved_fabric (message : String) : Unobserved (.fabricObservationError message) :=
  ⟨message,rfl⟩

theorem loadBytes_raises {limit : ℕ} {raw : List UInt8}
    (h : ∀ text, decodeUtf8 raw = some text → loads strict limit text ≠ .error .recursion) :
    Raises (fun e => e.isInstance .valueError = true) (loadBytes limit raw) := by
  unfold loadBytes
  cases hdecode : decodeUtf8 raw with
  | none => exact raises_error rfl
  | some text =>
    simp only [parseJson]
    cases hloads : loads strict limit text with
    | ok v => exact raises_ok v
    | error e => exact raises_error (jsonError_isInstance _ _ fun he => h text hdecode (he ▸ hloads))

theorem parsed_iff {limit : ℕ} {raw : List UInt8} (hraw : raw.length ≤ maxResponseBytes) :
    Raises Unobserved (parsed limit raw) ↔
      ∀ text, decodeUtf8 raw = some text → loads strict limit text ≠ .error .recursion := by
  rw [parsed,if_neg (not_lt.mpr hraw)]
  constructor
  · intro h text hdecode hdeep
    have hload : loadBytes limit raw = .error .recursionError := by
      simp only [loadBytes,parseJson,hdecode,hdeep]
      rfl
    rw [hload] at h
    obtain ⟨message,hfabric⟩ := h _ rfl
    cases hfabric
  · intro h
    have hcaught : Raises Unobserved
        (catching [.unicodeError,.jsonDecodeError,.valueError] notStrict (loadBytes limit raw)) := by
      apply raises_catching _ (unobserved_fabric _)
      intro e he
      simp [loadBytes_raises h e he]
    split
    · rename_i e he
      exact raises_error (hcaught e he)
    · exact raises_ok _
    · exact raises_error (unobserved_fabric _)

/-- The clause around the exchange catches an exception of the transport exactly when it is
an error of the operating system. -/
theorem transport_iff {e : PyError} (h : TransportError e) :
    Raises Unobserved (catching (α:=List UInt8) [.httpError,.urlError,.osError,.timeoutError]
      unavailable (.error e)) ↔ e.isInstance .osError = true := by
  have hhttp : e.isInstance .httpError = true → e.isInstance .osError = true := fun hc =>
    PyError.isInstance_base (c:=.urlError) rfl (PyError.isInstance_base rfl hc)
  have hurl : e.isInstance .urlError = true → e.isInstance .osError = true :=
    PyError.isInstance_base rfl
  have htimeout : e.isInstance .timeoutError = true → e.isInstance .osError = true :=
    PyError.isInstance_base rfl
  have hany : ([PyClass.httpError,.urlError,.osError,.timeoutError].any e.isInstance) =
      e.isInstance .osError := by
    rw [Bool.eq_iff_iff]
    simp only [List.any_cons,List.any_nil,Bool.or_false,Bool.or_eq_true]
    tauto
  rw [catching,hany]
  cases hos : e.isInstance .osError with
  | true => exact iff_of_true (raises_error (unobserved_fabric _)) rfl
  | false =>
    refine iff_of_false (fun hraises => ?_) (by decide)
    obtain ⟨message,rfl⟩ := hraises e rfl
    exact absurd h (by simp [TransportError,PyError.isInstance,PyError.classes])

theorem exchanged_cases (x : Exchange) :
    (∃ e, x.raised = some e ∧ exchanged x = .error e ∧ x.received = none) ∨
    (x.raised = none ∧ exchanged x = .error unavailable ∧ x.received = none) ∨
    ∃ raw, x.raised = none ∧ exchanged x = .ok (raw.take (maxResponseBytes + 1)) ∧
      x.received = if raw.length ≤ maxResponseBytes then some raw else none := by
  cases x with
  | refused e => exact .inl ⟨e,rfl,rfl,rfl⟩
  | responded status body closing =>
    cases closing with
    | some e => exact .inl ⟨e,by cases body <;> rfl,rfl,by cases body <;> rfl⟩
    | none =>
      by_cases hstatus : status.getD 200 = 200
      · cases body with
        | error e =>
          left
          refine ⟨e,?_,?_,rfl⟩
          · rw [Exchange.raised,if_pos hstatus]
          · rw [exchanged,withExit,if_neg (not_not.mpr hstatus)]
            rfl
        | ok raw =>
          right
          right
          refine ⟨raw,rfl,?_,?_⟩
          · rw [exchanged,withExit,if_neg (not_not.mpr hstatus)]
            rfl
          · rw [Exchange.received]
            simp only [hstatus,true_and]
      · right
        left
        refine ⟨?_,?_,?_⟩
        · cases body with
          | error e => rw [Exchange.raised,if_neg hstatus]
          | ok raw => rfl
        · rw [exchanged,withExit,if_pos hstatus]
        · cases body with
          | error e => rfl
          | ok raw => rw [Exchange.received,if_neg (fun h => hstatus h.1)]

namespace Exchange

variable {limit : ℕ} {x : Exchange}

theorem contained_of_lost (hraised : x.raised = none) (hnone : x.received = none) :
    x.Contained limit := by
  constructor
  · simp [hraised]
  · simp [hnone]

theorem contained_raised {e : PyError} (hraised : x.raised = some e) (hnone : x.received = none) :
    x.Contained limit ↔ e.isInstance .osError = true := by
  constructor
  · intro h
    exact h.os e hraised
  · intro h
    constructor
    · intro e' he'
      rw [hraised] at he'
      cases he'
      exact h
    · simp [hnone]

theorem contained_received {raw : List UInt8} (hraised : x.raised = none)
    (hsome : x.received = some raw) : x.Contained limit ↔
      ∀ text, decodeUtf8 raw = some text → loads strict limit text ≠ .error .recursion := by
  constructor
  · intro h text
    exact h.shallow raw text hsome
  · intro h
    constructor
    · simp [hraised]
    · intro raw' text hreceived
      rw [hsome] at hreceived
      cases hreceived
      exact h text

end Exchange

theorem caught_bind {limit : ℕ} {e : PyError} :
    Raises Unobserved (catching [.httpError,.urlError,.osError,.timeoutError] unavailable
      (.error e) >>= parsed limit) ↔
    Raises Unobserved (catching (α:=List UInt8) [.httpError,.urlError,.osError,.timeoutError]
      unavailable (.error e)) := by
  cases hcatch : catching (α:=List UInt8) [.httpError,.urlError,.osError,.timeoutError]
    unavailable (.error e) with
  | ok raw =>
    rw [catching_ok] at hcatch
    cases hcatch
  | error e' =>
    constructor
    · intro h e'' he''
      cases he''
      exact h e' rfl
    · intro h e'' he''
      cases he''
      exact h e' rfl

/-- An exchange ends in a payload or in an unavailable observation exactly when it is
contained. -/
theorem exchange_iff {limit : ℕ} {x : Exchange} (hx : ∀ e ∈ x.exceptions, TransportError e) :
    Raises Unobserved (catching [.httpError,.urlError,.osError,.timeoutError] unavailable
      (exchanged x) >>= parsed limit) ↔ x.Contained limit := by
  rcases exchanged_cases x with ⟨e,hraised,herror,hnone⟩ | ⟨hraised,herror,hnone⟩ |
    ⟨raw,hraised,hraw,hsome⟩
  · rw [herror,caught_bind,transport_iff (hx e (Exchange.raised_mem hraised)),
      Exchange.contained_raised hraised hnone]
  · rw [herror]
    exact iff_of_true (raises_error (unobserved_fabric _))
      (Exchange.contained_of_lost hraised hnone)
  · rw [hraw]
    show Raises Unobserved (parsed limit (raw.take (maxResponseBytes + 1))) ↔ _
    by_cases hlength : raw.length ≤ maxResponseBytes
    · rw [if_pos hlength] at hsome
      rw [List.take_of_length_le (by omega),parsed_iff hlength,
        Exchange.contained_received hraised hsome]
    · rw [if_neg hlength] at hsome
      have hlong : maxResponseBytes < (raw.take (maxResponseBytes + 1)).length := by
        rw [List.length_take]
        omega
      rw [parsed,if_pos hlong]
      exact iff_of_true (raises_error (unobserved_fabric _))
        (Exchange.contained_of_lost hraised hsome)

theorem statusUrl_request {u : Unicode} (o : MeshLlmStatusObserver u) :
    ∃ r, Request.ofUrl u o.statusUrl = .ok r := by
  obtain ⟨value,hvalue⟩ := o.origin
  cases hparse : urlparse u (strip isSpace value) with
  | error message =>
    rw [LocusMesh.statusUrl,hparse] at hvalue
    cases hvalue
  | ok p =>
    obtain ⟨haccepted,horigin,hstatus⟩ := statusUrl_ok hparse hvalue
    rw [hstatus,horigin]
    exact ⟨_,ofUrl_status haccepted⟩

section Observing

variable {τ : Type} [DatetimeArithmetic τ] {u : Unicode} (o : MeshLlmStatusObserver u)
  (plat : Platform) {limit : ℕ} {endpoint : Request → Exchange}

theorem observe_raises_iff (hx : ∀ r, ∀ e ∈ (endpoint r).exceptions, TransportError e) (now : τ) :
    Raises Unobserved (o.observe plat limit endpoint now) ↔
      ∀ r, Request.ofUrl u o.statusUrl = .ok r → (endpoint r).Contained limit := by
  obtain ⟨r,hr⟩ := statusUrl_request o
  have hproject : ∀ payload, Raises Unobserved
      (catching projectionErrors mismatch (o.project plat payload now)) :=
    fun payload => raises_catching (o.project_raises plat payload now) (unobserved_fabric _)
  rw [observe,raises_bind_iff hproject,fetch,hr]
  simp only [Except.ok.injEq,forall_eq']
  exact exchange_iff (hx r)

theorem observe_error {x : Exchange} {e : PyError}
    (h : (catching [.httpError,.urlError,.osError,.timeoutError] unavailable (exchanged x) >>=
      parsed limit) = .error e) (now : τ) :
    o.observe plat limit (fun _ => x) now = .error e := by
  obtain ⟨r,hr⟩ := statusUrl_request o
  rw [observe,fetch,hr]
  simp only [h]
  rfl

end Observing

def unavailableMessage : String := "provider observation was unavailable or incompatible"

def unavailableOutput : Output :=
  ⟨[jsonLine (errorEnvelope "observe mesh-llm" "OBSERVATION_UNAVAILABLE" unavailableMessage).json],
    ["locusmesh: " ++ "OBSERVATION_UNAVAILABLE" ++ ": " ++ unavailableMessage],2⟩

def invalidOutput (text : String) : Output :=
  ⟨[jsonLine (errorEnvelope "observe mesh-llm" "INPUT_INVALID" text).json],
    ["locusmesh: " ++ "INPUT_INVALID" ++ ": " ++ text],2⟩

def internalOutput : Output :=
  ⟨[jsonLine (errorEnvelope "observe mesh-llm" "INTERNAL_ERROR"
      "unexpected internal failure; no admission granted").json],
    ["locusmesh: " ++ "INTERNAL_ERROR" ++ ": " ++
      "unexpected internal failure; no admission granted"],1⟩

section CommandLine

variable {τ σ : Type} [DatetimeArithmetic τ] (b : Backend τ σ) {managementUrl : Text}
  {maxScope : ExecutionIntent} {timeoutSeconds : Option ℚ} {ttlSeconds : ℤ}
  {o : MeshLlmStatusObserver b.unicode}

theorem main_observe_error (hcreate : create b.unicode managementUrl maxScope timeoutSeconds
    ttlSeconds = .ok o) {e : PyError}
    (h : o.observe b.plat b.nestingLimit b.endpoint b.now = .error e) :
    main b true (.observeMeshLlm managementUrl maxScope timeoutSeconds ttlSeconds) =
      report true "observe mesh-llm" (.error e) := by
  have hobservation : observation b managementUrl maxScope timeoutSeconds ttlSeconds = .error e := by
    rw [observation,hcreate]
    exact h
  rw [main,run,hobservation]
  rfl

/-- The observer returns an observation, or fails in the one way that the command line
reports as an unavailable observation, exactly when what leaves the exchange is an error of
the operating system, if anything, and what it delivers is not nested too deep to parse. -/
theorem observation_contained_iff
    (hcreate : create b.unicode managementUrl maxScope timeoutSeconds ttlSeconds = .ok o)
    (hx : ∀ r, ∀ e ∈ (b.endpoint r).exceptions, TransportError e) :
    ((∃ v, o.observe b.plat b.nestingLimit b.endpoint b.now = .ok v) ∨
      (∃ message, o.observe b.plat b.nestingLimit b.endpoint b.now =
        .error (.fabricObservationError message)) ∧
      main b true (.observeMeshLlm managementUrl maxScope timeoutSeconds ttlSeconds) =
        unavailableOutput) ↔
    ∀ r, Request.ofUrl b.unicode o.statusUrl = .ok r →
      (b.endpoint r).Contained b.nestingLimit := by
  rw [← observe_raises_iff o b.plat hx b.now]
  constructor
  · rintro (⟨v,hv⟩ | ⟨⟨message,herror⟩,_⟩)
    · rw [hv]
      exact raises_ok v
    · rw [herror]
      exact raises_error (unobserved_fabric message)
  · intro h
    cases hobserve : o.observe b.plat b.nestingLimit b.endpoint b.now with
    | ok v => exact .inl ⟨v,rfl⟩
    | error e =>
      obtain ⟨message,rfl⟩ := h e hobserve
      refine .inr ⟨⟨message,rfl⟩,?_⟩
      rw [main_observe_error b hcreate hobserve]
      rfl

end CommandLine

namespace Demo

/-- The backend of the demo's files, with an endpoint, an attestation and replay stores. -/
def backend {σ : Type} (endpoint : Request → Exchange)
    (attestation : Except PyError (Validated (RouteAttestation FixedTime)))
    (replay : Path → StoreSession σ) : Backend FixedTime σ where
  plat := platform
  unicode := ascii
  nestingLimit := 1000
  version := "0.2.0a1"
  python := "3.12.0"
  packageVersion _ := .error (.external ⟨[],"",[],by simp⟩)
  now := minutes 0
  snapshot _ := .ok policy₀.topology
  loadPolicy _ := .ok policy₀
  loadPlan _ := .ok plan₀
  loadAttestation _ := attestation
  endpoint := endpoint
  replay := replay
  runDemo := .ok (.obj [])
  exportSchemas _ := .error (.osError "read-only")
  resolve path := .ok path

def observing (x : Exchange) : Backend FixedTime Unit :=
  backend (fun _ => x) (.error (.osError "missing")) fun _ => ⟨⟨fun _ _ _ s => (.ok true,s)⟩,(),
    fun s => (none,s)⟩

def observer : MeshLlmStatusObserver ascii where
  sourceEndpoint := managementUrl
  statusUrl := managementUrl ++ "/api/status".toList
  requestedMaxScope := .privateMesh
  timeoutSeconds := 2
  ttlSeconds := 5
  timeout_bounds := by norm_num [minTimeout]
  ttl_bounds := by norm_num
  origin := ⟨managementUrl,management_accepted⟩

theorem observer_created : create ascii managementUrl .privateMesh (some 2) 5 = .ok observer :=
  create_eq observer management_accepted

/-- What `urlopen` raises where the answer redirects to `http://[`. -/
def badLocation : PyError := .valueError "Invalid IPv6 URL"

def badStatusLine : PyError := .external ⟨[.httpException],"HTTP",[],by simp [PyClass.base]⟩

/-- Arrays in arrays, one level deeper than the parser goes, and never closed. -/
def deepBody (limit : ℕ) : List UInt8 :=
  encodeUtf8 (String.ofList (List.replicate (limit + 1) '['))

theorem scanOnce_deep (limit : ℕ) :
    scanOnce strict limit (List.replicate (limit + 1) '[') = .error .recursion := by
  induction limit with
  | zero => rfl
  | succ limit ih =>
    have hskip : skipWs (List.replicate (limit + 1) '[') = List.replicate (limit + 1) '[' := by
      simp [skipWs,List.replicate_succ]
    have helement : scanElement (scanOnce strict limit) (List.replicate (limit + 1) '[') =
        .error .recursion := by
      rw [scanElement,ih]
    rw [List.replicate_succ,scanOnce,if_neg (by simp),if_pos (by simp),List.tail_cons,scanArray,
      hskip,if_neg (by simp [List.replicate_succ]),List.length_replicate,scanSeparated,helement]

theorem loads_deep (limit : ℕ) :
    loads strict limit (List.replicate (limit + 1) '[') = .error .recursion := by
  have hskip : skipWs (List.replicate (limit + 1) '[') = List.replicate (limit + 1) '[' := by
    simp [skipWs,List.replicate_succ]
  rw [loads,if_neg (by simp [List.replicate_succ]),hskip,scanOnce_deep]

theorem deepBody_length (limit : ℕ) : (deepBody limit).length = limit + 1 :=
  encodeUtf8_replicate_length (by rfl) (limit + 1)

theorem parsed_deep {limit : ℕ} (h : limit < maxResponseBytes) :
    parsed limit (deepBody limit) = .error .recursionError := by
  have hdecode : decodeUtf8 (deepBody limit) = some (List.replicate (limit + 1) '[') := by
    rw [deepBody,decodeUtf8_encode,String.toList_ofList]
  have hload : loadBytes limit (deepBody limit) = .error .recursionError := by
    rw [loadBytes,hdecode]
    simp only [parseJson,loads_deep limit]
    rfl
  rw [parsed,if_neg (by rw [deepBody_length]; omega),hload]
  rfl

def deepExchange (limit : ℕ) : Exchange := .responded (some 200) (.ok (deepBody limit)) none

theorem fetch_deep {limit : ℕ} (h : limit < maxResponseBytes) :
    (catching [.httpError,.urlError,.osError,.timeoutError] unavailable
      (exchanged (deepExchange limit)) >>= parsed limit) = .error .recursionError := by
  have hread : exchanged (deepExchange limit) = .ok (deepBody limit) := by
    have htake : (deepBody limit).take (maxResponseBytes + 1) = deepBody limit :=
      List.take_of_length_le (by rw [deepBody_length]; omega)
    rw [deepExchange,exchanged,withExit,if_neg (by simp),Except.map,htake]
  rw [hread,← parsed_deep h]
  rfl

end Demo

theorem observation_contained_demo :
    (∃ v, Demo.observer.observe Demo.platform 1000 (fun _ => .refused (.osError "refused"))
      (Demo.minutes 0) = .ok v) ∨
    (∃ message, Demo.observer.observe Demo.platform 1000 (fun _ => .refused (.osError "refused"))
      (Demo.minutes 0) = .error (.fabricObservationError message)) ∧
    main (Demo.observing (.refused (.osError "refused"))) true
      (.observeMeshLlm Demo.managementUrl .privateMesh (some 2) 5) = unavailableOutput := by
  refine (observation_contained_iff (Demo.observing (.refused (.osError "refused")))
    Demo.observer_created ?_).mpr ?_
  · intro r e he
    rw [List.mem_singleton.mp he]
    rfl
  · intro r _
    refine ⟨fun e he => ?_,fun raw text h => nomatch h⟩
    cases he
    rfl

/-- A malformed status line, or an answer that is nested too deep, is an internal error, and a
redirect to no URL is an input error with a text of its own. -/
theorem observation_escapes_demo :
    TransportError Demo.badStatusLine ∧ TransportError Demo.badLocation ∧
    main (Demo.observing (.refused Demo.badLocation)) true
      (.observeMeshLlm Demo.managementUrl .privateMesh (some 2) 5) =
        invalidOutput "Invalid IPv6 URL" ∧
    main (Demo.observing (.refused Demo.badStatusLine)) true
      (.observeMeshLlm Demo.managementUrl .privateMesh (some 2) 5) = internalOutput ∧
    main (Demo.observing (Demo.deepExchange 1000)) true
      (.observeMeshLlm Demo.managementUrl .privateMesh (some 2) 5) = internalOutput := by
  refine ⟨rfl,rfl,?_,?_,?_⟩
  · rw [main_observe_error (Demo.observing (.refused Demo.badLocation)) Demo.observer_created
      (observe_error Demo.observer Demo.platform rfl (Demo.minutes 0))]
    rfl
  · rw [main_observe_error (Demo.observing (.refused Demo.badStatusLine)) Demo.observer_created
      (observe_error Demo.observer Demo.platform rfl (Demo.minutes 0))]
    rfl
  · rw [main_observe_error (Demo.observing (Demo.deepExchange 1000)) Demo.observer_created
      (observe_error Demo.observer Demo.platform (Demo.fetch_deep (by decide)) (Demo.minutes 0))]
    rfl

end LocusMesh
