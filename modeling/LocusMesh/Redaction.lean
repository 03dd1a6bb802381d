import Mathlib
import LocusMesh.Selection
import LocusMesh.Files

/-! What an endpoint can make `observe mesh-llm` print. The program shows no more of an exchange
than its view: the selected fields of a status, that it was unavailable, or the failure that an
exception is reported as. -/
namespace LocusMesh

open CanonicalJson PyCollections AwareClock PyText PyJson PyOpener MeshLlm MeshLlmStatusObserver Fallible

/-- All that a user may learn of an exchange. -/
inductive View
  | status (selection : Selection)
  | unavailable
  | failed (failure : Failure)

/-- The view of a body that is decoded. -/
def bodyView (limit : ℕ) (body : List UInt8) : View :=
  match decodeUtf8 body with
  | none => .unavailable
  | some text =>
    match loads strict limit text with
    | .ok (.dict payload) => .status (select id payload)
    | .ok _ => .unavailable
    | .error .recursion => .failed (classify .recursionError)
    | .error _ => .unavailable

/-- Errors of the operating system are not told apart; of others there is the report. -/
def errorView (e : PyError) : View :=
  if e.isInstance .osError then .unavailable else .failed (classify e)

def Exchange.view (limit : ℕ) (x : Exchange) : View :=
  match x.raised with
  | some e => errorView e
  | none =>
    match x.received with
    | none => .unavailable
    | some body => bodyView limit body

def View.Of (view : View) (outcome : Except PyError Mapping) : Prop :=
  match view with
  | .status selection => ∃ payload, outcome = .ok payload ∧ select id payload = selection
  | .unavailable => ∃ message, outcome = .error (.fabricObservationError message)
  | .failed failure => ∃ e, outcome = .error e ∧ classify e = failure

section Exchanges

variable {limit : ℕ}

theorem bodyView_of {body : List UInt8} (hlength : body.length ≤ maxResponseBytes) :
    (bodyView limit body).Of (parsed limit body) := by
  rw [parsed,if_neg (not_lt.mpr hlength),bodyView,loadBytes]
  cases decodeUtf8 body with
  | none => exact ⟨_,rfl⟩
  | some text =>
    simp only [parseJson]
    cases loads strict limit text with
    | ok v =>
      cases v with
      | dict payload => exact ⟨payload,rfl,rfl⟩
      | leaf _ => exact ⟨_,rfl⟩
      | list _ => exact ⟨_,rfl⟩
    | error e =>
      cases e with
      | recursion => exact ⟨.recursionError,rfl,rfl⟩
      | hook key => exact ⟨_,rfl⟩
      | malformed reason => cases reason <;> exact ⟨_,rfl⟩

theorem transport_caught (e : PyError) :
    ([PyClass.httpError,.urlError,.osError,.timeoutError].any e.isInstance) =
      e.isInstance .osError := by
  have hurl : e.isInstance .urlError = true → e.isInstance .osError = true :=
    PyError.isInstance_base rfl
  have hhttp : e.isInstance .httpError = true → e.isInstance .osError = true := fun h =>
    hurl (PyError.isInstance_base rfl h)
  have htimeout : e.isInstance .timeoutError = true → e.isInstance .osError = true :=
    PyError.isInstance_base rfl
  rw [Bool.eq_iff_iff]
  simp only [List.any_cons,List.any_nil,Bool.or_false,Bool.or_eq_true]
  tauto

theorem errorView_of (e : PyError) : (errorView e).Of
    (catching [.httpError,.urlError,.osError,.timeoutError] unavailable (.error e) >>=
      parsed limit) := by
  rw [catching,transport_caught,errorView]
  cases e.isInstance .osError with
  | true => exact ⟨_,rfl⟩
  | false => exact ⟨e,rfl,rfl⟩

theorem view_of (x : Exchange) : (x.view limit).Of
    (catching [.httpError,.urlError,.osError,.timeoutError] unavailable (exchanged x) >>=
      parsed limit) := by
  rcases exchanged_cases x with ⟨e,hraised,herror,_⟩ | ⟨hraised,herror,hnone⟩ |
    ⟨raw,hraised,hraw,hsome⟩
  · rw [Exchange.view,hraised,herror]
    exact errorView_of e
  · rw [Exchange.view,hraised,hnone,herror]
    exact ⟨_,rfl⟩
  · rw [Exchange.view,hraised,hraw]
    show View.Of _ (parsed limit (raw.take (maxResponseBytes + 1)))
    by_cases hlength : raw.length ≤ maxResponseBytes
    · rw [if_pos hlength] at hsome
      rw [hsome,List.take_of_length_le (by omega)]
      exact bodyView_of hlength
    · rw [if_neg hlength] at hsome
      have hlong : maxResponseBytes < (raw.take (maxResponseBytes + 1)).length := by
        rw [List.length_take]
        omega
      rw [hsome,parsed,if_pos hlong]
      exact ⟨_,rfl⟩

end Exchanges

/-- Two outcomes that the command line reports alike. -/
def ReportedAlike {α : Type} (x y : Except PyError α) : Prop :=
  x.mapError classify = y.mapError classify

theorem reportedAlike_error {α : Type} {e e' : PyError} (h : classify e = classify e') :
    ReportedAlike (.error e : Except PyError α) (.error e') :=
  congrArg Except.error h

theorem ReportedAlike.map {α β : Type} {x y : Except PyError α} (h : ReportedAlike x y)
    (f : α → β) : ReportedAlike (x.bind fun a => .ok (f a)) (y.bind fun a => .ok (f a)) := by
  cases x with
  | ok a =>
    cases y with
    | ok a' => rw [Except.ok.inj h]; rfl
    | error e => cases h
  | error e =>
    cases y with
    | ok a => cases h
    | error e' => exact reportedAlike_error (Except.error.inj h)

theorem ReportedAlike.report {x y : Except PyError Result} (h : ReportedAlike x y) (json : Bool)
    (command : String) : report json command x = report json command y := by
  cases x with
  | ok a =>
    cases y with
    | ok a' => rw [Except.ok.inj h]
    | error e => cases h
  | error e =>
    cases y with
    | ok a => cases h
    | error e' =>
      have hfailure : classify e = classify e' := Except.error.inj h
      rw [LocusMesh.report,LocusMesh.report,hfailure]

section Observing

variable {τ : Type} [DatetimeArithmetic τ] {u : Unicode} (o : MeshLlmStatusObserver u)
  (plat : Platform) (now : τ)

theorem project_reportedAlike {payload payload' : Mapping}
    (h : select id payload = select id payload') :
    ReportedAlike (catching projectionErrors mismatch (o.project plat payload now))
      (catching projectionErrors mismatch (o.project plat payload' now)) := by
  cases hv : o.project plat payload now with
  | ok v => rw [o.project_of_selected plat hv h]; rfl
  | error e =>
    cases hv' : o.project plat payload' now with
    | ok v' =>
      rw [o.project_of_selected plat hv' h.symm] at hv
      cases hv
    | error e' =>
      have hrejected : projectionErrors.any e.isInstance = true := o.project_raises plat _ _ e hv
      have hrejected' : projectionErrors.any e'.isInstance = true := o.project_raises plat _ _ e' hv'
      rw [catching,catching,if_pos hrejected,if_pos hrejected']
      rfl

/-- Exchanges with one view are observed alike. -/
theorem observe_reportedAlike {limit : ℕ} {endpoint endpoint' : Request → Exchange}
    (h : ∀ r, Request.ofUrl u o.statusUrl = .ok r →
      (endpoint r).view limit = (endpoint' r).view limit) :
    ReportedAlike (o.observe plat limit endpoint now) (o.observe plat limit endpoint' now) := by
  obtain ⟨r,hr⟩ := statusUrl_request o
  have hx : ((endpoint r).view limit).Of _ := view_of (endpoint r)
  have hx' : ((endpoint' r).view limit).Of _ := view_of (endpoint' r)
  rw [← h r hr] at hx'
  rw [observe,observe,fetch,fetch,hr]
  simp only
  cases hview : (endpoint r).view limit with
  | status selection =>
    rw [hview] at hx hx'
    obtain ⟨payload,hpayload,hselected⟩ := hx
    obtain ⟨payload',hpayload',hselected'⟩ := hx'
    rw [hpayload,hpayload']
    exact project_reportedAlike o plat now (hselected.trans hselected'.symm)
  | unavailable =>
    rw [hview] at hx hx'
    obtain ⟨message,hmessage⟩ := hx
    obtain ⟨message',hmessage'⟩ := hx'
    rw [hmessage,hmessage']
    exact reportedAlike_error rfl
  | failed failure =>
    rw [hview] at hx hx'
    obtain ⟨e,he,hfailure⟩ := hx
    obtain ⟨e',he',hfailure'⟩ := hx'
    rw [he,he']
    exact reportedAlike_error (hfailure.trans hfailure'.symm)

end Observing

/-- `b` with another endpoint. -/
def Backend.facing {τ σ : Type} [DatetimeArithmetic τ] (b : Backend τ σ)
    (endpoint : Request → Exchange) : Backend τ σ := {b with endpoint := endpoint}

/-- Noninterference: what `observe mesh-llm` prints, and its exit code, depend on the endpoint only
through the view of the one exchange with it, whatever the endpoint sends or raises. -/
theorem output_depends_on_view {τ σ : Type} [DatetimeArithmetic τ] (b : Backend τ σ)
    (endpoint endpoint' : Request → Exchange) (managementUrl : Text) (maxScope : ExecutionIntent)
    (timeoutSeconds : Option ℚ) (ttlSeconds : ℤ)
    (h : ∀ o, create b.unicode managementUrl maxScope timeoutSeconds ttlSeconds = .ok o →
      ∀ r, Request.ofUrl b.unicode o.statusUrl = .ok r →
        (endpoint r).view b.nestingLimit = (endpoint' r).view b.nestingLimit) (json : Bool) :
    main (b.facing endpoint) json
        (.observeMeshLlm managementUrl maxScope timeoutSeconds ttlSeconds) =
      main (b.facing endpoint') json
        (.observeMeshLlm managementUrl maxScope timeoutSeconds ttlSeconds) := by
  have hobservation : ReportedAlike
      (observation (b.facing endpoint) managementUrl maxScope timeoutSeconds ttlSeconds)
      (observation (b.facing endpoint') managementUrl maxScope timeoutSeconds ttlSeconds) := by
    rw [observation,observation]
    show ReportedAlike
      (create b.unicode managementUrl maxScope timeoutSeconds ttlSeconds >>= fun o =>
        o.observe b.plat b.nestingLimit endpoint b.now)
      (create b.unicode managementUrl maxScope timeoutSeconds ttlSeconds >>= fun o =>
        o.observe b.plat b.nestingLimit endpoint' b.now)
    cases hcreate : create b.unicode managementUrl maxScope timeoutSeconds ttlSeconds with
    | error e => exact reportedAlike_error rfl
    | ok o => exact observe_reportedAlike o b.plat b.now (h o hcreate)
  exact (hobservation.map (observationResult b)).report json _

theorem field_parsed (es : List (String × Json)) (key : String) :
    field (parsedValue (.obj es)) key = (es.lookup key).map parsedValue := by
  rw [parsedValue,parsedEntries_eq,field]
  induction es with
  | nil => rfl
  | cons e es ih =>
    rw [List.map_cons,List.lookup_cons,List.lookup_cons,ih]
    have hkey : (str key == str e.1) = (key == e.1) := by
      rw [Bool.eq_iff_iff,beq_iff_eq,beq_iff_eq,str_injective.eq_iff]
    rw [hkey]
    cases key == e.1 <;> rfl

namespace Demo

def statusJson (token : String) : Json := .obj
  [("discovery_scope",.str "lan"),("discovery_source",.str "mdns"),
   ("mesh_discovery_mode",.str "mdns"),("node_id",.str "node"),("node_state",.str "serving"),
   ("nostr_discovery",.bool false),("owner",.obj [("verified",.bool true)]),("peers",.arr []),
   ("publication_state",.str "private"),("serving_models",.arr []),("token",.str token),
   ("version",.str "1")]

theorem statusJson_sorted (token : String) : sortKeys (statusJson token) = statusJson token := by
  have howner : sortedBy Prod.fst [("verified",Json.bool true)] = [("verified",Json.bool true)] :=
    rfl
  simp only [statusJson,sortKeys,sortEntries,sortItems,howner,Json.obj.injEq]
  apply List.Pairwise.insertionSort_eq
  rw [← List.pairwise_map (R:=(· ≤ ·))]
  simp only [List.map_cons,List.map_nil]
  decide

def answering (v : Json) (_ : Request) : Exchange :=
  .responded (some 200) (.ok (canonicalJsonBytes v)) none

theorem answering_view {v : Json} (hdistinct : Distinct v) (hfit : IntsFit v) {limit : ℕ}
    (hnesting : nesting v ≤ limit) (hsize : (canonicalJsonBytes v).length ≤ maxResponseBytes)
    {payload : Mapping} (hpayload : parsedValue (sortKeys v) = .dict payload) (r : Request) :
    (answering v r).view limit = .status (select id payload) := by
  have hreceived : (answering v r).received = some (canonicalJsonBytes v) :=
    if_pos ⟨rfl,hsize⟩
  rw [Exchange.view,show (answering v r).raised = none from rfl,hreceived]
  show bodyView limit (canonicalJsonBytes v) = _
  rw [bodyView,canonicalJsonBytes,decodeUtf8_encode]
  simp only [loads_canonical hdistinct hfit hnesting,hpayload]

theorem statusJson_select (token token' : String) {payload payload' : Mapping}
    (h : parsedValue (statusJson token) = .dict payload)
    (h' : parsedValue (statusJson token') = .dict payload') :
    select id payload = select id payload' := by
  simp only [select,selectNode,← h,← h',statusJson,field_parsed]
  simp [List.lookup,field_parsed]

theorem statusJson_view (token : String) (hshort : token.toList.length ≤ 100) (r : Request) :
    ∃ payload, parsedValue (statusJson token) = .dict payload ∧
      (answering (statusJson token) r).view 1000 = .status (select id payload) := by
  have hdistinct : Distinct (statusJson token) := by
    simp [statusJson,Distinct,distinctEntries_iff,distinctItems_iff]
  have hfit : IntsFit (statusJson token) := by
    simp [statusJson,intsFitEntries_iff,intsFitItems_iff,IntsFit]
  have hnesting : nesting (statusJson token) ≤ 1000 := by
    simp [statusJson,nesting,nestingEntries,nestingItems]
  have hsize : (canonicalJsonBytes (statusJson token)).length ≤ maxResponseBytes := by
    refine (canonicalJsonBytes_bound _).trans ?_
    simp [statusJson,sizeBound,entriesBound,itemsBound,stringBound,maxResponseBytes]
    omega
  refine ⟨_,rfl,answering_view hdistinct hfit hnesting hsize ?_ r⟩
  rw [statusJson_sorted]
  rfl

def statusOutput (token : String) : Output :=
  main ((observing (.refused (.osError ""))).facing (answering (statusJson token))) true
    (.observeMeshLlm managementUrl .privateMesh (some 2) 5)

end Demo

/-- A token beside the selected fields does not change what is printed. -/
theorem output_depends_on_view_demo : Demo.statusOutput "first" = Demo.statusOutput "second" := by
  refine output_depends_on_view _ _ _ _ _ _ _ ?_ true
  intro o _ r _
  obtain ⟨payload,hpayload,hview⟩ := Demo.statusJson_view "first" (by decide) r
  obtain ⟨payload',hpayload',hview'⟩ := Demo.statusJson_view "second" (by decide) r
  exact (hview.trans (congrArg View.status (Demo.statusJson_select _ _ hpayload hpayload'))).trans
    hview'.symm

end LocusMesh
