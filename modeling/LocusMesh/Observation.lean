import Mathlib
import LocusMesh.Canonical

/-! The observation contracts: what a provider reports, kept apart from topology and
without any authority. -/
namespace LocusMesh

open CanonicalJson AwareClock

def isLowerAlpha (c : Char) : Bool := 'a' ≤ c && c ≤ 'z'
def isUpperAlpha (c : Char) : Bool := 'A' ≤ c && c ≤ 'Z'
def isDecimal (c : Char) : Bool := '0' ≤ c && c ≤ '9'

def labelPattern (first rest : Char → Bool) (maximum : ℕ) (s : String) : Bool :=
  match s.toList with
  | [] => false
  | c :: cs => first c && (decide (cs.length ≤ maximum) && cs.all rest)

def providerIdPattern : String → Bool :=
  labelPattern isLowerAlpha (fun c => isLowerAlpha c || isDecimal c || c == '_') 63

def stateLabelPattern : String → Bool :=
  labelPattern isLowerAlpha (fun c => isLowerAlpha c || isDecimal c || c == '_' || c == '-') 63

def reasonCodePattern : String → Bool :=
  labelPattern isUpperAlpha (fun c => isUpperAlpha c || isDecimal c || c == '_') 127

/-- A non-empty string of at most `maximum` characters. -/
abbrev BoundedString (maximum : ℕ) :=
  {s : String // 1 ≤ s.toList.length ∧ s.toList.length ≤ maximum}

abbrev ProviderId := {s : String // providerIdPattern s = true}
abbrev ModelId := BoundedString 512
abbrev StateLabel := {s : String // stateLabelPattern s = true}
abbrev ReasonCode := {s : String // reasonCodePattern s = true}

/-- The scopes a provider signal may stand for. -/
abbrev ObservedScope := {scope : ExecutionIntent // scope ≠ .deviceOnly}

namespace Models

def executionScopeRank : ExecutionIntent → ℕ
  | .deviceOnly => 0
  | .privateMesh => 1
  | .publicMesh => 2

end Models

/-- The reasons for which a candidate is no more than an observation. -/
def boundaryReasons : List ReasonCode :=
  [⟨"PROVIDER_STATUS_ONLY",by decide⟩,⟨"REQUEST_BINDING_MISSING",by decide⟩,
    ⟨"POLICY_PIN_MISSING",by decide⟩]

/-- One provider-reported candidate that carries no admission authority. -/
@[ext] structure FabricCandidateObservation where
  schemaVersion : String := "locusmesh.fabric-candidate-observation.v1"
  provider : ProviderId
  candidateId : PeerId
  localNode : Bool
  state : StateLabel
  servingModels : List ModelId := []
  providerClaimedOwnerVerified : Bool
  observedScope : ObservedScope
  evidenceLevel : {level : EvidenceLevel // level = .observed} := ⟨.observed,rfl⟩
  admissionAuthority : {b : Bool // b = false} := ⟨false,rfl⟩
  reasonCodes : List ReasonCode := boundaryReasons

/-- Bounded provider status projection, intentionally distinct from topology authority. -/
@[ext] structure FabricObservation (τ : Type) where
  schemaVersion : String := "locusmesh.fabric-observation.v1"
  provider : ProviderId
  providerVersion : BoundedString 64
  providerContract : BoundedString 128
  sourceEndpoint : BoundedString 512
  projectionDigest : Digest
  observedAt : τ
  expiresAt : τ
  requestedMaxScope : ExecutionIntent
  observedScope : ObservedScope
  withinRequestedScope : Bool
  admissionAuthority : {b : Bool // b = false} := ⟨false,rfl⟩
  candidates : List FabricCandidateObservation
  reasonCodes : List ReasonCode

namespace ReasonCode

def observationOnly : ReasonCode := ⟨"OBSERVATION_ONLY",by decide⟩
def unversionedProviderSchema : ReasonCode := ⟨"UNVERSIONED_PROVIDER_SCHEMA",by decide⟩
def privateLanStatusSignal : ReasonCode := ⟨"PRIVATE_LAN_STATUS_SIGNAL",by decide⟩
def publicOrAmbiguousStatusSignal : ReasonCode :=
  ⟨"PUBLIC_OR_AMBIGUOUS_STATUS_SIGNAL",by decide⟩
def scopeSignalWithinMaximum : ReasonCode := ⟨"SCOPE_SIGNAL_WITHIN_MAXIMUM",by decide⟩
def scopeSignalExceedsMaximum : ReasonCode := ⟨"SCOPE_SIGNAL_EXCEEDS_MAXIMUM",by decide⟩

/-- The code that states a comparison of scopes. -/
def scopeSignal (within : Bool) : ReasonCode :=
  if within then scopeSignalWithinMaximum else scopeSignalExceedsMaximum

/-- The code that states a provider's signal. -/
def statusSignal (scope : ObservedScope) : ReasonCode :=
  if scope.val = .privateMesh then privateLanStatusSignal else publicOrAmbiguousStatusSignal

end ReasonCode

def FabricCandidateObservation.check (c : FabricCandidateObservation) :
    Except ContractError Unit := do
  checkSchemaVersion "locusmesh.fabric-candidate-observation.v1" c.schemaVersion
  require (decide (c.servingModels.length ≤ 256)) "serving_models" "too_long"
  require (decide c.servingModels.Nodup) "" "serving_models must be unique"
  require (decide c.reasonCodes.Nodup) "" "reason_codes must be unique"
  require (boundaryReasons.all fun reason => decide (reason ∈ c.reasonCodes)) ""
    "observation-only candidates require boundary reason codes"

section Validators

variable {τ : Type}

def FabricObservation.candidateIds (o : FabricObservation τ) : List PeerId :=
  o.candidates.map FabricCandidateObservation.candidateId

variable [DatetimeArithmetic τ]

def maxLifetime : ℤ := 60 * 1000000

def FabricObservation.check (o : FabricObservation τ) : Except ContractError Unit := do
  checkSchemaVersion "locusmesh.fabric-observation.v1" o.schemaVersion
  require (decide (1 ≤ o.candidates.length)) "candidates" "too_short"
  require (decide (o.candidates.length ≤ 256)) "candidates" "too_long"
  checkEach FabricCandidateObservation.check o.candidates
  require (!ge o.observedAt o.expiresAt) "" "observed_at must be earlier than expires_at"
  require (!decide (maxLifetime < DatetimeArithmetic.sub o.expiresAt o.observedAt)) ""
    "observation lifetime cannot exceed 60 seconds"
  require (decide o.candidateIds.Nodup) "" "candidates must contain unique candidate_id values"
  require (!o.candidates.any fun c => decide (c.provider ≠ o.provider)) ""
    "candidate provider must match observation provider"
  require (!o.candidates.any fun c => decide (c.observedScope ≠ o.observedScope)) ""
    "candidate scope must match the fabric observation"
  require (decide o.reasonCodes.Nodup) "" "reason_codes must be unique"
  require (decide (ReasonCode.scopeSignal o.withinRequestedScope ∈ o.reasonCodes)) ""
    "reason_codes must explain the scope comparison"
  require (decide (ReasonCode.statusSignal o.observedScope ∈ o.reasonCodes)) ""
    "reason_codes must explain the provider scope signal"
  require (o.withinRequestedScope == decide (Models.executionScopeRank o.observedScope.val ≤
    Models.executionScopeRank o.requestedMaxScope)) ""
    "within_requested_scope must match the scope lattice"
  require (decide (ReasonCode.observationOnly ∈ o.reasonCodes)) ""
    "reason_codes must preserve the observation-only boundary"

instance : Contract FabricCandidateObservation := ⟨FabricCandidateObservation.check⟩
instance : Contract (FabricObservation τ) := ⟨FabricObservation.check⟩

end Validators

def FabricCandidateObservation.dump (c : FabricCandidateObservation) : Json := .obj
  [("schema_version",.str c.schemaVersion),
   ("provider",text c.provider),
   ("candidate_id",text c.candidateId),
   ("local_node",.bool c.localNode),
   ("state",text c.state),
   ("serving_models",.arr (c.servingModels.map text)),
   ("provider_claimed_owner_verified",.bool c.providerClaimedOwnerVerified),
   ("observed_scope",.str c.observedScope.val.value),
   ("evidence_level",.str c.evidenceLevel.val.value),
   ("admission_authority",.bool c.admissionAuthority.val),
   ("reason_codes",.arr (c.reasonCodes.map text))]

def FabricObservation.dump {τ : Type} [AwareDatetime τ] (plat : Platform)
    (o : FabricObservation τ) : Json := .obj
  [("schema_version",.str o.schemaVersion),
   ("provider",text o.provider),
   ("provider_version",text o.providerVersion),
   ("provider_contract",text o.providerContract),
   ("source_endpoint",text o.sourceEndpoint),
   ("projection_digest",text o.projectionDigest),
   ("observed_at",timestamp plat o.observedAt),
   ("expires_at",timestamp plat o.expiresAt),
   ("requested_max_scope",.str o.requestedMaxScope.value),
   ("observed_scope",.str o.observedScope.val.value),
   ("within_requested_scope",.bool o.withinRequestedScope),
   ("admission_authority",.bool o.admissionAuthority.val),
   ("candidates",.arr (o.candidates.map FabricCandidateObservation.dump)),
   ("reason_codes",.arr (o.reasonCodes.map text))]

theorem FabricCandidateObservation.check_ok {c : FabricCandidateObservation} :
    c.check = .ok () ↔ c.schemaVersion = "locusmesh.fabric-candidate-observation.v1" ∧
      c.servingModels.length ≤ 256 ∧ c.servingModels.Nodup ∧ c.reasonCodes.Nodup ∧
      ∀ reason ∈ boundaryReasons, reason ∈ c.reasonCodes := by
  simp only [FabricCandidateObservation.check,andThen_ok,checkSchemaVersion,require_ok,
    decide_eq_true_eq,List.all_eq_true]

section Facts

variable {τ : Type} [DatetimeArithmetic τ]

theorem FabricObservation.check_ok {o : FabricObservation τ} : o.check = .ok () ↔
    o.schemaVersion = "locusmesh.fabric-observation.v1" ∧ 1 ≤ o.candidates.length ∧
      o.candidates.length ≤ 256 ∧ (∀ c ∈ o.candidates, c.check = .ok ()) ∧
      lt o.observedAt o.expiresAt = true ∧
      DatetimeArithmetic.sub o.expiresAt o.observedAt ≤ maxLifetime ∧ o.candidateIds.Nodup ∧
      (∀ c ∈ o.candidates, c.provider = o.provider) ∧
      (∀ c ∈ o.candidates, c.observedScope = o.observedScope) ∧ o.reasonCodes.Nodup ∧
      ReasonCode.scopeSignal o.withinRequestedScope ∈ o.reasonCodes ∧
      ReasonCode.statusSignal o.observedScope ∈ o.reasonCodes ∧
      (o.withinRequestedScope = true ↔ Models.executionScopeRank o.observedScope.val ≤
        Models.executionScopeRank o.requestedMaxScope) ∧
      ReasonCode.observationOnly ∈ o.reasonCodes := by
  have hwithin : ∀ (b : Bool) (p : Prop) [Decidable p], (b == decide p) = true ↔ (b = true ↔ p) := by
    intro b p _
    rw [beq_iff_eq,Bool.eq_iff_iff,decide_eq_true_eq]
  simp only [FabricObservation.check,andThen_ok,checkSchemaVersion,require_ok,checkEach_ok,
    decide_eq_true_eq,ge_eq_not_lt,Bool.not_not,Bool.not_eq_true',List.any_eq_false,
    decide_eq_false_iff_not,not_not,not_lt,hwithin]

theorem Validated.within (o : Validated (FabricObservation τ)) :
    o.val.withinRequestedScope = true ↔ Models.executionScopeRank o.val.observedScope.val ≤
      Models.executionScopeRank o.val.requestedMaxScope := by
  obtain ⟨_,_,_,_,_,_,_,_,_,_,_,_,h,_⟩ := FabricObservation.check_ok.mp o.accepted
  exact h

/-- A scope code stands beside its opposite, or a signal code beside its opposite. -/
def ReasonCode.Opposed (codes : List ReasonCode) : Prop :=
  (scopeSignalWithinMaximum ∈ codes ∧ scopeSignalExceedsMaximum ∈ codes) ∨
    (privateLanStatusSignal ∈ codes ∧ publicOrAmbiguousStatusSignal ∈ codes)

/-- The codes of an observation say what its other fields say, and these agree. -/
structure FabricObservation.Coherent (o : FabricObservation τ) : Prop where
  within : ReasonCode.scopeSignalWithinMaximum ∈ o.reasonCodes ↔
    Models.executionScopeRank o.observedScope.val ≤ Models.executionScopeRank o.requestedMaxScope
  exceeds : ReasonCode.scopeSignalExceedsMaximum ∈ o.reasonCodes ↔
    Models.executionScopeRank o.requestedMaxScope < Models.executionScopeRank o.observedScope.val
  privateLan : ReasonCode.privateLanStatusSignal ∈ o.reasonCodes ↔
    o.observedScope.val = .privateMesh
  publicOrAmbiguous : ReasonCode.publicOrAmbiguousStatusSignal ∈ o.reasonCodes ↔
    o.observedScope.val = .publicMesh
  verdict : o.withinRequestedScope = true ↔
    Models.executionScopeRank o.observedScope.val ≤ Models.executionScopeRank o.requestedMaxScope
  providers : ∀ c ∈ o.candidates, c.provider = o.provider
  scopes : ∀ c ∈ o.candidates, c.observedScope = o.observedScope
  lifetime : lt o.observedAt o.expiresAt = true ∧
    DatetimeArithmetic.sub o.expiresAt o.observedAt ≤ maxLifetime

theorem publicMesh_iff (scope : ObservedScope) :
    scope.val = .publicMesh ↔ ¬scope.val = .privateMesh := by
  obtain ⟨scope,hscope⟩ := scope
  cases scope with
  | deviceOnly => exact absurd rfl hscope
  | privateMesh => simp
  | publicMesh => simp

/-- Of two codes one of which is there, each is there for its own reason exactly if they do
not both stand there. -/
theorem signals_iff {yes no : ReasonCode} {codes : List ReasonCode} {p : Prop} [Decidable p]
    (h : (if p then yes else no) ∈ codes) :
    ((yes ∈ codes ↔ p) ∧ (no ∈ codes ↔ ¬p)) ↔ ¬(yes ∈ codes ∧ no ∈ codes) := by
  by_cases hp : p
  · rw [if_pos hp] at h
    simp [h,hp]
  · rw [if_neg hp] at h
    simp [h,hp]

/-- An accepted observation states its comparison and its signal unambiguously exactly if it
does not list opposed codes: the contract asks for the right ones and refuses no others. -/
theorem accepted_coherent_iff (o : Validated (FabricObservation τ)) :
    o.val.Coherent ↔ ¬ReasonCode.Opposed o.val.reasonCodes := by
  obtain ⟨_,_,_,_,hlt,hlifetime,_,hproviders,hscopes,_,hscope,hstatus,hverdict,_⟩ :=
    FabricObservation.check_ok.mp o.accepted
  have hscope' := signals_iff hscope
  have hstatus' := signals_iff hstatus
  rw [hverdict,not_le] at hscope'
  rw [← publicMesh_iff] at hstatus'
  rw [ReasonCode.Opposed,not_or,← hscope',← hstatus']
  constructor
  · intro h
    exact ⟨⟨h.within,h.exceeds⟩,h.privateLan,h.publicOrAmbiguous⟩
  · rintro ⟨⟨hwithin,hexceeds⟩,hprivate,hpublic⟩
    exact ⟨hwithin,hexceeds,hprivate,hpublic,hverdict,hproviders,hscopes,hlt,hlifetime⟩

end Facts

namespace Demo

theorem publicMesh_observed : ExecutionIntent.publicMesh ≠ .deviceOnly := by decide

/-- A provider that claims, of a public mesh, both comparisons and both signals. -/
def boastful : FabricObservation FixedTime where
  provider := ⟨"any_fabric",by decide⟩
  providerVersion := ⟨"1",by decide⟩
  providerContract := ⟨"any",by decide⟩
  sourceEndpoint := ⟨"http://localhost",by decide⟩
  projectionDigest := ⟨"sha256:" ++ String.ofList (List.replicate 64 '0'),by decide⟩
  observedAt := ⟨0,0⟩
  expiresAt := ⟨5000000,0⟩
  requestedMaxScope := .privateMesh
  observedScope := ⟨.publicMesh,publicMesh_observed⟩
  withinRequestedScope := false
  candidates := [
    {provider := ⟨"any_fabric",by decide⟩
     candidateId := ⟨"node",by decide⟩
     localNode := true
     state := ⟨"serving",by decide⟩
     providerClaimedOwnerVerified := false
     observedScope := ⟨.publicMesh,publicMesh_observed⟩}]
  reasonCodes := [.observationOnly,.scopeSignalExceedsMaximum,.scopeSignalWithinMaximum,
    .publicOrAmbiguousStatusSignal,.privateLanStatusSignal]

end Demo

/-- An observation that the contract accepts with opposed codes. -/
theorem accepted_opposed_demo : Demo.boastful.check = .ok () ∧ ¬Demo.boastful.Coherent := by
  refine ⟨by decide,fun h => ?_⟩
  exact absurd (h.within.mp (by decide)) (by decide)

end LocusMesh
