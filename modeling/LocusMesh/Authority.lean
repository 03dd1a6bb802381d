import Mathlib
import LocusMesh.Decisions

/-! What of an operator's policy a plan decision depends on: the entries on the route and
nothing else, and those only upwards. -/
namespace LocusMesh

open CanonicalJson PyCollections AwareClock

section Relevance

variable {τ : Type}

def PeerManifest.unhinted (m : PeerManifest τ) : PeerManifest τ := {m with addressHint := none}

/-- Two policies that agree on everything a plan's route touches. -/
structure AgreeOnRoute (plan : RoutePlan τ) (p q : AdmissionPolicy τ) : Prop where
  allowed : plan.intent ∈ p.allowedIntents.val ↔ plan.intent ∈ q.allowedIntents.val
  floor : p.floor plan.intent = q.floor plan.intent
  maxHops : p.maxHops = q.maxHops
  capturedAt : p.topology.capturedAt = q.topology.capturedAt
  expiresAt : p.topology.expiresAt = q.topology.expiresAt
  localPeerId : p.topology.localPeerId = q.topology.localPeerId
  manifests : ∀ peer ∈ plan.hopPeerIds,
    (p.peersById peer).map PeerManifest.unhinted = (q.peersById peer).map PeerManifest.unhinted
  edges : ∀ s t, Adjacent plan.hopPeerIds s t →
    ((s,t) ∈ p.topology.edgePairs ↔ (s,t) ∈ q.topology.edgePairs)

theorem filterMap_map_congr {α β γ : Type} {f g : α → Option β} {forget : β → β} {read : β → γ}
    {l : List α} (hread : ∀ b, read (forget b) = read b)
    (h : ∀ a ∈ l, (f a).map forget = (g a).map forget) :
    (l.filterMap f).map read = (l.filterMap g).map read := by
  have hcomp : read = read ∘ forget := by
    funext b
    exact (hread b).symm
  rw [List.map_filterMap,List.map_filterMap]
  apply List.filterMap_congr
  intro a ha
  rw [hcomp,← Option.map_map,← Option.map_map,h a ha]

variable [AwareDatetime τ] {plat : Platform} {plan : RoutePlan τ} {p q : AdmissionPolicy τ}
  {now : τ}

theorem routeReasons_agree (h : AgreeOnRoute plan p q) :
    routeReasons plan p now = routeReasons plan q now := by
  have hedges : (plan.hopPeerIds.zip plan.hopPeerIds.tail).flatMap (fun hop =>
      flag (decide (hop ∉ p.topology.edgePairs))
        ("EDGE_NOT_ALLOWED:" ++ (hop.1.val ++ ("->" ++ hop.2.val)))) =
      (plan.hopPeerIds.zip plan.hopPeerIds.tail).flatMap (fun hop =>
        flag (decide (hop ∉ q.topology.edgePairs))
          ("EDGE_NOT_ALLOWED:" ++ (hop.1.val ++ ("->" ++ hop.2.val)))) := by
    apply List.flatMap_congr
    rintro ⟨s,t⟩ hst
    simp only [h.edges s t (adjacent_iff.mp hst)]
  simp only [routeReasons,h.allowed,h.floor,h.maxHops,h.capturedAt,h.expiresAt,h.localPeerId,
    hedges]

/-- The codes of a hop read its manifest's other fields and, of the policy, the floor. -/
theorem peerReasons_agree (h : p.floor plan.intent = q.floor plan.intent) {peer : PeerId}
    {m m' : PeerManifest τ} (hm : m.unhinted = m'.unhinted) :
    peerReasons plat plan p now peer m = peerReasons plat plan q now peer m' := by
  have hread : ∀ (policy : AdmissionPolicy τ) (m : PeerManifest τ),
      peerReasons plat plan policy now peer m = peerReasons plat plan policy now peer m.unhinted :=
    fun _ _ => rfl
  rw [hread p m,hread q m',hm]
  simp only [peerReasons,h]

theorem hopReasons_agree (h : AgreeOnRoute plan p q) {peer : PeerId}
    (hpeer : peer ∈ plan.hopPeerIds) :
    hopReasons plat plan p now peer = hopReasons plat plan q now peer := by
  have hm := h.manifests peer hpeer
  unfold hopReasons
  cases hp : p.peersById peer with
  | none =>
    cases hq : q.peersById peer with
    | none => rfl
    | some m' => simp [hp,hq] at hm
  | some m =>
    cases hq : q.peersById peer with
    | none => simp [hp,hq] at hm
    | some m' =>
      simp only [hp,hq,Option.map_some,Option.some.injEq] at hm
      exact peerReasons_agree h.floor hm

theorem scanPlan_agree (h : AgreeOnRoute plan p q) :
    scanPlan plat plan p now = scanPlan plat plan q now := by
  have hhops : plan.hopPeerIds.flatMap (hopReasons plat plan p now) =
      plan.hopPeerIds.flatMap (hopReasons plat plan q now) :=
    List.flatMap_congr fun _ hpeer => hopReasons_agree h hpeer
  have hscope : ∀ m : PeerManifest τ, m.unhinted.executionScope = m.executionScope :=
    fun _ => rfl
  have hlevel : ∀ m : PeerManifest τ, Policy.effectiveEvidence m.unhinted.evidenceLevel =
      Policy.effectiveEvidence m.evidenceLevel := fun _ => rfl
  have hscopes : (plan.hopPeerIds.filterMap p.peersById).map PeerManifest.executionScope =
      (plan.hopPeerIds.filterMap q.peersById).map PeerManifest.executionScope :=
    filterMap_map_congr hscope h.manifests
  have hlevels : (plan.hopPeerIds.filterMap p.peersById).map
        (fun peer => Policy.effectiveEvidence peer.evidenceLevel) =
      (plan.hopPeerIds.filterMap q.peersById).map
        (fun peer => Policy.effectiveEvidence peer.evidenceLevel) :=
    filterMap_map_congr hlevel h.manifests
  rw [scanPlan_eq,scanPlan_eq,routeReasons_agree h,hhops,hscopes,hlevels]

end Relevance

/-- Plan decisions under policies that agree on the route differ in the two digests of the
policy at most. -/
theorem admission_ignores_off_route {τ : Type} [AwareDatetime τ] (plat : Platform)
    (plan : Validated (RoutePlan τ)) (p q : Validated (AdmissionPolicy τ)) (now : τ)
    (h : AgreeOnRoute plan.val p.val q.val) :
    ∃ d d', admitPlan plat plan.val p.val now = .ok d ∧
      admitPlan plat plan.val q.val now = .ok d' ∧
      d' = {d with policyDigest := d'.policyDigest, topologyDigest := d'.topologyDigest} := by
  refine ⟨_,_,admitPlan_eq plat plan p now,admitPlan_eq plat plan q now,?_⟩
  simp only [planDecision,scanPlan_agree h,h.floor]

namespace Demo

def localPolicy : AdmissionPolicy FixedTime :=
  {policy platform keys windows with
    allowedIntents := ⟨[.deviceOnly],by decide⟩
    minimumEvidence := ⟨[(.deviceOnly,.observed)],by decide⟩
    topology := {topology platform keys windows with
      snapshotId := ⟨"local-topology-v1",by decide⟩
      peers := [{localManifest platform keys windows with
        addressHint := some ⟨"http://127.0.0.1:9337",by decide⟩}]
      edges := []}}

theorem localPolicy_check : localPolicy.check = .ok () := by
  have hmanifest : ({localManifest platform keys windows with
      addressHint := some ⟨"http://127.0.0.1:9337",by decide⟩} : PeerManifest FixedTime).check =
      .ok () := manifest_check platform windows deviceLocal .deviceOnly keys.deviceLocal _
  refine AdmissionPolicy.check_ok.mpr ⟨by decide,by decide,?_,rfl,
    by simp [localPolicy,AdmissionPolicy.floor]⟩
  refine TopologySnapshot.check_ok.mpr ⟨rfl,le_refl 1,by decide,by decide,?_,?_,
    windows.topology_lt,List.nodup_singleton _,List.mem_singleton_self _,List.nodup_nil,?_⟩
  · simpa [localPolicy] using hmanifest
  · simp [localPolicy]
  · simp [localPolicy,TopologySnapshot.edgePairs]

theorem agreeOnRoute : AgreeOnRoute plan₀.val policy₀.val localPolicy where
  allowed := by simp [plan₀,validDevicePlan,devicePlan,plan,policy₀,validPolicy,policy,localPolicy]
  floor := rfl
  maxHops := rfl
  capturedAt := rfl
  expiresAt := rfl
  localPeerId := rfl
  manifests peer hpeer := by
    obtain rfl : peer = deviceLocal := List.mem_singleton.mp hpeer
    have hget : policy₀.val.peersById deviceLocal = some (localManifest platform keys windows) :=
      peersById_deviceLocal
    rw [hget]
    rfl
  edges s t hst := by
    have hpair : (s,t) ∈ plan₀.val.hopPeerIds.zip plan₀.val.hopPeerIds.tail := adjacent_iff.mpr hst
    exact absurd hpair List.not_mem_nil

end Demo

theorem admission_ignores_off_route_demo : ∃ d d',
    admitPlan Demo.platform Demo.plan₀.val Demo.policy₀.val (Demo.minutes 0) = .ok d ∧
    admitPlan Demo.platform Demo.plan₀.val Demo.localPolicy (Demo.minutes 0) = .ok d' ∧
    d' = {d with policyDigest := d'.policyDigest, topologyDigest := d'.topologyDigest} :=
  admission_ignores_off_route Demo.platform Demo.plan₀ Demo.policy₀
    ⟨Demo.localPolicy,Demo.localPolicy_check⟩ (Demo.minutes 0) Demo.agreeOnRoute

section Granting

variable {τ : Type} [AwareDatetime τ]

/-- `q` grants intent `j` at least what `p` grants intent `i`. -/
structure Grants (i j : ExecutionIntent) (p q : AdmissionPolicy τ) : Prop where
  allowed : j ∈ q.allowedIntents.val
  floor : ∀ held asked, p.floor i = some held → q.floor j = some asked →
    Policy.evidenceRank asked ≤ Policy.evidenceRank held
  maxHops : p.maxHops ≤ q.maxHops
  localPeerId : q.topology.localPeerId = p.topology.localPeerId
  window : ∀ t, inWindow p.topology.capturedAt p.topology.expiresAt t = true →
    inWindow q.topology.capturedAt q.topology.expiresAt t = true
  peers : ∀ m ∈ p.topology.peers, m ∈ q.topology.peers
  edges : ∀ e ∈ p.topology.edges, e ∈ q.topology.edges

variable {plat : Platform} {plan : RoutePlan τ} {p q : Validated (AdmissionPolicy τ)} {now : τ}
  {j : ExecutionIntent}

theorem Grants.asked_le (h : Grants plan.intent j p.val q.val)
    (hallowed : plan.intent ∈ p.val.allowedIntents.val) {asked : EvidenceLevel}
    (hasked : q.val.floor j = some asked) :
    ∃ held, p.val.floor plan.intent = some held ∧
      Policy.evidenceRank asked ≤ Policy.evidenceRank held := by
  obtain ⟨held,hheld⟩ := Option.isSome_iff_exists.mp (p.floor_isSome hallowed)
  exact ⟨held,hheld,h.floor held asked hheld hasked⟩

theorem RouteFits.grant (h : Grants plan.intent j p.val q.val)
    (hrank : Policy.scopeRank plan.intent ≤ Policy.scopeRank j)
    (hfits : RouteFits plan p.val now) : RouteFits {plan with intent := j} q.val now where
  allowed := h.allowed
  window := hfits.window
  topologyWindow := h.window now hfits.topologyWindow
  maxHops := hfits.maxHops.trans h.maxHops
  distinct := hfits.distinct
  locally hlocal := by
    -- nothing below device-only: the old intent was device-only as well
    have hold : plan.intent = .deviceOnly := by
      rw [show j = .deviceOnly from hlocal] at hrank
      cases hintent : plan.intent <;> simp_all [Policy.scopeRank]
    rw [h.localPeerId]
    exact hfits.locally hold
  edges hop hhop := by
    obtain ⟨e,he,hpair⟩ := List.mem_map.mp (hfits.edges hop hhop)
    exact List.mem_map.mpr ⟨e,h.edges e he,hpair⟩
  software hhardware := by
    obtain ⟨held,hheld,hle⟩ := h.asked_le hfits.allowed hhardware
    -- a floor not below the top of the order is the top
    cases held with
    | hardwareAttested => exact hfits.software hheld
    | _ => exact absurd hle (by decide)

theorem ManifestFits.grant (h : Grants plan.intent j p.val q.val)
    (hrank : Policy.scopeRank plan.intent ≤ Policy.scopeRank j)
    (hallowed : plan.intent ∈ p.val.allowedIntents.val) {m : PeerManifest τ}
    (hfits : ManifestFits plat plan p.val now m) :
    ManifestFits plat {plan with intent := j} q.val now m where
  window := hfits.window
  scope := hfits.scope.trans hrank
  modelDigest := hfits.modelDigest
  runtimeDigest := hfits.runtimeDigest
  key := hfits.key
  evidence asked hasked := by
    obtain ⟨held,hheld,hle⟩ := h.asked_le hallowed hasked
    exact hle.trans (hfits.evidence held hheld)

theorem PlanFits.grant (h : Grants plan.intent j p.val q.val)
    (hrank : Policy.scopeRank plan.intent ≤ Policy.scopeRank j)
    (hfits : PlanFits plat plan p.val now) : PlanFits plat {plan with intent := j} q.val now where
  route := hfits.route.grant h hrank
  hops peer hpeer := by
    obtain ⟨m,hm,hmfits⟩ := hfits.hops peer hpeer
    obtain ⟨hmem,hid⟩ := mem_peersById.mp hm
    exact ⟨m,mem_peersById.mpr ⟨h.peers m hmem,hid⟩,hmfits.grant h hrank hfits.route.allowed⟩

end Granting

/-- A plan admitted for one intent is admitted for every wider one under every policy that
grants it as much. -/
theorem admission_monotone {τ : Type} [AwareDatetime τ] (plat : Platform)
    (plan : Validated (RoutePlan τ)) (p q : Validated (AdmissionPolicy τ)) (j : ExecutionIntent)
    (now : τ) (hadmits : Admits plat plan.val p.val now)
    (hrank : Policy.scopeRank plan.val.intent ≤ Policy.scopeRank j)
    (hgrants : Grants plan.val.intent j p.val q.val) :
    Admits plat {plan.val with intent := j} q.val now := by
  obtain ⟨base,hbase,hadmitted⟩ := hadmits
  rw [admitPlan_eq,Except.ok.injEq] at hbase
  rw [← hbase] at hadmitted
  let wider : Validated (RoutePlan τ) := ⟨{plan.val with intent := j},plan.accepted⟩
  refine ⟨_,admitPlan_eq plat wider q now,?_⟩
  exact planDecision_fits.mpr ((planDecision_fits.mp hadmitted).grant hgrants hrank)

namespace Demo

def generousPolicy : AdmissionPolicy FixedTime :=
  {policy platform keys windows with
    maxHops := 4
    minimumEvidence := ⟨[(.deviceOnly,.observed),(.privateMesh,.observed)],by decide⟩}

theorem generousPolicy_check : generousPolicy.check = .ok () :=
  AdmissionPolicy.check_ok.mpr ⟨by decide,by decide,topology_check platform keys windows,rfl,
    by simp [generousPolicy,policy,AdmissionPolicy.floor]⟩

theorem grants : Grants plan₀.val.intent .privateMesh policy₀.val generousPolicy where
  allowed := by simp [generousPolicy,policy]
  floor held asked _ hasked := by
    obtain rfl : EvidenceLevel.observed = asked := Option.some.inj hasked
    exact Nat.zero_le _
  maxHops := by decide
  localPeerId := rfl
  window _ h := h
  peers _ h := h
  edges _ h := h

end Demo

theorem admission_monotone_demo : Admits Demo.platform {Demo.plan₀.val with intent := .privateMesh}
    Demo.generousPolicy (Demo.minutes 0) :=
  admission_monotone Demo.platform Demo.plan₀ Demo.policy₀
    ⟨Demo.generousPolicy,Demo.generousPolicy_check⟩ .privateMesh (Demo.minutes 0)
    ⟨_,admitPlan_eq Demo.platform Demo.plan₀ Demo.policy₀ (Demo.minutes 0),
      Demo.devicePlan_admitted_iff.mpr Demo.contain_noon⟩ (by decide) Demo.grants

end LocusMesh
