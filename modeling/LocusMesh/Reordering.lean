import Mathlib
import LocusMesh.Attestation
import LocusMesh.Digests
import LocusMesh.Demo

/-! The order in which a policy lists its members reaches no digest and no verdict. -/
namespace LocusMesh

open CanonicalJson PyCollections AwareClock

section SamePolicy

variable {τ : Type} [AwareDatetime τ] {p q : Validated (AdmissionPolicy τ)}
  (h : SamePolicy p.val q.val) (plat : Platform)

include h

theorem SamePolicy.peersById : p.val.peersById = q.val.peersById := by
  funext peer
  ext m
  rw [mem_peersById,mem_peersById,h.topology.peers]

omit [AwareDatetime τ] h in
theorem SameTopology.edgePairs {t u : TopologySnapshot τ} (h : SameTopology t u)
    (e : PeerId × PeerId) : e ∈ t.edgePairs ↔ e ∈ u.edgePairs := by
  simp only [TopologySnapshot.edgePairs,List.mem_map,h.edges]

theorem SamePolicy.topologyBody :
    p.val.topology.digestBody plat = q.val.topology.digestBody plat := by
  have hpeers := (sortedBy_eq_iff (peerKeys_nodup p.topology.peerIds_nodup)
    (peerKeys_nodup q.topology.peerIds_nodup)).mpr h.topology.peers
  have hedges := (sortedBy_eq_iff (edgeKeys_nodup p.topology.edgePairs_nodup)
    (edgeKeys_nodup q.topology.edgePairs_nodup)).mpr h.topology.edges
  rw [TopologySnapshot.digestBody,TopologySnapshot.digestBody,h.topology.schemaVersion,
    h.topology.snapshotId,h.topology.localPeerId,h.topology.capturedAt,h.topology.expiresAt]
  show Json.obj [_,_,_,_,_,
    (_,.arr ((sortedBy _ p.topology.val.peers).map _)),
    (_,.arr ((sortedBy _ p.topology.val.edges).map _))] = _
  rw [hpeers,hedges]
  rfl

theorem SamePolicy.topologyDigest :
    topologyDigest plat p.val.topology = topologyDigest plat q.val.topology := by
  rw [LocusMesh.topologyDigest,LocusMesh.topologyDigest,h.topologyBody]

theorem SamePolicy.policyBody : p.val.digestBody plat = q.val.digestBody plat := by
  have hintents := sortKeys_arr (fun _ _ => sortKeys_str) |>.mp
    ((intents_eq_iff p.val.allowedIntents.property q.val.allowedIntents.property).mpr
      h.allowedIntents)
  have hperm := (perm_iff_lookup p.val.minimumEvidence.property
    q.val.minimumEvidence.property).mpr h.minimumEvidence
  have hkeys : (p.val.minimumEvidence.val.map fun entry => entry.1.value).Nodup := by
    have hvalues := p.val.minimumEvidence.property.map ExecutionIntent.value_injective
    rwa [List.map_map] at hvalues
  rw [AdmissionPolicy.digestBody,AdmissionPolicy.digestBody,h.schemaVersion,hintents,h.maxHops,
    sortedBy_eq_of_perm hperm hkeys,h.topologyDigest]

theorem SamePolicy.policyDigest : policyDigest plat p.val = policyDigest plat q.val := by
  rw [LocusMesh.policyDigest,LocusMesh.policyDigest,h.policyBody]

variable (plan : RoutePlan τ) (now : τ)

theorem SamePolicy.routeReasons :
    routeReasons plan p.val now = routeReasons plan q.val now := by
  simp only [LocusMesh.routeReasons,h.allowedIntents,h.topology.capturedAt,
    h.topology.expiresAt,h.maxHops,h.topology.localPeerId,h.minimumEvidence,
    SameTopology.edgePairs h.topology]

theorem SamePolicy.scanPlan : scanPlan plat plan p.val now = scanPlan plat plan q.val now := by
  have hpeer : peerReasons plat plan p.val now = peerReasons plat plan q.val now := by
    funext peerId peer
    simp only [peerReasons,h.minimumEvidence]
  have hhop : scanHop plat plan p.val now = scanHop plat plan q.val now := by
    funext scan peerId
    simp only [scanHop,h.peersById,hpeer]
  rw [LocusMesh.scanPlan,LocusMesh.scanPlan,hhop,h.routeReasons]

theorem SamePolicy.admitPlan :
    admitPlan plat plan p.val now = admitPlan plat plan q.val now := by
  have hdecision : planDecision plat plan p.val now = planDecision plat plan q.val now := by
    simp only [planDecision,h.scanPlan,h.policyDigest,h.topologyDigest,h.minimumEvidence]
  rw [LocusMesh.admitPlan,LocusMesh.admitPlan,hdecision]

theorem SamePolicy.verifyReceipts (i : ℕ) (state : VerifyState τ)
    (receipts : List (HopReceipt τ)) :
    verifyReceipts plat plan p.val now i state receipts =
      verifyReceipts plat plan q.val now i state receipts := by
  have hfields : exactFields plat plan p.val = exactFields plat plan q.val := by
    funext i peer previous next digest receipt
    simp only [exactFields,h.policyDigest,h.topologyDigest]
  have htimes : timeReasons plan p.val now = timeReasons plan q.val now := by
    funext manifest previous receipt
    simp only [timeReasons,h.topology.capturedAt,h.topology.expiresAt]
  have hstep : verifyReceipt plat plan p.val now = verifyReceipt plat plan q.val now := by
    funext i receipt state
    simp only [verifyReceipt,hfields,htimes,h.peersById,h.minimumEvidence]
  induction receipts generalizing i state with
  | nil => rfl
  | cons receipt rest ih => simp only [LocusMesh.verifyReceipts,hstep,ih]

theorem SamePolicy.verifyAttestation {σ : Type} (attestation : RouteAttestation τ)
    (store : Option (ReplayStore σ)) (s : σ) :
    verifyAttestation plat p.val now attestation store s =
      verifyAttestation plat q.val now attestation store s := by
  have hcheck : checkAttestation plat p.val now attestation =
      checkAttestation plat q.val now attestation := by
    simp only [checkAttestation,h.admitPlan,h.verifyReceipts]
  rw [LocusMesh.verifyAttestation,LocusMesh.verifyAttestation,hcheck]

end SamePolicy

theorem SamePolicy.trans {τ : Type} {p q r : AdmissionPolicy τ} (h : SamePolicy p q)
    (h' : SamePolicy q r) : SamePolicy p r where
  schemaVersion := h.schemaVersion.trans h'.schemaVersion
  allowedIntents intent := (h.allowedIntents intent).trans (h'.allowedIntents intent)
  maxHops := h.maxHops.trans h'.maxHops
  minimumEvidence intent := (h.minimumEvidence intent).trans (h'.minimumEvidence intent)
  topology :=
    {schemaVersion := h.topology.schemaVersion.trans h'.topology.schemaVersion
     snapshotId := h.topology.snapshotId.trans h'.topology.snapshotId
     localPeerId := h.topology.localPeerId.trans h'.topology.localPeerId
     capturedAt := h.topology.capturedAt.trans h'.topology.capturedAt
     expiresAt := h.topology.expiresAt.trans h'.topology.expiresAt
     peers := fun m => (h.topology.peers m).trans (h'.topology.peers m)
     edges := fun e => (h.topology.edges e).trans (h'.topology.edges e)}

section Reversed

variable {τ : Type} [AwareDatetime τ]

/-- The policy that lists its intents, floors, peers and edges the other way round. -/
def AdmissionPolicy.reversed (policy : AdmissionPolicy τ) : AdmissionPolicy τ where
  schemaVersion := policy.schemaVersion
  allowedIntents := ⟨policy.allowedIntents.val.reverse,
    List.nodup_reverse.mpr policy.allowedIntents.property⟩
  maxHops := policy.maxHops
  minimumEvidence := ⟨policy.minimumEvidence.val.reverse,by
    rw [List.map_reverse]
    exact List.nodup_reverse.mpr policy.minimumEvidence.property⟩
  topology := {policy.topology with
    peers := policy.topology.peers.reverse
    edges := policy.topology.edges.reverse}

omit [AwareDatetime τ] in
theorem samePolicy_reversed (policy : AdmissionPolicy τ) : SamePolicy policy policy.reversed := by
  refine ⟨rfl,fun _ => List.mem_reverse.symm,rfl,?_,⟨rfl,rfl,rfl,rfl,rfl,?_,?_⟩⟩
  · exact (perm_iff_lookup policy.minimumEvidence.property
      policy.reversed.minimumEvidence.property).mp (List.reverse_perm _).symm
  · exact fun _ => List.mem_reverse.symm
  · exact fun _ => List.mem_reverse.symm

theorem reversed_check {policy : AdmissionPolicy τ} (h : policy.check = .ok ()) :
    policy.reversed.check = .ok () := by
  obtain ⟨hmin,hmax,htopology,hversion,hfloor⟩ := AdmissionPolicy.check_ok.mp h
  obtain ⟨h1,h2,h3,h4,hpeers,hedges,hwindow,hids,hlocal,hpairs,hends⟩ :=
    TopologySnapshot.check_ok.mp htopology
  have hperm := (samePolicy_reversed policy).minimumEvidence
  have hpeerIds : policy.reversed.topology.peerIds = policy.topology.peerIds.reverse :=
    List.map_reverse
  have hedgePairs : policy.reversed.topology.edgePairs = policy.topology.edgePairs.reverse :=
    List.map_reverse
  refine AdmissionPolicy.check_ok.mpr ⟨hmin,hmax,TopologySnapshot.check_ok.mpr ?_,hversion,?_⟩
  · rw [hpeerIds,hedgePairs]
    simp only [AdmissionPolicy.reversed,List.length_reverse,List.mem_reverse,List.nodup_reverse]
    exact ⟨h1,h2,h3,h4,hpeers,hedges,hwindow,hids,hlocal,hpairs,hends⟩
  · intro intent hintent
    rw [← hperm]
    exact hfloor intent (List.mem_reverse.mp hintent)

def Validated.reversed (policy : Validated (AdmissionPolicy τ)) : Validated (AdmissionPolicy τ) :=
  ⟨policy.val.reversed,reversed_check policy.accepted⟩

theorem collisionFree_same {plat : Platform} {v w : Json} (h : v = w) :
    CollisionFree plat {canonicalJsonBytes v,canonicalJsonBytes w} := by
  rw [h,Set.pair_eq_singleton]
  exact Set.injOn_singleton _ _

end Reversed

/-- Policy and topology digests identify content and ignore order, and so does every
verdict. -/
theorem digests_identify_content {τ : Type} [AwareDatetime τ] (plat : Platform)
    (hf : plat.FaithfulTimes) (p q : Validated (AdmissionPolicy τ))
    (t u : Validated (TopologySnapshot τ))
    (hpolicies : CollisionFree plat {canonicalJsonBytes (p.val.digestBody plat),
      canonicalJsonBytes (q.val.digestBody plat)})
    (htopologies : CollisionFree plat {canonicalJsonBytes (p.val.topology.digestBody plat),
      canonicalJsonBytes (q.val.topology.digestBody plat)})
    (hsnapshots : CollisionFree plat {canonicalJsonBytes (t.val.digestBody plat),
      canonicalJsonBytes (u.val.digestBody plat)}) :
    (policyDigest plat p.val = policyDigest plat q.val ↔
      SamePolicy p.val.rendered q.val.rendered) ∧
    (topologyDigest plat t.val = topologyDigest plat u.val ↔
      SameTopology t.val.rendered u.val.rendered) ∧
    (SamePolicy p.val q.val → ∀ now : τ,
      (∀ plan : Validated (RoutePlan τ),
        admitPlan plat plan.val p.val now = admitPlan plat plan.val q.val now) ∧
      ∀ (attestation : Validated (RouteAttestation τ)) (σ : Type)
        (store : Option (ReplayStore σ)) (s : σ),
        verifyAttestation plat p.val now attestation.val store s =
          verifyAttestation plat q.val now attestation.val store s) := by
  refine ⟨policyDigest_eq_iff hf p q hpolicies htopologies,
    topologyDigest_eq_iff hf t u hsnapshots,fun h now => ⟨fun plan => ?_,?_⟩⟩
  · exact h.admitPlan plat plan.val now
  · intro attestation σ store s
    exact h.verifyAttestation plat now attestation.val store s

theorem digests_identify_content_demo :
    (policyDigest Demo.platform Demo.policy₀.val =
        policyDigest Demo.platform Demo.policy₀.reversed.val ↔
      SamePolicy Demo.policy₀.val.rendered Demo.policy₀.reversed.val.rendered) ∧
    ∀ now : FixedTime, admitPlan Demo.platform Demo.plan₀.val Demo.policy₀.val now =
      admitPlan Demo.platform Demo.plan₀.val Demo.policy₀.reversed.val now := by
  have hsame : SamePolicy Demo.policy₀.val Demo.policy₀.reversed.val := samePolicy_reversed _
  obtain ⟨hpolicies,_,hverdicts⟩ := digests_identify_content Demo.platform
    Demo.platform_faithfulTimes Demo.policy₀ Demo.policy₀.reversed Demo.policy₀.topology
    Demo.policy₀.reversed.topology (collisionFree_same (hsame.policyBody _))
    (collisionFree_same (hsame.topologyBody _)) (collisionFree_same (hsame.topologyBody _))
  exact ⟨hpolicies,fun now => (hverdicts hsame now).1 Demo.plan₀⟩

end LocusMesh
