import Mathlib
import LocusMesh.Hmac
import LocusMesh.Decisions
import LocusMesh.Agreement

/-! What the digests of a decision and the commitment of a request pin down. A commitment has one
request under one key, up to the zeros that fill a key up; a decision has one attestation, one
policy up to order and one time behind it. -/
namespace LocusMesh

open CanonicalJson PyCollections AwareClock HashChain Hmac

section Commitments

variable {plat : Platform}

theorem hmacSha256_eq (key message : List UInt8) :
    hmacSha256 plat key message = hmac plat.sha256 64 key message := rfl

theorem commitRequest_ok {v : Json} {key : List UInt8} {c : Commitment} :
    commitRequest plat v key = .ok c ↔ 32 ≤ key.length ∧
      c = tagged "hmac-sha256:" (hmac plat.sha256 64 key (canonicalJsonBytes v)) := by
  rw [commitRequest,hmacSha256_eq]
  split_ifs with hshort
  · exact iff_of_false (by simp) fun h => absurd h.1 (Nat.not_le.mpr hshort)
  · rw [Except.ok.injEq,eq_comm]
    exact (and_iff_right (Nat.not_lt.mp hshort)).symm

variable (plat) in
/-- At no stage do the commitments to two requests hash different inputs alike. -/
structure Apart (key key' : List UInt8) (v w : Json) : Prop where
  keys : 64 < key.length → CollisionFree plat {key,key'}
  inner : CollisionFree plat {Hmac.inner plat.sha256 64 key (canonicalJsonBytes v),
    Hmac.inner plat.sha256 64 key' (canonicalJsonBytes w)}
  outer : CollisionFree plat {Hmac.outer plat.sha256 64 key (canonicalJsonBytes v),
    Hmac.outer plat.sha256 64 key' (canonicalJsonBytes w)}

variable {v w : JsonValue} {key key' : List UInt8} {c : Commitment}
  (hc : Apart plat key key' v.val w.val) (hcommit : commitRequest plat v.val key = .ok c)

include hc hcommit

/-- A commitment is opened by the values equal to its own, under the keys with its key's block. -/
theorem opens_iff : commitRequest plat w.val key' = .ok c ↔
    32 ≤ key'.length ∧ block plat.sha256 64 key = block plat.sha256 64 key' ∧
      SameValue v.val w.val := by
  obtain ⟨_,rfl⟩ := commitRequest_ok.mp hcommit
  have htags := hmac_eq_iff (show 32 ≤ 64 by decide) hc.inner hc.outer
  rw [canonicalJsonBytes_eq_iff] at htags
  rw [commitRequest_ok,(tagged_injective "hmac-sha256:").eq_iff,htags]

theorem opens_iff_of_length (hlength : key.length = key'.length) :
    commitRequest plat w.val key' = .ok c ↔ key = key' ∧ SameValue v.val w.val := by
  have hlong := (commitRequest_ok.mp hcommit).1
  constructor
  · intro h
    obtain ⟨_,hblock,hsame⟩ := (opens_iff hc hcommit).mp h
    exact ⟨block_injective hlength hc.keys hblock,hsame⟩
  · rintro ⟨rfl,hsame⟩
    exact (opens_iff hc hcommit).mpr ⟨hlong,rfl,hsame⟩

theorem opens_iff_of_le (hle : key.length ≤ key'.length) (hfit : key'.length ≤ 64) :
    commitRequest plat w.val key' = .ok c ↔
      key' = key ++ List.replicate (key'.length - key.length) 0 ∧ SameValue v.val w.val := by
  have hlong := (commitRequest_ok.mp hcommit).1
  rw [opens_iff hc hcommit,block_eq_iff hle hfit]
  exact and_iff_right (hlong.trans hle)

end Commitments

/-- An admitted attestation binds every receipt to the request that its plan commits to: the
commitment of a receipt is opened by that request alone, up to the order of entries, and of the
keys of the same length by the caller's alone; a key that fits into a block may be filled up with
zeros. -/
theorem receipts_open_to_request {τ : Type} [AwareDatetime τ] (plat : Platform)
    (attestation : Validated (RouteAttestation τ)) (policy : Validated (AdmissionPolicy τ))
    (now : τ) {σ : Type} (store : Option (ReplayStore σ)) (s : σ) (d : AdmissionDecision τ)
    (hverify : (verifyAttestation plat policy.val now attestation.val store s).1 = .ok d)
    (hadmitted : d.admitted = true) (v : JsonValue) (key : List UInt8)
    (hcommit : commitRequest plat v.val key = .ok attestation.val.plan.requestCommitment)
    (w : JsonValue) (key' : List UInt8)
    (hc : Apart plat key key' v.val w.val) :
    ∀ receipt ∈ attestation.val.receipts,
      commitRequest plat v.val key = .ok receipt.requestCommitment ∧
      (commitRequest plat w.val key' = .ok receipt.requestCommitment → SameValue v.val w.val) ∧
      (key.length = key'.length → (commitRequest plat w.val key' = .ok receipt.requestCommitment ↔
        key = key' ∧ SameValue v.val w.val)) ∧
      (key.length ≤ key'.length → key'.length ≤ 64 →
        (commitRequest plat w.val key' = .ok receipt.requestCommitment ↔
          key' = key ++ List.replicate (key'.length - key.length) 0 ∧
            SameValue v.val w.val)) := by
  intro receipt hreceipt
  obtain ⟨call,rfl,rfl,rfl⟩ := pending_of_admitted hverify hadmitted
  obtain ⟨i,hi⟩ := List.mem_iff_getElem?.mp hreceipt
  obtain ⟨_,_,_,_,hexact⟩ := call.exact hi
  rw [hexact.bound.requestCommitment]
  exact ⟨hcommit,fun h => ((opens_iff hc hcommit).mp h).2.2,opens_iff_of_length hc hcommit,
    opens_iff_of_le hc hcommit⟩

namespace Demo

def request : JsonValue :=
  ⟨.obj [("operation",.str "classify"),("request_id",.str "demo-device")],by
    simp [Distinct,DistinctEntries]⟩

def reordered : JsonValue :=
  ⟨.obj [("request_id",.str "demo-device"),("operation",.str "classify")],by
    simp [Distinct,DistinctEntries]⟩

theorem request_reordered : SameValue request.val reordered.val := .order (List.Perm.swap _ _ _)

theorem commitmentKey_length : commitmentKey.length = 41 := by decide +kernel

def filledKey : List UInt8 := commitmentKey ++ [0]

theorem filledKey_length : filledKey.length = 42 := by
  rw [filledKey,List.length_append,commitmentKey_length]
  rfl

theorem filledKey_eq : filledKey =
    commitmentKey ++ List.replicate (filledKey.length - commitmentKey.length) 0 := by
  rw [filledKey_length,commitmentKey_length]
  rfl

theorem filledKey_block : block platform.sha256 64 commitmentKey =
    block platform.sha256 64 filledKey := by
  have hle := commitmentKey_length
  have hfit := filledKey_length
  exact (block_eq_iff (by omega) (by omega)).mpr filledKey_eq

theorem request_apart :
    Apart platform commitmentKey filledKey request.val reordered.val := by
  have hbytes := (canonicalJsonBytes_eq_iff request reordered).mpr request_reordered
  have hinner : Hmac.inner platform.sha256 64 commitmentKey (canonicalJsonBytes request.val) =
      Hmac.inner platform.sha256 64 filledKey (canonicalJsonBytes reordered.val) := by
    rw [Hmac.inner,Hmac.inner,filledKey_block,hbytes]
  have houter : Hmac.outer platform.sha256 64 commitmentKey (canonicalJsonBytes request.val) =
      Hmac.outer platform.sha256 64 filledKey (canonicalJsonBytes reordered.val) := by
    rw [Hmac.outer,Hmac.outer,hinner,filledKey_block]
  refine ⟨fun hlong => absurd hlong (by decide +kernel),?_,?_⟩
  · rw [hinner,Set.pair_eq_singleton]
    exact Set.injOn_singleton _ _
  · rw [houter,Set.pair_eq_singleton]
    exact Set.injOn_singleton _ _

end Demo

/-- The receipt of the demo's device attestation is opened by its reordered request, and by its
key with a zero behind it. -/
theorem receipts_open_to_request_demo :
    commitRequest Demo.platform Demo.reordered.val Demo.filledKey =
      .ok (Demo.deviceReceipt Demo.platform Demo.keys).requestCommitment := by
  obtain ⟨d,hverify,hadmitted,_⟩ := Demo.attestation_admitted (by decide) Demo.contain_noon
    (none : Option (ReplayStore Unit)) () rfl
  have hreceipt : Demo.deviceReceipt Demo.platform Demo.keys ∈ Demo.attestation₀.val.receipts :=
    List.mem_singleton_self _
  have hle := Demo.commitmentKey_length
  have hfit := Demo.filledKey_length
  obtain ⟨_,_,_,hfilled⟩ := receipts_open_to_request Demo.platform Demo.attestation₀ Demo.policy₀
    (Demo.minutes 0) none () d (by rw [hverify]) hadmitted Demo.request Demo.commitmentKey
    (Demo.commitRequest_eq Demo.platform ⟨"demo-device",by decide⟩) Demo.reordered
    Demo.filledKey Demo.request_apart _ hreceipt
  exact (hfilled (by omega) (by omega)).mpr ⟨Demo.filledKey_eq,Demo.request_reordered⟩

section Exits

variable {τ : Type} [AwareDatetime τ] {plat : Platform}
  {attestation : Validated (RouteAttestation τ)} {policy : Validated (AdmissionPolicy τ)} {now : τ}
  {σ σ' : Type} {store : Option (ReplayStore σ)} {s : σ} {store' : Option (ReplayStore σ')}
  {s' : σ'} {d d' : AdmissionDecision τ}

theorem Passed.silent (h : Passed plat attestation policy now) {required : EvidenceLevel}
    (hg : Grounded attestation.val.plan policy.val required) :
    verifyReasons plat attestation.val policy.val now required = [] := by
  obtain ⟨required',hg',hsilent⟩ := h.grounded
  obtain rfl : required = required' := Option.some.inj (hg.floor.symm.trans hg'.floor)
  exact hsilent

/-- Two stores lead to one decision as far as they agree on admitting. -/
theorem Exit.determined (h : Exit plat attestation policy now store s (.ok d))
    (h' : Exit plat attestation policy now store' s' (.ok d')) (hsame : d.admitted = d'.admitted) :
    d = d' := by
  cases h with
  | planDenied hdenied =>
    cases h' with
    | planDenied => rfl
    | receiptsDenied _ hbase => exact absurd (hdenied.symm.trans hbase) Bool.false_ne_true
    | replayed hpassed => exact absurd (hdenied.symm.trans hpassed.base) Bool.false_ne_true
    | admitted _ hpassed => exact absurd (hdenied.symm.trans hpassed.base) Bool.false_ne_true
  | receiptsDenied required hbase hg hreasons =>
    cases h' with
    | planDenied hdenied => exact absurd (hdenied.symm.trans hbase) Bool.false_ne_true
    | receiptsDenied required' _ hg' =>
      obtain rfl : required = required' := Option.some.inj (hg.floor.symm.trans hg'.floor)
      rfl
    | replayed hpassed => exact absurd (hpassed.silent hg) hreasons
    | admitted _ hpassed => exact absurd (hpassed.silent hg) hreasons
  | replayed hpassed =>
    cases h' with
    | planDenied hdenied => exact absurd (hdenied.symm.trans hpassed.base) Bool.false_ne_true
    | receiptsDenied _ _ hg hreasons => exact absurd (hpassed.silent hg) hreasons
    | replayed => rfl
    | admitted => exact absurd (hsame.trans hpassed.base) Bool.false_ne_true
  | admitted weakest hpassed hweakest =>
    cases h' with
    | planDenied hdenied => exact absurd (hdenied.symm.trans hpassed.base) Bool.false_ne_true
    | receiptsDenied _ _ hg hreasons => exact absurd (hpassed.silent hg) hreasons
    | replayed => exact absurd (hsame.symm.trans hpassed.base) Bool.false_ne_true
    | admitted weakest' _ hweakest' =>
      obtain rfl : weakest = weakest' := Option.some.inj (hweakest.symm.trans hweakest')
      rfl

/-- What every decision records of the inputs it was made on. -/
theorem Exit.records (h : Exit plat attestation policy now store s (.ok d)) :
    d.evaluatedAt = now ∧ d.policyDigest = some (policyDigest plat policy.val) ∧
      d.attestationDigest = some (attestation.val.digest plat) := by
  cases h <;> exact ⟨rfl,rfl,rfl⟩

end Exits

section Inputs

theorem validated_ext {α : Type} [Contract α] {a b : Validated α} (h : a.val = b.val) : a = b := by
  cases a
  cases b
  cases h
  rfl

@[simp] theorem AdmissionPolicy.rendered_fixed (p : AdmissionPolicy FixedTime) :
    p.rendered = p := by
  have hpeers : p.topology.peers.map PeerManifest.rendered = p.topology.peers :=
    List.map_id p.topology.peers
  rw [rendered,TopologySnapshot.rendered,hpeers]
  rfl

variable {plat : Platform} (hf : plat.FaithfulTimes)

include hf

theorem RouteAttestation.dump_inj (a b : RouteAttestation FixedTime) :
    sortKeys (a.dump plat) = sortKeys (b.dump plat) ↔ a = b := by
  rw [RouteAttestation.dump,RouteAttestation.dump,sortKeys_record (by rfl) (by simp),
    RouteAttestation.ext_iff]
  simp only [sortEntries,List.cons.injEq,Prod.mk.injEq,true_and,and_true,sortKeys_str,
    RoutePlan.dump_inj hf,sortKeys_arr (HopReceipt.dump_inj hf)]

theorem attestationDigest_eq_iff {a b : RouteAttestation FixedTime}
    (hc : CollisionFree plat {canonicalJsonBytes (a.dump plat),canonicalJsonBytes (b.dump plat)}) :
    a.digest plat = b.digest plat ↔ a = b := by
  rw [RouteAttestation.digest,RouteAttestation.digest,sha256Digest_eq_iff hc,
    RouteAttestation.dump_inj hf]

theorem routeDigest_eq_iff {p q : RoutePlan FixedTime}
    (hc : CollisionFree plat {canonicalJsonBytes (p.dump plat),canonicalJsonBytes (q.dump plat)}) :
    sha256Digest plat (p.dump plat) = sha256Digest plat (q.dump plat) ↔ p = q := by
  rw [sha256Digest_eq_iff hc,RoutePlan.dump_inj hf]

end Inputs

/-- A decision is a faithful record of what was decided on: two plan decisions are the same
exactly when they were made on one plan, one policy up to the order of its members, and one time,
and so are two decisions on attestations, by any two stores, that agree on admitting. -/
theorem decisions_identify_inputs (plat : Platform) (hf : plat.FaithfulTimes)
    (p q : Validated (AdmissionPolicy FixedTime)) (t u : FixedTime)
    (hpolicies : CollisionFree plat {canonicalJsonBytes (p.val.digestBody plat),
      canonicalJsonBytes (q.val.digestBody plat)})
    (htopologies : CollisionFree plat {canonicalJsonBytes (p.val.topology.digestBody plat),
      canonicalJsonBytes (q.val.topology.digestBody plat)}) :
    (∀ plan plan' : Validated (RoutePlan FixedTime),
      CollisionFree plat {canonicalJsonBytes (plan.val.dump plat),
        canonicalJsonBytes (plan'.val.dump plat)} →
      (admitPlan plat plan.val p.val t = admitPlan plat plan'.val q.val u ↔
        plan.val = plan'.val ∧ SamePolicy p.val q.val ∧ t = u)) ∧
    ∀ a b : Validated (RouteAttestation FixedTime),
      CollisionFree plat {canonicalJsonBytes (a.val.dump plat),
        canonicalJsonBytes (b.val.dump plat)} →
      ∀ (σ σ' : Type) (store : Option (ReplayStore σ)) (store' : Option (ReplayStore σ')) (s : σ)
        (s' : σ') (d d' : AdmissionDecision FixedTime),
        (verifyAttestation plat p.val t a.val store s).1 = .ok d →
        (verifyAttestation plat q.val u b.val store' s').1 = .ok d' →
        (d = d' ↔ a.val = b.val ∧ SamePolicy p.val q.val ∧ t = u ∧ d.admitted = d'.admitted) := by
  have hpolicy : policyDigest plat p.val = policyDigest plat q.val ↔ SamePolicy p.val q.val := by
    simpa using policyDigest_eq_iff hf p q hpolicies htopologies
  constructor
  · intro plan plan' hplans
    rw [admitPlan_eq,admitPlan_eq,Except.ok.injEq]
    constructor
    · intro h
      have hroute := Option.some.inj (congrArg AdmissionDecision.routeDigest h)
      have hsame := Option.some.inj (congrArg AdmissionDecision.policyDigest h)
      exact ⟨(routeDigest_eq_iff hf hplans).mp hroute,hpolicy.mp hsame,
        congrArg AdmissionDecision.evaluatedAt h⟩
    · rintro ⟨hplan,hsame,rfl⟩
      have hadmission := hsame.admitPlan plat plan.val t
      rw [admitPlan_eq,admitPlan_eq,Except.ok.injEq] at hadmission
      rw [hadmission,hplan]
  · intro a b hattestations σ σ' store store' s s' d d' hd hd'
    have hexit := verifyAttestation_exit plat a p t store s
    have hexit' := verifyAttestation_exit plat b q u store' s'
    rw [hd] at hexit
    rw [hd'] at hexit'
    constructor
    · rintro rfl
      obtain ⟨ht,hp,ha⟩ := hexit.records
      obtain ⟨hu,hq,hb⟩ := hexit'.records
      exact ⟨(attestationDigest_eq_iff hf hattestations).mp (Option.some.inj (ha.symm.trans hb)),
        hpolicy.mp (Option.some.inj (hp.symm.trans hq)),ht.symm.trans hu,rfl⟩
    · rintro ⟨hattestation,hsame,rfl,hadmitted⟩
      obtain rfl : a = b := validated_ext hattestation
      have hexit := verifyAttestation_exit plat a q t store s
      rw [← hsame.verifyAttestation,hd] at hexit
      exact hexit.determined hexit' hadmitted

theorem decisions_identify_inputs_demo :
    (∀ t u : FixedTime, admitPlan Demo.platform Demo.plan₀.val Demo.policy₀.val t =
        admitPlan Demo.platform Demo.plan₀.val Demo.policy₀.reversed.val u ↔ t = u) ∧
    ∃ d, (verifyAttestation Demo.platform Demo.policy₀.val (Demo.minutes 0) Demo.attestation₀.val
        (none : Option (ReplayStore Unit)) ()).1 = .ok d ∧
      ∀ (σ : Type) (store : Option (ReplayStore σ)) (s : σ) (d' : AdmissionDecision FixedTime),
        (verifyAttestation Demo.platform Demo.policy₀.reversed.val (Demo.minutes 0)
          Demo.attestation₀.val store s).1 = .ok d' → (d = d' ↔ d'.admitted = true) := by
  have hsame : SamePolicy Demo.policy₀.val Demo.policy₀.reversed.val := samePolicy_reversed _
  have hinputs := fun t u => decisions_identify_inputs Demo.platform Demo.platform_faithfulTimes
    Demo.policy₀ Demo.policy₀.reversed t u (collisionFree_same (hsame.policyBody _))
    (collisionFree_same (hsame.topologyBody _))
  constructor
  · intro t u
    rw [(hinputs t u).1 Demo.plan₀ Demo.plan₀ (collisionFree_same rfl)]
    exact ⟨fun h => h.2.2,fun h => ⟨rfl,hsame,h⟩⟩
  · obtain ⟨d,hverify,hadmitted,_⟩ := Demo.attestation_admitted (by decide) Demo.contain_noon
      (none : Option (ReplayStore Unit)) () rfl
    refine ⟨d,by rw [hverify],fun σ store s d' hd' => ?_⟩
    have hiff := (hinputs _ _).2 Demo.attestation₀ Demo.attestation₀ (collisionFree_same rfl) Unit σ
      none store () s d d' (by rw [hverify]) hd'
    rw [hadmitted] at hiff
    exact hiff.trans ⟨fun h => h.2.2.2.symm,fun h => ⟨rfl,hsame,rfl,h.symm⟩⟩

end LocusMesh
