import Mathlib
import LocusMesh.Building
import LocusMesh.JsonBytes
import LocusMesh.Reordering

/-! Receipts cannot be moved between attestations: an admitted chain is a linked list, and
each of its receipts names the plan, the policy and the topology it was made for. -/
namespace LocusMesh

open CanonicalJson PyCollections AwareClock HashChain

section Admitted

variable {τ : Type} [AwareDatetime τ] {plat : Platform}
  {attestation : Validated (RouteAttestation τ)} {policy : Validated (AdmissionPolicy τ)} {now : τ}

/-- An admitted verification found every receipt bound, whatever its replay store. -/
theorem bound_of_admitted {σ : Type} {store : Option (ReplayStore σ)} {s : σ}
    {d : AdmissionDecision τ}
    (hverify : (verifyAttestation plat policy.val now attestation.val store s).1 = .ok d)
    (hadmitted : d.admitted = true) {i : ℕ} {receipt : HopReceipt τ}
    (hi : attestation.val.receipts[i]? = some receipt) :
    ∃ peer, ReceiptBound plat attestation.val.plan policy.val i peer
      (precursor attestation.val.receipts i) receipt := by
  rcases checkAttestation_cases plat attestation policy now with
    ⟨hdenied,hcheck⟩ | ⟨required,_,hg,⟨_,hcheck⟩ | ⟨hsilent,_⟩⟩
  · rw [verifyAttestation,hcheck] at hverify
    rw [← Except.ok.inj hverify] at hadmitted
    exact absurd (hdenied.symm.trans hadmitted) Bool.false_ne_true
  · rw [verifyAttestation,hcheck] at hverify
    rw [← Except.ok.inj hverify] at hadmitted
    exact absurd hadmitted (by simp [deny])
  · obtain ⟨hcount,hexact⟩ := (verifyReasons_eq_nil plat (fun _ _ => Iff.rfl) hg).mp hsilent
    have hlt := (List.getElem?_eq_some_iff.mp hi).1
    have hpeer := List.getElem?_eq_getElem (hcount ▸ hlt)
    obtain ⟨_,_,_,he⟩ := hexact i _ receipt hpeer hi
    exact ⟨_,he.bound⟩

/-- The receipts of an admitted attestation, as rendered, form a linked list. -/
theorem linked_of_admitted {σ : Type} {store : Option (ReplayStore σ)} {s : σ}
    {d : AdmissionDecision τ}
    (hverify : (verifyAttestation plat policy.val now attestation.val store s).1 = .ok d)
    (hadmitted : d.admitted = true) :
    Linked (HopReceipt.digest plat) HopReceipt.previousReceiptDigest
      (attestation.val.receipts.map HopReceipt.rendered) := by
  intro i r hr
  rw [List.getElem?_map,Option.map_eq_some_iff] at hr
  obtain ⟨receipt,hi,rfl⟩ := hr
  obtain ⟨peer,hbound⟩ := bound_of_admitted hverify hadmitted hi
  rw [precursor_map,Option.map_map]
  exact hbound.previousReceiptDigest

end Admitted

/-- The canonical bytes of the receipts of an attestation. -/
def RouteAttestation.receiptBytes {τ : Type} [AwareDatetime τ] (plat : Platform)
    (a : RouteAttestation τ) : Set (List UInt8) :=
  {bytes | ∃ r ∈ a.receipts, bytes = canonicalJsonBytes (r.dump plat)}

theorem receiptBytes_of_pair {τ : Type} [AwareDatetime τ] {plat : Platform}
    {a : RouteAttestation τ} {r s : HopReceipt τ} (h : a.receipts = [r,s]) :
    a.receiptBytes plat = {canonicalJsonBytes (r.dump plat),canonicalJsonBytes (s.dump plat)} := by
  ext bytes
  simp [RouteAttestation.receiptBytes,h]

/-- No two of the corresponding bodies that two verifications hash have one SHA-256 digest. -/
structure NoCollision {τ : Type} [AwareDatetime τ] (plat : Platform) (a b : RouteAttestation τ)
    (p q : AdmissionPolicy τ) : Prop where
  plans : CollisionFree plat {canonicalJsonBytes (a.plan.dump plat),
    canonicalJsonBytes (b.plan.dump plat)}
  policies : CollisionFree plat {canonicalJsonBytes (p.digestBody plat),
    canonicalJsonBytes (q.digestBody plat)}
  topologies : CollisionFree plat {canonicalJsonBytes (p.topology.digestBody plat),
    canonicalJsonBytes (q.topology.digestBody plat)}
  receipts : CollisionFree plat (a.receiptBytes plat ∪ b.receiptBytes plat)

/-- Receipts cannot be spliced: a common receipt stands at one position, in attestations of
one plan under one policy, behind the same receipts. -/
theorem receipt_not_spliced {τ : Type} [AwareDatetime τ] (plat : Platform)
    (hf : plat.FaithfulTimes) (a b : Validated (RouteAttestation τ))
    (p q : Validated (AdmissionPolicy τ)) (t u : τ) {σ ρ : Type}
    (storeA : Option (ReplayStore σ)) (sA : σ) (storeB : Option (ReplayStore ρ)) (sB : ρ)
    (dA dB : AdmissionDecision τ)
    (hA : (verifyAttestation plat p.val t a.val storeA sA).1 = .ok dA) (hdA : dA.admitted = true)
    (hB : (verifyAttestation plat q.val u b.val storeB sB).1 = .ok dB) (hdB : dB.admitted = true)
    (hc : NoCollision plat a.val b.val p.val q.val) (i j : ℕ) (r r' : HopReceipt τ)
    (hi : a.val.receipts[i]? = some r) (hj : b.val.receipts[j]? = some r')
    (hsame : r.rendered = r'.rendered) :
    i = j ∧ a.val.plan.rendered = b.val.plan.rendered ∧
      SamePolicy p.val.rendered q.val.rendered ∧
      ∀ k ≤ i, a.val.receipts[k]?.map HopReceipt.rendered =
        b.val.receipts[k]?.map HopReceipt.rendered := by
  obtain ⟨_,hboundA⟩ := bound_of_admitted hA hdA hi
  obtain ⟨_,hboundB⟩ := bound_of_admitted hB hdB hj
  have hplan : a.val.plan.rendered = b.val.plan.rendered := by
    have hdigest : r.rendered.routePlanDigest = r'.rendered.routePlanDigest := by rw [hsame]
    change r.routePlanDigest = r'.routePlanDigest at hdigest
    rw [hboundA.routePlanDigest,hboundB.routePlanDigest,sha256Digest_eq_iff hc.plans] at hdigest
    exact (RoutePlan.dump_inj hf _ _).mp hdigest
  have hpolicy : SamePolicy p.val.rendered q.val.rendered := by
    have hdigest : r.rendered.policyDigest = r'.rendered.policyDigest := by rw [hsame]
    change r.policyDigest = r'.policyDigest at hdigest
    rw [hboundA.policyDigest,hboundB.policyDigest] at hdigest
    exact (policyDigest_eq_iff hf p q hc.policies hc.topologies).mp hdigest
  have hinj : ∀ x ∈ a.val.receipts.map HopReceipt.rendered,
      ∀ y ∈ b.val.receipts.map HopReceipt.rendered, x.digest plat = y.digest plat → x = y := by
    intro x hx y hy hxy
    obtain ⟨v,hv,rfl⟩ := List.mem_map.mp hx
    obtain ⟨w,hw,rfl⟩ := List.mem_map.mp hy
    exact (HopReceipt.dump_inj hf _ _).mp
      (sha256Digest_inj hc.receipts (.inl ⟨v,hv,rfl⟩) (.inr ⟨w,hw,rfl⟩) hxy)
  have hiA : (a.val.receipts.map HopReceipt.rendered)[i]? = some r.rendered := by
    rw [List.getElem?_map,hi]
    rfl
  have hjB : (b.val.receipts.map HopReceipt.rendered)[j]? = some r.rendered := by
    rw [List.getElem?_map,hj,hsame]
    rfl
  obtain ⟨hij,hfront⟩ := (linked_of_admitted hA hdA).prefix_eq (linked_of_admitted hB hdB) hinj
    hiA hjB
  refine ⟨hij,hplan,hpolicy,fun k hk => ?_⟩
  rw [← List.getElem?_map,← List.getElem?_map]
  exact hfront k hk

namespace Demo

theorem sha256_eq {v : Json} {raw : Vector UInt8 32}
    (h : Sha256.sha256 (renderBytes (sortKeys v)) = raw) :
    platform.sha256 (canonicalJsonBytes v) = raw := by
  rw [canonicalJsonBytes,encodeUtf8_dumps]
  exact h

theorem sha256Digest_eq {v : Json} {raw : Vector UInt8 32}
    (h : Sha256.sha256 (renderBytes (sortKeys v)) = raw) :
    sha256Digest platform v = tagged "sha256:" raw :=
  congrArg (tagged "sha256:") (sha256_eq h)

-- each digest is computed once: what it covers has the digests before it as literals
def planHash : Vector UInt8 32 :=
  #v[7,146,106,252,50,5,110,237,109,54,170,217,28,246,13,250,122,152,115,157,254,160,127,233,48,240,
    46,39,254,194,255,12]

def topologyHash : Vector UInt8 32 :=
  #v[197,34,143,142,209,81,50,100,143,29,19,23,198,92,215,25,82,183,174,236,54,30,145,23,225,214,87,
    142,39,162,70,93]

def policyHash : Vector UInt8 32 :=
  #v[106,105,100,215,219,54,112,177,109,22,83,12,147,118,4,237,130,188,32,59,243,16,46,98,142,90,37,
    138,158,255,246,158]

theorem planDigest_eq :
    sha256Digest platform (plan₁.val.dump platform) = tagged "sha256:" planHash :=
  sha256Digest_eq (by decide +kernel)

theorem topologyDigest_eq : topologyDigest platform policy₀.val.topology =
    tagged "sha256:" topologyHash :=
  sha256Digest_eq (by decide +kernel)

theorem policyDigest_eq : policyDigest platform policy₀.val = tagged "sha256:" policyHash := by
  rw [policyDigest,AdmissionPolicy.digestBody,topologyDigest_eq]
  exact sha256Digest_eq (by decide +kernel)

def requestHmac : Vector UInt8 32 :=
  #v[127,84,114,252,28,88,163,243,97,58,71,79,56,191,16,178,69,183,36,197,221,88,4,116,4,194,213,238,
    204,243,182,12]

theorem commitment_eq : plan₁.val.requestCommitment = tagged "hmac-sha256:" requestHmac := by
  show requestCommitment platform plan₁.val.requestId = _
  rw [requestCommitment,canonicalJsonBytes,encodeUtf8_dumps]
  exact congrArg (tagged "hmac-sha256:") (by decide +kernel)

/-- A receipt of the private plan with its digests written out, so that its bytes compute. -/
def computed (r : HopReceipt FixedTime) (previous : Option Digest) : HopReceipt FixedTime :=
  {r with
    requestCommitment := tagged "hmac-sha256:" requestHmac
    routePlanDigest := tagged "sha256:" planHash
    policyDigest := tagged "sha256:" policyHash
    topologyDigest := tagged "sha256:" topologyHash
    previousReceiptDigest := previous}

def payload (r : HopReceipt FixedTime) : List UInt8 :=
  renderBytes (sortKeys (.obj (r.signingPayload platform)))

theorem payload_eq (r : HopReceipt FixedTime) :
    canonicalJsonBytes (.obj (r.signingPayload platform)) = payload r := by
  rw [canonicalJsonBytes,encodeUtf8_dumps,payload]

/-- What a key of the demo signs but the device receipt, it signs with the stand-in. -/
theorem signedBy_eq {key : Ed25519PrivateKey} {r : HopReceipt FixedTime}
    (hkey : ∀ payload, key.sign payload = (sign key.publicBytes payload).toList)
    (hother : payload r ≠ devicePayload hashes (keysSigning standIn))
    {front back : Vector UInt8 32} (hdigests : Sha256.sha256 (key.publicBytes ++ payload r) = front ∧
      Sha256.sha256 (payload r ++ key.publicBytes) = back) :
    signedBy key r = {r with signature := encodeBase64url (front ++ back).toList} := by
  have hsign : sign key.publicBytes (payload r) = front ++ back := by
    rw [sign,if_neg fun h => hother h.2,standIn,hdigests.1,hdigests.2]
  rw [signedBy,payload_eq,hkey,hsign]

theorem sign_deviceLocal (payload : List UInt8) :
    keys.deviceLocal.sign payload = (sign keys.deviceLocal.publicBytes payload).toList := by
  simp only [keys,keysSigning]

theorem sign_privatePeer (payload : List UInt8) :
    keys.privatePeer.sign payload = (sign keys.privatePeer.publicBytes payload).toList := by
  simp only [keys,keysSigning]

theorem devicePayload_eq : devicePayload hashes (keysSigning standIn) =
    renderBytes (sortKeys (.obj
      ((unsignedDeviceReceipt hashes (keysSigning standIn)).signingPayload hashes))) := by
  rw [devicePayload,canonicalJsonBytes,encodeUtf8_dumps]

theorem unsignedFirst_eq : unsignedFirst = computed unsignedFirst none := by
  rw [computed,← commitment_eq,← planDigest_eq,← policyDigest_eq,← topologyDigest_eq]
  rfl

def firstSigned : HopReceipt FixedTime :=
  {computed unsignedFirst none with
    signature := encodeBase64url (
      (#v[7,234,200,168,128,75,244,199,226,233,119,165,111,194,133,131,171,10,180,46,216,50,85,29,135,
        246,197,12,255,61,102,22] : Vector UInt8 32) ++
      (#v[91,146,25,161,103,44,169,103,197,183,22,40,172,92,112,232,95,187,89,3,193,66,208,37,109,33,
        151,89,245,23,48,101] : Vector UInt8 32)).toList}

theorem firstReceipt_eq : firstReceipt = firstSigned := by
  rw [firstReceipt,unsignedFirst_eq]
  apply signedBy_eq sign_deviceLocal
  · rw [devicePayload_eq]
    decide +kernel
  · decide +kernel

def firstHash : Vector UInt8 32 :=
  #v[249,251,170,128,41,100,50,98,134,183,124,66,134,249,16,255,213,119,121,172,0,159,214,123,60,135,
    164,3,144,187,196,118]

theorem firstReceipt_sha256 :
    platform.sha256 (canonicalJsonBytes (firstReceipt.dump platform)) = firstHash := by
  rw [firstReceipt_eq]
  exact sha256_eq (by decide +kernel)

theorem firstReceipt_digest : firstReceipt.digest platform = tagged "sha256:" firstHash :=
  congrArg (tagged "sha256:") firstReceipt_sha256

theorem unsignedSecond_eq :
    unsignedSecond = computed unsignedSecond (some (tagged "sha256:" firstHash)) := by
  rw [computed,← commitment_eq,← planDigest_eq,← policyDigest_eq,← topologyDigest_eq,
    ← firstReceipt_digest]
  rfl

def secondSigned : HopReceipt FixedTime :=
  {computed unsignedSecond (some (tagged "sha256:" firstHash)) with
    signature := encodeBase64url (
      (#v[15,22,71,207,217,40,77,30,209,214,57,118,172,248,19,153,165,142,206,34,139,46,125,141,129,43,
        155,115,222,196,228,248] : Vector UInt8 32) ++
      (#v[193,90,19,82,119,11,155,107,193,64,125,185,1,191,20,129,164,87,231,246,223,24,239,193,147,
        136,49,248,244,55,55,119] : Vector UInt8 32)).toList}

theorem secondReceipt_eq : secondReceipt = secondSigned := by
  rw [secondReceipt,unsignedSecond_eq]
  apply signedBy_eq sign_privatePeer
  · rw [devicePayload_eq]
    decide +kernel
  · decide +kernel

theorem secondReceipt_sha256 :
    platform.sha256 (canonicalJsonBytes (secondReceipt.dump platform)) ≠ firstHash := by
  rw [secondReceipt_eq,canonicalJsonBytes,encodeUtf8_dumps]
  decide +kernel

theorem private_collisionFree : CollisionFree platform (attestation₁.val.receiptBytes platform) := by
  rw [receiptBytes_of_pair private_receipts,CollisionFree,Set.injOn_pair,firstReceipt_sha256]
  exact fun h => absurd h.symm secondReceipt_sha256

end Demo

/-- The demo's private attestation, admitted under the demo's policy and, a minute later, under
the same policy in reverse: its second receipt stands behind one first receipt. -/
theorem receipt_not_spliced_demo :
    SamePolicy Demo.policy₀.val.rendered Demo.policy₀.reversed.val.rendered ∧
    ∀ k ≤ 1, Demo.attestation₁.val.receipts[k]?.map HopReceipt.rendered =
      [Demo.firstReceipt,Demo.secondReceipt][k]?.map HopReceipt.rendered := by
  have hminute : Demo.windows.Contain (Demo.minutes 1) := ⟨by decide,by decide,by decide⟩
  obtain ⟨d,hverify,hd,_⟩ := Demo.private_admitted (by decide) Demo.contain_noon
    (none : Option (ReplayStore Unit)) () rfl
  obtain ⟨d',hverify',hd',_⟩ := Demo.private_admitted (by decide) hminute
    (none : Option (ReplayStore Unit)) () rfl
  have hsame : SamePolicy Demo.policy₀.val Demo.policy₀.reversed.val := samePolicy_reversed _
  rw [hsame.verifyAttestation] at hverify'
  have hreceipts : CollisionFree Demo.platform (Demo.attestation₁.val.receiptBytes Demo.platform ∪
      Demo.attestation₁.val.receiptBytes Demo.platform) := by
    rw [Set.union_self]
    exact Demo.private_collisionFree
  obtain ⟨_,_,hpolicy,hfront⟩ := receipt_not_spliced Demo.platform Demo.platform_faithfulTimes
    Demo.attestation₁ Demo.attestation₁ Demo.policy₀ Demo.policy₀.reversed (Demo.minutes 0)
    (Demo.minutes 1) none () none () d d' (by rw [hverify]) hd (by rw [hverify']) hd'
    ⟨collisionFree_same rfl,collisionFree_same (hsame.policyBody _),
      collisionFree_same (hsame.topologyBody _),hreceipts⟩ 1 1 Demo.secondReceipt
    Demo.secondReceipt Demo.private_second Demo.private_second rfl
  rw [Demo.private_receipts] at hfront
  exact ⟨hpolicy,hfront⟩

end LocusMesh
