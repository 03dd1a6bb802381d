import Mathlib
import LocusMesh.Verification
import LocusMesh.Demo

/-! What `build_attestation` builds, and when the verifier accepts it. -/
namespace LocusMesh

open CanonicalJson PyCollections AwareClock HashChain

section Chain

variable {τ : Type} [AwareDatetime τ] (plat : Platform) (plan : RoutePlan τ)
  (policy : AdmissionPolicy τ) (signers : PeerId → Option Signer) (observedAt : τ)
  (evidenceLevels : Option (PeerId → Option EvidenceLevel))

omit [AwareDatetime τ] in
/-- A signer of the key its manifest pins, whose signatures verify. -/
structure Honest (manifest : PeerManifest τ) (signer : Signer) : Prop where
  publicKey : signer.publicKey = manifest.publicKey.val
  keyId : ∃ keyId, deriveKeyId plat signer.publicKey = .ok keyId ∧ signer.keyId = keyId.val
  sign : ∀ payload, ∃ signature, signer.sign payload = .ok signature ∧
    verifyEd25519 plat signer.publicKey payload signature = true

omit [AwareDatetime τ] in
/-- A local signer is honest for the manifest of its key if its signatures verify. -/
theorem honest_signer {manifest : PeerManifest τ} {privateKey : Ed25519PrivateKey}
    (hkey : manifest.publicKey = LocalEd25519Signer.publicKey privateKey)
    (hsign : ∀ payload, plat.ed25519Verify privateKey.publicBytes (privateKey.sign payload)
      payload = .ok ()) : Honest plat manifest (LocalEd25519Signer.signer plat privateKey) := by
  refine ⟨by rw [hkey]; rfl,⟨_,LocalEd25519Signer.deriveKeyId_publicKey plat privateKey,rfl⟩,?_⟩
  intro payload
  exact ⟨_,rfl,LocalEd25519Signer.verify_sign plat privateKey (hsign payload)⟩

omit [AwareDatetime τ] in
/-- Every hop peer has an honest signer for its manifest. -/
def HonestFamily : Prop :=
  ∀ peer ∈ plan.hopPeerIds, ∀ manifest, policy.peersById peer = some manifest →
    ∃ signer, signers peer = some signer ∧ Honest plat manifest signer

/-- Receipt `j` of a built chain: its unsigned body over the receipts before it, signed. -/
structure BuiltReceipt (receipts : List (HopReceipt τ)) (j : ℕ) (peer : PeerId)
    (manifest : PeerManifest τ) (signer : Signer) (receipt : HopReceipt τ) : Prop where
  body : ∃ signature, receipt =
    {unsignedReceipt plat plan policy observedAt evidenceLevels j peer
        (precursor plan.hopPeerIds j) plan.hopPeerIds[j+1]? manifest signer (receipts.take j) with
      signature := signature}
  signature : verifyEd25519 plat signer.publicKey
    (canonicalJsonBytes (.obj (receipt.signingPayload plat))) receipt.signature = true

def BuiltChain (receipts : List (HopReceipt τ)) : Prop :=
  ∀ j receipt, receipts[j]? = some receipt → ∃ peer manifest signer,
    plan.hopPeerIds[j]? = some peer ∧ policy.peersById peer = some manifest ∧
      Honest plat manifest signer ∧
      BuiltReceipt plat plan policy observedAt evidenceLevels receipts j peer manifest signer
        receipt

end Chain

section Build

variable {τ : Type} [AwareDatetime τ] {plat : Platform} (plan : Validated (RoutePlan τ))
  (policy : AdmissionPolicy τ) {signers : PeerId → Option Signer} (observedAt : τ)
  (evidenceLevels : Option (PeerId → Option EvidenceLevel))

theorem unsignedReceipt_check {j : ℕ} (hj : j < plan.val.hopPeerIds.length) (peer : PeerId)
    {manifest : PeerManifest τ} {signer : Signer} (hs : Honest plat manifest signer)
    (receipts : List (HopReceipt τ)) :
    (unsignedReceipt plat plan.val policy observedAt evidenceLevels j peer
      (precursor plan.val.hopPeerIds j) plan.val.hopPeerIds[j+1]? manifest signer receipts).check
      = .ok () := by
  have hlen := plan.hops_length_le
  obtain ⟨keyId,_,hkey⟩ := hs.keyId
  rw [HopReceipt.check_ok]
  refine ⟨rfl,?_,?_,?_,?_,rfl,?_⟩
  · show j ≤ 63
    omega
  · show 1 ≤ plan.val.hopPeerIds.length
    omega
  · exact hlen
  · show taggedHex "ed25519:sha256:" signer.keyId = true
    rw [hkey]
    exact keyId.property
  · show base64urlPattern 86 (String.ofList (List.replicate 86 'A')) = true
    decide

variable (hsigners : HonestFamily plat plan.val policy signers)
  (hknown : ∀ peer ∈ plan.val.hopPeerIds, ∃ m, policy.peersById peer = some m)

include hsigners hknown

omit hsigners hknown in
theorem signingPayload_signed (unsigned : HopReceipt τ) (signature : String) :
    ({unsigned with signature := signature} : HopReceipt τ).signingPayload plat =
      unsigned.signingPayload plat := rfl

theorem buildReceipt_eq {receipts : List (HopReceipt τ)} {peer : PeerId}
    (hpeer : plan.val.hopPeerIds[receipts.length]? = some peer) :
    ∃ receipt manifest signer,
      buildReceipt plat plan.val policy signers observedAt evidenceLevels receipts.length peer
        receipts = .ok receipt ∧ policy.peersById peer = some manifest ∧
      Honest plat manifest signer ∧
      BuiltReceipt plat plan.val policy observedAt evidenceLevels receipts receipts.length peer
        manifest signer receipt := by
  have hmem := List.mem_of_getElem? hpeer
  obtain ⟨manifest,hmanifest⟩ := hknown peer hmem
  obtain ⟨signer,hsigner,hs⟩ := hsigners peer hmem manifest hmanifest
  have hlt := (List.getElem?_eq_some_iff.mp hpeer).1
  have hcheck := unsignedReceipt_check plan policy observedAt evidenceLevels hlt peer hs receipts
  obtain ⟨unsigned,hunsigned⟩ : ∃ unsigned, unsigned =
      unsignedReceipt plat plan.val policy observedAt evidenceLevels receipts.length peer
        (precursor plan.val.hopPeerIds receipts.length) plan.val.hopPeerIds[receipts.length+1]?
        manifest signer receipts := ⟨_,rfl⟩
  rw [← hunsigned] at hcheck
  obtain ⟨signature,hsign,hverify⟩ :=
    hs.sign (canonicalJsonBytes (.obj (unsigned.signingPayload plat)))
  refine ⟨{unsigned with signature := signature},manifest,signer,?_,hmanifest,hs,
    ⟨signature,by rw [hunsigned,List.take_length]⟩,?_⟩
  · rw [buildReceipt,hsigner,hmanifest,itemBefore_eq hlt,itemAfter_eq]
    simp only [bind,Except.bind,← hunsigned,HopReceipt.construct,hcheck,hsign]
  · rw [signingPayload_signed]
    exact hverify

/-- The building loop extends a built prefix to a receipt for every hop. -/
theorem buildReceipts_eq {done rest : List PeerId} (hhops : done ++ rest = plan.val.hopPeerIds)
    {receipts : List (HopReceipt τ)} (hlen : receipts.length = done.length)
    (hbuilt : BuiltChain plat plan.val policy observedAt evidenceLevels receipts) :
    ∃ all, buildReceipts plat plan.val policy signers observedAt evidenceLevels receipts.length
        receipts rest = .ok all ∧ all.length = plan.val.hopPeerIds.length ∧
      BuiltChain plat plan.val policy observedAt evidenceLevels all := by
  induction rest generalizing done receipts with
  | nil =>
    rw [List.append_nil] at hhops
    exact ⟨receipts,rfl,by rw [hlen,hhops],hbuilt⟩
  | cons peer rest ih =>
    have hpeer : plan.val.hopPeerIds[receipts.length]? = some peer := by
      rw [← hhops,hlen,List.getElem?_append_right (le_refl _),Nat.sub_self]
      rfl
    obtain ⟨receipt,manifest,signer,hstep,hmanifest,hs,hreceipt⟩ :=
      buildReceipt_eq plan policy observedAt evidenceLevels hsigners hknown hpeer
    have hlen' : (receipts ++ [receipt]).length = (done ++ [peer]).length := by
      rw [List.length_append,List.length_append,hlen]
      rfl
    have hbuilt' : BuiltChain plat plan.val policy observedAt evidenceLevels
        (receipts ++ [receipt]) := by
      intro j r hj
      have hjlen : j ≤ receipts.length := by
        have hlt := (List.getElem?_eq_some_iff.mp hj).1
        rw [List.length_append,List.length_singleton] at hlt
        omega
      -- a receipt is built over the ones before it, which stay as they are
      have hfront : ∀ k ≤ receipts.length, (receipts ++ [receipt]).take k = receipts.take k := by
        intro k hk
        rw [List.take_append_of_le_length hk]
      rcases Nat.lt_or_eq_of_le hjlen with hlt | heq
      · rw [List.getElem?_append_left hlt] at hj
        obtain ⟨p,m,s,hp,hm,hsigner,hbody,hsig⟩ := hbuilt j r hj
        exact ⟨p,m,s,hp,hm,hsigner,by rw [hfront j hjlen]; exact hbody,hsig⟩
      · rw [heq,List.getElem?_append_right (le_refl _),Nat.sub_self,List.getElem?_cons_zero,
          Option.some.injEq] at hj
        rw [← hj,heq]
        exact ⟨peer,manifest,signer,hpeer,hmanifest,hs,
          by rw [hfront _ (le_refl _)]; exact hreceipt.body,hreceipt.signature⟩
    obtain ⟨all,hall,hcount,hchain⟩ := ih (by rw [← hhops,List.append_assoc]; rfl) hlen' hbuilt'
    refine ⟨all,?_,hcount,hchain⟩
    rw [buildReceipts,hstep]
    rw [List.length_append,List.length_singleton] at hall
    exact hall

/-- For honest signers the builder succeeds, with one built receipt for every hop. -/
theorem buildAttestation_eq : ∃ receipts,
    buildAttestation plat plan.val policy signers observedAt evidenceLevels =
      .ok ⟨"locusmesh.route-attestation.v1",plan.val,receipts⟩ ∧
    receipts.length = plan.val.hopPeerIds.length ∧
    BuiltChain plat plan.val policy observedAt evidenceLevels receipts := by
  obtain ⟨receipts,hloop,hcount,hchain⟩ := buildReceipts_eq plan policy observedAt evidenceLevels
    hsigners hknown (List.nil_append _) List.length_nil (fun j r hj => by simp at hj)
  have hlen := plan.hops_length_le
  have hpos := List.length_pos_of_ne_nil plan.hops_ne_nil
  refine ⟨receipts,?_,hcount,hchain⟩
  have hcheck : (do
      require (decide (1 ≤ receipts.length)) "receipts" "too_short"
      require (decide (receipts.length ≤ 64)) "receipts" "too_long") = .ok () := by
    rw [andThen_ok,require_ok,require_ok,decide_eq_true_eq,decide_eq_true_eq,hcount]
    exact ⟨hpos,hlen⟩
  have hconstruct : RouteAttestation.construct plan.val receipts =
      .ok ⟨"locusmesh.route-attestation.v1",plan.val,receipts⟩ := by
    rw [RouteAttestation.construct,hcheck]
  rw [List.length_nil] at hloop
  rw [buildAttestation,hloop]
  exact hconstruct

end Build

section Agree

variable {τ : Type} [AwareDatetime τ] {plat : Platform} {plan : Validated (RoutePlan τ)}
  {policy : Validated (AdmissionPolicy τ)} {now observedAt : τ}
  {evidenceLevels : Option (PeerId → Option EvidenceLevel)} {receipts : List (HopReceipt τ)}

theorem keyBinding_of_admitted (plan : Validated (RoutePlan τ)) (now : τ)
    (h : (planDecision plat plan.val policy.val now).admitted = true) {peer : PeerId}
    (hpeer : peer ∈ plan.val.hopPeerIds) {m : PeerManifest τ}
    (hm : policy.val.peersById peer = some m) :
    deriveKeyId plat m.publicKey.val = .ok m.keyId := by
  obtain ⟨manifest,hget,hfits⟩ := (planDecision_fits.mp h).hops peer hpeer
  rw [hm,Option.some.injEq] at hget
  rw [hget]
  exact hfits.key

def cappedLevels (plan : RoutePlan τ) (policy : AdmissionPolicy τ)
    (evidenceLevels : Option (PeerId → Option EvidenceLevel)) : List EvidenceLevel :=
  plan.hopPeerIds.filterMap fun peer => (policy.peersById peer).map fun manifest =>
    Attestation.effectiveEvidence (chosenLevel evidenceLevels peer manifest)

theorem builtReceipt_bound {j : ℕ} (hj : j ≤ receipts.length) {peer : PeerId}
    {manifest : PeerManifest τ} {signer : Signer} {receipt : HopReceipt τ}
    (hb : BuiltReceipt plat plan.val policy.val observedAt evidenceLevels receipts j peer manifest
      signer receipt) :
    ReceiptBound plat plan.val policy.val j peer (precursor receipts j) receipt := by
  obtain ⟨signature,hbody⟩ := hb.body
  rw [hbody]
  refine ⟨rfl,rfl,rfl,rfl,rfl,rfl,rfl,rfl,rfl,rfl,rfl,rfl,?_,rfl,rfl⟩
  show (receipts.take j).getLast?.map (HopReceipt.digest plat) = _
  rw [getLast?_take hj]

theorem builtReceipt_signed {j : ℕ} {peer : PeerId} {manifest : PeerManifest τ}
    {signer : Signer} {receipt : HopReceipt τ} (hs : Honest plat manifest signer)
    (hkey : deriveKeyId plat manifest.publicKey.val = .ok manifest.keyId)
    (hb : BuiltReceipt plat plan.val policy.val observedAt evidenceLevels receipts j peer manifest
      signer receipt) : ReceiptSigned plat manifest receipt := by
  obtain ⟨keyId,hderive,hid⟩ := hs.keyId
  have hsig := hb.signature
  rw [hs.publicKey] at hderive hsig
  rw [hkey,Except.ok.injEq] at hderive
  refine ⟨?_,hkey,hsig⟩
  obtain ⟨signature,hbody⟩ := hb.body
  rw [hbody,hderive]
  exact hid

theorem builtReceipt_check {j : ℕ} (hj : j < plan.val.hopPeerIds.length) {peer : PeerId}
    {manifest : PeerManifest τ} {signer : Signer} {receipt : HopReceipt τ}
    (hs : Honest plat manifest signer)
    (hb : BuiltReceipt plat plan.val policy.val observedAt evidenceLevels receipts j peer manifest
      signer receipt) : receipt.check = .ok () := by
  obtain ⟨raw,hlen,hraw⟩ := verifyEd25519_signature plat hb.signature
  obtain ⟨signature,hbody⟩ := hb.body
  have hcheck := unsignedReceipt_check plan policy.val observedAt evidenceLevels hj peer hs
    (receipts.take j)
  rw [HopReceipt.check_ok] at hcheck
  obtain ⟨h1,h2,h3,h4,h5,h6,_⟩ := hcheck
  rw [HopReceipt.check_ok]
  refine ⟨?_,?_,?_,?_,?_,?_,by rw [hraw]; exact base64urlPattern_encode (n:=86) (by rw [hlen])⟩
  all_goals rw [hbody]; assumption

/-- One observation time against `now` and the windows that all hops share. -/
structure TimeAcceptable (plan : RoutePlan τ) (policy : AdmissionPolicy τ)
    (now observedAt : τ) : Prop where
  notFuture : le observedAt now = true
  planWindow : inWindow plan.createdAt plan.expiresAt observedAt = true
  topologyWindow : inWindow policy.topology.capturedAt policy.topology.expiresAt observedAt = true

/-- The observation time and the chosen level against one hop's manifest and the floor. -/
structure HopAcceptable (plan : RoutePlan τ) (policy : AdmissionPolicy τ) (observedAt : τ)
    (evidenceLevels : Option (PeerId → Option EvidenceLevel)) (peer : PeerId)
    (manifest : PeerManifest τ) : Prop where
  peerWindow : inWindow manifest.validFrom manifest.expiresAt observedAt = true
  ceiling : Attestation.evidenceRank (chosenLevel evidenceLevels peer manifest) ≤
    Attestation.evidenceRank manifest.evidenceLevel
  floor : ∀ floor, policy.floor plan.intent = some floor → Attestation.evidenceRank floor ≤
    Attestation.evidenceRank
      (Attestation.effectiveEvidence (chosenLevel evidenceLevels peer manifest))

structure Acceptable (plan : RoutePlan τ) (policy : AdmissionPolicy τ) (now observedAt : τ)
    (evidenceLevels : Option (PeerId → Option EvidenceLevel)) : Prop where
  time : TimeAcceptable plan policy now observedAt
  hop : ∀ peer ∈ plan.hopPeerIds, ∀ manifest, policy.peersById peer = some manifest →
    HopAcceptable plan policy observedAt evidenceLevels peer manifest

/-- A built receipt is exact when the observation time and its level are acceptable. -/
theorem builtReceipt_exact_iff {required : EvidenceLevel}
    (hfloor : policy.val.floor plan.val.intent = some required) {j : ℕ}
    (hj : j ≤ receipts.length) {peer : PeerId} {manifest : PeerManifest τ} {signer : Signer}
    {receipt : HopReceipt τ} (hs : Honest plat manifest signer)
    (hkey : deriveKeyId plat manifest.publicKey.val = .ok manifest.keyId)
    (hb : BuiltReceipt plat plan.val policy.val observedAt evidenceLevels receipts j peer manifest
      signer receipt)
    (hprior : ∀ prior ∈ precursor receipts j, prior.observedAt = observedAt) :
    ReceiptExact (fun a b => lt a b = true) plat plan.val policy.val now j peer manifest
        (precursor receipts j) receipt ↔
      TimeAcceptable plan.val policy.val now observedAt ∧
        HopAcceptable plan.val policy.val observedAt evidenceLevels peer manifest := by
  have hwindow : ∀ lo hi t : τ, Within (fun a b => lt a b = true) lo hi t ↔
      inWindow lo hi t = true := fun lo hi t => (inWindow_iff_within fun _ _ => Iff.rfl).symm
  obtain ⟨signature,hbody⟩ := hb.body
  have hat : receipt.observedAt = observedAt := by rw [hbody]; rfl
  have hlevel : receipt.evidenceLevel = chosenLevel evidenceLevels peer manifest := by
    rw [hbody]
    rfl
  constructor
  · rintro ⟨_,⟨hplan,htopology,hpeer,hfuture,_⟩,_,⟨hceiling,floor,hsome,hrequired⟩⟩
    rw [hat] at hplan htopology hpeer hfuture
    rw [hlevel] at hceiling hrequired
    refine ⟨⟨(le_iff_not_lt _ _).mpr hfuture,(hwindow _ _ _).mp hplan,
      (hwindow _ _ _).mp htopology⟩,(hwindow _ _ _).mp hpeer,hceiling,?_⟩
    intro other hother
    rw [hsome,Option.some.injEq] at hother
    exact hother ▸ hrequired
  · rintro ⟨⟨hfuture,hplan,htopology⟩,hpeer,hceiling,hrequired⟩
    refine ⟨builtReceipt_bound hj hb,⟨?_,?_,?_,?_,?_⟩,builtReceipt_signed hs hkey hb,
      ⟨hlevel ▸ hceiling,required,hfloor,hlevel ▸ hrequired required hfloor⟩⟩
    · rw [hat]
      exact (hwindow _ _ _).mpr hplan
    · rw [hat]
      exact (hwindow _ _ _).mpr htopology
    · rw [hat]
      exact (hwindow _ _ _).mpr hpeer
    · rw [hat]
      exact (le_iff_not_lt _ _).mp hfuture
    · intro prior hmem
      rw [hat,hprior prior hmem,lt_self]
      exact Bool.false_ne_true

theorem builtChain_observedAt
    (hchain : BuiltChain plat plan.val policy.val observedAt evidenceLevels receipts) (j : ℕ) :
    ∀ prior ∈ precursor receipts j, prior.observedAt = observedAt := by
  intro prior hprior
  unfold precursor at hprior
  split at hprior
  · cases hprior
  · obtain ⟨_,_,_,_,_,_,⟨_,hbody⟩,_⟩ := hchain _ prior hprior
    rw [hbody]
    rfl

theorem builtChain_check (hcount : receipts.length = plan.val.hopPeerIds.length)
    (hchain : BuiltChain plat plan.val policy.val observedAt evidenceLevels receipts) :
    RouteAttestation.check ⟨"locusmesh.route-attestation.v1",plan.val,receipts⟩ = .ok () := by
  have hmax : receipts.length ≤ 64 := hcount ▸ plan.hops_length_le
  have hpos : 1 ≤ receipts.length := hcount ▸ List.length_pos_of_ne_nil plan.hops_ne_nil
  have hreceipts : ∀ r ∈ receipts, r.check = .ok () := by
    intro r hr
    obtain ⟨j,hj⟩ := List.mem_iff_getElem?.mp hr
    have hlt := (List.getElem?_eq_some_iff.mp hj).1
    obtain ⟨peer,manifest,signer,_,_,hs,hb⟩ := hchain j r hj
    exact builtReceipt_check (hcount ▸ hlt) hs hb
  exact RouteAttestation.check_ok.mpr ⟨rfl,plan.accepted,hpos,hmax,hreceipts⟩

/-- The built chain is exact when the observation time and all levels are acceptable. -/
theorem builtChain_exact_iff {required : EvidenceLevel}
    (hg : Grounded plan.val policy.val required)
    (hkeys : ∀ peer ∈ plan.val.hopPeerIds, ∀ m, policy.val.peersById peer = some m →
      deriveKeyId plat m.publicKey.val = .ok m.keyId)
    (hcount : receipts.length = plan.val.hopPeerIds.length)
    (hchain : BuiltChain plat plan.val policy.val observedAt evidenceLevels receipts) :
    (∀ i peer receipt, plan.val.hopPeerIds[i]? = some peer → receipts[i]? = some receipt →
      ∃ manifest ∈ policy.val.topology.peers, manifest.peerId = peer ∧
        ReceiptExact (fun a b => lt a b = true) plat plan.val policy.val now i peer manifest
          (precursor receipts i) receipt) ↔
      Acceptable plan.val policy.val now observedAt evidenceLevels := by
  have hexact : ∀ i peer receipt manifest, plan.val.hopPeerIds[i]? = some peer →
      receipts[i]? = some receipt → policy.val.peersById peer = some manifest →
      (ReceiptExact (fun a b => lt a b = true) plat plan.val policy.val now i peer manifest
        (precursor receipts i) receipt ↔
        TimeAcceptable plan.val policy.val now observedAt ∧
          HopAcceptable plan.val policy.val observedAt evidenceLevels peer manifest) := by
    intro i peer receipt manifest hpeer hreceipt hm
    have hlt := (List.getElem?_eq_some_iff.mp hreceipt).1
    obtain ⟨peer',manifest',signer,hpeer',hm',hs,hb⟩ := hchain i receipt hreceipt
    obtain rfl : peer = peer' := Option.some.inj (hpeer.symm.trans hpeer')
    obtain rfl : manifest = manifest' := Option.some.inj (hm.symm.trans hm')
    exact builtReceipt_exact_iff hg.floor hlt.le hs
      (hkeys peer (List.mem_of_getElem? hpeer) manifest hm) hb (builtChain_observedAt hchain i)
  have hreceipt : ∀ i < plan.val.hopPeerIds.length, ∃ receipt, receipts[i]? = some receipt :=
    fun i hi => ⟨_,List.getElem?_eq_getElem (hcount ▸ hi)⟩
  constructor
  · intro hall
    have hhop : ∀ peer ∈ plan.val.hopPeerIds, ∀ manifest,
        policy.val.peersById peer = some manifest →
        TimeAcceptable plan.val policy.val now observedAt ∧
          HopAcceptable plan.val policy.val observedAt evidenceLevels peer manifest := by
      intro peer hpeer manifest hm
      obtain ⟨i,hi⟩ := List.mem_iff_getElem?.mp hpeer
      obtain ⟨receipt,hr⟩ := hreceipt i (List.getElem?_eq_some_iff.mp hi).1
      obtain ⟨manifest',hmem,hpid,he⟩ := hall i peer receipt hi hr
      have hm' := mem_peersById.mpr ⟨hmem,hpid⟩
      obtain rfl : manifest = manifest' := Option.some.inj (hm.symm.trans hm')
      exact (hexact i peer receipt manifest hi hr hm).mp he
    obtain ⟨first,hfirst⟩ := List.exists_mem_of_ne_nil _ plan.hops_ne_nil
    obtain ⟨manifest,hm⟩ := hg.manifest first hfirst
    exact ⟨(hhop first hfirst manifest hm).1,fun peer hpeer m hm => (hhop peer hpeer m hm).2⟩
  · rintro ⟨htime,hhop⟩ i peer receipt hpeer hr
    have hmem := List.mem_of_getElem? hpeer
    obtain ⟨manifest,hm⟩ := hg.manifest peer hmem
    exact ⟨manifest,(mem_peersById.mp hm).1,(mem_peersById.mp hm).2,
      (hexact i peer receipt manifest hpeer hr hm).mpr ⟨htime,hhop peer hmem manifest hm⟩⟩

theorem mem_builtLevels (hcount : receipts.length = plan.val.hopPeerIds.length)
    (hchain : BuiltChain plat plan.val policy.val observedAt evidenceLevels receipts)
    {level : EvidenceLevel} :
    level ∈ (receipts.map fun r => Attestation.effectiveEvidence r.evidenceLevel) ↔
      level ∈ cappedLevels plan.val policy.val evidenceLevels := by
  have hlevel : ∀ (j : ℕ) (receipt : HopReceipt τ), receipts[j]? = some receipt →
      ∃ peer manifest,
      plan.val.hopPeerIds[j]? = some peer ∧ policy.val.peersById peer = some manifest ∧
      receipt.evidenceLevel = chosenLevel evidenceLevels peer manifest := by
    intro j receipt hj
    obtain ⟨peer,manifest,_,hpeer,hm,_,⟨_,hbody⟩,_⟩ := hchain j receipt hj
    exact ⟨peer,manifest,hpeer,hm,by rw [hbody]; rfl⟩
  simp only [cappedLevels,List.mem_map,List.mem_filterMap,Option.map_eq_some_iff]
  constructor
  · rintro ⟨receipt,hr,rfl⟩
    obtain ⟨j,hj⟩ := List.mem_iff_getElem?.mp hr
    obtain ⟨peer,manifest,hpeer,hm,heq⟩ := hlevel j receipt hj
    exact ⟨peer,List.mem_of_getElem? hpeer,manifest,hm,by rw [heq]⟩
  · rintro ⟨peer,hpeer,manifest,hm,rfl⟩
    obtain ⟨j,hj⟩ := List.mem_iff_getElem?.mp hpeer
    have hlt : j < receipts.length := hcount ▸ (List.getElem?_eq_some_iff.mp hj).1
    have hr := List.getElem?_eq_getElem hlt
    obtain ⟨peer',manifest',hpeer',hm',heq⟩ := hlevel j _ hr
    obtain rfl : peer = peer' := Option.some.inj (hj.symm.trans hpeer')
    obtain rfl : manifest = manifest' := Option.some.inj (hm.symm.trans hm')
    exact ⟨_,List.getElem_mem hlt,by rw [heq]⟩

section Passing

variable {τ : Type} [AwareDatetime τ] {plat : Platform} {a : Validated (RouteAttestation τ)}
  {policy : Validated (AdmissionPolicy τ)} {now observedAt : τ}
  {evidenceLevels : Option (PeerId → Option EvidenceLevel)}

theorem built_passes (hadmitted : (baseDecision plat a policy now).admitted = true)
    (hcount : a.val.receipts.length = a.val.plan.hopPeerIds.length)
    (hchain : BuiltChain plat a.val.plan policy.val observedAt evidenceLevels a.val.receipts)
    (haccept : Acceptable a.val.plan policy.val now observedAt evidenceLevels) :
    checkAttestation plat policy.val now a.val =
      .ok (.inr ⟨baseDecision plat a policy now,a.val.digest plat,
        a.val.receipts.map fun r => Attestation.effectiveEvidence r.evidenceLevel⟩) := by
  obtain ⟨required,hg⟩ := grounded_of_admitted plat a.plan policy now hadmitted
  have hkeys : ∀ peer ∈ a.val.plan.hopPeerIds, ∀ m, policy.val.peersById peer = some m →
      deriveKeyId plat m.publicKey.val = .ok m.keyId :=
    fun _ hpeer _ hm => keyBinding_of_admitted a.plan now hadmitted hpeer hm
  have hexact := (@builtChain_exact_iff τ _ plat a.plan _ _ _ _ _ _ hg hkeys hcount hchain).mpr
    haccept
  rcases checkAttestation_cases plat a policy now with
    ⟨hdenied,_⟩ | ⟨other,_,hother,⟨hreasons,_⟩ | ⟨_,hcheck⟩⟩
  · exact absurd (hadmitted.symm.trans hdenied) (by simp)
  · exact absurd ((verifyReasons_eq_nil plat (fun _ _ => Iff.rfl) hother).mpr
      ⟨hcount,hexact⟩) hreasons
  · exact hcheck

theorem built_admitted (hadmitted : (baseDecision plat a policy now).admitted = true)
    (hcount : a.val.receipts.length = a.val.plan.hopPeerIds.length)
    (hchain : BuiltChain plat a.val.plan policy.val observedAt evidenceLevels a.val.receipts)
    (haccept : Acceptable a.val.plan policy.val now observedAt evidenceLevels) {σ : Type}
    (store : Option (ReplayStore σ)) (s : σ) {s' : σ}
    (hfresh : recordFresh store a.val.plan (a.val.digest plat) s = (.ok true,s')) :
    ∃ d, verifyAttestation plat policy.val now a.val store s = (.ok d,s') ∧
      d.admitted = true ∧ d.effectiveEvidence = minBy Attestation.evidenceRank
        (a.val.receipts.map fun r => Attestation.effectiveEvidence r.evidenceLevel) := by
  obtain ⟨weakest,hweakest⟩ := minBy_isSome Attestation.evidenceRank
    (l:=a.val.receipts.map fun r => Attestation.effectiveEvidence r.evidenceLevel) (by
      intro hnil
      have hhops := List.length_pos_of_ne_nil a.plan.hops_ne_nil
      rw [List.map_eq_nil_iff.mp hnil,List.length_nil] at hcount
      exact absurd hcount.symm hhops.ne')
  refine ⟨{baseDecision plat a policy now with
    decisionKind := .attestationVerification
    attestationDigest := some (a.val.digest plat)
    effectiveEvidence := some weakest},?_,hadmitted,hweakest.symm⟩
  rw [verifyAttestation,built_passes hadmitted hcount hchain haccept]
  simp only [hfresh,conclude,admission,hweakest,if_true]

end Passing

end Agree

namespace Demo

theorem mem_hops {peer : PeerId} (h : peer ∈ plan₀.val.hopPeerIds) : peer = deviceLocal :=
  List.mem_singleton.mp h

theorem manifest_unique {m : PeerManifest FixedTime}
    (h : policy₀.val.peersById deviceLocal = some m) : m = localManifest platform keys windows :=
  Option.some.inj (h.symm.trans peersById_deviceLocal)

theorem honest_deviceLocal : Honest platform (localManifest platform keys windows)
    (LocalEd25519Signer.signer platform keys.deviceLocal) :=
  honest_signer platform rfl verify_sign

theorem honestFamily :
    HonestFamily platform plan₀.val policy₀.val (signers platform keys) := by
  intro peer hpeer m hm
  obtain rfl := mem_hops hpeer
  obtain rfl := manifest_unique hm
  exact ⟨_,by simp [signers],honest_deviceLocal⟩

theorem acceptable {now : FixedTime} (h : le (minutes 0) now = true) :
    Acceptable plan₀.val policy₀.val now (minutes 0) observedOnly := by
  refine ⟨⟨h,contain_noon.1,contain_noon.2.1⟩,?_⟩
  intro peer hpeer m hm
  obtain rfl := mem_hops hpeer
  obtain rfl := manifest_unique hm
  refine ⟨contain_noon.2.2,Nat.zero_le 1,fun floor hfloor => ?_⟩
  obtain rfl : .observed = floor := Option.some.inj hfloor
  exact le_refl 0

theorem builtChain : BuiltChain platform plan₀.val policy₀.val (minutes 0) observedOnly
    [deviceReceipt platform keys] := by
  intro j receipt hj
  obtain ⟨rfl,rfl⟩ : j = 0 ∧ deviceReceipt platform keys = receipt := by
    cases j with
    | zero => exact ⟨rfl,Option.some.inj hj⟩
    | succ j => simp at hj
  refine ⟨deviceLocal,_,_,rfl,peersById_deviceLocal,honest_deviceLocal,⟨_,rfl⟩,?_⟩
  have hpayload : (deviceReceipt platform keys).signingPayload platform =
      (unsignedDeviceReceipt platform keys).signingPayload platform :=
    signingPayload_signed (unsignedDeviceReceipt platform keys) _
  rw [hpayload]
  exact LocalEd25519Signer.verify_sign platform keys.deviceLocal (verify_sign _)

def attestation₀ : Validated (RouteAttestation FixedTime) :=
  ⟨⟨"locusmesh.route-attestation.v1",plan₀.val,[deviceReceipt platform keys]⟩,
    builtChain_check rfl (builtChain : BuiltChain platform plan₀.val policy₀.val _ _ _)⟩

theorem attestation_passes {now : FixedTime} (hnoon : le (minutes 0) now = true)
    (hnow : windows.Contain now) :
    checkAttestation platform policy₀.val now attestation₀.val =
      .ok (.inr ⟨baseDecision platform attestation₀ policy₀ now,attestation₀.val.digest platform,
        [.observed]⟩) :=
  built_passes (devicePlan_admitted_iff.mpr hnow) rfl builtChain (acceptable hnoon)

theorem attestation_admitted {now : FixedTime} (hnoon : le (minutes 0) now = true)
    (hnow : windows.Contain now) {σ : Type} (store : Option (ReplayStore σ)) (s : σ) {s' : σ}
    (hfresh : recordFresh store plan₀.val (attestation₀.val.digest platform) s = (.ok true,s')) :
    ∃ d, verifyAttestation platform policy₀.val now attestation₀.val store s = (.ok d,s') ∧
      d.admitted = true ∧ d.effectiveEvidence = some .observed := by
  have hadmitted : (baseDecision platform attestation₀ policy₀ now).admitted = true :=
    devicePlan_admitted_iff.mpr hnow
  have hrecord : recordFresh store attestation₀.val.plan (attestation₀.val.digest platform) s =
    (.ok true,s') := hfresh
  have hchain : BuiltChain platform attestation₀.val.plan policy₀.val (minutes 0) observedOnly
    attestation₀.val.receipts := builtChain
  have hlevels : attestation₀.val.receipts.map (fun r =>
    Attestation.effectiveEvidence r.evidenceLevel) = [.observed] := rfl
  have hbuilt := built_admitted hadmitted rfl hchain (acceptable hnoon) store s hrecord
  rwa [hlevels] at hbuilt

theorem mem_private_hops {peer : PeerId} (h : peer ∈ plan₁.val.hopPeerIds) :
    peer = deviceLocal ∨ peer = privatePeer := by
  rcases List.mem_cons.mp h with h | h
  · exact .inl h
  · exact .inr (List.mem_singleton.mp h)

theorem private_manifest_unique {m : PeerManifest FixedTime}
    (h : policy₀.val.peersById privatePeer = some m) : m = privateManifest platform keys windows :=
  Option.some.inj (h.symm.trans peersById_privatePeer)

theorem honest_privatePeer : Honest platform (privateManifest platform keys windows)
    (LocalEd25519Signer.signer platform keys.privatePeer) :=
  honest_signer platform rfl verify_sign_private

theorem private_honestFamily :
    HonestFamily platform plan₁.val policy₀.val (signers platform keys) := by
  have hne : (privatePeer == deviceLocal) = false := by decide
  intro peer hpeer m hm
  rcases mem_private_hops hpeer with rfl | rfl
  · obtain rfl := manifest_unique hm
    exact ⟨_,by simp [signers],honest_deviceLocal⟩
  · obtain rfl := private_manifest_unique hm
    exact ⟨_,by simp [signers,List.lookup,hne],honest_privatePeer⟩

theorem private_manifests {peer : PeerId} (hpeer : peer ∈ plan₁.val.hopPeerIds)
    {m : PeerManifest FixedTime} (hm : policy₀.val.peersById peer = some m) :
    m.evidenceLevel = .peerAsserted ∧ inWindow m.validFrom m.expiresAt (minutes 0) = true := by
  rcases mem_private_hops hpeer with rfl | rfl
  · rw [manifest_unique hm]
    exact ⟨rfl,contain_noon.2.2⟩
  · rw [private_manifest_unique hm]
    exact ⟨rfl,contain_noon.2.2⟩

theorem private_acceptable {now : FixedTime} (h : le (minutes 0) now = true) :
    Acceptable plan₁.val policy₀.val now (minutes 0) none := by
  refine ⟨⟨h,contain_noon.1,contain_noon.2.1⟩,?_⟩
  intro peer hpeer m hm
  obtain ⟨hlevel,hwindow⟩ := private_manifests hpeer hm
  refine ⟨hwindow,le_refl _,fun floor hfloor => ?_⟩
  obtain rfl : .peerAsserted = floor := Option.some.inj hfloor
  rw [chosenLevel,hlevel]
  exact le_refl 1

def signedBy (key : Ed25519PrivateKey) (r : HopReceipt FixedTime) : HopReceipt FixedTime :=
  {r with signature :=
    encodeBase64url (key.sign (canonicalJsonBytes (.obj (r.signingPayload platform))))}

theorem signedBy_verifies {key : Ed25519PrivateKey} (hkey : ∀ payload,
    platform.ed25519Verify key.publicBytes (key.sign payload) payload = .ok ())
    (r : HopReceipt FixedTime) : verifyEd25519 platform (LocalEd25519Signer.publicKey key).val
      (canonicalJsonBytes (.obj ((signedBy key r).signingPayload platform)))
      (signedBy key r).signature = true :=
  LocalEd25519Signer.verify_sign platform key (hkey _)

def unsignedFirst : HopReceipt FixedTime :=
  unsignedReceipt platform plan₁.val policy₀.val (minutes 0) none 0 deviceLocal none
    (some privatePeer) (localManifest platform keys windows)
    (LocalEd25519Signer.signer platform keys.deviceLocal) []

def firstReceipt : HopReceipt FixedTime := signedBy keys.deviceLocal unsignedFirst

def unsignedSecond : HopReceipt FixedTime :=
  unsignedReceipt platform plan₁.val policy₀.val (minutes 0) none 1 privatePeer
    (some deviceLocal) none (privateManifest platform keys windows)
    (LocalEd25519Signer.signer platform keys.privatePeer) [firstReceipt]

def secondReceipt : HopReceipt FixedTime := signedBy keys.privatePeer unsignedSecond

theorem private_chain : BuiltChain platform plan₁.val policy₀.val (minutes 0) none
    [firstReceipt,secondReceipt] := by
  intro j receipt hj
  match j, hj with
  | 0, hj =>
    obtain rfl : firstReceipt = receipt := Option.some.inj hj
    exact ⟨deviceLocal,_,_,rfl,peersById_deviceLocal,honest_deviceLocal,⟨_,rfl⟩,
      signedBy_verifies verify_sign unsignedFirst⟩
  | 1, hj =>
    obtain rfl : secondReceipt = receipt := Option.some.inj hj
    exact ⟨privatePeer,_,_,rfl,peersById_privatePeer,honest_privatePeer,⟨_,rfl⟩,
      signedBy_verifies verify_sign_private unsignedSecond⟩
  | j + 2, hj => cases hj

def attestation₁ : Validated (RouteAttestation FixedTime) :=
  ⟨⟨"locusmesh.route-attestation.v1",plan₁.val,[firstReceipt,secondReceipt]⟩,
    builtChain_check rfl (private_chain : BuiltChain platform plan₁.val policy₀.val _ _ _)⟩

theorem private_receipts : attestation₁.val.receipts = [firstReceipt,secondReceipt] := rfl

theorem private_second : attestation₁.val.receipts[1]? = some secondReceipt := by
  rw [private_receipts]
  rfl

theorem private_levels : attestation₁.val.receipts.map (fun r =>
    Attestation.effectiveEvidence r.evidenceLevel) = [.peerAsserted,.peerAsserted] := rfl

theorem private_passes {now : FixedTime} (hnoon : le (minutes 0) now = true)
    (hnow : windows.Contain now) :
    checkAttestation platform policy₀.val now attestation₁.val =
      .ok (.inr ⟨baseDecision platform attestation₁ policy₀ now,attestation₁.val.digest platform,
        [.peerAsserted,.peerAsserted]⟩) :=
  built_passes (privatePlan_admitted_iff.mpr hnow) rfl private_chain (private_acceptable hnoon)

theorem private_admitted {now : FixedTime} (hnoon : le (minutes 0) now = true)
    (hnow : windows.Contain now) {σ : Type} (store : Option (ReplayStore σ)) (s : σ) {s' : σ}
    (hfresh : recordFresh store plan₁.val (attestation₁.val.digest platform) s = (.ok true,s')) :
    ∃ d, verifyAttestation platform policy₀.val now attestation₁.val store s = (.ok d,s') ∧
      d.admitted = true ∧ d.effectiveEvidence = some .peerAsserted := by
  have hadmitted : (baseDecision platform attestation₁ policy₀ now).admitted = true :=
    privatePlan_admitted_iff.mpr hnow
  have hrecord : recordFresh store attestation₁.val.plan (attestation₁.val.digest platform) s =
    (.ok true,s') := hfresh
  have hchain : BuiltChain platform attestation₁.val.plan policy₀.val (minutes 0) none
    attestation₁.val.receipts := private_chain
  have hbuilt := built_admitted hadmitted rfl hchain (private_acceptable hnoon) store s hrecord
  rwa [private_levels] at hbuilt

end Demo

/-- Builder and verifier agree: what honest signers build is admitted exactly when the
observation time and the chosen levels are acceptable. -/
theorem build_verify_agree {τ : Type} [AwareDatetime τ] (plat : Platform)
    (plan : Validated (RoutePlan τ)) (policy : Validated (AdmissionPolicy τ)) (now : τ)
    (hadmits : ∃ base, admitPlan plat plan.val policy.val now = .ok base ∧ base.admitted = true)
    (signers : PeerId → Option Signer)
    (hsigners : HonestFamily plat plan.val policy.val signers)
    (evidenceLevels : Option (PeerId → Option EvidenceLevel)) (observedAt : τ) :
    ∃ attestation d,
      buildAttestation plat plan.val policy.val signers observedAt evidenceLevels =
        .ok attestation ∧
      verify plat policy.val now attestation = .ok d ∧
      (d.admitted = true ↔ Acceptable plan.val policy.val now observedAt evidenceLevels) ∧
      (d.admitted = true → d.checkedHops = plan.val.hopPeerIds.length ∧
        ∃ weakest, d.effectiveEvidence = some weakest ∧
          weakest ∈ cappedLevels plan.val policy.val evidenceLevels ∧
          ∀ level ∈ cappedLevels plan.val policy.val evidenceLevels,
            Attestation.evidenceRank weakest ≤ Attestation.evidenceRank level) := by
  obtain ⟨base,hbase,hadmitted⟩ := hadmits
  rw [admitPlan_eq,Except.ok.injEq] at hbase
  rw [← hbase] at hadmitted
  obtain ⟨required,hg⟩ := grounded_of_admitted plat plan policy now hadmitted
  obtain ⟨receipts,hbuild,hcount,hchain⟩ :=
    buildAttestation_eq plan policy.val observedAt evidenceLevels hsigners hg.manifest
  have hkeys : ∀ peer ∈ plan.val.hopPeerIds, ∀ m, policy.val.peersById peer = some m →
      deriveKeyId plat m.publicKey.val = .ok m.keyId :=
    fun _ hpeer _ hm => keyBinding_of_admitted plan now hadmitted hpeer hm
  let attestation : Validated (RouteAttestation τ) :=
    ⟨⟨"locusmesh.route-attestation.v1",plan.val,receipts⟩,builtChain_check hcount hchain⟩
  have hsilent : verifyReasons plat attestation.val policy.val now required = [] ↔
      Acceptable plan.val policy.val now observedAt evidenceLevels := by
    rw [verifyReasons_eq_nil plat (fun _ _ => Iff.rfl) hg,
      ← builtChain_exact_iff hg hkeys hcount hchain]
    exact and_iff_right hcount
  rcases verify_cases plat attestation policy now with
    ⟨hdenied,_⟩ | ⟨other,_,hother,⟨hreasons,hverify⟩ | ⟨hreasons,weakest,hweakest,hverify⟩⟩
  · exact absurd (hadmitted.symm.trans hdenied) (by simp)
  · obtain rfl : other = required := Option.some.inj (hother.floor.symm.trans hg.floor)
    refine ⟨_,_,hbuild,hverify,⟨fun h => ?_,fun h => ?_⟩,fun h => ?_⟩
    · exact absurd h (by simp [deny])
    · exact absurd (hsilent.mpr h) hreasons
    · exact absurd h (by simp [deny])
  · obtain rfl : other = required := Option.some.inj (hother.floor.symm.trans hg.floor)
    refine ⟨_,_,hbuild,hverify,⟨fun _ => hsilent.mp hreasons,fun _ => hadmitted⟩,fun _ => ?_⟩
    obtain ⟨hmem,hmin⟩ := minBy_spec hweakest
    refine ⟨rfl,weakest,rfl,(mem_builtLevels hcount hchain).mp hmem,fun level hlevel => ?_⟩
    exact hmin level ((mem_builtLevels hcount hchain).mpr hlevel)

/-- The demo's private attestation over two hops, which claim what their manifests do. -/
theorem build_verify_agree_demo : ∃ attestation d,
    buildAttestation Demo.platform Demo.plan₁.val Demo.policy₀.val
      (Demo.signers Demo.platform Demo.keys) (Demo.minutes 0) none = .ok attestation ∧
    verify Demo.platform Demo.policy₀.val (Demo.minutes 0) attestation = .ok d ∧
    d.admitted = true ∧ d.checkedHops = 2 ∧ d.effectiveEvidence = some .peerAsserted := by
  obtain ⟨attestation,d,hbuild,hverify,hadmitted,heffective⟩ := build_verify_agree Demo.platform
    Demo.plan₁ Demo.policy₀ (Demo.minutes 0)
    ⟨_,admitPlan_eq Demo.platform Demo.plan₁ Demo.policy₀ (Demo.minutes 0),
      Demo.privatePlan_admitted_iff.mpr Demo.contain_noon⟩
    (Demo.signers Demo.platform Demo.keys) Demo.private_honestFamily none (Demo.minutes 0)
  have haccept :=
    Demo.private_acceptable (show le (Demo.minutes 0) (Demo.minutes 0) = true by decide)
  obtain ⟨hhops,weakest,hweakest,hmem,_⟩ := heffective (hadmitted.mpr haccept)
  refine ⟨attestation,d,hbuild,hverify,hadmitted.mpr haccept,hhops,?_⟩
  obtain ⟨peer,hpeer,hlevel⟩ := List.mem_filterMap.mp hmem
  obtain ⟨m,hm,rfl⟩ := Option.map_eq_some_iff.mp hlevel
  rw [hweakest,chosenLevel,(Demo.private_manifests hpeer hm).1]
  rfl

end LocusMesh
