import Mathlib
import LocusMesh.Registry
import LocusMesh.Splicing

/-! Who stands behind an admitted attestation. A holder of a key signs in runs of
`build_attestation` only; what a verifier admits on such a key was signed in a run for the same
plan and policy, over the receipts that stand before it. -/
namespace LocusMesh

open CanonicalJson PyCollections AwareClock HashChain Fallible Linearization

/-- The arguments of a run of `build_attestation`. -/
structure BuildRun (τ : Type) [AwareDatetime τ] where
  plan : Validated (RoutePlan τ)
  policy : Validated (AdmissionPolicy τ)
  signers : PeerId → Option Signer
  observedAt : τ
  evidenceLevels : Option (PeerId → Option EvidenceLevel)

section Building

variable {τ : Type} [AwareDatetime τ] (plat : Platform)

def HopReceipt.signedBytes (r : HopReceipt τ) : List UInt8 :=
  canonicalJsonBytes (.obj (r.signingPayload plat))

namespace BuildRun

variable (run : BuildRun τ)

/-- `mapping[peer_id]`. -/
def subscript {α : Type} (peerId : PeerId) : Option α → Except PyError α
  | none => .error (.keyError peerId.val)
  | some a => .ok a

def presented (index : ℕ) (peerId : PeerId) (receipts : List (HopReceipt τ)) :
    Except PyError (Signer × HopReceipt τ) := do
  let signer ← subscript peerId (run.signers peerId)
  let manifest ← subscript peerId (run.policy.val.peersById peerId)
  let previous ← itemBefore run.plan.val.hopPeerIds index
  let next ← itemAfter run.plan.val.hopPeerIds index
  let unsigned ← (unsignedReceipt plat run.plan.val run.policy.val run.observedAt
    run.evidenceLevels index peerId previous next manifest signer receipts).construct
  .ok (signer,unsigned)

def build (index : ℕ) (peerId : PeerId) (receipts : List (HopReceipt τ)) :
    Except PyError (HopReceipt τ) :=
  buildReceipt plat run.plan.val run.policy.val run.signers run.observedAt run.evidenceLevels index
    peerId receipts

/-- The calls of `sign` that the loop makes, each with the key of its signer. -/
def signings (index : ℕ) (receipts : List (HopReceipt τ)) :
    List PeerId → List (String × List UInt8)
  | [] => []
  | peerId :: rest =>
    match run.presented plat index peerId receipts with
    | .error _ => []
    | .ok (signer,unsigned) =>
      (signer.publicKey,unsigned.signedBytes plat) ::
        match run.build plat index peerId receipts with
        | .error _ => []
        | .ok receipt => signings (index + 1) (receipts ++ [receipt]) rest

/-- The calls of `sign` of the whole run. -/
def signed : List (String × List UInt8) := run.signings plat 0 [] run.plan.val.hopPeerIds

/-- The receipts that the loop has built before some turn. -/
inductive Built : List (HopReceipt τ) → Prop
  | nil : Built []
  | snoc {receipts : List (HopReceipt τ)} {peerId : PeerId} {receipt : HopReceipt τ}
    (hbuilt : Built receipts) (hpeer : run.plan.val.hopPeerIds[receipts.length]? = some peerId)
    (hbuild : run.build plat receipts.length peerId receipts = .ok receipt) :
    Built (receipts ++ [receipt])

variable {run plat}

theorem presented_ok {index : ℕ} {peerId : PeerId} {receipts : List (HopReceipt τ)}
    {signer : Signer} {unsigned : HopReceipt τ}
    (h : run.presented plat index peerId receipts = .ok (signer,unsigned)) :
    unsigned.routePlanDigest = sha256Digest plat (run.plan.val.dump plat) ∧
    unsigned.policyDigest = policyDigest plat run.policy.val ∧
    unsigned.previousReceiptDigest = receipts.getLast?.map (HopReceipt.digest plat) := by
  rw [presented] at h
  obtain ⟨signer',_,h⟩ := bind_ok.mp h
  obtain ⟨manifest,_,h⟩ := bind_ok.mp h
  obtain ⟨previous,_,h⟩ := bind_ok.mp h
  obtain ⟨next,_,h⟩ := bind_ok.mp h
  obtain ⟨body,hbody,h⟩ := bind_ok.mp h
  obtain ⟨_,rfl⟩ : signer' = signer ∧ body = unsigned := by simpa using h
  unfold HopReceipt.construct at hbody
  split at hbody
  · rw [← Except.ok.inj hbody]
    exact ⟨rfl,rfl,rfl⟩
  · cases hbody

theorem presented_of_check {index : ℕ} {peerId : PeerId} {receipts : List (HopReceipt τ)}
    {signer : Signer} {manifest : PeerManifest τ} {previous next : Option PeerId}
    (hsigner : run.signers peerId = some signer)
    (hmanifest : run.policy.val.peersById peerId = some manifest)
    (hprevious : itemBefore run.plan.val.hopPeerIds index = .ok previous)
    (hnext : itemAfter run.plan.val.hopPeerIds index = .ok next)
    (hcheck : (unsignedReceipt plat run.plan.val run.policy.val run.observedAt run.evidenceLevels
      index peerId previous next manifest signer receipts).check = .ok ()) :
    run.presented plat index peerId receipts = .ok (signer,unsignedReceipt plat run.plan.val
      run.policy.val run.observedAt run.evidenceLevels index peerId previous next manifest signer
        receipts) := by
  rw [presented,hsigner,hmanifest,hprevious,hnext]
  refine bind_ok.mpr ⟨signer,rfl,bind_ok.mpr ⟨manifest,rfl,bind_ok.mpr ⟨previous,rfl,
    bind_ok.mpr ⟨next,rfl,bind_ok.mpr ⟨_,?_,rfl⟩⟩⟩⟩⟩
  rw [HopReceipt.construct,hcheck]

theorem build_eq (index : ℕ) (peerId : PeerId) (receipts : List (HopReceipt τ)) :
    run.build plat index peerId receipts = (do
      let (signer,unsigned) ← run.presented plat index peerId receipts
      let signature ← signer.sign (unsigned.signedBytes plat)
      .ok {unsigned with signature := signature}) := by
  rw [build,buildReceipt,presented]
  cases run.signers peerId with
  | none => rfl
  | some signer =>
    cases run.policy.val.peersById peerId with
    | none => rfl
    | some manifest =>
      cases itemBefore run.plan.val.hopPeerIds index with
      | error e => rfl
      | ok previous =>
        cases itemAfter run.plan.val.hopPeerIds index with
        | error e => rfl
        | ok next =>
          simp only [subscript,bind,Except.bind]
          cases (unsignedReceipt plat run.plan.val run.policy.val run.observedAt
            run.evidenceLevels index peerId previous next manifest signer receipts).construct with
          | error e => rfl
          | ok unsigned => rfl

theorem build_of_presented {index : ℕ} {peerId : PeerId} {receipts : List (HopReceipt τ)}
    {signer : Signer} {unsigned : HopReceipt τ} {signature : String}
    (h : run.presented plat index peerId receipts = .ok (signer,unsigned))
    (hsign : signer.sign (unsigned.signedBytes plat) = .ok signature) :
    run.build plat index peerId receipts = .ok {unsigned with signature := signature} := by
  rw [build_eq,h]
  exact bind_ok.mpr ⟨(signer,unsigned),rfl,bind_ok.mpr ⟨signature,hsign,rfl⟩⟩

theorem build_ok {index : ℕ} {peerId : PeerId} {receipts : List (HopReceipt τ)}
    {receipt : HopReceipt τ} (h : run.build plat index peerId receipts = .ok receipt) :
    ∃ signer unsigned signature, run.presented plat index peerId receipts = .ok (signer,unsigned) ∧
      receipt = {unsigned with signature := signature} := by
  rw [build_eq] at h
  obtain ⟨⟨signer,unsigned⟩,hpresented,h⟩ := bind_ok.mp h
  obtain ⟨signature,_,h⟩ := bind_ok.mp h
  exact ⟨signer,unsigned,signature,hpresented,(Except.ok.inj h).symm⟩

/-- Every call of `sign` presents the receipt of its hop over a built front. -/
theorem mem_signings {receipts : List (HopReceipt τ)} {hops : List PeerId}
    (hhops : run.plan.val.hopPeerIds.drop receipts.length = hops)
    (hbuilt : run.Built plat receipts) {key : String} {payload : List UInt8}
    (h : (key,payload) ∈ run.signings plat receipts.length receipts hops) :
    ∃ front peerId signer unsigned, run.Built plat front ∧
      run.plan.val.hopPeerIds[front.length]? = some peerId ∧
      run.presented plat front.length peerId front = .ok (signer,unsigned) ∧
      signer.publicKey = key ∧ unsigned.signedBytes plat = payload := by
  induction hops generalizing receipts with
  | nil => simp [signings] at h
  | cons peerId hops ih =>
    have hpeer : run.plan.val.hopPeerIds[receipts.length]? = some peerId := by
      rw [← List.head?_drop,hhops,List.head?_cons]
    rw [signings] at h
    cases hpresented : run.presented plat receipts.length peerId receipts with
    | error e => simp [hpresented] at h
    | ok presented =>
      obtain ⟨signer,unsigned⟩ := presented
      simp only [hpresented,List.mem_cons,Prod.mk.injEq] at h
      rcases h with ⟨hkey,hpayload⟩ | h
      · exact ⟨receipts,peerId,signer,unsigned,hbuilt,hpeer,hpresented,hkey.symm,hpayload.symm⟩
      · cases hbuild : run.build plat receipts.length peerId receipts with
        | error e => simp [hbuild] at h
        | ok receipt =>
          have hlength : (receipts ++ [receipt]).length = receipts.length + 1 := by simp
          have hrest : run.plan.val.hopPeerIds.drop (receipts ++ [receipt]).length = hops := by
            rw [hlength,← List.tail_drop,hhops,List.tail_cons]
          simp only [hbuild,← hlength] at h
          exact ih hrest (hbuilt.snoc hpeer hbuild) h

theorem Built.linked {receipts : List (HopReceipt τ)} (h : run.Built plat receipts) :
    Linked (HopReceipt.digest plat) HopReceipt.previousReceiptDigest
      (receipts.map HopReceipt.rendered) := by
  induction h with
  | nil => exact linked_nil
  | snoc hbuilt hpeer hbuild ih =>
    rename_i receipts peerId receipt
    obtain ⟨signer,unsigned,signature,hpresented,rfl⟩ := build_ok hbuild
    rw [List.map_append,List.map_singleton]
    refine ih.snoc ?_
    rw [List.getLast?_map,Option.map_map]
    exact (presented_ok hpresented).2.2

end BuildRun

/-- The signed body, as rendered, is all of a receipt but its signature. -/
theorem HopReceipt.signedBytes_inj (hf : plat.FaithfulTimes) {r s : HopReceipt τ}
    (h : r.signedBytes plat = s.signedBytes plat) :
    {r.rendered with signature := s.signature} = s.rendered := by
  have hkeys : sortKeys (.obj (r.rendered.signingPayload plat)) =
      sortKeys (.obj (s.rendered.signingPayload plat)) :=
    dumps_injective (encodeUtf8_injective h)
  rw [sortKeys_record (by rfl) (by simp [signingPayload])] at hkeys
  simp only [signingPayload,sortEntries,List.cons.injEq,Prod.mk.injEq,true_and,and_true,
    sortKeys_str,sortKeys_text,sortKeys_optional,sortKeys_timestamp hf,sortKeys_int,
    Int.natCast_inj,ExecutionIntent.value_injective.eq_iff,
    EvidenceLevel.value_injective.eq_iff] at hkeys
  have hsignature : s.signature = s.rendered.signature := rfl
  rw [HopReceipt.ext_iff]
  simp only [hkeys,hsignature,and_self]

end Building

section Calls

variable {τ : Type} [AwareDatetime τ] {plat : Platform}

/-- Behind an admitted decision stands a call that passed every check but that for a replay. -/
theorem pending_of_admitted {attestation : Validated (RouteAttestation τ)}
    {policy : Validated (AdmissionPolicy τ)} {now : τ} {σ : Type} {store : Option (ReplayStore σ)}
    {s : σ} {d : AdmissionDecision τ}
    (hverify : (verifyAttestation plat policy.val now attestation.val store s).1 = .ok d)
    (hadmitted : d.admitted = true) : ∃ call : PendingCall τ plat,
      call.attestation = attestation ∧ call.policy = policy ∧ call.now = now := by
  cases hcheck : checkAttestation plat policy.val now attestation.val with
  | error e =>
    rw [verifyAttestation,hcheck] at hverify
    cases hverify
  | ok result =>
    cases result with
    | inl denied =>
      rw [verifyAttestation,hcheck] at hverify
      rw [← Except.ok.inj hverify,(refused_of_check hcheck).1] at hadmitted
      cases hadmitted
    | inr verified => exact ⟨⟨attestation,policy,now,verified,hcheck⟩,rfl,rfl,rfl⟩

variable (call : PendingCall τ plat)

theorem PendingCall.exact {i : ℕ} {receipt : HopReceipt τ}
    (hi : call.attestation.val.receipts[i]? = some receipt) :
    ∃ peer manifest, call.attestation.val.plan.hopPeerIds[i]? = some peer ∧
      call.policy.val.peersById peer = some manifest ∧
      ReceiptExact (fun a b => lt a b = true) plat call.attestation.val.plan call.policy.val
        call.now i peer manifest (precursor call.attestation.val.receipts i) receipt := by
  have hpassed := call.passed
  rcases checkAttestation_cases plat call.attestation call.policy call.now with
    ⟨_,hcheck⟩ | ⟨_,_,hg,⟨_,hcheck⟩ | ⟨hsilent,_⟩⟩
  · rw [hcheck] at hpassed
    cases hpassed
  · rw [hcheck] at hpassed
    cases hpassed
  · obtain ⟨hcount,hexact⟩ := (verifyReasons_eq_nil plat (fun _ _ => Iff.rfl) hg).mp hsilent
    have hlt := (List.getElem?_eq_some_iff.mp hi).1
    have hpeer := List.getElem?_eq_getElem (hcount ▸ hlt)
    obtain ⟨manifest,hmem,hid,he⟩ := hexact i _ receipt hpeer hi
    exact ⟨_,manifest,hpeer,mem_peersById.mpr ⟨hmem,hid⟩,he⟩

theorem PendingCall.linked :
    Linked (HopReceipt.digest plat) HopReceipt.previousReceiptDigest
      (call.attestation.val.receipts.map HopReceipt.rendered) := by
  intro i r hr
  rw [List.getElem?_map,Option.map_eq_some_iff] at hr
  obtain ⟨receipt,hi,rfl⟩ := hr
  obtain ⟨_,_,_,_,he⟩ := call.exact hi
  rw [precursor_map,Option.map_map]
  exact he.bound.previousReceiptDigest

end Calls

section Agreement

variable {τ : Type} [AwareDatetime τ] (plat : Platform)

def BuildRun.receiptBytes (run : BuildRun τ) : Set (List UInt8) :=
  {bytes | ∃ receipts, run.Built plat receipts ∧
    ∃ r ∈ receipts, bytes = canonicalJsonBytes (r.dump plat)}

/-- No two of the corresponding bodies that a run and a verification hash have one SHA-256
digest. -/
structure BuildRun.NoCollision (run : BuildRun τ) (a : RouteAttestation τ)
    (policy : AdmissionPolicy τ) : Prop where
  plans : CollisionFree plat {canonicalJsonBytes (run.plan.val.dump plat),
    canonicalJsonBytes (a.plan.dump plat)}
  policies : CollisionFree plat {canonicalJsonBytes (run.policy.val.digestBody plat),
    canonicalJsonBytes (policy.digestBody plat)}
  topologies : CollisionFree plat {canonicalJsonBytes (run.policy.val.topology.digestBody plat),
    canonicalJsonBytes (policy.topology.digestBody plat)}
  receipts : CollisionFree plat (run.receiptBytes plat ∪ a.receiptBytes plat)

/-- A run is for the plan and the policy of an attestation, and has built the receipts before
position `i` when it presents the receipt that stands there to the holder of a key. -/
structure BuildRun.Backs (run : BuildRun τ) (a : RouteAttestation τ) (policy : AdmissionPolicy τ)
    (key : PublicKey) (i : ℕ) (receipt : HopReceipt τ) : Prop where
  plan : run.plan.val.rendered = a.plan.rendered
  policy : SamePolicy run.policy.val.rendered policy.rendered
  turn : ∃ front peerId signer unsigned, run.Built plat front ∧
    front.map HopReceipt.rendered = (a.receipts.take i).map HopReceipt.rendered ∧
    run.plan.val.hopPeerIds[front.length]? = some peerId ∧
    run.presented plat front.length peerId front = .ok (signer,unsigned) ∧
    signer.publicKey = key.val ∧
    {unsigned.rendered with signature := receipt.signature} = receipt.rendered

variable {plat}

/-- A run that has signed a receipt of an admitted attestation backs it. -/
theorem BuildRun.backs_of_signed (hf : plat.FaithfulTimes) (call : PendingCall τ plat)
    {run : BuildRun τ} (hc : run.NoCollision plat call.attestation.val call.policy.val) {i : ℕ}
    {receipt : HopReceipt τ} (hi : call.attestation.val.receipts[i]? = some receipt)
    {key : PublicKey} (hsigned : (key.val,receipt.signedBytes plat) ∈ run.signed plat) :
    run.Backs plat call.attestation.val call.policy.val key i receipt := by
  obtain ⟨peer,manifest,_,_,hexact⟩ := call.exact hi
  obtain ⟨front,peerId,signer,unsigned,hbuilt,hpeer,hpresented,hkey,hbytes⟩ :=
    mem_signings rfl .nil hsigned
  have hsame := HopReceipt.signedBytes_inj plat hf hbytes
  obtain ⟨hplan,hpolicy,hprevious⟩ := presented_ok hpresented
  have hfields : unsigned.routePlanDigest = receipt.routePlanDigest ∧
      unsigned.policyDigest = receipt.policyDigest ∧
      unsigned.previousReceiptDigest = receipt.previousReceiptDigest :=
    ⟨(congrArg HopReceipt.routePlanDigest hsame :),(congrArg HopReceipt.policyDigest hsame :),
      (congrArg HopReceipt.previousReceiptDigest hsame :)⟩
  refine ⟨?_,?_,front,peerId,signer,unsigned,hbuilt,?_,hpeer,hpresented,hkey,hsame⟩
  · have hdigest := hplan.symm.trans (hfields.1.trans hexact.bound.routePlanDigest)
    exact (RoutePlan.dump_inj hf _ _).mp ((sha256Digest_eq_iff hc.plans).mp hdigest)
  · have hdigest := hpolicy.symm.trans (hfields.2.1.trans hexact.bound.policyDigest)
    exact (policyDigest_eq_iff hf run.policy call.policy hc.policies hc.topologies).mp hdigest
  · have hinj : ∀ x ∈ front.map HopReceipt.rendered,
        ∀ y ∈ call.attestation.val.receipts.map HopReceipt.rendered,
        x.digest plat = y.digest plat → x = y := by
      intro x hx y hy hxy
      obtain ⟨v,hv,rfl⟩ := List.mem_map.mp hx
      obtain ⟨w,hw,rfl⟩ := List.mem_map.mp hy
      exact (HopReceipt.dump_inj hf _ _).mp
        (sha256Digest_inj hc.receipts (.inl ⟨front,hbuilt,v,hv,rfl⟩) (.inr ⟨w,hw,rfl⟩) hxy)
    have hle : i ≤ (call.attestation.val.receipts.map HopReceipt.rendered).length := by
      rw [List.length_map]
      exact (List.getElem?_eq_some_iff.mp hi).1.le
    rw [List.map_take]
    refine hbuilt.linked.eq_take call.linked hinj hle ?_
    rw [List.getLast?_map,precursor_map,Option.map_map,Option.map_map]
    exact hprevious.symm.trans (hfields.2.2.trans hexact.bound.previousReceiptDigest)

variable (plat) in
/-- The holder of a key signs in the runs only: a receipt that verifies under the key was signed
in one of them. -/
def SignedIn (runs : Set (BuildRun τ)) (key : PublicKey) (receipt : HopReceipt τ) : Prop :=
  verifyEd25519 plat key.val (receipt.signedBytes plat) receipt.signature = true →
    ∃ run ∈ runs, (key.val,receipt.signedBytes plat) ∈ run.signed plat

theorem PendingCall.backed (hf : plat.FaithfulTimes) (call : PendingCall τ plat)
    {runs : Set (BuildRun τ)} {i : ℕ} {peer : PeerId} {manifest : PeerManifest τ}
    {receipt : HopReceipt τ} (hi : call.attestation.val.receipts[i]? = some receipt)
    (hpeer : call.attestation.val.plan.hopPeerIds[i]? = some peer)
    (hmanifest : call.policy.val.peersById peer = some manifest)
    (hsigned : SignedIn plat runs manifest.publicKey receipt)
    (hc : ∀ run ∈ runs, run.NoCollision plat call.attestation.val call.policy.val) :
    ∃ run ∈ runs,
      run.Backs plat call.attestation.val call.policy.val manifest.publicKey i receipt := by
  obtain ⟨peer',manifest',hpeer',hmanifest',hexact⟩ := call.exact hi
  obtain rfl : peer = peer' := Option.some.inj (hpeer.symm.trans hpeer')
  obtain rfl : manifest = manifest' := Option.some.inj (hmanifest.symm.trans hmanifest')
  obtain ⟨run,hrun,hmem⟩ := hsigned hexact.signed.signature
  exact ⟨run,hrun,BuildRun.backs_of_signed hf call (hc run hrun) hi hmem⟩

end Agreement

/-- Whatever else is forged: at a hop whose key is used for building only, an admitted
attestation shows a receipt that was signed in a run of `build_attestation` for the same plan
and policy, behind the very receipts that the run had built before. -/
theorem hop_agreement {τ : Type} [AwareDatetime τ] (plat : Platform) (hf : plat.FaithfulTimes)
    (runs : Set (BuildRun τ)) (attestation : Validated (RouteAttestation τ))
    (policy : Validated (AdmissionPolicy τ)) (now : τ) {σ : Type} (store : Option (ReplayStore σ))
    (s : σ) (d : AdmissionDecision τ)
    (hverify : (verifyAttestation plat policy.val now attestation.val store s).1 = .ok d)
    (hadmitted : d.admitted = true) (i : ℕ) (peer : PeerId) (manifest : PeerManifest τ)
    (receipt : HopReceipt τ) (hi : attestation.val.receipts[i]? = some receipt)
    (hpeer : attestation.val.plan.hopPeerIds[i]? = some peer)
    (hmanifest : policy.val.peersById peer = some manifest)
    (hsigned : SignedIn plat runs manifest.publicKey receipt)
    (hc : ∀ run ∈ runs, run.NoCollision plat attestation.val policy.val) :
    ∃ run ∈ runs, run.Backs plat attestation.val policy.val manifest.publicKey i receipt := by
  obtain ⟨call,rfl,rfl,_⟩ := pending_of_admitted hverify hadmitted
  exact call.backed hf hi hpeer hmanifest hsigned hc

section Injective

variable {τ : Type} [AwareDatetime τ] {plat : Platform}

def admits : Answer τ → Bool
  | .ok d => d.admitted
  | .error _ => false

def admittedCalls {ι : Type} (past : List (Event ι (VerifyCall τ) (Answer τ))) :
    List (VerifyCall τ) :=
  ((past.filterMap Event.performed).filter fun answered => admits answered.2).map Prod.fst

variable {past : List (VerifyCall τ × Answer τ)} {rows : List NonceRow}

theorem legal_admitted (h : Legal (verifier plat τ) past rows)
    {before after : List (VerifyCall τ × Answer τ)} {call : VerifyCall τ} {answer : Answer τ}
    (hpast : past = before ++ (call,answer) :: after) (hadmits : admits answer = true) :
    call.Passes plat ∧ ∀ earlier ∈ before, earlier.1.Passes plat → earlier.1.nonce ≠ call.nonce := by
  obtain ⟨d,rfl,hd⟩ := legal_admits h hpast
  exact hd.mp hadmits

theorem legal_nodup (h : Legal (verifier plat τ) past rows) :
    (((past.filter fun answered => admits answered.2).map Prod.fst).map
      VerifyCall.nonce).Nodup := by
  suffices hsuffix : ∀ rest before : List (VerifyCall τ × Answer τ), past = before ++ rest →
      (((rest.filter fun answered => admits answered.2).map Prod.fst).map
        VerifyCall.nonce).Nodup from hsuffix past [] rfl
  intro rest
  induction rest with
  | nil => exact fun _ _ => List.nodup_nil
  | cons answered rest ih =>
    intro before hpast
    have hrest := ih (before ++ [answered]) (by rw [hpast,List.append_assoc]; rfl)
    by_cases hadmits : admits answered.2 = true
    · rw [List.filter_cons,if_pos hadmits,List.map_cons,List.map_cons,List.nodup_cons]
      refine ⟨fun hmem => ?_,hrest⟩
      simp only [List.mem_map,List.mem_filter] at hmem
      obtain ⟨_,⟨later,⟨hlater,hadmitted⟩,rfl⟩,hsame⟩ := hmem
      obtain ⟨between,after,rfl⟩ := List.append_of_mem hlater
      have hsplit : past = (before ++ answered :: between) ++ later :: after := by
        rw [hpast,List.append_assoc]
        rfl
      have hnew := (legal_admitted h hsplit hadmitted).2
      exact hnew answered (by simp) (legal_admitted h hpast hadmits).1 hsame.symm
    · rw [List.filter_cons,if_neg hadmits]
      exact hrest

variable (plat) in
/-- Some hop of the attestation has a key that is used for building only. -/
def Vouched (runs : Set (BuildRun τ)) (a : RouteAttestation τ) (policy : AdmissionPolicy τ) : Prop :=
  ∃ (i : ℕ) (peer : PeerId) (manifest : PeerManifest τ) (receipt : HopReceipt τ),
    a.receipts[i]? = some receipt ∧ a.plan.hopPeerIds[i]? = some peer ∧
    policy.peersById peer = some manifest ∧ SignedIn plat runs manifest.publicKey receipt ∧
    ∀ run ∈ runs, run.NoCollision plat a policy

variable (plat) in
def BuildRun.BacksCall (run : BuildRun τ) (call : VerifyCall τ) : Prop :=
  ∃ (key : PublicKey) (i : ℕ) (receipt : HopReceipt τ),
    call.attestation.val.receipts[i]? = some receipt ∧
    run.Backs plat call.attestation.val call.policy.val key i receipt

theorem BuildRun.BacksCall.nonce {run : BuildRun τ} {call : VerifyCall τ}
    (h : run.BacksCall plat call) : call.nonce = run.plan.val.nonce.val := by
  obtain ⟨_,_,_,_,hbacks⟩ := h
  exact congrArg Subtype.val (congrArg RoutePlan.nonce hbacks.plan :).symm

theorem VerifyCall.backed (hf : plat.FaithfulTimes) {call : VerifyCall τ}
    {runs : Set (BuildRun τ)} (hpasses : call.Passes plat)
    (hvouched : Vouched plat runs call.attestation.val call.policy.val) :
    ∃ run, run ∈ runs ∧ run.BacksCall plat call := by
  obtain ⟨verified,hpassed⟩ := hpasses
  obtain ⟨i,peer,manifest,receipt,hi,hpeer,hmanifest,hsigned,hc⟩ := hvouched
  let pending : PendingCall τ plat := ⟨call.attestation,call.policy,call.now,verified,hpassed⟩
  obtain ⟨run,hrun,hbacks⟩ := pending.backed hf hi hpeer hmanifest hsigned hc
  exact ⟨run,hrun,manifest.publicKey,i,receipt,hi,hbacks⟩

end Injective

theorem exists_forall₂ {α β : Type*} {R : α → β → Prop} {l : List α}
    (h : ∀ a ∈ l, ∃ b, R a b) : ∃ m, List.Forall₂ R l m := by
  induction l with
  | nil => exact ⟨[],.nil⟩
  | cons a l ih =>
    obtain ⟨b,hb⟩ := h a List.mem_cons_self
    obtain ⟨m,hm⟩ := ih fun a ha => h a (List.mem_cons_of_mem _ ha)
    exact ⟨b :: m,.cons hb hm⟩

/-- Processes that share a database admit, however they interleave, at most one attestation for
each run of `build_attestation`: every admitted call is backed by a run, and no two by the same. -/
theorem admissions_injective {τ : Type} [AwareDatetime τ] (plat : Platform)
    (hf : plat.FaithfulTimes) {ι : Type} [DecidableEq ι] (file : DatabaseFile)
    (runs : Set (BuildRun τ)) (past : List (Event ι (VerifyCall τ) (Answer τ)))
    (s : Shared τ plat ι) (h : VerifierHistory file past s)
    (hvouched : ∀ answered ∈ past.filterMap Event.performed, answered.1.Passes plat →
      Vouched plat runs answered.1.attestation.val answered.1.policy.val) :
    ∃ behind : List (BuildRun τ), behind.Nodup ∧
      List.Forall₂ (fun call run => run ∈ runs ∧ run.BacksCall plat call) (admittedCalls past)
        behind := by
  have hlegal := (h.linearized fun _ => view_initial).legal
  obtain ⟨behind,hbehind⟩ : ∃ behind, List.Forall₂
      (fun call run => run ∈ runs ∧ run.BacksCall plat call) (admittedCalls past) behind := by
    refine exists_forall₂ fun call hcall => ?_
    obtain ⟨answered,hanswered,rfl⟩ := List.mem_map.mp hcall
    obtain ⟨hperformed,hadmits⟩ := List.mem_filter.mp hanswered
    obtain ⟨before,after,hsplit⟩ := List.append_of_mem hperformed
    have hpasses := (legal_admitted hlegal hsplit hadmits).1
    exact VerifyCall.backed hf hpasses (hvouched answered hperformed hpasses)
  refine ⟨behind,?_,hbehind⟩
  have hnonces : (admittedCalls past).map VerifyCall.nonce =
      behind.map fun run => run.plan.val.nonce.val := by
    rw [← List.forall₂_eq_eq_eq,List.forall₂_map_left_iff,List.forall₂_map_right_iff]
    exact hbehind.imp fun _ _ hrun => hrun.2.nonce
  refine List.Nodup.of_map (fun run => run.plan.val.nonce.val) ?_
  rw [← hnonces]
  exact legal_nodup hlegal

namespace Demo

def run₁ : BuildRun FixedTime := ⟨plan₁,policy₀,signers platform keys,minutes 0,none⟩

theorem presented_first : run₁.presented platform 0 deviceLocal [] =
    .ok (LocalEd25519Signer.signer platform keys.deviceLocal,unsignedFirst) := by
  have hsigner : run₁.signers deviceLocal =
      some (LocalEd25519Signer.signer platform keys.deviceLocal) := by simp [run₁,signers]
  have hmanifest : run₁.policy.val.peersById deviceLocal =
      some (localManifest platform keys windows) := peersById_deviceLocal
  exact BuildRun.presented_of_check hsigner hmanifest rfl rfl
    (unsignedReceipt_check plan₁ policy₀.val (minutes 0) none (j:=0) (by decide)
      deviceLocal honest_deviceLocal [])

theorem presented_second : run₁.presented platform 1 privatePeer [firstReceipt] =
    .ok (LocalEd25519Signer.signer platform keys.privatePeer,unsignedSecond) := by
  have hne : (privatePeer == deviceLocal) = false := by decide
  have hsigner : run₁.signers privatePeer =
      some (LocalEd25519Signer.signer platform keys.privatePeer) := by
    simp [run₁,signers,List.lookup,hne]
  have hmanifest : run₁.policy.val.peersById privatePeer =
      some (privateManifest platform keys windows) := peersById_privatePeer
  exact BuildRun.presented_of_check hsigner hmanifest rfl rfl
    (unsignedReceipt_check plan₁ policy₀.val (minutes 0) none (j:=1) (by decide)
      privatePeer honest_privatePeer [firstReceipt])

theorem build_first : run₁.build platform 0 deviceLocal [] = .ok firstReceipt :=
  BuildRun.build_of_presented presented_first rfl

theorem build_second : run₁.build platform 1 privatePeer [firstReceipt] = .ok secondReceipt :=
  BuildRun.build_of_presented presented_second rfl

theorem secondReceipt_signedBytes :
    secondReceipt.signedBytes platform = unsignedSecond.signedBytes platform := by
  have hpayload : secondReceipt.signingPayload platform = unsignedSecond.signingPayload platform :=
    signingPayload_signed unsignedSecond _
  rw [HopReceipt.signedBytes,hpayload,HopReceipt.signedBytes]

theorem run_signed : ((LocalEd25519Signer.publicKey keys.privatePeer).val,
    secondReceipt.signedBytes platform) ∈ run₁.signed platform := by
  have hhops : run₁.plan.val.hopPeerIds = [deviceLocal,privatePeer] := rfl
  rw [BuildRun.signed,hhops,BuildRun.signings,presented_first]
  refine List.mem_cons_of_mem _ ?_
  rw [build_first]
  show _ ∈ run₁.signings platform 1 [firstReceipt] [privatePeer]
  rw [BuildRun.signings,presented_second,secondReceipt_signedBytes]
  exact List.mem_cons_self

theorem run_built {receipts : List (HopReceipt FixedTime)} (h : run₁.Built platform receipts) :
    receipts = [firstReceipt,secondReceipt].take receipts.length := by
  induction h with
  | nil => rfl
  | snoc hbuilt hpeer hbuild ih =>
    rename_i receipts peerId receipt
    have hlt : receipts.length < 2 := (List.getElem?_eq_some_iff.mp hpeer).1
    obtain hnone | hone : receipts.length = 0 ∨ receipts.length = 1 := by omega
    · obtain rfl := List.length_eq_zero_iff.mp hnone
      obtain rfl : deviceLocal = peerId := Option.some.inj hpeer
      rw [List.nil_append,Except.ok.inj (hbuild.symm.trans build_first)]
      rfl
    · rw [hone] at ih hpeer hbuild
      obtain rfl : receipts = [firstReceipt] := ih
      obtain rfl : privatePeer = peerId := Option.some.inj hpeer
      rw [Except.ok.inj (hbuild.symm.trans build_second)]
      rfl

theorem run_noCollision : run₁.NoCollision platform attestation₁.val policy₀.val := by
  have hplan : run₁.plan.val = attestation₁.val.plan := rfl
  have hpolicy : run₁.policy.val = policy₀.val := rfl
  refine ⟨collisionFree_same (congrArg (RoutePlan.dump platform) hplan),
    collisionFree_same (congrArg (AdmissionPolicy.digestBody platform) hpolicy),
    collisionFree_same (congrArg (fun p => p.topology.digestBody platform) hpolicy),?_⟩
  have hsubset : run₁.receiptBytes platform ⊆ attestation₁.val.receiptBytes platform := by
    rintro bytes ⟨receipts,hbuilt,r,hr,hbytes⟩
    rw [run_built hbuilt] at hr
    exact ⟨r,List.mem_of_mem_take hr,hbytes⟩
  rw [Set.union_eq_self_of_subset_left hsubset]
  exact private_collisionFree

theorem run_signedIn : SignedIn platform {run₁} (privateManifest platform keys windows).publicKey
    secondReceipt := fun _ => ⟨run₁,rfl,run_signed⟩

theorem run_vouched : Vouched platform {run₁} attestation₁.val policy₀.val := by
  refine ⟨1,privatePeer,privateManifest platform keys windows,secondReceipt,private_second,rfl,
    peersById_privatePeer,run_signedIn,?_⟩
  rintro run rfl
  exact run_noCollision

end Demo

/-- The demo's run stands behind the second receipt of its private attestation, and behind the
first one before it. -/
theorem hop_agreement_demo : Demo.run₁.Backs Demo.platform Demo.attestation₁.val Demo.policy₀.val
    (Demo.privateManifest Demo.platform Demo.keys Demo.windows).publicKey 1 Demo.secondReceipt := by
  obtain ⟨d,hverify,hadmitted,_⟩ := Demo.private_admitted (by decide) Demo.contain_noon
    (none : Option (ReplayStore Unit)) () rfl
  have hc : ∀ run ∈ ({Demo.run₁} : Set (BuildRun FixedTime)),
      run.NoCollision Demo.platform Demo.attestation₁.val Demo.policy₀.val := by
    rintro run rfl
    exact Demo.run_noCollision
  obtain ⟨run,rfl,hbacks⟩ := hop_agreement Demo.platform Demo.platform_faithfulTimes {Demo.run₁}
    Demo.attestation₁ Demo.policy₀ (Demo.minutes 0) none () d (by rw [hverify]) hadmitted 1
    Demo.privatePeer (Demo.privateManifest Demo.platform Demo.keys Demo.windows)
    Demo.secondReceipt Demo.private_second rfl Demo.peersById_privatePeer Demo.run_signedIn hc
  exact hbacks

/-- Two processes that verify the demo's private attestation one after the other: there is one
admission, and the demo's run is behind it. -/
theorem admissions_injective_demo :
    ∃ past : List (Event (Fin 2) (VerifyCall FixedTime) (Answer FixedTime)),
      (past.filterMap Event.performed).map (fun answered => answered.1.attestation) =
        [Demo.attestation₁,Demo.attestation₁] ∧
      (admittedCalls past).map VerifyCall.attestation = [Demo.attestation₁] ∧
      ∃ behind : List (BuildRun FixedTime), behind.Nodup ∧
        List.Forall₂ (fun call run => run ∈ ({Demo.run₁} : Set (BuildRun FixedTime)) ∧
          run.BacksCall Demo.platform call) (admittedCalls past) behind := by
  have hpassed := Demo.private_passes (by decide) Demo.contain_noon
  have hne : (1 : Fin 2) ≠ 0 := by decide
  obtain ⟨call,hcall⟩ : ∃ call : PendingCall FixedTime Demo.platform,
      call.request = ⟨Demo.attestation₁,Demo.policy₀,Demo.minutes 0⟩ :=
    ⟨⟨Demo.attestation₁,Demo.policy₀,Demo.minutes 0,_,hpassed⟩,rfl⟩
  obtain ⟨s,answer,answer',hhistory,hanswer,hanswer'⟩ :=
    two_calls_history Demo.replayFile hne call call
  obtain ⟨past,hpast⟩ : ∃ past, past = wholeCall (0 : Fin 2) call.request answer ++
    wholeCall 1 call.request answer' := ⟨_,rfl⟩
  have hperformed : past.filterMap Event.performed =
      [(call.request,answer),(call.request,answer')] := by rw [hpast]; rfl
  have hnew : call.row.nonce ∉ ([] : List NonceRow).map NonceRow.nonce := List.not_mem_nil
  have hadmits : admits answer = true ∧ admits answer' = false := by
    obtain ⟨d,hd,hadmitted,_⟩ := call.conclude_fresh
    obtain ⟨d',hd',hdenied,_⟩ := call.conclude_replayed
    have happly : (verifier Demo.platform FixedTime).apply call.request [] =
        (.ok d,[call.row]) := by
      rw [verifier_pending,if_neg hnew,hd]
      rfl
    rw [happly] at hanswer hanswer'
    rw [verifier_pending,if_pos (by simp),hd'] at hanswer'
    rw [hanswer,hanswer']
    exact ⟨hadmitted,hdenied⟩
  have hcalls : admittedCalls past = [call.request] := by
    rw [admittedCalls,hperformed,List.filter_cons,if_pos hadmits.1,List.filter_cons,
      if_neg (by simp [hadmits.2])]
    rfl
  rw [← hpast] at hhistory
  refine ⟨past,by rw [hperformed,List.map_cons,List.map_singleton,hcall],
    by rw [hcalls,List.map_singleton,hcall],?_⟩
  refine admissions_injective Demo.platform Demo.platform_faithfulTimes Demo.replayFile
    {Demo.run₁} past s hhistory ?_
  intro answered hanswered _
  have hrequest : answered.1 = ⟨Demo.attestation₁,Demo.policy₀,Demo.minutes 0⟩ := by
    rw [hperformed,List.mem_cons,List.mem_singleton] at hanswered
    rcases hanswered with rfl | rfl
    · exact hcall
    · exact hcall
  rw [hrequest]
  exact Demo.run_vouched

end LocusMesh
