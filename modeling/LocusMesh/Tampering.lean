import Mathlib
import LocusMesh.Splicing
import LocusMesh.Decisions

/-! What verification reports when the receipts of an admitted attestation are edited. The codes
of the loop are local: an edit is blamed on the receipt edited and, through the link it breaks,
on the one behind it. -/
namespace LocusMesh

open CanonicalJson PyCollections AwareClock HashChain

section Local

variable {τ : Type} [AwareDatetime τ] {plat : Platform} {plan : RoutePlan τ}
  {policy : AdmissionPolicy τ} {now : τ} {required : EvidenceLevel}

theorem chainReasons_append {i : ℕ} {previous : Option (HopReceipt τ)}
    {front back : List (HopReceipt τ)} (hi : i + front.length ≤ plan.hopPeerIds.length) :
    chainReasons plat plan policy now required i previous (front ++ back) =
      chainReasons plat plan policy now required i previous front ++
        chainReasons plat plan policy now required (i + front.length)
          (front.getLast?.or previous) back := by
  induction front generalizing i previous with
  | nil => simp [chainReasons]
  | cons first rest ih =>
    have hlen : ¬plan.hopPeerIds.length ≤ i := by simp only [List.length_cons] at hi; omega
    have hrest : i + 1 + rest.length ≤ plan.hopPeerIds.length := by
      simp only [List.length_cons] at hi
      omega
    have hlast : (first :: rest).getLast?.or previous = rest.getLast?.or (some first) := by
      rw [List.getLast?_cons]
      cases rest.getLast? <;> rfl
    have hcount : i + (first :: rest).length = i + 1 + rest.length := by
      simp only [List.length_cons]
      omega
    rw [List.cons_append,chainReasons,chainReasons,if_neg hlen,if_neg hlen,ih hrest,hlast,hcount,
      List.append_assoc]

theorem chainReasons_surplus {i : ℕ} (hi : plan.hopPeerIds.length ≤ i)
    {previous : Option (HopReceipt τ)} {receipts : List (HopReceipt τ)} (hne : receipts ≠ []) :
    chainReasons plat plan policy now required i previous receipts = ["EXTRA_RECEIPT"] := by
  cases receipts with
  | nil => exact absurd rfl hne
  | cons receipt rest => rw [chainReasons,if_pos hi]

/-- The bound fields in which one receipt agrees with another. -/
def changedFields (edited receipt : HopReceipt τ) : List (String × Bool) :=
  [("REQUEST_ID",decide (edited.requestId = receipt.requestId)),
   ("NONCE",decide (edited.nonce = receipt.nonce)),
   ("REQUEST_COMMITMENT",decide (edited.requestCommitment = receipt.requestCommitment)),
   ("ROUTE_PLAN_DIGEST",decide (edited.routePlanDigest = receipt.routePlanDigest)),
   ("POLICY_DIGEST",decide (edited.policyDigest = receipt.policyDigest)),
   ("TOPOLOGY_DIGEST",decide (edited.topologyDigest = receipt.topologyDigest)),
   ("INTENT",decide (edited.intent = receipt.intent)),
   ("HOP_INDEX",decide (edited.hopIndex = receipt.hopIndex)),
   ("HOP_COUNT",decide (edited.hopCount = receipt.hopCount)),
   ("PEER_ID",decide (edited.peerId = receipt.peerId)),
   ("PREVIOUS_PEER",decide (edited.previousPeerId = receipt.previousPeerId)),
   ("NEXT_PEER",decide (edited.nextPeerId = receipt.nextPeerId)),
   ("PREVIOUS_RECEIPT_DIGEST",
     decide (edited.previousReceiptDigest = receipt.previousReceiptDigest)),
   ("MODEL_DIGEST",decide (edited.modelDigest = receipt.modelDigest)),
   ("RUNTIME_DIGEST",decide (edited.runtimeDigest = receipt.runtimeDigest))]

variable (plat plan policy now required) in
/-- The codes of a receipt put in the place of an exact one. -/
def editReasons (manifest : PeerManifest τ) (previous : Option (HopReceipt τ))
    (receipt edited : HopReceipt τ) : List String :=
  mismatches (changedFields edited receipt) ++
  timeReasons plan policy now manifest previous edited ++
  flag (decide (edited.keyId ≠ receipt.keyId)) "RECEIPT_KEY_ID_MISMATCH" ++
  flag (!verifyEd25519 plat manifest.publicKey.val
    (canonicalJsonBytes (.obj (edited.signingPayload plat))) edited.signature)
    "SIGNATURE_INVALID" ++
  flag (decide (Attestation.evidenceRank manifest.evidenceLevel <
      Attestation.evidenceRank edited.evidenceLevel)) "RECEIPT_EVIDENCE_EXCEEDS_MANIFEST" ++
  flag (decide (Attestation.evidenceRank (Attestation.effectiveEvidence edited.evidenceLevel) <
      Attestation.evidenceRank required)) "RECEIPT_EVIDENCE_BELOW_FLOOR"

/-- The codes of the receipts behind an edited one: all of them of the next, for its link. -/
def successorReasons (edited : HopReceipt τ) : List (HopReceipt τ) → List String
  | [] => []
  | next :: _ => "RECEIPT_PREVIOUS_RECEIPT_DIGEST_MISMATCH" ::
      flag (lt next.observedAt edited.observedAt) "RECEIPT_TIME_REVERSED"

section Exact

variable {before : τ → τ → Prop} {i : ℕ} {peer : PeerId} {manifest : PeerManifest τ}
  {previous : Option (HopReceipt τ)} {receipt edited next : HopReceipt τ}

/-- In the place of an exact receipt, the fields bound are those of that receipt. -/
theorem exactFields_edited (hbound : ReceiptBound plat plan policy i peer previous receipt) :
    exactFields plat plan policy i peer (precursor plan.hopPeerIds i) plan.hopPeerIds[i+1]?
      (previous.map (HopReceipt.digest plat)) edited = changedFields edited receipt := by
  rw [exactFields,changedFields,hbound.requestId,hbound.nonce,hbound.requestCommitment,
    hbound.routePlanDigest,hbound.policyDigest,hbound.topologyDigest,hbound.intent,
    hbound.hopIndex,hbound.hopCount,hbound.peerId,hbound.previousPeerId,hbound.nextPeerId,
    hbound.previousReceiptDigest,hbound.modelDigest,hbound.runtimeDigest]

theorem receiptReasons_edited
    (hexact : ReceiptExact before plat plan policy now i peer manifest previous receipt) :
    receiptReasons plat plan policy now required i peer manifest previous edited =
      editReasons plat plan policy now required manifest previous receipt edited := by
  have hsignature : signatureReasons plat manifest edited =
      flag (decide (edited.keyId ≠ receipt.keyId)) "RECEIPT_KEY_ID_MISMATCH" ++
      flag (!verifyEd25519 plat manifest.publicKey.val
        (canonicalJsonBytes (.obj (edited.signingPayload plat))) edited.signature)
        "SIGNATURE_INVALID" := by
    rw [signatureReasons,hexact.signed.keyBinding,hexact.signed.keyId]
    simp [flag]
  rw [receiptReasons,editReasons,exactFields_edited hexact.bound,hsignature]
  simp only [List.append_assoc]

theorem exactFields_relinked
    (hbound : ReceiptBound plat plan policy i peer (some receipt) next)
    (hdigest : edited.digest plat ≠ receipt.digest plat) :
    mismatches (exactFields plat plan policy i peer (precursor plan.hopPeerIds i)
      plan.hopPeerIds[i+1]? (some (edited.digest plat)) next) =
        ["RECEIPT_PREVIOUS_RECEIPT_DIGEST_MISMATCH"] := by
  have hlink : next.previousReceiptDigest ≠ some (edited.digest plat) := by
    rw [hbound.previousReceiptDigest,Option.map_some,ne_eq,Option.some.injEq,eq_comm]
    exact hdigest
  simp [mismatches,exactFields,flag,hlink,hbound.requestId,hbound.nonce,hbound.requestCommitment,
    hbound.routePlanDigest,hbound.policyDigest,hbound.topologyDigest,hbound.intent,
    hbound.hopIndex,hbound.hopCount,hbound.peerId,hbound.previousPeerId,hbound.nextPeerId,
    hbound.modelDigest,hbound.runtimeDigest]

theorem timeReasons_relinked
    (hsilent : timeReasons plan policy now manifest (some receipt) next = []) :
    timeReasons plan policy now manifest (some edited) next =
      flag (lt next.observedAt edited.observedAt) "RECEIPT_TIME_REVERSED" := by
  simp only [timeReasons,List.append_eq_nil_iff] at hsilent
  obtain ⟨⟨⟨⟨hplan,hfuture⟩,htopology⟩,_⟩,hpeer⟩ := hsilent
  rw [timeReasons,hplan,hfuture,htopology,hpeer]
  simp

/-- An exact receipt behind another predecessor than its own. -/
theorem receiptReasons_relinked
    (hbound : ReceiptBound plat plan policy i peer (some receipt) next)
    (hsilent : receiptReasons plat plan policy now required i peer manifest (some receipt) next =
      [])
    (hdigest : edited.digest plat ≠ receipt.digest plat) (rest : List (HopReceipt τ)) :
    receiptReasons plat plan policy now required i peer manifest (some edited) next =
      successorReasons edited (next :: rest) := by
  simp only [receiptReasons,List.append_eq_nil_iff] at hsilent
  obtain ⟨⟨⟨⟨_,htime⟩,hsignature⟩,hceiling⟩,hfloor⟩ := hsilent
  rw [receiptReasons,Option.map_some,exactFields_relinked hbound hdigest,
    timeReasons_relinked htime,hsignature,hceiling,hfloor]
  simp [successorReasons]

end Exact

variable (plat now) in
theorem codesAt_hop (hg : Grounded plan policy required) {i : ℕ}
    (hi : i < plan.hopPeerIds.length) : ∃ peer manifest, plan.hopPeerIds[i]? = some peer ∧
      policy.peersById peer = some manifest ∧ ∀ previous receipt,
        codesAt plat plan policy now required i previous receipt =
          receiptReasons plat plan policy now required i peer manifest previous receipt := by
  obtain ⟨manifest,hmanifest⟩ := hg.manifest _ (List.getElem_mem hi)
  have hpeer := List.getElem?_eq_getElem hi
  refine ⟨_,manifest,hpeer,hmanifest,fun previous receipt => ?_⟩
  rw [codesAt,hpeer,Option.bind_some,hmanifest]
  rfl

/-- One receipt edited, a chain without codes has those of that receipt and of the link behind. -/
theorem chainReasons_edited {before : τ → τ → Prop}
    (hbefore : ∀ a b : τ, lt a b = true ↔ before a b) (hg : Grounded plan policy required)
    {front back : List (HopReceipt τ)} {receipt edited : HopReceipt τ}
    (hcount : (front ++ receipt :: back).length ≤ plan.hopPeerIds.length)
    (hsilent : chainReasons plat plan policy now required 0 none (front ++ receipt :: back) = [])
    (hdigest : back ≠ [] → edited.digest plat ≠ receipt.digest plat) :
    ∃ peer manifest, plan.hopPeerIds[front.length]? = some peer ∧
      policy.peersById peer = some manifest ∧
      (∀ r, receiptReasons plat plan policy now required front.length peer manifest
        front.getLast? r = editReasons plat plan policy now required manifest front.getLast?
          receipt r) ∧
      chainReasons plat plan policy now required 0 none (front ++ edited :: back) =
        editReasons plat plan policy now required manifest front.getLast? receipt edited ++
          successorReasons edited back := by
  rw [List.length_append,List.length_cons] at hcount
  have hi : front.length < plan.hopPeerIds.length := by omega
  have hsplit (r : HopReceipt τ) : chainReasons plat plan policy now required 0 none
      (front ++ r :: back) = chainReasons plat plan policy now required 0 none front ++
        (codesAt plat plan policy now required front.length front.getLast? r ++
          chainReasons plat plan policy now required (front.length + 1) (some r) back) := by
    rw [chainReasons_append (by omega),Nat.zero_add,Option.or_none,chainReasons,
      if_neg (Nat.not_le.mpr hi)]
  obtain ⟨peer,manifest,hpeer,hmanifest,hcodes⟩ := codesAt_hop plat now hg hi
  rw [hsplit,List.append_eq_nil_iff,List.append_eq_nil_iff,hcodes] at hsilent
  obtain ⟨hfront,hreceipt,hback⟩ := hsilent
  have hexact := (receiptReasons_silent hbefore hg.floor).mp hreceipt
  have hedits (r : HopReceipt τ) : receiptReasons plat plan policy now required front.length peer
      manifest front.getLast? r = editReasons plat plan policy now required manifest
        front.getLast? receipt r := receiptReasons_edited hexact
  refine ⟨peer,manifest,hpeer,hmanifest,hedits,?_⟩
  rw [hsplit,hfront,hcodes,hedits,List.nil_append]
  congr 1
  cases back with
  | nil => rfl
  | cons next rest =>
    rw [List.length_cons] at hcount
    have hnext : front.length + 1 < plan.hopPeerIds.length := by omega
    obtain ⟨_,_,_,_,hnextCodes⟩ := codesAt_hop plat now hg hnext
    rw [chainReasons,if_neg (Nat.not_le.mpr hnext),List.append_eq_nil_iff,hnextCodes] at hback
    have hbound := ((receiptReasons_silent hbefore hg.floor).mp hback.1).bound
    rw [chainReasons,if_neg (Nat.not_le.mpr hnext),hnextCodes,hback.2,List.append_nil,
      receiptReasons_relinked hbound hback.1 (hdigest (List.cons_ne_nil _ _))]

end Local

/-- The attestation with other receipts, as `model_copy` leaves it: nothing is validated. -/
def RouteAttestation.withReceipts {τ : Type} (a : RouteAttestation τ)
    (receipts : List (HopReceipt τ)) : RouteAttestation τ :=
  {a with receipts := receipts}

section Outcome

variable {τ : Type} [AwareDatetime τ] {plat : Platform}
  {attestation : Validated (RouteAttestation τ)} {policy : Validated (AdmissionPolicy τ)} {now : τ}
  {required : EvidenceLevel}

theorem verify_receipts (hbase : (baseDecision plat attestation policy now).admitted = true)
    (hg : Grounded attestation.val.plan policy.val required) (receipts : List (HopReceipt τ))
    {codes : List String} (hcodes : verifyReasons plat (attestation.val.withReceipts receipts)
      policy.val now required = codes) (hne : codes ≠ []) {σ : Type}
    (store : Option (ReplayStore σ)) (s : σ) :
    verifyAttestation plat policy.val now (attestation.val.withReceipts receipts) store s =
      (.ok (deny (baseDecision plat attestation policy now) codes
        (min receipts.length attestation.val.plan.hopPeerIds.length)
        ((attestation.val.withReceipts receipts).digest plat)),s) := by
  have hplan : admitPlan plat (attestation.val.withReceipts receipts).plan policy.val now =
      .ok (baseDecision plat attestation policy now) :=
    admitPlan_eq plat attestation.plan policy now
  have hedited : Grounded (attestation.val.withReceipts receipts).plan policy.val required := hg
  obtain ⟨last,hloop⟩ := verifyReceipts_run plat now hedited
  have hcheck : checkAttestation plat policy.val now (attestation.val.withReceipts receipts) =
      .ok (.inl (deny (baseDecision plat attestation policy now) codes
        (min receipts.length attestation.val.plan.hopPeerIds.length)
        ((attestation.val.withReceipts receipts).digest plat))) := by
    simp [checkAttestation,hplan,bind,Except.bind,hbase,hloop,hcodes,hne]
    rfl
  rw [verifyAttestation,hcheck]

theorem verifyReasons_receipts {receipts : List (HopReceipt τ)}
    (hcount : receipts.length = attestation.val.plan.hopPeerIds.length) :
    verifyReasons plat (attestation.val.withReceipts receipts) policy.val now required =
      chainReasons plat attestation.val.plan policy.val now required 0 none receipts := by
  have hinitial : initialReasons (attestation.val.withReceipts receipts) = [] :=
    initialReasons_eq_nil.mpr hcount
  rw [verifyReasons,hinitial]
  rfl

theorem passed_of_admitted {σ : Type} {store : Option (ReplayStore σ)} {s : σ}
    {d : AdmissionDecision τ}
    (hverify : (verifyAttestation plat policy.val now attestation.val store s).1 = .ok d)
    (hadmitted : d.admitted = true) : Passed plat attestation policy now := by
  have hexit := verifyAttestation_exit plat attestation policy now store s
  rw [hverify] at hexit
  cases hexit with
  | planDenied hbase => exact absurd hadmitted (by simp [hbase])
  | receiptsDenied => exact absurd hadmitted (by simp [deny])
  | replayed => exact absurd hadmitted (by simp [deny])
  | admitted _ hpassed => exact hpassed

end Outcome

/-- An edit of one receipt of an admitted attestation is diagnosed, and denied before any store
is asked: the codes are those of the edited receipt, which name the bound fields changed, then
those of the link behind it. There are none only where an exact receipt ends the chain. -/
theorem edit_diagnosed (plat : Platform) (hf : plat.FaithfulTimes)
    (attestation : Validated (RouteAttestation FixedTime))
    (policy : Validated (AdmissionPolicy FixedTime)) (now : FixedTime) {σ : Type}
    (store : Option (ReplayStore σ)) (s : σ) (d : AdmissionDecision FixedTime)
    (hverify : (verifyAttestation plat policy.val now attestation.val store s).1 = .ok d)
    (hadmitted : d.admitted = true) (front back : List (HopReceipt FixedTime))
    (receipt edited : HopReceipt FixedTime)
    (hreceipts : attestation.val.receipts = front ++ receipt :: back) (hne : edited ≠ receipt)
    (hc : back ≠ [] → CollisionFree plat {canonicalJsonBytes (edited.dump plat),
      canonicalJsonBytes (receipt.dump plat)}) :
    ∃ peer manifest required, attestation.val.plan.hopPeerIds[front.length]? = some peer ∧
      policy.val.peersById peer = some manifest ∧
      policy.val.floor attestation.val.plan.intent = some required ∧
      ∀ codes, codes = editReasons plat attestation.val.plan policy.val now required manifest
          front.getLast? receipt edited ++ successorReasons edited back →
        (codes = [] ↔ back = [] ∧ ReceiptExact (fun a b => instant a < instant b) plat
          attestation.val.plan policy.val now front.length peer manifest front.getLast? edited) ∧
        (codes ≠ [] → ∀ (σ' : Type) (store' : Option (ReplayStore σ')) (s' : σ'), ∃ d',
          verifyAttestation plat policy.val now
            (attestation.val.withReceipts (front ++ edited :: back)) store' s' = (.ok d',s') ∧
          d'.admitted = false ∧ d'.reasonCodes = fromKeys codes ∧
          d'.checkedHops = attestation.val.receipts.length) := by
  have hpassed := passed_of_admitted hverify hadmitted
  obtain ⟨required,hg,hsilent⟩ := hpassed.grounded
  have hcount := initialReasons_eq_nil.mp (List.append_eq_nil_iff.mp hsilent).1
  have hchain := (List.append_eq_nil_iff.mp hsilent).2
  have hsame : (front ++ edited :: back).length = attestation.val.plan.hopPeerIds.length := by
    rw [← hcount,hreceipts,List.length_append,List.length_append,List.length_cons,
      List.length_cons]
  have hdigest (h : back ≠ []) : edited.digest plat ≠ receipt.digest plat := by
    rw [HopReceipt.digest,HopReceipt.digest,ne_eq,sha256Digest_eq_iff (hc h),
      HopReceipt.dump_inj hf]
    exact hne
  rw [hreceipts] at hchain
  obtain ⟨peer,manifest,hpeer,hmanifest,hedits,hedited⟩ := chainReasons_edited FixedTime.lt_iff hg
    (by rw [← hreceipts,hcount]) hchain hdigest
  refine ⟨peer,manifest,required,hpeer,hmanifest,hg.floor,?_⟩
  rintro codes rfl
  constructor
  · rw [List.append_eq_nil_iff,← hedits,receiptReasons_silent FixedTime.lt_iff hg.floor,and_comm]
    refine and_congr_left fun _ => ?_
    cases back <;> simp [successorReasons]
  · intro hcodes σ' store' s'
    have hreasons : verifyReasons plat (attestation.val.withReceipts (front ++ edited :: back))
        policy.val now required = editReasons plat attestation.val.plan policy.val now required
          manifest front.getLast? receipt edited ++ successorReasons edited back :=
      (verifyReasons_receipts hsame).trans hedited
    refine ⟨_,verify_receipts hpassed.base hg _ hreasons hcodes store' s',rfl,rfl,?_⟩
    rw [deny,hsame,min_self,hcount]

namespace Demo

def editedReceipt : HopReceipt FixedTime := {firstReceipt with hopCount := 3, signature := ""}

theorem hopCount_ne : editedReceipt.hopCount ≠ firstReceipt.hopCount := by
  intro h
  have hcount : (3 : ℕ) = 2 := h
  omega

theorem hopCount_changed : "RECEIPT_HOP_COUNT_MISMATCH" ∈
    mismatches (changedFields editedReceipt firstReceipt) := by
  have hchanged : ("HOP_COUNT",false) ∈ changedFields editedReceipt firstReceipt := by
    rw [changedFields,decide_eq_false hopCount_ne]
    simp only [List.mem_cons,true_or,or_true]
  exact List.mem_flatMap.mpr ⟨_,hchanged,List.mem_singleton_self _⟩

theorem unsigned_not_verified (publicKey : String) (payload : List UInt8) :
    verifyEd25519 platform publicKey payload "" = false := by
  by_contra h
  rw [Bool.not_eq_false] at h
  obtain ⟨raw,hraw,heq⟩ := verifyEd25519_signature platform h
  have hpattern : base64urlPattern 86 (encodeBase64url raw) = true :=
    base64urlPattern_encode (by rw [hraw])
  rw [← heq] at hpattern
  exact absurd hpattern (by decide)

theorem editedReceipt_sha256 :
    platform.sha256 (canonicalJsonBytes (editedReceipt.dump platform)) ≠ firstHash := by
  rw [editedReceipt,firstReceipt_eq,canonicalJsonBytes,encodeUtf8_dumps]
  decide +kernel

theorem edited_collisionFree : CollisionFree platform
    {canonicalJsonBytes (editedReceipt.dump platform),
      canonicalJsonBytes (firstReceipt.dump platform)} := by
  rw [CollisionFree,Set.injOn_pair,firstReceipt_sha256]
  exact fun h => absurd h editedReceipt_sha256

end Demo

/-- The first receipt of the demo's private attestation, edited: its own codes come before that
of the link behind it. -/
theorem edit_diagnosed_demo : ∃ d', verifyAttestation Demo.platform Demo.policy₀.val
      (Demo.minutes 0) (Demo.attestation₁.val.withReceipts [Demo.editedReceipt,Demo.secondReceipt])
      (none : Option (ReplayStore Unit)) () = (.ok d',()) ∧
    d'.admitted = false ∧ "RECEIPT_HOP_COUNT_MISMATCH" ∈ d'.reasonCodes ∧
    "SIGNATURE_INVALID" ∈ d'.reasonCodes ∧
    "RECEIPT_PREVIOUS_RECEIPT_DIGEST_MISMATCH" ∈ d'.reasonCodes := by
  obtain ⟨d,hverify,hadmitted,_⟩ := Demo.private_admitted (by decide) Demo.contain_noon
    (none : Option (ReplayStore Unit)) () rfl
  obtain ⟨peer,manifest,required,_,_,_,hcodes⟩ := edit_diagnosed Demo.platform
    Demo.platform_faithfulTimes Demo.attestation₁ Demo.policy₀ (Demo.minutes 0) none () d
    (by rw [hverify]) hadmitted [] [Demo.secondReceipt] Demo.firstReceipt Demo.editedReceipt
    Demo.private_receipts (fun h => Demo.hopCount_ne (congrArg HopReceipt.hopCount h))
    fun _ => Demo.edited_collisionFree
  have hsignature : "SIGNATURE_INVALID" ∈ flag (!verifyEd25519 Demo.platform
      manifest.publicKey.val
      (canonicalJsonBytes (.obj (Demo.editedReceipt.signingPayload Demo.platform)))
      Demo.editedReceipt.signature) "SIGNATURE_INVALID" := by
    rw [show Demo.editedReceipt.signature = "" from rfl,Demo.unsigned_not_verified]
    exact List.mem_singleton_self _
  obtain ⟨codes,hdef⟩ : ∃ codes, codes = editReasons Demo.platform Demo.attestation₁.val.plan
    Demo.policy₀.val (Demo.minutes 0) required manifest none Demo.firstReceipt
    Demo.editedReceipt ++ successorReasons Demo.editedReceipt [Demo.secondReceipt] := ⟨_,rfl⟩
  have hmem : "RECEIPT_HOP_COUNT_MISMATCH" ∈ codes ∧ "SIGNATURE_INVALID" ∈ codes ∧
      "RECEIPT_PREVIOUS_RECEIPT_DIGEST_MISMATCH" ∈ codes := by
    rw [hdef,editReasons]
    simp only [List.mem_append]
    refine ⟨?_,.inl (.inl (.inl (.inr hsignature))),.inr List.mem_cons_self⟩
    exact .inl (.inl (.inl (.inl (.inl (.inl Demo.hopCount_changed)))))
  have hne := List.ne_nil_of_mem hmem.1
  obtain ⟨d',hd',hdenied,hreasons,_⟩ := (hcodes codes hdef).2 hne Unit none ()
  refine ⟨d',hd',hdenied,?_⟩
  rw [hreasons,mem_fromKeys,mem_fromKeys,mem_fromKeys]
  exact hmem

/-- Receipts cut off the end of an admitted attestation are missed as such, and receipts put
behind it are not read: neither the signatures left nor those added make a code. -/
theorem length_diagnosed {τ : Type} [AwareDatetime τ] (plat : Platform)
    (attestation : Validated (RouteAttestation τ)) (policy : Validated (AdmissionPolicy τ))
    (now : τ) {σ : Type} (store : Option (ReplayStore σ)) (s : σ) (d : AdmissionDecision τ)
    (hverify : (verifyAttestation plat policy.val now attestation.val store s).1 = .ok d)
    (hadmitted : d.admitted = true) :
    (∀ n < attestation.val.receipts.length, ∀ (σ' : Type) (store' : Option (ReplayStore σ'))
      (s' : σ'), ∃ d', verifyAttestation plat policy.val now
          (attestation.val.withReceipts (attestation.val.receipts.take n)) store' s' =
            (.ok d',s') ∧
        d'.admitted = false ∧ d'.reasonCodes = ["RECEIPT_COUNT_MISMATCH"] ∧ d'.checkedHops = n) ∧
    ∀ surplus ≠ [], ∀ (σ' : Type) (store' : Option (ReplayStore σ')) (s' : σ'), ∃ d',
      verifyAttestation plat policy.val now
          (attestation.val.withReceipts (attestation.val.receipts ++ surplus)) store' s' =
            (.ok d',s') ∧
        d'.admitted = false ∧
        d'.reasonCodes = ["RECEIPT_COUNT_MISMATCH","EXTRA_RECEIPT"] ∧
        d'.checkedHops = attestation.val.receipts.length := by
  have hpassed := passed_of_admitted hverify hadmitted
  obtain ⟨required,hg,hsilent⟩ := hpassed.grounded
  have hcount := initialReasons_eq_nil.mp (List.append_eq_nil_iff.mp hsilent).1
  have hchain := (List.append_eq_nil_iff.mp hsilent).2
  constructor
  · intro n hn σ' store' s'
    have hlength : (attestation.val.receipts.take n).length = n := by
      rw [List.length_take,min_eq_left hn.le]
    have hfront : chainReasons plat attestation.val.plan policy.val now required 0 none
        (attestation.val.receipts.take n) = [] := by
      rw [← List.take_append_drop n attestation.val.receipts,chainReasons_append (by omega),
        List.append_eq_nil_iff] at hchain
      exact hchain.1
    have hreasons : verifyReasons plat
        (attestation.val.withReceipts (attestation.val.receipts.take n)) policy.val now required =
          ["RECEIPT_COUNT_MISMATCH"] := by
      rw [verifyReasons,initialReasons,RouteAttestation.withReceipts,hfront,hlength,← hcount,
        List.append_nil,decide_eq_true hn.ne]
      rfl
    have hne : ["RECEIPT_COUNT_MISMATCH"] ≠ [] := List.cons_ne_nil _ _
    refine ⟨_,verify_receipts hpassed.base hg _ hreasons hne store' s',rfl,rfl,?_⟩
    rw [deny,hlength,← hcount,min_eq_left hn.le]
  · intro surplus hsurplus σ' store' s'
    have hlong : (attestation.val.receipts ++ surplus).length ≠
        attestation.val.plan.hopPeerIds.length := by
      have hpos := List.length_pos_of_ne_nil hsurplus
      rw [List.length_append,hcount]
      omega
    have hback : chainReasons plat attestation.val.plan policy.val now required 0 none
        (attestation.val.receipts ++ surplus) = ["EXTRA_RECEIPT"] := by
      rw [chainReasons_append (by omega),hchain,chainReasons_surplus (by omega) hsurplus]
      rfl
    have hreasons : verifyReasons plat
        (attestation.val.withReceipts (attestation.val.receipts ++ surplus)) policy.val now
          required = ["RECEIPT_COUNT_MISMATCH","EXTRA_RECEIPT"] := by
      rw [verifyReasons,initialReasons,RouteAttestation.withReceipts,hback,decide_eq_true hlong]
      rfl
    have hne : ["RECEIPT_COUNT_MISMATCH","EXTRA_RECEIPT"] ≠ [] := List.cons_ne_nil _ _
    refine ⟨_,verify_receipts hpassed.base hg _ hreasons hne store' s',rfl,rfl,?_⟩
    rw [deny,List.length_append,hcount,min_eq_right (Nat.le_add_right _ _)]

/-- The demo's private attestation without its second receipt, and with a third one. -/
theorem length_diagnosed_demo :
    (∃ d', verifyAttestation Demo.platform Demo.policy₀.val (Demo.minutes 0)
        (Demo.attestation₁.val.withReceipts [Demo.firstReceipt])
        (none : Option (ReplayStore Unit)) () = (.ok d',()) ∧
      d'.reasonCodes = ["RECEIPT_COUNT_MISMATCH"] ∧ d'.checkedHops = 1) ∧
    ∃ d', verifyAttestation Demo.platform Demo.policy₀.val (Demo.minutes 0)
        (Demo.attestation₁.val.withReceipts
          [Demo.firstReceipt,Demo.secondReceipt,Demo.firstReceipt])
        (none : Option (ReplayStore Unit)) () = (.ok d',()) ∧
      d'.reasonCodes = ["RECEIPT_COUNT_MISMATCH","EXTRA_RECEIPT"] ∧ d'.checkedHops = 2 := by
  obtain ⟨d,hverify,hadmitted,_⟩ := Demo.private_admitted (by decide) Demo.contain_noon
    (none : Option (ReplayStore Unit)) () rfl
  obtain ⟨hcut,hlonger⟩ := length_diagnosed Demo.platform Demo.attestation₁ Demo.policy₀
    (Demo.minutes 0) none () d (by rw [hverify]) hadmitted
  have htwo : Demo.attestation₁.val.receipts.length = 2 := by
    rw [Demo.private_receipts]
    rfl
  obtain ⟨d₁,hd₁,_,hcodes₁,hhops₁⟩ := hcut 1 (by rw [htwo]; decide) Unit none ()
  obtain ⟨d₂,hd₂,_,hcodes₂,hhops₂⟩ := hlonger [Demo.firstReceipt] (List.cons_ne_nil _ _) Unit none ()
  rw [htwo] at hhops₂
  exact ⟨⟨d₁,hd₁,hcodes₁,hhops₁⟩,d₂,hd₂,hcodes₂,hhops₂⟩

end LocusMesh
