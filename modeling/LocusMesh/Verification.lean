import Mathlib
import LocusMesh.Admission
import LocusMesh.Attestation
import LocusMesh.HashChain

/-! What `verify_attestation` accepts: the loop over receipts is unrolled into the list of
its codes, and each receipt's codes into the facts that their absence establishes. -/
namespace LocusMesh

open CanonicalJson PyCollections AwareClock HashChain

section Exactness

variable {τ : Type} [AwareDatetime τ] (before : τ → τ → Prop) (plat : Platform)
  (plan : RoutePlan τ) (policy : AdmissionPolicy τ) (now : τ)

omit [AwareDatetime τ] in
def Within (lo hi t : τ) : Prop := ¬before t lo ∧ before t hi

/-- Receipt `i` carries exactly what its plan, policy, hop and predecessor determine. -/
structure ReceiptBound (i : ℕ) (peer : PeerId) (previous : Option (HopReceipt τ))
    (receipt : HopReceipt τ) : Prop where
  requestId : receipt.requestId = plan.requestId
  nonce : receipt.nonce = plan.nonce
  requestCommitment : receipt.requestCommitment = plan.requestCommitment
  routePlanDigest : receipt.routePlanDigest = sha256Digest plat (plan.dump plat)
  policyDigest : receipt.policyDigest = LocusMesh.policyDigest plat policy
  topologyDigest : receipt.topologyDigest = LocusMesh.topologyDigest plat policy.topology
  intent : receipt.intent = plan.intent
  hopIndex : receipt.hopIndex = i
  hopCount : receipt.hopCount = plan.hopPeerIds.length
  peerId : receipt.peerId = peer
  previousPeerId : receipt.previousPeerId = precursor plan.hopPeerIds i
  nextPeerId : receipt.nextPeerId = plan.hopPeerIds[i+1]?
  previousReceiptDigest : receipt.previousReceiptDigest = previous.map (HopReceipt.digest plat)
  modelDigest : receipt.modelDigest = plan.modelDigest
  runtimeDigest : receipt.runtimeDigest = plan.runtimeDigest

/-- The receipt was observed inside every window, not in the future, and in order. -/
structure ReceiptTimely (manifest : PeerManifest τ) (previous : Option (HopReceipt τ))
    (receipt : HopReceipt τ) : Prop where
  plan : Within before plan.createdAt plan.expiresAt receipt.observedAt
  topology : Within before policy.topology.capturedAt policy.topology.expiresAt
    receipt.observedAt
  peer : Within before manifest.validFrom manifest.expiresAt receipt.observedAt
  notFuture : ¬before now receipt.observedAt
  ordered : ∀ prior ∈ previous, ¬before receipt.observedAt prior.observedAt

/-- The key of the receipt is its manifest's, bound to the public key it verifies under. -/
structure ReceiptSigned (manifest : PeerManifest τ) (receipt : HopReceipt τ) : Prop where
  keyId : receipt.keyId = manifest.keyId.val
  keyBinding : deriveKeyId plat manifest.publicKey.val = .ok manifest.keyId
  signature : verifyEd25519 plat manifest.publicKey.val
    (canonicalJsonBytes (.obj (receipt.signingPayload plat))) receipt.signature = true

omit [AwareDatetime τ] in
/-- The claimed level is not above the manifest's and, capped, not below the floor. -/
structure EvidenceAdequate (manifest : PeerManifest τ) (claimed : EvidenceLevel) : Prop where
  ceiling : Attestation.evidenceRank claimed ≤ Attestation.evidenceRank manifest.evidenceLevel
  floor : ∃ floor, policy.floor plan.intent = some floor ∧ Attestation.evidenceRank floor ≤
    Attestation.evidenceRank (Attestation.effectiveEvidence claimed)

structure ReceiptExact (i : ℕ) (peer : PeerId) (manifest : PeerManifest τ)
    (previous : Option (HopReceipt τ)) (receipt : HopReceipt τ) : Prop where
  bound : ReceiptBound plat plan policy i peer previous receipt
  timely : ReceiptTimely before plan policy now manifest previous receipt
  signed : ReceiptSigned plat manifest receipt
  evidence : EvidenceAdequate plan policy manifest receipt.evidenceLevel

end Exactness

theorem mismatches_eq_nil {fields : List (String × Bool)} :
    mismatches fields = [] ↔ ∀ field ∈ fields, field.2 = true := by
  simp [mismatches,List.flatMap_eq_nil_iff]

theorem itemBefore_eq {α : Type} {items : List α} {i : ℕ} (h : i < items.length) :
    itemBefore items i = .ok (precursor items i) := by
  unfold itemBefore precursor
  by_cases hi : i = 0
  · rw [if_pos hi,if_pos hi]
  · have hlt : i - 1 < items.length := by omega
    rw [if_neg hi,if_neg hi,getItem,List.getElem?_eq_getElem hlt]
    rfl

theorem itemAfter_eq {α : Type} (items : List α) (i : ℕ) :
    itemAfter items i = .ok items[i+1]? := by
  unfold itemAfter
  by_cases hi : i + 1 < items.length
  · rw [if_pos hi,getItem,List.getElem?_eq_getElem hi]
    rfl
  · rw [if_neg hi,List.getElem?_eq_none (by omega)]

section Codes

variable {τ : Type} [AwareDatetime τ] (plat : Platform) (plan : RoutePlan τ)
  (policy : AdmissionPolicy τ) (now : τ) (required : EvidenceLevel)

/-- The codes of receipt `i`, once its hop and manifest are known. -/
def receiptReasons (i : ℕ) (peer : PeerId) (manifest : PeerManifest τ)
    (previous : Option (HopReceipt τ)) (receipt : HopReceipt τ) : List String :=
  mismatches (exactFields plat plan policy i peer (precursor plan.hopPeerIds i)
    plan.hopPeerIds[i+1]? (previous.map (HopReceipt.digest plat)) receipt) ++
  timeReasons plan policy now manifest previous receipt ++
  signatureReasons plat manifest receipt ++
  flag (decide (Attestation.evidenceRank manifest.evidenceLevel <
      Attestation.evidenceRank receipt.evidenceLevel)) "RECEIPT_EVIDENCE_EXCEEDS_MANIFEST" ++
  flag (decide (Attestation.evidenceRank (Attestation.effectiveEvidence receipt.evidenceLevel) <
      Attestation.evidenceRank required)) "RECEIPT_EVIDENCE_BELOW_FLOOR"

def codesAt (i : ℕ) (previous : Option (HopReceipt τ)) (receipt : HopReceipt τ) : List String :=
  match plan.hopPeerIds[i]?.bind fun peer => (policy.peersById peer).map (Prod.mk peer) with
  | none => []
  | some (peer,manifest) =>
    receiptReasons plat plan policy now required i peer manifest previous receipt

def chainReasons (i : ℕ) (previous : Option (HopReceipt τ)) : List (HopReceipt τ) → List String
  | [] => []
  | receipt :: rest =>
    if plan.hopPeerIds.length ≤ i then ["EXTRA_RECEIPT"]
    else codesAt plat plan policy now required i previous receipt ++
      chainReasons (i + 1) (some receipt) rest

omit [AwareDatetime τ] in
/-- Every hop has a manifest and the intent has a floor, so no turn of the loop raises. -/
structure Grounded : Prop where
  manifest : ∀ peer ∈ plan.hopPeerIds, ∃ m, policy.peersById peer = some m
  floor : policy.floor plan.intent = some required

variable {plat plan policy now required}

theorem verifyReceipt_eq (hg : Grounded plan policy required) {i : ℕ}
    (hi : i < plan.hopPeerIds.length) (receipt : HopReceipt τ) (state : VerifyState τ) :
    verifyReceipt plat plan policy now i receipt state =
      .ok ⟨state.reasons ++ codesAt plat plan policy now required i state.previousReceipt receipt,
        some receipt,state.effectiveReceiptEvidence ++
          [Attestation.effectiveEvidence receipt.evidenceLevel]⟩ := by
  obtain ⟨m,hm⟩ := hg.manifest _ (List.getElem_mem hi)
  have hitem : getItem plan.hopPeerIds i = .ok plan.hopPeerIds[i] := by
    rw [getItem,List.getElem?_eq_getElem hi]
  have hcodes : codesAt plat plan policy now required i state.previousReceipt receipt =
      receiptReasons plat plan policy now required i plan.hopPeerIds[i] m state.previousReceipt
        receipt := by
    rw [codesAt,List.getElem?_eq_getElem hi,Option.bind_some,hm]
    rfl
  rw [verifyReceipt,hitem,itemBefore_eq hi,itemAfter_eq,hcodes]
  simp only [bind,Except.bind,hm,hg.floor,receiptReasons,List.append_assoc]

/-- The loop appends the codes of the receipts and the capped levels of those checked. -/
theorem verifyReceipts_eq (hg : Grounded plan policy required) (i : ℕ) (state : VerifyState τ)
    (receipts : List (HopReceipt τ)) : ∃ last,
    verifyReceipts plat plan policy now i state receipts =
      .ok ⟨state.reasons ++
          chainReasons plat plan policy now required i state.previousReceipt receipts,last,
        state.effectiveReceiptEvidence ++ (receipts.take (plan.hopPeerIds.length - i)).map
          fun r => Attestation.effectiveEvidence r.evidenceLevel⟩ := by
  induction receipts generalizing i state with
  | nil => exact ⟨state.previousReceipt,by simp [verifyReceipts,chainReasons]⟩
  | cons receipt rest ih =>
    by_cases hi : plan.hopPeerIds.length ≤ i
    · have hzero : plan.hopPeerIds.length - i = 0 := by omega
      exact ⟨state.previousReceipt,by simp [verifyReceipts,chainReasons,hi,hzero]⟩
    · obtain ⟨last,hlast⟩ := ih (i + 1) ⟨state.reasons ++
        codesAt plat plan policy now required i state.previousReceipt receipt,some receipt,
        state.effectiveReceiptEvidence ++ [Attestation.effectiveEvidence receipt.evidenceLevel]⟩
      have hsucc : plan.hopPeerIds.length - i = plan.hopPeerIds.length - (i + 1) + 1 := by omega
      refine ⟨last,?_⟩
      rw [verifyReceipts,if_neg hi,verifyReceipt_eq hg (by omega)]
      simp only [bind,Except.bind,hlast,chainReasons,if_neg hi,hsucc,List.take_succ_cons,
        List.map_cons,List.append_assoc,List.cons_append,List.nil_append]

/-- The loop is silent when no receipt is surplus and each one is clean after the last. -/
theorem chainReasons_eq_nil {i : ℕ} {previous : Option (HopReceipt τ)}
    {receipts : List (HopReceipt τ)} (hi : i ≤ plan.hopPeerIds.length) :
    chainReasons plat plan policy now required i previous receipts = [] ↔
      i + receipts.length ≤ plan.hopPeerIds.length ∧ ∀ j receipt, receipts[j]? = some receipt →
        codesAt plat plan policy now required (i + j)
          (if j = 0 then previous else receipts[j-1]?) receipt = [] := by
  induction receipts generalizing i previous with
  | nil => simp [chainReasons,hi]
  | cons first rest ih =>
    by_cases hlen : plan.hopPeerIds.length ≤ i
    · simp only [chainReasons,if_pos hlen,List.cons_ne_nil,false_iff,List.length_cons]
      intro h
      omega
    · rw [chainReasons,if_neg hlen,List.append_eq_nil_iff,ih (by omega)]
      constructor
      · rintro ⟨hfirst,hcount,hrest⟩
        refine ⟨by simp only [List.length_cons]; omega,?_⟩
        intro j receipt hj
        cases j with
        | zero =>
          rw [List.getElem?_cons_zero,Option.some.injEq] at hj
          rw [← hj]
          exact hfirst
        | succ j =>
          have hclean := hrest j receipt (by simpa using hj)
          rw [Nat.add_right_comm] at hclean
          cases j with
          | zero => simpa using hclean
          | succ j => simpa [Nat.add_assoc] using hclean
      · rintro ⟨hcount,hall⟩
        refine ⟨hall 0 first rfl,by simp only [List.length_cons] at hcount; omega,?_⟩
        intro j receipt hj
        have hclean := hall (j + 1) receipt (by simpa using hj)
        rw [← Nat.add_assoc,Nat.add_right_comm] at hclean
        cases j with
        | zero => simpa using hclean
        | succ j => simpa [Nat.add_assoc] using hclean

end Codes

section Silence

variable {τ : Type} [AwareDatetime τ] {before : τ → τ → Prop}
  (hbefore : ∀ a b : τ, lt a b = true ↔ before a b) {plat : Platform} {plan : RoutePlan τ}
  {policy : AdmissionPolicy τ} {now : τ} {required : EvidenceLevel} {i : ℕ} {peer : PeerId}
  {manifest : PeerManifest τ} {previous : Option (HopReceipt τ)} {receipt : HopReceipt τ}

theorem exactFields_silent :
    mismatches (exactFields plat plan policy i peer (precursor plan.hopPeerIds i)
      plan.hopPeerIds[i+1]? (previous.map (HopReceipt.digest plat)) receipt) = [] ↔
      ReceiptBound plat plan policy i peer previous receipt := by
  rw [mismatches_eq_nil]
  simp only [exactFields,List.forall_mem_cons,decide_eq_true_eq]
  constructor
  · rintro ⟨h1,h2,h3,h4,h5,h6,h7,h8,h9,h10,h11,h12,h13,h14,h15,_⟩
    exact ⟨h1,h2,h3,h4,h5,h6,h7,h8,h9,h10,h11,h12,h13,h14,h15⟩
  · rintro ⟨h1,h2,h3,h4,h5,h6,h7,h8,h9,h10,h11,h12,h13,h14,h15⟩
    exact ⟨h1,h2,h3,h4,h5,h6,h7,h8,h9,h10,h11,h12,h13,h14,h15,by simp⟩

theorem signatureReasons_silent :
    signatureReasons plat manifest receipt = [] ↔ ReceiptSigned plat manifest receipt := by
  unfold signatureReasons
  rw [List.append_eq_nil_iff,flag_eq_nil,decide_eq_false_iff_not,not_not]
  cases hkey : deriveKeyId plat manifest.publicKey.val with
  | error e =>
    refine ⟨fun h => absurd h.2 (List.cons_ne_nil _ _),fun h => ?_⟩
    rw [h.keyBinding] at hkey
    cases hkey
  | ok keyId =>
    simp only [List.append_eq_nil_iff,flag_eq_nil,decide_eq_false_iff_not,not_not,
      Bool.not_eq_false']
    constructor
    · rintro ⟨h1,h2,h3⟩
      exact ⟨h1,by rw [hkey,h2],h3⟩
    · rintro ⟨h1,h2,h3⟩
      rw [hkey] at h2
      exact ⟨h1,Except.ok.inj h2,h3⟩

omit [AwareDatetime τ] in
theorem evidence_silent (hfloor : policy.floor plan.intent = some required)
    {claimed : EvidenceLevel} :
    (¬Attestation.evidenceRank manifest.evidenceLevel < Attestation.evidenceRank claimed ∧
      ¬Attestation.evidenceRank (Attestation.effectiveEvidence claimed) <
        Attestation.evidenceRank required) ↔
      EvidenceAdequate plan policy manifest claimed := by
  rw [not_lt,not_lt]
  constructor
  · rintro ⟨hceiling,hrequired⟩
    exact ⟨hceiling,required,hfloor,hrequired⟩
  · rintro ⟨hceiling,floor,hsome,hle⟩
    rw [hfloor,Option.some.injEq] at hsome
    exact ⟨hceiling,hsome ▸ hle⟩

include hbefore

theorem inWindow_iff_within {lo hi t : τ} :
    inWindow lo hi t = true ↔ Within before lo hi t := by
  have hle : le lo t = !lt t lo := by rw [← gt_eq_lt,gt_eq_not_le,Bool.not_not]
  rw [inWindow,hle,Bool.and_eq_true,Bool.not_eq_true',← Bool.not_eq_true,hbefore,hbefore]
  rfl

theorem timeReasons_silent :
    timeReasons plan policy now manifest previous receipt = [] ↔
      ReceiptTimely before plan policy now manifest previous receipt := by
  have hreversed (prior : HopReceipt τ) : lt receipt.observedAt prior.observedAt = false ↔
      ¬before receipt.observedAt prior.observedAt := by
    rw [← hbefore,Bool.not_eq_true]
  have hfuture : gt receipt.observedAt now = false ↔ ¬before now receipt.observedAt := by
    rw [gt_eq_lt,← hbefore,Bool.not_eq_true]
  unfold timeReasons
  simp only [List.append_eq_nil_iff,flag_eq_nil,Bool.not_eq_false',inWindow_iff_within hbefore,
    hfuture,and_assoc]
  cases previous with
  | none =>
    constructor
    · rintro ⟨h1,h2,h3,_,h5⟩
      exact ⟨h1,h3,h5,h2,by simp⟩
    · rintro ⟨h1,h3,h5,h2,_⟩
      exact ⟨h1,h2,h3,rfl,h5⟩
  | some prior =>
    simp only [flag_eq_nil,hreversed]
    constructor
    · rintro ⟨h1,h2,h3,h4,h5⟩
      exact ⟨h1,h3,h5,h2,by simpa using h4⟩
    · rintro ⟨h1,h3,h5,h2,h4⟩
      exact ⟨h1,h2,h3,h4 prior rfl,h5⟩

/-- A receipt without codes is exact, and an exact one has none. -/
theorem receiptReasons_silent (hfloor : policy.floor plan.intent = some required) :
    receiptReasons plat plan policy now required i peer manifest previous receipt = [] ↔
      ReceiptExact before plat plan policy now i peer manifest previous receipt := by
  unfold receiptReasons
  simp only [List.append_eq_nil_iff,exactFields_silent,timeReasons_silent hbefore,
    signatureReasons_silent,flag_eq_nil,decide_eq_false_iff_not,and_assoc,
    evidence_silent hfloor]
  constructor
  · rintro ⟨h1,h2,h3,h4⟩
    exact ⟨h1,h2,h3,h4⟩
  · rintro ⟨h1,h2,h3,h4⟩
    exact ⟨h1,h2,h3,h4⟩

end Silence

section Outcome

variable {τ : Type} [AwareDatetime τ] (plat : Platform)

/-- All codes of a verification whose plan is admitted. -/
def verifyReasons (attestation : RouteAttestation τ) (policy : AdmissionPolicy τ) (now : τ)
    (required : EvidenceLevel) : List String :=
  initialReasons attestation ++
    chainReasons plat attestation.plan policy now required 0 none attestation.receipts

theorem verifyReceipts_run {attestation : RouteAttestation τ} {policy : AdmissionPolicy τ}
    {required : EvidenceLevel} (now : τ) (hg : Grounded attestation.plan policy required) :
    ∃ last, verifyReceipts plat attestation.plan policy now 0
        ⟨initialReasons attestation,none,[]⟩ attestation.receipts =
      .ok ⟨verifyReasons plat attestation policy now required,last,
        (attestation.receipts.take attestation.plan.hopPeerIds.length).map fun r =>
          Attestation.effectiveEvidence r.evidenceLevel⟩ :=
  verifyReceipts_eq hg 0 _ _

theorem grounded_of_admitted (plan : Validated (RoutePlan τ))
    (policy : Validated (AdmissionPolicy τ)) (now : τ)
    (h : (planDecision plat plan.val policy.val now).admitted = true) :
    ∃ required, Grounded plan.val policy.val required := by
  have hfits := planDecision_fits.mp h
  obtain ⟨required,hrequired⟩ :=
    Option.isSome_iff_exists.mp (policy.floor_isSome hfits.route.allowed)
  refine ⟨required,fun peer hpeer => ?_,hrequired⟩
  obtain ⟨m,hm,_⟩ := hfits.hops peer hpeer
  exact ⟨m,hm⟩

variable (attestation : Validated (RouteAttestation τ)) (policy : Validated (AdmissionPolicy τ))
  (now : τ)

def baseDecision : AdmissionDecision τ :=
  planDecision plat attestation.val.plan policy.val now

omit [AwareDatetime τ] in
theorem initialReasons_eq_nil {a : RouteAttestation τ} :
    initialReasons a = [] ↔ a.receipts.length = a.plan.hopPeerIds.length := by
  rw [initialReasons,flag_eq_nil,decide_eq_false_iff_not,not_not]

/-- The ways in which a verification can reach, or miss, the replay check. -/
theorem checkAttestation_cases :
    ((baseDecision plat attestation policy now).admitted = false ∧
      checkAttestation plat policy.val now attestation.val =
        .ok (.inl {baseDecision plat attestation policy now with
          decisionKind := .attestationVerification
          attestationDigest := some (attestation.val.digest plat)})) ∨
    ∃ required, (baseDecision plat attestation policy now).admitted = true ∧
      Grounded attestation.val.plan policy.val required ∧
      ((verifyReasons plat attestation.val policy.val now required ≠ [] ∧
        checkAttestation plat policy.val now attestation.val =
          .ok (.inl (deny (baseDecision plat attestation policy now)
            (verifyReasons plat attestation.val policy.val now required)
            (min attestation.val.receipts.length attestation.val.plan.hopPeerIds.length)
            (attestation.val.digest plat)))) ∨
      (verifyReasons plat attestation.val policy.val now required = [] ∧
        checkAttestation plat policy.val now attestation.val =
          .ok (.inr ⟨baseDecision plat attestation policy now,attestation.val.digest plat,
            attestation.val.receipts.map fun r =>
              Attestation.effectiveEvidence r.evidenceLevel⟩))) := by
  have hplan : admitPlan plat attestation.val.plan policy.val now =
      .ok (baseDecision plat attestation policy now) := admitPlan_eq plat attestation.plan policy now
  cases hadmitted : (baseDecision plat attestation policy now).admitted with
  | false =>
    left
    refine ⟨rfl,?_⟩
    simp [checkAttestation,hplan,bind,Except.bind,hadmitted]
  | true =>
    right
    obtain ⟨required,hg⟩ : ∃ required, Grounded attestation.val.plan policy.val required :=
      grounded_of_admitted plat attestation.plan policy now hadmitted
    obtain ⟨last,hloop⟩ := verifyReceipts_run plat now hg
    refine ⟨required,rfl,hg,?_⟩
    by_cases hempty : verifyReasons plat attestation.val policy.val now required = []
    · right
      refine ⟨hempty,?_⟩
      have hcount := initialReasons_eq_nil.mp (List.append_eq_nil_iff.mp hempty).1
      rw [hempty,← hcount,List.take_length] at hloop
      simp [checkAttestation,hplan,bind,Except.bind,hadmitted,hloop]
    · left
      refine ⟨hempty,?_⟩
      simp [checkAttestation,hplan,bind,Except.bind,hadmitted,hloop,hempty]

theorem weakest_of_silent {required : EvidenceLevel}
    (h : verifyReasons plat attestation.val policy.val now required = []) :
    ∃ effective, minBy Attestation.evidenceRank (attestation.val.receipts.map fun r =>
      Attestation.effectiveEvidence r.evidenceLevel) = some effective := by
  apply minBy_isSome Attestation.evidenceRank
  have hcount := initialReasons_eq_nil.mp (List.append_eq_nil_iff.mp h).1
  have hhops := List.length_pos_of_ne_nil attestation.plan.hops_ne_nil
  intro hnil
  rw [List.map_eq_nil_iff] at hnil
  rw [hnil,List.length_nil] at hcount
  exact absurd hcount (Nat.ne_of_lt hhops)

theorem verify_cases :
    ((baseDecision plat attestation policy now).admitted = false ∧
      verify plat policy.val now attestation.val =
        .ok {baseDecision plat attestation policy now with
          decisionKind := .attestationVerification
          attestationDigest := some (attestation.val.digest plat)}) ∨
    ∃ required, (baseDecision plat attestation policy now).admitted = true ∧
      Grounded attestation.val.plan policy.val required ∧
      ((verifyReasons plat attestation.val policy.val now required ≠ [] ∧
        verify plat policy.val now attestation.val =
          .ok (deny (baseDecision plat attestation policy now)
            (verifyReasons plat attestation.val policy.val now required)
            (min attestation.val.receipts.length attestation.val.plan.hopPeerIds.length)
            (attestation.val.digest plat))) ∨
      (verifyReasons plat attestation.val policy.val now required = [] ∧
        ∃ effective, minBy Attestation.evidenceRank (attestation.val.receipts.map fun r =>
            Attestation.effectiveEvidence r.evidenceLevel) = some effective ∧
          verify plat policy.val now attestation.val =
            .ok {baseDecision plat attestation policy now with
              decisionKind := .attestationVerification
              attestationDigest := some (attestation.val.digest plat)
              effectiveEvidence := some effective})) := by
  rcases checkAttestation_cases plat attestation policy now with
    ⟨hdenied,hcheck⟩ | ⟨required,hadmitted,hg,⟨hreasons,hcheck⟩ | ⟨hreasons,hcheck⟩⟩
  · exact .inl ⟨hdenied,by rw [verify,verifyAttestation,hcheck]⟩
  · exact .inr ⟨required,hadmitted,hg,.inl ⟨hreasons,by rw [verify,verifyAttestation,hcheck]⟩⟩
  · obtain ⟨effective,heffective⟩ := weakest_of_silent plat attestation policy now hreasons
    refine .inr ⟨required,hadmitted,hg,.inr ⟨hreasons,effective,heffective,?_⟩⟩
    simp only [verify,verifyAttestation,hcheck,recordFresh,conclude,admission,heffective,if_true]

theorem verify_admits :
    ∃ d, verify plat policy.val now attestation.val = .ok d ∧ (d.admitted = true ↔
      (baseDecision plat attestation policy now).admitted = true ∧
        ∀ required, Grounded attestation.val.plan policy.val required →
          verifyReasons plat attestation.val policy.val now required = []) := by
  rcases verify_cases plat attestation policy now with
    ⟨hdenied,hverify⟩ | ⟨required,hadmitted,hg,⟨hreasons,hverify⟩ | ⟨hreasons,_,_,hverify⟩⟩
  · refine ⟨_,hverify,fun h => ?_,fun h => ?_⟩
    · exact absurd h (by simp [hdenied])
    · exact absurd h.1 (by simp [hdenied])
  · refine ⟨_,hverify,fun h => ?_,fun h => absurd (h.2 required hg) hreasons⟩
    exact absurd h (by simp [deny])
  · refine ⟨_,hverify,fun _ => ⟨hadmitted,fun other hother => ?_⟩,fun _ => hadmitted⟩
    have hsame : some required = some other := hg.floor.symm.trans hother.floor
    rw [← Option.some.inj hsame]
    exact hreasons

variable {attestation policy now} {before : τ → τ → Prop}

/-- No code is reported exactly when every hop has its receipt and every receipt is exact. -/
theorem verifyReasons_eq_nil (hbefore : ∀ a b : τ, lt a b = true ↔ before a b)
    {required : EvidenceLevel} (hg : Grounded attestation.val.plan policy.val required) :
    verifyReasons plat attestation.val policy.val now required = [] ↔
      attestation.val.receipts.length = attestation.val.plan.hopPeerIds.length ∧
      ∀ i peer receipt, attestation.val.plan.hopPeerIds[i]? = some peer →
        attestation.val.receipts[i]? = some receipt →
        ∃ manifest ∈ policy.val.topology.peers, manifest.peerId = peer ∧
          ReceiptExact before plat attestation.val.plan policy.val now i peer manifest
            (precursor attestation.val.receipts i) receipt := by
  rw [verifyReasons,List.append_eq_nil_iff,initialReasons_eq_nil,
    chainReasons_eq_nil (Nat.zero_le _)]
  simp only [Nat.zero_add]
  have hcodes : ∀ i peer receipt, attestation.val.plan.hopPeerIds[i]? = some peer →
      (codesAt plat attestation.val.plan policy.val now required i
          (precursor attestation.val.receipts i) receipt = [] ↔
        ∃ manifest ∈ policy.val.topology.peers, manifest.peerId = peer ∧
          ReceiptExact before plat attestation.val.plan policy.val now i peer manifest
            (precursor attestation.val.receipts i) receipt) := by
    intro i peer receipt hpeer
    obtain ⟨m,hm⟩ := hg.manifest peer (List.mem_of_getElem? hpeer)
    have hunique : ∀ manifest : PeerManifest τ, manifest ∈ policy.val.topology.peers ∧
        manifest.peerId = peer ↔ manifest = m := by
      intro manifest
      rw [← mem_peersById,hm,Option.some.injEq,eq_comm]
    simp only [← and_assoc,hunique,exists_eq_left]
    rw [codesAt,hpeer,Option.bind_some,hm]
    exact receiptReasons_silent hbefore hg.floor
  constructor
  · rintro ⟨hcount,_,hall⟩
    refine ⟨hcount,fun i peer receipt hpeer hreceipt => ?_⟩
    exact (hcodes i peer receipt hpeer).mp (hall i receipt hreceipt)
  · rintro ⟨hcount,hall⟩
    refine ⟨hcount,hcount.le,fun i receipt hreceipt => ?_⟩
    have hi : i < attestation.val.plan.hopPeerIds.length := by
      rw [← hcount]
      exact (List.getElem?_eq_some_iff.mp hreceipt).1
    have hpeer := List.getElem?_eq_getElem hi
    exact (hcodes i _ receipt hpeer).mpr (hall i _ receipt hpeer hreceipt)

/-- Verification admits exactly the complete chains of exact receipts for admitted plans. -/
theorem verify_admits_iff (hbefore : ∀ a b : τ, lt a b = true ↔ before a b) :
    ∃ d, verify plat policy.val now attestation.val = .ok d ∧ (d.admitted = true ↔
      (baseDecision plat attestation policy now).admitted = true ∧
      attestation.val.receipts.length = attestation.val.plan.hopPeerIds.length ∧
      ∀ i peer receipt, attestation.val.plan.hopPeerIds[i]? = some peer →
        attestation.val.receipts[i]? = some receipt →
        ∃ manifest ∈ policy.val.topology.peers, manifest.peerId = peer ∧
          ReceiptExact before plat attestation.val.plan policy.val now i peer manifest
            (precursor attestation.val.receipts i) receipt) := by
  obtain ⟨d,hverify,hd⟩ := verify_admits plat attestation policy now
  refine ⟨d,hverify,hd.trans (and_congr_right fun hadmitted => ?_)⟩
  obtain ⟨required,hg⟩ : ∃ required, Grounded attestation.val.plan policy.val required :=
    grounded_of_admitted plat attestation.plan policy now hadmitted
  rw [← verifyReasons_eq_nil plat hbefore hg]
  refine ⟨fun h => h required hg,fun h other hother => ?_⟩
  have hsame : some required = some other := hg.floor.symm.trans hother.floor
  rw [← Option.some.inj hsame]
  exact h

end Outcome

/-- Exactness of attestation verification, with timestamps compared as instants. -/
theorem verify_exact (plat : Platform) (attestation : Validated (RouteAttestation FixedTime))
    (policy : Validated (AdmissionPolicy FixedTime)) (now : FixedTime) :
    ∃ d, verify plat policy.val now attestation.val = .ok d ∧ (d.admitted = true ↔
      (∃ base, admitPlan plat attestation.val.plan policy.val now = .ok base ∧
        base.admitted = true) ∧
      attestation.val.receipts.length = attestation.val.plan.hopPeerIds.length ∧
      ∀ i peer receipt, attestation.val.plan.hopPeerIds[i]? = some peer →
        attestation.val.receipts[i]? = some receipt →
        ∃ manifest ∈ policy.val.topology.peers, manifest.peerId = peer ∧
          ReceiptExact (fun a b => instant a < instant b) plat attestation.val.plan policy.val now
            i peer manifest (precursor attestation.val.receipts i) receipt) := by
  have hplan : admitPlan plat attestation.val.plan policy.val now =
      .ok (baseDecision plat attestation policy now) := admitPlan_eq plat attestation.plan policy now
  simp only [hplan,Except.ok.injEq,exists_eq_left']
  exact verify_admits_iff plat FixedTime.lt_iff

end LocusMesh
