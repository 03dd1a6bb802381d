import Mathlib
import LocusMesh.Evidence

/-! Whether a verdict depends on the instant alone. `now` and the times it is compared with
may carry any tzinfo object, and two times of one zone are ordered by wall clock; so the
question is which readings of an instant fall on the wrong side of a time in its own zone. -/
namespace LocusMesh

open CanonicalJson PyCollections AwareClock HashChain

section Bounds

variable {τ : Type} (plan : RoutePlan τ) (policy : AdmissionPolicy τ)

def planTimes : List τ :=
  [plan.createdAt,plan.expiresAt,policy.topology.capturedAt,policy.topology.expiresAt] ++
    (plan.hopPeerIds.filterMap policy.peersById).flatMap fun peer => [peer.validFrom,peer.expiresAt]

variable {plan policy}

theorem mem_planTimes {b : τ} : b ∈ planTimes plan policy ↔
    b = plan.createdAt ∨ b = plan.expiresAt ∨ b = policy.topology.capturedAt ∨
      b = policy.topology.expiresAt ∨ ∃ p ∈ plan.hopPeerIds, ∃ m, policy.peersById p = some m ∧
        (b = m.validFrom ∨ b = m.expiresAt) := by
  simp only [planTimes,List.mem_append,List.mem_cons,List.not_mem_nil,or_false,or_assoc,
    List.mem_flatMap,List.mem_filterMap]
  refine or_congr Iff.rfl (or_congr Iff.rfl (or_congr Iff.rfl (or_congr Iff.rfl ?_)))
  constructor
  · rintro ⟨m,⟨p,hp,hm⟩,hb⟩
    exact ⟨p,hp,m,hm,hb⟩
  · rintro ⟨p,hp,m,hm,hb⟩
    exact ⟨m,⟨p,hp,hm⟩,hb⟩

variable [AwareDatetime τ] {now now' : τ}

/-- The scan asks of `now` only on which side of these times it is. -/
theorem scanPlan_congr (plat : Platform) (h : ∀ b ∈ planTimes plan policy, lt now b = lt now' b) :
    scanPlan plat plan policy now = scanPlan plat plan policy now' := by
  simp only [mem_planTimes] at h
  have hcreated := h plan.createdAt (.inl rfl)
  have hexpires := h plan.expiresAt (.inr (.inl rfl))
  have hcaptured := h policy.topology.capturedAt (.inr (.inr (.inl rfl)))
  have htopology := h policy.topology.expiresAt (.inr (.inr (.inr (.inl rfl))))
  have hroute : routeReasons plan policy now = routeReasons plan policy now' := by
    simp only [routeReasons,ge_eq_not_lt,hcreated,hexpires,hcaptured,htopology]
  have hhops : plan.hopPeerIds.flatMap (hopReasons plat plan policy now) =
      plan.hopPeerIds.flatMap (hopReasons plat plan policy now') := by
    rw [List.flatMap_def,List.flatMap_def]
    apply congrArg List.flatten
    apply List.map_congr_left
    intro p hp
    cases hm : policy.peersById p with
    | none => simp only [hopReasons,hm]
    | some m =>
      have hfrom := h m.validFrom (.inr (.inr (.inr (.inr ⟨p,hp,m,hm,.inl rfl⟩))))
      have huntil := h m.expiresAt (.inr (.inr (.inr (.inr ⟨p,hp,m,hm,.inr rfl⟩))))
      simp only [hopReasons,hm,peerReasons,ge_eq_not_lt,hfrom,huntil]
  rw [scanPlan_eq,scanPlan_eq,hroute,hhops]

end Bounds

section Violations

variable {τ : Type} [AwareDatetime τ] {plat : Platform} {plan : RoutePlan τ}
  {policy : Validated (AdmissionPolicy τ)} {now now' : τ}

theorem violated_congr {before before' : τ → τ → Prop}
    (h : ∀ b ∈ planTimes plan policy.val, before now b ↔ before' now' b) (v : Violation) :
    v.Violated before plat plan policy.val now ↔ v.Violated before' plat plan policy.val now' := by
  simp only [mem_planTimes] at h
  have hpeer : ∀ p ∈ plan.hopPeerIds, ∀ m ∈ policy.val.topology.peers, m.peerId = p →
      (before now m.validFrom ↔ before' now' m.validFrom) ∧
      (before now m.expiresAt ↔ before' now' m.expiresAt) := by
    intro p hp m hm hid
    have hget := mem_peersById.mpr ⟨hm,hid⟩
    exact ⟨h _ (.inr (.inr (.inr (.inr ⟨p,hp,m,hget,.inl rfl⟩)))),
      h _ (.inr (.inr (.inr (.inr ⟨p,hp,m,hget,.inr rfl⟩))))⟩
  cases v with
  | plan rule =>
    cases rule with
    | planNotYetValid => exact h _ (.inl rfl)
    | planExpired => exact not_congr (h _ (.inr (.inl rfl)))
    | topologyNotYetValid => exact h _ (.inr (.inr (.inl rfl)))
    | topologyExpired => exact not_congr (h _ (.inr (.inr (.inr (.inl rfl)))))
    | _ => exact Iff.rfl
  | edge s t => exact Iff.rfl
  | peer rule p =>
    refine and_congr_right fun hp => ?_
    cases rule with
    | notYetValid =>
      exact exists_congr fun m => and_congr_right fun hm => and_congr_right fun hid =>
        (hpeer p hp m hm hid).1
    | expired =>
      exact exists_congr fun m => and_congr_right fun hm => and_congr_right fun hid =>
        not_congr (hpeer p hp m hm hid).2
    | _ => exact Iff.rfl

theorem violated_peer_iff {before : τ → τ → Prop} {p : PeerId} {m : PeerManifest τ}
    {rule : PeerRule} (hrule : rule ≠ .unknown) (hp : p ∈ plan.hopPeerIds)
    (hm : policy.val.peersById p = some m) :
    (Violation.peer rule p).Violated before plat plan policy.val now ↔
      rule.BrokenBy before plat plan policy.val now m := by
  have hunique : ∀ m' : PeerManifest τ, m' ∈ policy.val.topology.peers ∧ m'.peerId = p ↔
      m' = m := by
    intro m'
    rw [← mem_peersById,hm,Option.some.injEq,eq_comm]
  cases rule with
  | unknown => exact absurd rfl hrule
  | _ => simp only [Violation.Violated,PeerRule.Violated,hp,true_and,← and_assoc,hunique,
      exists_eq_left]

/-- Each of the times shows in a reason of its own. -/
theorem planTimes_of_reasons (plat : Platform)
    (h : ∀ c, c ∈ (scanPlan plat plan policy.val now).reasons ↔
      c ∈ (scanPlan plat plan policy.val now').reasons) :
    ∀ b ∈ planTimes plan policy.val, lt now b = lt now' b := by
  have hviolated : ∀ v : Violation,
      v.Violated (fun x y => lt x y = true) plat plan policy.val now ↔
        v.Violated (fun x y => lt x y = true) plat plan policy.val now' := by
    have hcode : ∀ (at_ : τ) (v : Violation), v.code ∈ (scanPlan plat plan policy.val at_).reasons ↔
        v.Violated (fun x y => lt x y = true) plat plan policy.val at_ := by
      intro at_ v
      rw [mem_scanReasons (fun _ _ => Iff.rfl)]
      constructor
      · rintro ⟨w,hw,hwv⟩
        rw [← violation_code_injective hwv]
        exact hw
      · intro hv
        exact ⟨v,hv,rfl⟩
    intro v
    rw [← hcode,← hcode,h]
  intro b hb
  rw [Bool.eq_iff_iff]
  rcases mem_planTimes.mp hb with rfl | rfl | rfl | rfl | ⟨p,hp,m,hm,rfl | rfl⟩
  · exact hviolated (.plan .planNotYetValid)
  · exact not_iff_not.mp (hviolated (.plan .planExpired))
  · exact hviolated (.plan .topologyNotYetValid)
  · exact not_iff_not.mp (hviolated (.plan .topologyExpired))
  · have hrule := hviolated (.peer .notYetValid p)
    rw [violated_peer_iff (by simp) hp hm,violated_peer_iff (by simp) hp hm] at hrule
    exact hrule
  · have hrule := hviolated (.peer .expired p)
    rw [violated_peer_iff (by simp) hp hm,violated_peer_iff (by simp) hp hm] at hrule
    exact not_iff_not.mp hrule

end Violations

section Verdicts

variable {τ : Type} [AwareDatetime τ]

omit [AwareDatetime τ] in
def SameVerdict (d₁ d₂ : AdmissionDecision τ) : Prop := {d₁ with evaluatedAt := d₂.evaluatedAt} = d₂

omit [AwareDatetime τ] in
theorem SameVerdict.admitted {d₁ d₂ : AdmissionDecision τ} (h : SameVerdict d₁ d₂) :
    d₁.admitted = d₂.admitted := by
  rw [← h]

omit [AwareDatetime τ] in
def AdmissionDecision.denials (d : AdmissionDecision τ) : List String :=
  if d.admitted then [] else d.reasonCodes

omit [AwareDatetime τ] in
theorem SameVerdict.denials {d₁ d₂ : AdmissionDecision τ} (h : SameVerdict d₁ d₂) :
    d₁.denials = d₂.denials := by
  rw [← h]
  rfl

variable {plat : Platform} (plan : Validated (RoutePlan τ))
  {policy : Validated (AdmissionPolicy τ)} {now now' : τ}

theorem planDecision_denials {c : String} :
    c ∈ (planDecision plat plan.val policy.val now).denials ↔
      c ∈ (scanPlan plat plan.val policy.val now).reasons := by
  by_cases h : (scanPlan plat plan.val policy.val now).reasons = []
  · simp [AdmissionDecision.denials,planDecision,h]
  · simp [AdmissionDecision.denials,planDecision,h]

/-- Two plan decisions are one verdict exactly when every time lies on one side. -/
theorem planDecision_same_iff :
    SameVerdict (planDecision plat plan.val policy.val now)
        (planDecision plat plan.val policy.val now') ↔
      ∀ b ∈ planTimes plan.val policy.val, lt now b = lt now' b := by
  constructor
  · intro h
    apply planTimes_of_reasons plat
    intro c
    rw [← planDecision_denials plan,← planDecision_denials plan,h.denials]
  · intro h
    have hscan := scanPlan_congr plat h
    simp only [SameVerdict,planDecision,hscan]

end Verdicts

section Receipts

variable {τ : Type} [AwareDatetime τ] (plat : Platform) (plan : RoutePlan τ)
  (policy : AdmissionPolicy τ) (required : EvidenceLevel)

/-- The codes of receipt `i` before and after `RECEIPT_FROM_FUTURE`. -/
def timedCodes (i : ℕ) (peer : PeerId) (manifest : PeerManifest τ)
    (previous : Option (HopReceipt τ)) (receipt : HopReceipt τ) : Marked String τ where
  front :=
    mismatches (exactFields plat plan policy i peer (precursor plan.hopPeerIds i)
      plan.hopPeerIds[i+1]? (previous.map (HopReceipt.digest plat)) receipt) ++
    flag (!inWindow plan.createdAt plan.expiresAt receipt.observedAt) "RECEIPT_OUTSIDE_PLAN_WINDOW"
  key := receipt.observedAt
  back :=
    flag (!inWindow policy.topology.capturedAt policy.topology.expiresAt receipt.observedAt)
      "RECEIPT_OUTSIDE_TOPOLOGY_WINDOW" ++
    (match previous with
      | none => []
      | some before => flag (lt receipt.observedAt before.observedAt) "RECEIPT_TIME_REVERSED") ++
    flag (!inWindow manifest.validFrom manifest.expiresAt receipt.observedAt)
      "RECEIPT_OUTSIDE_PEER_WINDOW" ++
    signatureReasons plat manifest receipt ++
    flag (decide (Attestation.evidenceRank manifest.evidenceLevel <
        Attestation.evidenceRank receipt.evidenceLevel)) "RECEIPT_EVIDENCE_EXCEEDS_MANIFEST" ++
    flag (decide (Attestation.evidenceRank (Attestation.effectiveEvidence receipt.evidenceLevel) <
        Attestation.evidenceRank required)) "RECEIPT_EVIDENCE_BELOW_FLOOR"

def timedCodesAt (i : ℕ) (previous : Option (HopReceipt τ)) (receipt : HopReceipt τ) :
    List (Marked String τ) :=
  match plan.hopPeerIds[i]?.bind fun peer => (policy.peersById peer).map (Prod.mk peer) with
  | none => []
  | some (peer,manifest) => [timedCodes plat plan policy required i peer manifest previous receipt]

def timedChain (i : ℕ) (previous : Option (HopReceipt τ)) :
    List (HopReceipt τ) → List (Marked String τ)
  | [] => []
  | receipt :: rest =>
    if plan.hopPeerIds.length ≤ i then []
    else timedCodesAt plat plan policy required i previous receipt ++
      timedChain (i + 1) (some receipt) rest

variable {plat plan policy required} {now : τ}

theorem receiptReasons_timed {i : ℕ} {peer : PeerId} {manifest : PeerManifest τ}
    {previous : Option (HopReceipt τ)} {receipt : HopReceipt τ} :
    receiptReasons plat plan policy now required i peer manifest previous receipt =
      marks "RECEIPT_FROM_FUTURE" (lt now)
        [timedCodes plat plan policy required i peer manifest previous receipt] := by
  simp only [receiptReasons,timeReasons,marks,timedCodes,gt_eq_lt,List.flatMap_cons,
    List.flatMap_nil,List.append_assoc,List.append_nil]
  rfl

theorem marks_append {α β : Type} {mark : α} {p : β → Bool} {l m : List (Marked α β)} :
    marks mark p (l ++ m) = marks mark p l ++ marks mark p m := List.flatMap_append

theorem codesAt_timed {i : ℕ} {previous : Option (HopReceipt τ)} {receipt : HopReceipt τ} :
    codesAt plat plan policy now required i previous receipt =
      marks "RECEIPT_FROM_FUTURE" (lt now)
        (timedCodesAt plat plan policy required i previous receipt) := by
  unfold codesAt timedCodesAt
  cases plan.hopPeerIds[i]?.bind fun peer => (policy.peersById peer).map (Prod.mk peer) with
  | none => rfl
  | some hop => exact receiptReasons_timed

theorem chainReasons_timed {i : ℕ} (hi : i ≤ plan.hopPeerIds.length)
    (previous : Option (HopReceipt τ)) (receipts : List (HopReceipt τ)) :
    chainReasons plat plan policy now required i previous receipts =
      marks "RECEIPT_FROM_FUTURE" (lt now)
        (timedChain plat plan policy required i previous receipts) ++
      flag (decide (plan.hopPeerIds.length < i + receipts.length)) "EXTRA_RECEIPT" := by
  induction receipts generalizing i previous with
  | nil => simp [chainReasons,timedChain,marks,hi]
  | cons receipt rest ih =>
    unfold chainReasons timedChain
    by_cases hlen : plan.hopPeerIds.length ≤ i
    · have hsurplus : plan.hopPeerIds.length < i + (receipt :: rest).length := by
        rw [List.length_cons]
        omega
      rw [if_pos hlen,if_pos hlen,decide_eq_true hsurplus]
      rfl
    · have hcount : i + 1 + rest.length = i + (receipt :: rest).length := by
        rw [List.length_cons]
        omega
      rw [if_neg hlen,if_neg hlen,ih (by omega),codesAt_timed,marks_append,hcount,
        List.append_assoc]

theorem timedCodes_unmarked {i : ℕ} {peer : PeerId} {manifest : PeerManifest τ}
    {previous : Option (HopReceipt τ)} {receipt : HopReceipt τ} :
    "RECEIPT_FROM_FUTURE" ∉
      unmarked [timedCodes plat plan policy required i peer manifest previous receipt] := by
  have hfields : "RECEIPT_FROM_FUTURE" ∉ mismatches (exactFields plat plan policy i peer
      (precursor plan.hopPeerIds i) plan.hopPeerIds[i+1]? (previous.map (HopReceipt.digest plat))
      receipt) := by
    simp [mismatches,exactFields]
  have hordered : "RECEIPT_FROM_FUTURE" ∉ (match previous with
      | none => []
      | some prior => flag (lt receipt.observedAt prior.observedAt) "RECEIPT_TIME_REVERSED") := by
    cases previous <;> simp
  have hsignature : "RECEIPT_FROM_FUTURE" ∉ signatureReasons plat manifest receipt := by
    unfold signatureReasons
    cases deriveKeyId plat manifest.publicKey.val <;> simp
  simp only [unmarked,timedCodes,List.flatMap_cons,List.flatMap_nil,List.append_nil,
    List.mem_append,mem_flag,hfields,hordered,hsignature,false_or,or_false]
  simp

theorem timedChain_unmarked {i : ℕ} {previous : Option (HopReceipt τ)}
    {receipts : List (HopReceipt τ)} : "RECEIPT_FROM_FUTURE" ∉
      unmarked (timedChain plat plan policy required i previous receipts) := by
  induction receipts generalizing i previous with
  | nil => simp [timedChain,unmarked]
  | cons receipt rest ih =>
    unfold timedChain
    split_ifs
    · simp [unmarked]
    · rw [unmarked,List.flatMap_append,List.mem_append,not_or]
      refine ⟨?_,ih⟩
      unfold timedCodesAt
      cases plan.hopPeerIds[i]?.bind fun peer => (policy.peersById peer).map (Prod.mk peer) with
      | none => simp
      | some hop => exact timedCodes_unmarked

theorem timedChain_keys (plat : Platform) (hg : Grounded plan policy required) (i : ℕ)
    (previous : Option (HopReceipt τ)) (receipts : List (HopReceipt τ)) :
    (timedChain plat plan policy required i previous receipts).map Marked.key =
      (receipts.take (plan.hopPeerIds.length - i)).map HopReceipt.observedAt := by
  induction receipts generalizing i previous with
  | nil => simp [timedChain]
  | cons receipt rest ih =>
    by_cases hi : plan.hopPeerIds.length ≤ i
    · have hzero : plan.hopPeerIds.length - i = 0 := by omega
      simp [timedChain,hi,hzero]
    · have hlt : i < plan.hopPeerIds.length := by omega
      have hsucc : plan.hopPeerIds.length - i = plan.hopPeerIds.length - (i + 1) + 1 := by omega
      obtain ⟨m,hm⟩ := hg.manifest _ (List.getElem_mem hlt)
      have hcodes : timedCodesAt plat plan policy required i previous receipt =
          [timedCodes plat plan policy required i plan.hopPeerIds[i] m previous receipt] := by
        rw [timedCodesAt,List.getElem?_eq_getElem hlt,Option.bind_some,hm]
        rfl
      rw [timedChain,if_neg hi,hcodes,List.map_append,ih,hsucc,List.take_succ_cons]
      rfl

end Receipts

section Outcomes

variable {τ : Type} [AwareDatetime τ]

def codesAhead (plat : Platform) (a : RouteAttestation τ) (policy : AdmissionPolicy τ)
    (required : EvidenceLevel) (later : τ → Bool) : List String :=
  initialReasons a ++ beforeMark later (timedChain plat a.plan policy required 0 none a.receipts)

variable {plat : Platform} {attestation : Validated (RouteAttestation τ)}
  {policy : Validated (AdmissionPolicy τ)} {now now' : τ} {required : EvidenceLevel}

/-- The receipts' codes leave the same ordered set exactly when now is before a receipt
both times or neither, and the same codes precede the first such receipt. -/
theorem fromKeys_verifyReasons_iff (hg : Grounded attestation.val.plan policy.val required) :
    fromKeys (verifyReasons plat attestation.val policy.val now required) =
        fromKeys (verifyReasons plat attestation.val policy.val now' required) ↔
      ((∃ r ∈ attestation.val.checked, lt now r.observedAt = true) ↔
        ∃ r ∈ attestation.val.checked, lt now' r.observedAt = true) ∧
      ((∃ r ∈ attestation.val.checked, lt now' r.observedAt = true) → ∀ c,
        c ∈ codesAhead plat attestation.val policy.val required (lt now) ↔
          c ∈ codesAhead plat attestation.val policy.val required (lt now')) := by
  have hkeys : ∀ later : τ → Bool,
      (∃ e ∈ timedChain plat attestation.val.plan policy.val required 0 none
        attestation.val.receipts, later e.key = true) ↔
      ∃ r ∈ attestation.val.checked, later r.observedAt = true := by
    intro later
    have hmap := timedChain_keys plat hg 0 none attestation.val.receipts
    have hexists : ∀ {α : Type} (f : α → τ) (l : List α),
        (∃ a ∈ l, later (f a) = true) ↔ ∃ b ∈ l.map f, later b = true := by
      intro α f l
      simp
    rw [hexists Marked.key,hmap,RouteAttestation.checked,Nat.sub_zero,← hexists]
  have hinit : "RECEIPT_FROM_FUTURE" ∉ initialReasons attestation.val := by
    simp [initialReasons]
  have hlast : "RECEIPT_FROM_FUTURE" ∉ flag (decide (attestation.val.plan.hopPeerIds.length <
      0 + attestation.val.receipts.length)) "EXTRA_RECEIPT" := by
    simp
  simp only [verifyReasons,chainReasons_timed (Nat.zero_le _),← List.append_assoc]
  rw [fromKeys_marks_eq_iff hinit timedChain_unmarked hlast]
  simp only [hkeys,codesAhead]

def receiptsDecision (plat : Platform) (attestation : Validated (RouteAttestation τ))
    (policy : Validated (AdmissionPolicy τ)) (now : τ) (required : EvidenceLevel) :
    AdmissionDecision τ :=
  if verifyReasons plat attestation.val policy.val now required = [] then
    {baseDecision plat attestation policy now with
      decisionKind := .attestationVerification
      attestationDigest := some (attestation.val.digest plat)
      effectiveEvidence := minBy Attestation.evidenceRank (attestation.val.receipts.map fun r =>
        Attestation.effectiveEvidence r.evidenceLevel)}
  else
    deny (baseDecision plat attestation policy now)
      (verifyReasons plat attestation.val policy.val now required)
      (min attestation.val.receipts.length attestation.val.plan.hopPeerIds.length)
      (attestation.val.digest plat)

theorem verify_of_denied (h : (baseDecision plat attestation policy now).admitted = false) :
    verify plat policy.val now attestation.val =
      .ok {baseDecision plat attestation policy now with
        decisionKind := .attestationVerification
        attestationDigest := some (attestation.val.digest plat)} := by
  rcases verify_cases plat attestation policy now with ⟨_,hverify⟩ | ⟨_,hadmitted,_⟩
  · exact hverify
  · exact absurd (h.symm.trans hadmitted) Bool.false_ne_true

theorem verify_of_admitted (hg : Grounded attestation.val.plan policy.val required)
    (h : (baseDecision plat attestation policy now).admitted = true) :
    verify plat policy.val now attestation.val =
      .ok (receiptsDecision plat attestation policy now required) := by
  rcases verify_cases plat attestation policy now with ⟨hdenied,_⟩ | ⟨other,_,hother,hrest⟩
  · exact absurd (hdenied.symm.trans h) Bool.false_ne_true
  · have hsame : some other = some required := hother.floor.symm.trans hg.floor
    obtain rfl := Option.some.inj hsame
    rcases hrest with ⟨hreasons,hverify⟩ | ⟨hsilent,weakest,hweakest,hverify⟩
    · rw [receiptsDecision,if_neg hreasons,hverify]
    · rw [receiptsDecision,if_pos hsilent,hverify,hweakest]

theorem receiptsDecision_same_iff (hbase : SameVerdict (baseDecision plat attestation policy now)
      (baseDecision plat attestation policy now'))
    (hadmitted : (baseDecision plat attestation policy now).admitted = true) :
    SameVerdict (receiptsDecision plat attestation policy now required)
        (receiptsDecision plat attestation policy now' required) ↔
      fromKeys (verifyReasons plat attestation.val policy.val now required) =
        fromKeys (verifyReasons plat attestation.val policy.val now' required) := by
  obtain ⟨e,he⟩ : ∃ e, baseDecision plat attestation policy now' =
      {baseDecision plat attestation policy now with evaluatedAt := e} := ⟨_,hbase.symm⟩
  unfold receiptsDecision
  rw [he]
  by_cases h : verifyReasons plat attestation.val policy.val now required = []
  · by_cases h' : verifyReasons plat attestation.val policy.val now' required = []
    · rw [if_pos h,if_pos h',h,h']
      exact ⟨fun _ => rfl,fun _ => rfl⟩
    · rw [if_pos h,if_neg h']
      refine ⟨fun hsame => ?_,fun hcodes => ?_⟩
      · have hflag := congrArg AdmissionDecision.admitted hsame
        exact absurd (hadmitted.symm.trans hflag) (by simp [deny])
      · rw [h,fromKeys_eq_nil.mpr rfl,eq_comm,fromKeys_eq_nil] at hcodes
        exact absurd hcodes h'
  · by_cases h' : verifyReasons plat attestation.val policy.val now' required = []
    · rw [if_neg h,if_pos h']
      refine ⟨fun hsame => ?_,fun hcodes => ?_⟩
      · have hflag := congrArg AdmissionDecision.admitted hsame
        exact absurd (hflag.trans hadmitted) (by simp [deny])
      · rw [h',fromKeys_eq_nil.mpr rfl,fromKeys_eq_nil] at hcodes
        exact absurd hcodes h
    · rw [if_neg h,if_neg h']
      refine ⟨fun hsame => congrArg AdmissionDecision.reasonCodes hsame,fun hcodes => ?_⟩
      simp only [SameVerdict,deny,hcodes]

/-- A verification denies with a plan code exactly when plan admission does. -/
theorem verify_denials {d : AdmissionDecision τ}
    (hverify : verify plat policy.val now attestation.val = .ok d) {c : String} :
    (c ∈ d.denials ∧ ∃ v : Violation, v.code = c) ↔
      c ∈ (scanPlan plat attestation.val.plan policy.val now).reasons := by
  have hviolation : c ∈ (scanPlan plat attestation.val.plan policy.val now).reasons →
      ∃ v : Violation, v.code = c := by
    intro hc
    obtain ⟨v,_,hv⟩ := (mem_scanReasons (fun _ _ => Iff.rfl)).mp hc
    exact ⟨v,hv⟩
  cases hbase : (baseDecision plat attestation policy now).admitted with
  | false =>
    rw [verify_of_denied hbase,Except.ok.injEq] at hverify
    have hdenials : d.denials = (baseDecision plat attestation policy now).denials := by
      rw [← hverify]
      rfl
    have hmem : c ∈ d.denials ↔
        c ∈ (scanPlan plat attestation.val.plan policy.val now).reasons := by
      rw [hdenials]
      exact planDecision_denials attestation.plan
    rw [hmem]
    exact and_iff_left_of_imp hviolation
  | true =>
    have hempty : (scanPlan plat attestation.val.plan policy.val now).reasons = [] :=
      (planDecision_admitted plat attestation.plan policy now).mp hbase
    obtain ⟨required,hg⟩ : ∃ required, Grounded attestation.val.plan policy.val required :=
      grounded_of_admitted plat attestation.plan policy now hbase
    rw [verify_of_admitted hg hbase,Except.ok.injEq] at hverify
    rw [hempty]
    refine ⟨fun ⟨hc,v,hv⟩ => ?_,fun hc => absurd hc List.not_mem_nil⟩
    by_cases hsilent : verifyReasons plat attestation.val policy.val now required = []
    · rw [← hverify,receiptsDecision,if_pos hsilent,AdmissionDecision.denials,if_pos hbase] at hc
      exact absurd hc List.not_mem_nil
    · rw [← hverify,receiptsDecision,if_neg hsilent] at hc
      have hcode : c ∈ verifyReasons plat attestation.val policy.val now required :=
        mem_fromKeys.mp hc
      exact absurd hv ((verifyReasons_receiptCode hcode).ne_violation v)

/-- Two verifications give one verdict exactly when every time lies on one side and, where
the plan is admitted, the receipts' codes agree. -/
theorem verify_same_iff :
    (∃ d d', verify plat policy.val now attestation.val = .ok d ∧
      verify plat policy.val now' attestation.val = .ok d' ∧ SameVerdict d d') ↔
    (∀ b ∈ planTimes attestation.val.plan policy.val, lt now b = lt now' b) ∧
    ((baseDecision plat attestation policy now).admitted = true →
      ∀ required, Grounded attestation.val.plan policy.val required →
        fromKeys (verifyReasons plat attestation.val policy.val now required) =
          fromKeys (verifyReasons plat attestation.val policy.val now' required)) := by
  have hsame : (∀ b ∈ planTimes attestation.val.plan policy.val, lt now b = lt now' b) ↔
      SameVerdict (baseDecision plat attestation policy now)
        (baseDecision plat attestation policy now') :=
    (planDecision_same_iff attestation.plan).symm
  constructor
  · rintro ⟨d,d',hverify,hverify',hd⟩
    have hbounds : ∀ b ∈ planTimes attestation.val.plan policy.val, lt now b = lt now' b := by
      apply planTimes_of_reasons plat
      intro c
      rw [← verify_denials hverify,← verify_denials hverify',hd.denials]
    refine ⟨hbounds,fun hadmitted required hg => ?_⟩
    have hbase := hsame.mp hbounds
    have hadmitted' : (baseDecision plat attestation policy now').admitted = true :=
      hbase.admitted.symm.trans hadmitted
    rw [verify_of_admitted hg hadmitted,Except.ok.injEq] at hverify
    rw [verify_of_admitted hg hadmitted',Except.ok.injEq] at hverify'
    rw [← hverify,← hverify'] at hd
    exact (receiptsDecision_same_iff hbase hadmitted).mp hd
  · rintro ⟨hbounds,hcodes⟩
    have hbase := hsame.mp hbounds
    have hflag := hbase.admitted
    cases hadmitted : (baseDecision plat attestation policy now).admitted with
    | false =>
      refine ⟨_,_,verify_of_denied hadmitted,verify_of_denied (hflag.symm.trans hadmitted),?_⟩
      obtain ⟨e,he⟩ : ∃ e, baseDecision plat attestation policy now' =
          {baseDecision plat attestation policy now with evaluatedAt := e} := ⟨_,hbase.symm⟩
      rw [he]
      rfl
    | true =>
      obtain ⟨required,hg⟩ : ∃ required, Grounded attestation.val.plan policy.val required :=
        grounded_of_admitted plat attestation.plan policy now hadmitted
      exact ⟨_,_,verify_of_admitted hg hadmitted,
        verify_of_admitted hg (hflag.symm.trans hadmitted),
        (receiptsDecision_same_iff hbase hadmitted).mpr (hcodes hadmitted required hg)⟩

end Outcomes

section Readings

variable {zones : ZoneTable}

/-- No reading of the instant `t` in the zone of `b` is on the other side of `b`. -/
def Settled (t : ℤ) (b : ZonedTime zones) : Prop :=
  ∀ now : ZonedTime zones, instant now = t → now.tzinfo = b.tzinfo →
    (now.wall < b.wall ↔ t < instant b)

theorem settled_iff {t : ℤ} {b : ZonedTime zones} :
    Settled t b ↔ ∀ now : ZonedTime zones, instant now = t → (lt now b = true ↔ t < instant b) := by
  constructor
  · intro h now hnow
    by_cases hzone : now.tzinfo = b.tzinfo
    · rw [ZonedTime.lt_of_same hzone]
      exact h now hnow hzone
    · rw [ZonedTime.lt_of_distinct hzone,hnow]
  · intro h now hnow hzone
    rw [← h now hnow,ZonedTime.lt_of_same hzone]

/-- No two readings of the instant are on different sides of `b`. -/
theorem settled_iff_agree {t : ℤ} {b : ZonedTime zones} :
    Settled t b ↔ ∀ now now' : ZonedTime zones, instant now = t → instant now' = t →
      lt now b = lt now' b := by
  rw [settled_iff]
  constructor
  · intro h now now' hnow hnow'
    rw [Bool.eq_iff_iff,h now hnow,h now' hnow']
  · intro h now hnow
    rw [h now (ZonedTime.atUtc t) hnow (ZonedTime.instant_atUtc t),ZonedTime.lt_atUtc]

variable (plat : Platform) (t : ℤ) (plan : RoutePlan (ZonedTime zones))
  (attestation : RouteAttestation (ZonedTime zones)) (policy : AdmissionPolicy (ZonedTime zones))

/-- The instant is before the plan's, the topology's and every hop manifest's expiry. -/
structure Unexpired : Prop where
  planExpiry : t < instant plan.expiresAt
  topologyExpiry : t < instant policy.topology.expiresAt
  peerExpiry : ∀ p ∈ plan.hopPeerIds, ∀ m ∈ policy.topology.peers, m.peerId = p → t < instant m.expiresAt

/-- Two outcomes at one instant are one verdict, and not an admission after expiry. -/
structure Agree (outcome outcome' : Except PyError (AdmissionDecision (ZonedTime zones))) :
    Prop where
  same : ∃ d d', outcome = .ok d ∧ outcome' = .ok d' ∧ SameVerdict d d'
  unexpired : ∀ d, (outcome = .ok d ∨ outcome' = .ok d) → d.admitted = true →
    Unexpired t plan policy

/-- No rule is violated at the instant, by instants. -/
def Unobjectionable : Prop := ∀ v : Violation,
  ¬v.Violated (fun a b => instant a < instant b) plat plan policy (ZonedTime.atUtc t)

/-- Every reading of the instant finds a receipt from the future where instants do, behind
the same codes. -/
def ReceiptsSettled : Prop :=
  Unobjectionable plat t attestation.plan policy →
    ∀ required, policy.floor attestation.plan.intent = some required →
      ∀ now : ZonedTime zones, instant now = t →
        ((∃ r ∈ attestation.checked, lt now r.observedAt = true) ↔
          ∃ r ∈ attestation.checked, t < instant r.observedAt) ∧
        ((∃ r ∈ attestation.checked, t < instant r.observedAt) → ∀ c,
          c ∈ codesAhead plat attestation policy required (lt now) ↔
            c ∈ codesAhead plat attestation policy required fun b => decide (t < instant b))

variable {plat t} {plan : RoutePlan (ZonedTime zones)}
  {policy : Validated (AdmissionPolicy (ZonedTime zones))}

theorem violated_of_settled (h : ∀ b ∈ planTimes plan policy.val, Settled t b)
    {now : ZonedTime zones} (hnow : instant now = t) (v : Violation) :
    v.Violated (fun a b => lt a b = true) plat plan policy.val now ↔
      v.Violated (fun a b => instant a < instant b) plat plan policy.val (ZonedTime.atUtc t) := by
  apply violated_congr
  intro b hb
  rw [ZonedTime.instant_atUtc]
  exact settled_iff.mp (h b hb) now hnow

theorem unexpired_of_unobjectionable (h : Unobjectionable plat t plan policy.val) :
    Unexpired t plan policy.val := by
  have hlt : ∀ b : ZonedTime zones, ¬¬instant (ZonedTime.atUtc t : ZonedTime zones) < instant b →
      t < instant b := by
    intro b hb
    rw [ZonedTime.instant_atUtc] at hb
    exact not_not.mp hb
  refine ⟨hlt _ (h (.plan .planExpired)),hlt _ (h (.plan .topologyExpired)),?_⟩
  intro p hp m hm hid
  refine hlt _ fun hlate => h (.peer .expired p) ⟨hp,m,hm,hid,hlate⟩

end Readings

section Instant

variable {zones : ZoneTable} (plat : Platform) (plan : Validated (RoutePlan (ZonedTime zones)))
  (attestation : Validated (RouteAttestation (ZonedTime zones)))
  (policy : Validated (AdmissionPolicy (ZonedTime zones))) (t : ℤ)

variable {plat plan policy t} in
theorem admitted_of_settled (hsettled : ∀ b ∈ planTimes plan.val policy.val, Settled t b)
    {now : ZonedTime zones} (hnow : instant now = t) :
    (planDecision plat plan.val policy.val now).admitted = true ↔
      Unobjectionable plat t plan.val policy.val := by
  rw [planDecision_admitted_iff]
  exact forall_congr' fun v => not_congr (violated_of_settled hsettled hnow v)

/-- The readings of an instant agree on a plan exactly where its times are settled. -/
theorem plan_agree_iff :
    (∀ now now' : ZonedTime zones, instant now = t → instant now' = t →
      Agree t plan.val policy.val (admitPlan plat plan.val policy.val now)
        (admitPlan plat plan.val policy.val now')) ↔
    ∀ b ∈ planTimes plan.val policy.val, Settled t b := by
  constructor
  · intro h b hb
    rw [settled_iff_agree]
    intro now now' hnow hnow'
    obtain ⟨d,d',hd,hd',hsame⟩ := (h now now' hnow hnow').same
    rw [admitPlan_eq,Except.ok.injEq] at hd hd'
    rw [← hd,← hd'] at hsame
    exact (planDecision_same_iff plan).mp hsame b hb
  · intro hsettled now now' hnow hnow'
    refine ⟨⟨_,_,admitPlan_eq plat plan policy now,admitPlan_eq plat plan policy now',?_⟩,?_⟩
    · rw [planDecision_same_iff]
      intro b hb
      exact settled_iff_agree.mp (hsettled b hb) now now' hnow hnow'
    · intro d hd hadmitted
      rw [admitPlan_eq,admitPlan_eq,Except.ok.injEq,Except.ok.injEq] at hd
      rcases hd with rfl | rfl
      · exact unexpired_of_unobjectionable ((admitted_of_settled hsettled hnow).mp hadmitted)
      · exact unexpired_of_unobjectionable ((admitted_of_settled hsettled hnow').mp hadmitted)

variable {plat attestation policy t} in
theorem receiptsSettled_of_agree
    (hsettled : ∀ b ∈ planTimes attestation.val.plan policy.val, Settled t b)
    (h : ∀ now now' : ZonedTime zones, instant now = t → instant now' = t →
      Agree t attestation.val.plan policy.val (verify plat policy.val now attestation.val)
        (verify plat policy.val now' attestation.val)) :
    ReceiptsSettled plat t attestation.val policy.val := by
  intro hunobjectionable required hfloor now hnow
  have hadmitted : (baseDecision plat attestation policy now).admitted = true :=
    (@admitted_of_settled _ _ attestation.plan _ _ hsettled now hnow).mpr hunobjectionable
  obtain ⟨other,hg⟩ : ∃ required, Grounded attestation.val.plan policy.val required :=
    grounded_of_admitted plat attestation.plan policy now hadmitted
  obtain rfl : other = required := Option.some.inj (hg.floor.symm.trans hfloor)
  have hsame := (h now (ZonedTime.atUtc t) hnow (ZonedTime.instant_atUtc t)).same
  have hcodes := (verify_same_iff.mp hsame).2 hadmitted other hg
  rw [fromKeys_verifyReasons_iff hg] at hcodes
  have hlater : lt (ZonedTime.atUtc t : ZonedTime zones) = fun b => decide (t < instant b) := by
    funext b
    rw [Bool.eq_iff_iff,ZonedTime.lt_atUtc,decide_eq_true_eq]
  simpa only [hlater,decide_eq_true_eq] using hcodes

/-- The readings agree on an attestation exactly where its plan's times and its receipts are
settled. -/
theorem verify_agree_iff :
    (∀ now now' : ZonedTime zones, instant now = t → instant now' = t →
      Agree t attestation.val.plan policy.val (verify plat policy.val now attestation.val)
        (verify plat policy.val now' attestation.val)) ↔
    (∀ b ∈ planTimes attestation.val.plan policy.val, Settled t b) ∧
      ReceiptsSettled plat t attestation.val policy.val := by
  constructor
  · intro h
    have hsettled : ∀ b ∈ planTimes attestation.val.plan policy.val, Settled t b := by
      intro b hb
      rw [settled_iff_agree]
      intro now now' hnow hnow'
      exact (verify_same_iff.mp (h now now' hnow hnow').same).1 b hb
    exact ⟨hsettled,receiptsSettled_of_agree hsettled h⟩
  · rintro ⟨hsettled,hreceipts⟩ now now' hnow hnow'
    have hbase : ∀ {now : ZonedTime zones}, instant now = t →
        ((baseDecision plat attestation policy now).admitted = true ↔
          Unobjectionable plat t attestation.val.plan policy.val) :=
      fun {now} hnow => @admitted_of_settled _ _ attestation.plan _ _ hsettled now hnow
    refine ⟨verify_same_iff.mpr ⟨?_,?_⟩,?_⟩
    · intro b hb
      exact settled_iff_agree.mp (hsettled b hb) now now' hnow hnow'
    · intro hadmitted required hg
      have hfloor := hreceipts ((hbase hnow).mp hadmitted) required hg.floor
      obtain ⟨hsome,hahead⟩ := hfloor now hnow
      obtain ⟨hsome',hahead'⟩ := hfloor now' hnow'
      rw [fromKeys_verifyReasons_iff hg]
      refine ⟨hsome.trans hsome'.symm,fun hlater c => ?_⟩
      rw [hahead (hsome'.mp hlater) c,hahead' (hsome'.mp hlater) c]
    · intro d hd hadmitted
      have hlate : ∀ {now : ZonedTime zones}, instant now = t →
          verify plat policy.val now attestation.val = .ok d →
          Unexpired t attestation.val.plan policy.val := by
        intro now hnow hverify
        obtain ⟨d',hverify',hiff⟩ := verify_admits plat attestation policy now
        obtain rfl : d = d' := Except.ok.inj (hverify.symm.trans hverify')
        exact unexpired_of_unobjectionable ((hbase hnow).mp (hiff.mp hadmitted).1)
      exact hd.elim (hlate hnow) (hlate hnow')

end Instant

/-- Verdicts depend on the instant alone, and none admits after an expiry, exactly when no
reading of the instant is across a time of its own zone from where instants put it. -/
theorem verdicts_follow_instant_iff {zones : ZoneTable} (plat : Platform)
    (plan : Validated (RoutePlan (ZonedTime zones)))
    (attestation : Validated (RouteAttestation (ZonedTime zones)))
    (policy : Validated (AdmissionPolicy (ZonedTime zones))) (t : ℤ) :
    (∀ now now' : ZonedTime zones, instant now = t → instant now' = t →
      Agree t plan.val policy.val (admitPlan plat plan.val policy.val now)
          (admitPlan plat plan.val policy.val now') ∧
        Agree t attestation.val.plan policy.val (verify plat policy.val now attestation.val)
          (verify plat policy.val now' attestation.val)) ↔
    (∀ b ∈ planTimes plan.val policy.val ++ planTimes attestation.val.plan policy.val,
        Settled t b) ∧
      ReceiptsSettled plat t attestation.val policy.val := by
  have hplan := plan_agree_iff plat plan policy t
  have hattested := verify_agree_iff plat attestation policy t
  constructor
  · intro h
    have hsettled := hplan.mp fun now now' hnow hnow' => (h now now' hnow hnow').1
    obtain ⟨hsettled',hreceipts⟩ :=
      hattested.mp fun now now' hnow hnow' => (h now now' hnow hnow').2
    exact ⟨fun b hb => (List.mem_append.mp hb).elim (hsettled b) (hsettled' b),hreceipts⟩
  · rintro ⟨hsettled,hreceipts⟩ now now' hnow hnow'
    constructor
    · exact hplan.mpr (fun b hb => hsettled b (List.mem_append_left _ hb)) now now' hnow hnow'
    · exact hattested.mpr ⟨fun b hb => hsettled b (List.mem_append_right _ hb),hreceipts⟩ now now'
        hnow hnow'

namespace Demo

/-- Midnight of the day in 2030 on which New York leaves daylight-saving time. -/
def midnight : ℤ := 1919894400000000

def minute : ℤ := 60000000

/-- New York on that day: the hour from one to two is repeated. -/
def newYork : ZoneTable := fun _ wall fold =>
  if wall < midnight + 60 * minute ∨ wall < midnight + 120 * minute ∧ fold = false then
    -240 * minute
  else -300 * minute

def inNewYork (minutes : ℤ) (fold : Bool) : ZonedTime newYork :=
  ⟨midnight + minutes * minute,fold,some 0⟩

def inUtc (minutes : ℤ) : ZonedTime newYork := ZonedTime.atUtc (midnight + minutes * minute)

/-- The plan expires at 01:40 in New York, before the clock is set back. -/
def repeatedHour : Windows (ZonedTime newYork) where
  validFrom := inUtc 0
  manifestExpiresAt := inUtc 1440
  capturedAt := inUtc 0
  topologyExpiresAt := inUtc 1440
  createdAt := inUtc 300
  planExpiresAt := inNewYork 100 false
  manifest_lt := by decide
  topology_lt := by decide
  plan_lt := by decide

end Demo

/-- At 01:10 after the clock was set back, half an hour past its expiry, the demo's device
plan is admitted; the same instant written in UTC denies it. -/
theorem admitted_past_expiry_demo :
    instant (Demo.inNewYork 70 true) = instant (Demo.inUtc 370) ∧
    instant Demo.repeatedHour.planExpiresAt < instant (Demo.inNewYork 70 true) ∧
    (∃ d, admitPlan Demo.platform (Demo.devicePlan Demo.platform Demo.repeatedHour)
        (Demo.policy Demo.platform Demo.keys Demo.repeatedHour) (Demo.inNewYork 70 true) = .ok d ∧
      d.admitted = true) ∧
    ∃ d, admitPlan Demo.platform (Demo.devicePlan Demo.platform Demo.repeatedHour)
        (Demo.policy Demo.platform Demo.keys Demo.repeatedHour) (Demo.inUtc 370) = .ok d ∧
      d.admitted = false := by
  have hdecision : ∀ now, admitPlan Demo.platform (Demo.devicePlan Demo.platform Demo.repeatedHour)
      (Demo.policy Demo.platform Demo.keys Demo.repeatedHour) now = .ok _ := fun now =>
    admitPlan_eq Demo.platform (Demo.validDevicePlan Demo.platform Demo.repeatedHour)
      (Demo.validPolicy Demo.platform Demo.keys Demo.repeatedHour) now
  have hopen : Demo.repeatedHour.Contain (Demo.inNewYork 70 true) :=
    ⟨by decide,by decide,by decide⟩
  have hclosed : ¬Demo.repeatedHour.Contain (Demo.inUtc 370) := fun h => absurd h.1 (by decide)
  refine ⟨by decide,by decide,⟨_,hdecision _,Demo.devicePlan_admitted_iff.mpr hopen⟩,
    _,hdecision _,?_⟩
  rw [← Bool.not_eq_true]
  exact fun h => hclosed (Demo.devicePlan_admitted_iff.mp h)

end LocusMesh
