import Mathlib
import LocusMesh.Building
import LocusMesh.Replay

/-! What a verification decision says about the receipts it was given, on each of the four
ways out of `verify_attestation`. -/
namespace LocusMesh

open CanonicalJson PyCollections AwareClock HashChain

theorem evidenceRank_injective : Function.Injective Attestation.evidenceRank := by
  intro a b h
  cases a <;> cases b <;> simp_all [Attestation.evidenceRank]

theorem effectiveEvidence_mono {a b : EvidenceLevel}
    (h : Attestation.evidenceRank a ≤ Attestation.evidenceRank b) :
    Attestation.evidenceRank (Attestation.effectiveEvidence a) ≤
      Attestation.evidenceRank (Attestation.effectiveEvidence b) := by
  cases a <;> cases b <;> simp_all [Attestation.evidenceRank,Attestation.effectiveEvidence]

theorem violation_code_ne_replay (v : Violation) : v.code ≠ "REPLAY_DETECTED" := by
  intro h
  cases v with
  | plan rule => cases rule <;> simp [Violation.code,PlanRule.code] at h
  | edge s t =>
    have hc := edge_colon s t
    simp [h] at hc
  | peer rule p =>
    have hc := peer_colon rule p
    simp [h] at hc

/-- A code of the loop over receipts: it names no peer, and its first letters are those of
a receipt, a signature, a peer's key or a surplus. -/
def ReceiptCode (code : String) : Prop :=
  ':' ∉ code.toList ∧
    code.toList.take 3 ∈ [['R','E','C'],['S','I','G'],['P','E','E'],['E','X','T']]

theorem ReceiptCode.ne_replay {code : String} (h : ReceiptCode code) :
    code ≠ "REPLAY_DETECTED" := by
  rintro rfl
  simp [ReceiptCode] at h

theorem ReceiptCode.ne_violation {code : String} (h : ReceiptCode code) (v : Violation) :
    v.code ≠ code := by
  rintro rfl
  cases v with
  | plan rule => cases rule <;> simp [ReceiptCode,Violation.code,PlanRule.code] at h
  | edge s t => exact h.1 (edge_colon s t)
  | peer rule p => exact h.1 (peer_colon rule p)

section Codes

variable {τ : Type} [AwareDatetime τ] {plat : Platform} {plan : RoutePlan τ}
  {policy : AdmissionPolicy τ} {now : τ} {required : EvidenceLevel} {i : ℕ} {peer : PeerId}
  {manifest : PeerManifest τ} {previous : Option (HopReceipt τ)} {receipt : HopReceipt τ}
  {c : String}

theorem exactFields_receiptCode {before after : Option PeerId} {link : Option Digest}
    (h : c ∈ mismatches (exactFields plat plan policy i peer before after link receipt)) :
    ReceiptCode c := by
  simp only [mismatches,List.mem_flatMap,mem_flag] at h
  obtain ⟨field,hfield,_,rfl⟩ := h
  have hname : field.1 ∈ (exactFields plat plan policy i peer before after link receipt).map
      Prod.fst := List.mem_map_of_mem hfield
  have hcolon : ':' ∉ field.1.toList := by
    simp only [exactFields,List.map_cons,List.map_nil,List.mem_cons,List.not_mem_nil,
      or_false] at hname
    rcases hname with h | h | h | h | h | h | h | h | h | h | h | h | h | h | h <;>
      rw [h] <;> simp
  simp [ReceiptCode,String.toList_append,hcolon]

theorem timeReasons_receiptCode (h : c ∈ timeReasons plan policy now manifest previous receipt) :
    ReceiptCode c := by
  unfold timeReasons at h
  simp only [List.mem_append,mem_flag] at h
  rcases h with (((⟨_,rfl⟩ | ⟨_,rfl⟩) | ⟨_,rfl⟩) | h) | ⟨_,rfl⟩
  · simp [ReceiptCode]
  · simp [ReceiptCode]
  · simp [ReceiptCode]
  · cases previous with
    | none => cases h
    | some prior =>
      rw [← (mem_flag.mp h).2]
      simp [ReceiptCode]
  · simp [ReceiptCode]

theorem signatureReasons_receiptCode (h : c ∈ signatureReasons plat manifest receipt) :
    ReceiptCode c := by
  unfold signatureReasons at h
  rcases List.mem_append.mp h with h | h
  · rw [← (mem_flag.mp h).2]
    simp [ReceiptCode]
  · cases hkey : deriveKeyId plat manifest.publicKey.val with
    | error e =>
      rw [hkey] at h
      rw [List.mem_singleton.mp h]
      simp [ReceiptCode]
    | ok keyId =>
      rw [hkey] at h
      simp only [List.mem_append,mem_flag] at h
      rcases h with ⟨_,rfl⟩ | ⟨_,rfl⟩ <;> simp [ReceiptCode]

theorem receiptReasons_receiptCode
    (h : c ∈ receiptReasons plat plan policy now required i peer manifest previous receipt) :
    ReceiptCode c := by
  unfold receiptReasons at h
  simp only [List.mem_append] at h
  rcases h with (((h | h) | h) | h) | h
  · exact exactFields_receiptCode h
  · exact timeReasons_receiptCode h
  · exact signatureReasons_receiptCode h
  · rw [← (mem_flag.mp h).2]
    simp [ReceiptCode]
  · rw [← (mem_flag.mp h).2]
    simp [ReceiptCode]

/-- The loop reports receipt codes only, so the replay code comes from the store alone. -/
theorem chainReasons_receiptCode {receipts : List (HopReceipt τ)}
    (h : c ∈ chainReasons plat plan policy now required i previous receipts) : ReceiptCode c := by
  induction receipts generalizing i previous with
  | nil => cases h
  | cons receipt rest ih =>
    unfold chainReasons at h
    split at h
    · rw [List.mem_singleton.mp h]
      simp [ReceiptCode]
    · rcases List.mem_append.mp h with h | h
      · unfold codesAt at h
        split at h
        · cases h
        · exact receiptReasons_receiptCode h
      · exact ih h

theorem verifyReasons_receiptCode {attestation : RouteAttestation τ}
    (h : c ∈ verifyReasons plat attestation policy now required) : ReceiptCode c := by
  rcases List.mem_append.mp h with h | h
  · rw [← (mem_flag.mp h).2]
    simp [ReceiptCode]
  · exact chainReasons_receiptCode h

end Codes

section Decisions

variable {τ : Type} [AwareDatetime τ] (plat : Platform)

def RouteAttestation.checked (a : RouteAttestation τ) : List (HopReceipt τ) :=
  a.receipts.take a.plan.hopPeerIds.length

def Admits (plan : RoutePlan τ) (policy : AdmissionPolicy τ) (now : τ) : Prop :=
  ∃ base, admitPlan plat plan policy now = .ok base ∧ base.admitted = true

/-- What a decision may say of the receipts it was given. -/
structure Understated (policy : AdmissionPolicy τ) (now : τ) (a : RouteAttestation τ)
    (d : AdmissionDecision τ) : Prop where
  checkedHops : d.checkedHops ≤ a.receipts.length
  evidence : Admits plat a.plan policy now → ∀ level, d.effectiveEvidence = some level →
    ∀ r ∈ a.checked, Attestation.evidenceRank level ≤
      Attestation.evidenceRank (Attestation.effectiveEvidence r.evidenceLevel)
  replay : d.reasonCodes = ["REPLAY_DETECTED"] → ∀ earlier d₀,
    verify plat policy earlier a = .ok d₀ → d₀.admitted = true →
      d.effectiveEvidence = d₀.effectiveEvidence

def ReceiptsPass (policy : AdmissionPolicy τ) (now : τ) (a : RouteAttestation τ) : Prop :=
  a.receipts.length = a.plan.hopPeerIds.length ∧
    ∀ i peer receipt, a.plan.hopPeerIds[i]? = some peer → a.receipts[i]? = some receipt →
      ∃ manifest ∈ policy.topology.peers, manifest.peerId = peer ∧
        ReceiptExact (fun x y => lt x y = true) plat a.plan policy now i peer manifest
          (precursor a.receipts i) receipt

/-- Some hop's manifest claims, capped, no more than any receipt reached does. -/
def ManifestsClaimNoMore (policy : AdmissionPolicy τ) (a : RouteAttestation τ) : Prop :=
  ∀ r ∈ a.checked, ∃ peer ∈ a.plan.hopPeerIds, ∃ manifest, policy.peersById peer = some manifest ∧
    Attestation.evidenceRank (Attestation.effectiveEvidence manifest.evidenceLevel) ≤
      Attestation.evidenceRank (Attestation.effectiveEvidence r.evidenceLevel)

variable {plat} {policy : Validated (AdmissionPolicy τ)} {now : τ}
  {attestation : Validated (RouteAttestation τ)}

theorem admits_iff :
    Admits plat attestation.val.plan policy.val now ↔
      (baseDecision plat attestation policy now).admitted = true := by
  have hplan : admitPlan plat attestation.val.plan policy.val now =
      .ok (baseDecision plat attestation policy now) := admitPlan_eq plat attestation.plan policy now
  simp only [Admits,hplan,Except.ok.injEq,exists_eq_left']

theorem baseDecision_evidence (plat : Platform) (now : τ) {required : EvidenceLevel}
    (hg : Grounded attestation.val.plan policy.val required) :
    ∃ level, (baseDecision plat attestation policy now).effectiveEvidence = some level ∧
      ∀ bound, Attestation.evidenceRank level ≤ bound ↔
        ∃ peer ∈ attestation.val.plan.hopPeerIds, ∃ manifest,
          policy.val.peersById peer = some manifest ∧
          Attestation.evidenceRank (Attestation.effectiveEvidence manifest.evidenceLevel) ≤
            bound := by
  have hlevels : (baseDecision plat attestation policy now).effectiveEvidence =
      minBy Attestation.evidenceRank
        ((attestation.val.plan.hopPeerIds.filterMap policy.val.peersById).map fun peer =>
          Attestation.effectiveEvidence peer.evidenceLevel) := by
    rw [Attestation.evidenceRank_eq]
    simp only [baseDecision,planDecision,scanPlan_eq,Policy.minimumEvidence]
    rfl
  obtain ⟨first,hfirst⟩ := List.exists_mem_of_ne_nil _ attestation.plan.hops_ne_nil
  obtain ⟨m,hm⟩ := hg.manifest first hfirst
  have hne : (attestation.val.plan.hopPeerIds.filterMap policy.val.peersById).map (fun peer =>
      Attestation.effectiveEvidence peer.evidenceLevel) ≠ [] :=
    List.ne_nil_of_mem (List.mem_map_of_mem (List.mem_filterMap.mpr ⟨first,hfirst,hm⟩))
  obtain ⟨level,hlevel⟩ := minBy_isSome Attestation.evidenceRank hne
  obtain ⟨hmem,hmin⟩ := minBy_spec hlevel
  refine ⟨level,hlevels.trans hlevel,fun bound => ⟨fun hle => ?_,?_⟩⟩
  · obtain ⟨manifest,hmanifest,rfl⟩ := List.mem_map.mp hmem
    obtain ⟨peer,hpeer,hget⟩ := List.mem_filterMap.mp hmanifest
    exact ⟨peer,hpeer,manifest,hget,hle⟩
  · rintro ⟨peer,hpeer,manifest,hget,hle⟩
    refine (hmin _ ?_).trans hle
    exact List.mem_map_of_mem (List.mem_filterMap.mpr ⟨peer,hpeer,hget⟩)

/-- A decision that still carries the manifests' level says no more than the receipts
exactly when the manifests claim no more. -/
theorem manifests_claim_no_more_iff (plat : Platform) (now : τ) {required : EvidenceLevel}
    (hg : Grounded attestation.val.plan policy.val required) :
    (∀ level, (baseDecision plat attestation policy now).effectiveEvidence = some level →
      ∀ r ∈ attestation.val.checked, Attestation.evidenceRank level ≤
        Attestation.evidenceRank (Attestation.effectiveEvidence r.evidenceLevel)) ↔
      ManifestsClaimNoMore policy.val attestation.val := by
  obtain ⟨level,hlevel,hbound⟩ := baseDecision_evidence plat now hg
  simp only [hlevel,Option.some.injEq,forall_eq',hbound,ManifestsClaimNoMore]

theorem baseDecision_reasonCodes (h : (baseDecision plat attestation policy now).admitted = false) :
    (baseDecision plat attestation policy now).reasonCodes ≠ ["REPLAY_DETECTED"] := by
  intro hcodes
  have hmem : "REPLAY_DETECTED" ∈
      (scanPlan plat attestation.val.plan policy.val now).reasons := by
    have hempty : (scanPlan plat attestation.val.plan policy.val now).reasons.isEmpty = false := h
    unfold baseDecision planDecision at hcodes
    simp only [hempty,Bool.false_eq_true,if_false] at hcodes
    rw [← mem_fromKeys,hcodes]
    exact List.mem_singleton_self _
  obtain ⟨v,_,hv⟩ := (mem_scanReasons (fun _ _ => Iff.rfl)).mp hmem
  exact violation_code_ne_replay v hv

theorem deny_reasonCodes {base : AdmissionDecision τ} {checkedHops : ℕ} {hash : Digest}
    {required : EvidenceLevel} :
    (deny base (verifyReasons plat attestation.val policy.val now required) checkedHops
      hash).reasonCodes ≠ ["REPLAY_DETECTED"] := by
  intro hcodes
  have hmem : "REPLAY_DETECTED" ∈ verifyReasons plat attestation.val policy.val now required := by
    rw [← mem_fromKeys]
    show _ ∈ (deny base (verifyReasons plat attestation.val policy.val now required) checkedHops
      hash).reasonCodes
    rw [hcodes]
    exact List.mem_singleton_self _
  exact (verifyReasons_receiptCode hmem).ne_replay rfl

theorem admitted_evidence {earlier : τ} {d : AdmissionDecision τ}
    (hverify : verify plat policy.val earlier attestation.val = .ok d)
    (hadmitted : d.admitted = true) :
    d.effectiveEvidence = minBy Attestation.evidenceRank (attestation.val.receipts.map fun r =>
      Attestation.effectiveEvidence r.evidenceLevel) := by
  rcases verify_cases plat attestation policy earlier with
    ⟨hdenied,hok⟩ | ⟨_,_,_,⟨_,hok⟩ | ⟨_,weakest,hweakest,hok⟩⟩
  · rw [hok,Except.ok.injEq] at hverify
    rw [← hverify] at hadmitted
    exact absurd (hdenied.symm.trans hadmitted) Bool.false_ne_true
  · rw [hok,Except.ok.injEq] at hverify
    rw [← hverify] at hadmitted
    exact absurd hadmitted (by simp [deny])
  · rw [hok,Except.ok.injEq] at hverify
    rw [← hverify,hweakest]

theorem weakest_le_claimed {level required weakest : EvidenceLevel}
    (hg : Grounded attestation.val.plan policy.val required)
    (hpass : ReceiptsPass plat policy.val now attestation.val)
    (hlevel : (baseDecision plat attestation policy now).effectiveEvidence = some level)
    (hweakest : minBy Attestation.evidenceRank (attestation.val.receipts.map fun r =>
      Attestation.effectiveEvidence r.evidenceLevel) = some weakest) :
    Attestation.evidenceRank weakest ≤ Attestation.evidenceRank level := by
  obtain ⟨hcount,hexact⟩ := hpass
  obtain ⟨level',hlevel',hbound⟩ := baseDecision_evidence plat now hg
  obtain rfl : level = level' := Option.some.inj (hlevel.symm.trans hlevel')
  obtain ⟨peer,hpeer,manifest,hget,hcapped⟩ := (hbound _).mp (le_refl _)
  obtain ⟨i,hi⟩ := List.mem_iff_getElem?.mp hpeer
  have hlt : i < attestation.val.receipts.length := hcount ▸ (List.getElem?_eq_some_iff.mp hi).1
  have hr := List.getElem?_eq_getElem hlt
  obtain ⟨m,hm,hpid,he⟩ := hexact i peer _ hi hr
  obtain rfl : manifest = m := Option.some.inj (hget.symm.trans (mem_peersById.mpr ⟨hm,hpid⟩))
  refine ((minBy_spec hweakest).2 _ (List.mem_map_of_mem (List.getElem_mem hlt))).trans ?_
  exact (effectiveEvidence_mono he.evidence.ceiling).trans hcapped

theorem weakest_eq_of_no_more {level : EvidenceLevel} {required : EvidenceLevel}
    (hg : Grounded attestation.val.plan policy.val required)
    (hpass : ReceiptsPass plat policy.val now attestation.val)
    (hlevel : (baseDecision plat attestation policy now).effectiveEvidence = some level)
    (hle : ∀ r ∈ attestation.val.checked, Attestation.evidenceRank level ≤
      Attestation.evidenceRank (Attestation.effectiveEvidence r.evidenceLevel))
    {weakest : EvidenceLevel}
    (hweakest : minBy Attestation.evidenceRank (attestation.val.receipts.map fun r =>
      Attestation.effectiveEvidence r.evidenceLevel) = some weakest) :
    level = weakest := by
  have hall : attestation.val.checked = attestation.val.receipts := by
    rw [RouteAttestation.checked,← hpass.1,List.take_length]
  apply evidenceRank_injective
  apply le_antisymm
  · obtain ⟨r,hr,rfl⟩ := List.mem_map.mp (minBy_spec hweakest).1
    exact hle r (hall ▸ hr)
  · exact weakest_le_claimed hg hpass hlevel hweakest

theorem understated_denied {hash : Digest}
    (h : (baseDecision plat attestation policy now).admitted = false) :
    Understated plat policy.val now attestation.val {baseDecision plat attestation policy now with
      decisionKind := .attestationVerification
      attestationDigest := some hash} ↔
      attestation.val.plan.hopPeerIds.length ≤ attestation.val.receipts.length := by
  constructor
  · intro hunderstated
    exact hunderstated.checkedHops
  · intro hle
    refine ⟨hle,fun hadmits => ?_,fun hcodes => absurd hcodes (baseDecision_reasonCodes h)⟩
    rw [admits_iff,h] at hadmits
    cases hadmits

section Reported

variable {hash : Digest} {required weakest : EvidenceLevel}
  (hg : Grounded attestation.val.plan policy.val required)

include hg

/-- A denial of the receipts keeps the level of the manifests. -/
theorem understated_failed (hadmits : Admits plat attestation.val.plan policy.val now)
    {checkedHops : ℕ} (hhops : checkedHops ≤ attestation.val.receipts.length) :
    Understated plat policy.val now attestation.val
      (deny (baseDecision plat attestation policy now)
        (verifyReasons plat attestation.val policy.val now required) checkedHops hash) ↔
      ManifestsClaimNoMore policy.val attestation.val := by
  rw [← manifests_claim_no_more_iff plat now hg]
  constructor
  · intro h
    exact h.evidence hadmits
  · intro h
    exact ⟨hhops,fun _ => h,fun hcodes => absurd hcodes deny_reasonCodes⟩

variable (hpass : ReceiptsPass plat policy.val now attestation.val)
  (hweakest : minBy Attestation.evidenceRank (attestation.val.receipts.map fun r =>
    Attestation.effectiveEvidence r.evidenceLevel) = some weakest)

include hpass hweakest

/-- A replay keeps it too, though it is to report what the admission did. -/
theorem understated_replayed (hadmits : Admits plat attestation.val.plan policy.val now) :
    Understated plat policy.val now attestation.val
      (deny (baseDecision plat attestation policy now) ["REPLAY_DETECTED"]
        attestation.val.receipts.length hash) ↔ ManifestsClaimNoMore policy.val attestation.val := by
  rw [← manifests_claim_no_more_iff plat now hg]
  constructor
  · intro h
    exact h.evidence hadmits
  · intro h
    refine ⟨le_refl _,fun _ => h,fun _ earlier d₀ hverify hd₀ => ?_⟩
    obtain ⟨level,hlevel,_⟩ := baseDecision_evidence plat now hg
    rw [admitted_evidence hverify hd₀,hweakest]
    show (baseDecision plat attestation policy now).effectiveEvidence = _
    rw [hlevel,weakest_eq_of_no_more hg hpass hlevel (h level hlevel) hweakest]

omit hg in
theorem understated_admission (hadmitted : (baseDecision plat attestation policy now).admitted = true) :
    Understated plat policy.val now attestation.val {baseDecision plat attestation policy now with
      decisionKind := .attestationVerification
      attestationDigest := some hash
      effectiveEvidence := some weakest} := by
  have hall : attestation.val.checked = attestation.val.receipts := by
    rw [RouteAttestation.checked,← hpass.1,List.take_length]
  refine ⟨hpass.1.symm.le,fun _ level hlevel r hr => ?_,fun hcodes => ?_⟩
  · rw [← Option.some.inj hlevel]
    exact (minBy_spec hweakest).2 _ (List.mem_map_of_mem (hall ▸ hr))
  · have hcodes' : (baseDecision plat attestation policy now).reasonCodes = ["ADMITTED"] := by
      have hempty : (scanPlan plat attestation.val.plan policy.val now).reasons.isEmpty = true :=
        hadmitted
      simp [baseDecision,planDecision,hempty]
    exact absurd (hcodes'.symm.trans hcodes) (by simp)

end Reported

end Decisions

/-- A decision understates its receipts exactly when a denied plan has no more hops than
receipts, and an admitted plan whose attestation is not admitted has a manifest that claims
no more than any receipt reached. -/
theorem decision_understated_iff {τ : Type} [AwareDatetime τ] (plat : Platform)
    (attestation : Validated (RouteAttestation τ)) (policy : Validated (AdmissionPolicy τ))
    (now : τ) {σ : Type} (store : Option (ReplayStore σ)) (s : σ) :
    (∀ d, (verifyAttestation plat policy.val now attestation.val store s).1 = .ok d →
      Understated plat policy.val now attestation.val d) ↔
    (¬Admits plat attestation.val.plan policy.val now →
      attestation.val.plan.hopPeerIds.length ≤ attestation.val.receipts.length) ∧
    (Admits plat attestation.val.plan policy.val now →
      (ReceiptsPass plat policy.val now attestation.val →
        (recordFresh store attestation.val.plan (attestation.val.digest plat) s).1 = .ok false) →
      ManifestsClaimNoMore policy.val attestation.val) := by
  rcases checkAttestation_cases plat attestation policy now with
    ⟨hdenied,hcheck⟩ | ⟨required,hadmitted,hg,hrest⟩
  · have hnot : ¬Admits plat attestation.val.plan policy.val now := by
      rw [admits_iff,hdenied]
      exact Bool.false_ne_true
    simp only [verifyAttestation,hcheck,Except.ok.injEq,forall_eq',hnot,not_false_eq_true,
      true_implies,false_implies,and_true]
    exact understated_denied hdenied
  · have hadmits : Admits plat attestation.val.plan policy.val now := admits_iff.mpr hadmitted
    have hpass : verifyReasons plat attestation.val policy.val now required = [] ↔
        ReceiptsPass plat policy.val now attestation.val :=
      verifyReasons_eq_nil plat (fun _ _ => Iff.rfl) hg
    simp only [hadmits,not_true_eq_false,false_implies,true_and,true_implies]
    rcases hrest with ⟨hreasons,hcheck⟩ | ⟨hsilent,hcheck⟩
    · have hfail : ¬ReceiptsPass plat policy.val now attestation.val := hpass.not.mp hreasons
      simp only [verifyAttestation,hcheck,Except.ok.injEq,forall_eq',hfail,false_implies,
        true_implies]
      exact understated_failed hg hadmits (Nat.min_le_left _ _)
    · have hok := hpass.mp hsilent
      obtain ⟨weakest,hweakest⟩ := weakest_of_silent plat attestation policy now hsilent
      simp only [hok,true_implies]
      obtain ⟨answer,s',hrecord⟩ : ∃ answer s', recordFresh store attestation.val.plan
        (attestation.val.digest plat) s = (answer,s') := ⟨_,_,rfl⟩
      cases answer with
      | error e => simp [verifyAttestation,hcheck,hrecord]
      | ok fresh =>
        cases fresh with
        | true =>
          simp only [verifyAttestation,hcheck,hrecord,conclude,admission,hweakest,if_true,
            Except.ok.injEq,forall_eq',Bool.true_eq_false,false_implies,iff_true]
          exact understated_admission hok hweakest hadmitted
        | false =>
          simp only [verifyAttestation,hcheck,hrecord,conclude,Bool.false_eq_true,if_false,
            Except.ok.injEq,forall_eq',true_implies]
          exact understated_replayed hg hok hweakest hadmits

namespace Demo

def truncated : Validated (RouteAttestation FixedTime) :=
  ⟨⟨"locusmesh.route-attestation.v1",privatePlan platform windows,[deviceReceipt platform keys]⟩,
    RouteAttestation.check_ok.mpr ⟨rfl,(validPrivatePlan platform windows).accepted,le_refl 1,
      by decide,(RouteAttestation.check_ok.mp attestation₀.accepted).2.2.2.2⟩⟩

def recorded : SQLiteReplayStore × Disk :=
  (⟨"replay.sqlite3",true⟩,⟨true,some ⟨true,some [⟨plan₀.val.nonce.val,
    plan₀.val.requestCommitment.val,(attestation₀.val.digest platform).val⟩]⟩⟩)

theorem replayed : recordFresh (some SQLiteReplayStore.port) plan₀.val
    (attestation₀.val.digest platform) recorded = (.ok false,recorded) := by
  have hseen : plan₀.val.nonce.val ∈ recorded.2.rows.map NonceRow.nonce := by
    simp [recorded,Disk.rows,Disk.table]
  have hopen : recorded.1.connection = true := rfl
  exact recordIfNew_seen hopen hseen plan₀.val.requestCommitment.val
    (attestation₀.val.digest platform).val

end Demo

/-- Ten minutes late, two hops are checked of one receipt; and a replay is reported with the
evidence of the manifests, above what the attestation claims and was admitted with. -/
theorem decision_overstates_demo :
    (∃ d, verify Demo.platform Demo.policy₀.val (Demo.minutes 10) Demo.truncated.val = .ok d ∧
      d.checkedHops = 2 ∧ Demo.truncated.val.receipts.length = 1) ∧
    (∃ d, verify Demo.platform Demo.policy₀.val (Demo.minutes 0) Demo.attestation₀.val = .ok d ∧
      d.admitted = true ∧ d.effectiveEvidence = some .observed) ∧
    ∃ d, (verifyAttestation Demo.platform Demo.policy₀.val (Demo.minutes 0) Demo.attestation₀.val
        (some SQLiteReplayStore.port) Demo.recorded).1 = .ok d ∧
      d.reasonCodes = ["REPLAY_DETECTED"] ∧ d.effectiveEvidence = some .peerAsserted := by
  refine ⟨?_,?_,?_⟩
  · have hlate : (baseDecision Demo.platform Demo.truncated Demo.policy₀
        (Demo.minutes 10)).admitted = false := by
      rw [← Bool.not_eq_true]
      intro hadmitted
      exact absurd (Demo.privatePlan_admitted_iff.mp hadmitted).1 (by decide)
    rcases checkAttestation_cases Demo.platform Demo.truncated Demo.policy₀ (Demo.minutes 10) with
      ⟨_,hcheck⟩ | ⟨_,hadmitted,_⟩
    · exact ⟨_,by rw [verify,verifyAttestation,hcheck],rfl,rfl⟩
    · exact absurd (hadmitted.symm.trans hlate) (by simp)
  · obtain ⟨d,hverify,hadmitted,hevidence⟩ := Demo.attestation_admitted (by decide)
      Demo.contain_noon (none : Option (ReplayStore Unit)) () rfl
    exact ⟨d,by rw [verify,hverify],hadmitted,hevidence⟩
  · have hpassed := Demo.attestation_passes (by decide) Demo.contain_noon
    have hrecord : recordFresh (some SQLiteReplayStore.port) Demo.attestation₀.val.plan
      (Demo.attestation₀.val.digest Demo.platform) Demo.recorded = _ := Demo.replayed
    refine ⟨deny (baseDecision Demo.platform Demo.attestation₀ Demo.policy₀ (Demo.minutes 0))
      ["REPLAY_DETECTED"] 1 (Demo.attestation₀.val.digest Demo.platform),?_,rfl,
      Demo.devicePlan_evidence (Demo.minutes 0)⟩
    rw [verifyAttestation,hpassed]
    simp only [hrecord]
    rfl

end LocusMesh
