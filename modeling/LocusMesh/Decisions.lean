import Mathlib
import LocusMesh.Evidence

/-! What holds of every decision that leaves the core: it exists, it satisfies its own
contract, and an admitted one respects the orders of scopes and of evidence. -/
namespace LocusMesh

open CanonicalJson PyCollections AwareClock HashChain

section Exits

variable {τ : Type} [AwareDatetime τ] (plat : Platform)
  (attestation : Validated (RouteAttestation τ)) (policy : Validated (AdmissionPolicy τ))
  (now : τ) {σ : Type} (store : Option (ReplayStore σ)) (s : σ)

structure Passed : Prop where
  base : (baseDecision plat attestation policy now).admitted = true
  grounded : ∃ required, Grounded attestation.val.plan policy.val required ∧
    verifyReasons plat attestation.val policy.val now required = []

/-- How `verify_attestation` ends: four decisions, or an exception of the store's own. -/
inductive Exit : Except PyError (AdmissionDecision τ) → Prop
  | planDenied (hbase : (baseDecision plat attestation policy now).admitted = false) :
    Exit (.ok {baseDecision plat attestation policy now with
      decisionKind := .attestationVerification
      attestationDigest := some (attestation.val.digest plat)})
  | receiptsDenied (required : EvidenceLevel)
    (hbase : (baseDecision plat attestation policy now).admitted = true)
    (hg : Grounded attestation.val.plan policy.val required)
    (hreasons : verifyReasons plat attestation.val policy.val now required ≠ []) :
    Exit (.ok (deny (baseDecision plat attestation policy now)
      (verifyReasons plat attestation.val policy.val now required)
      (min attestation.val.receipts.length attestation.val.plan.hopPeerIds.length)
      (attestation.val.digest plat)))
  | replayed (hpassed : Passed plat attestation policy now)
    (hanswer : (recordFresh store attestation.val.plan (attestation.val.digest plat) s).1 =
      .ok false) :
    Exit (.ok (deny (baseDecision plat attestation policy now) ["REPLAY_DETECTED"]
      attestation.val.receipts.length (attestation.val.digest plat)))
  | admitted (weakest : EvidenceLevel) (hpassed : Passed plat attestation policy now)
    (hweakest : minBy Attestation.evidenceRank (attestation.val.receipts.map fun r =>
      Attestation.effectiveEvidence r.evidenceLevel) = some weakest)
    (hanswer : (recordFresh store attestation.val.plan (attestation.val.digest plat) s).1 =
      .ok true) :
    Exit (.ok {baseDecision plat attestation policy now with
      decisionKind := .attestationVerification
      attestationDigest := some (attestation.val.digest plat)
      effectiveEvidence := some weakest})
  | raised (e : PyError) (hpassed : Passed plat attestation policy now)
    (hanswer : (recordFresh store attestation.val.plan (attestation.val.digest plat) s).1 =
      .error e) : Exit (.error e)

theorem verifyAttestation_exit : Exit plat attestation policy now store s
    (verifyAttestation plat policy.val now attestation.val store s).1 := by
  rcases checkAttestation_cases plat attestation policy now with
    ⟨hdenied,hcheck⟩ | ⟨required,hadmitted,hg,⟨hreasons,hcheck⟩ | ⟨hsilent,hcheck⟩⟩
  · rw [verifyAttestation,hcheck]
    exact .planDenied hdenied
  · rw [verifyAttestation,hcheck]
    exact .receiptsDenied required hadmitted hg hreasons
  · have hpassed : Passed plat attestation policy now := ⟨hadmitted,required,hg,hsilent⟩
    obtain ⟨weakest,hweakest⟩ := weakest_of_silent plat attestation policy now hsilent
    obtain ⟨answer,s',hrecord⟩ : ∃ answer s', recordFresh store attestation.val.plan
      (attestation.val.digest plat) s = (answer,s') := ⟨_,_,rfl⟩
    have hanswer := congrArg Prod.fst hrecord
    rw [verifyAttestation,hcheck]
    cases answer with
    | error e =>
      simp only [hrecord]
      exact .raised e hpassed hanswer
    | ok fresh =>
      cases fresh with
      | true =>
        simp only [hrecord,conclude,admission,hweakest,if_true]
        exact .admitted weakest hpassed hweakest hanswer
      | false =>
        simp only [hrecord,conclude,Bool.false_eq_true,if_false]
        exact .replayed hpassed hanswer

end Exits

section Contracts

variable {τ : Type}

/-- What the validators of a decision demand, one fact each. -/
structure SelfConsistent (d : AdmissionDecision τ) : Prop where
  admitted : d.admitted = true ↔ d.reasonCodes = ["ADMITTED"]
  denied : d.admitted = false ↔ d.reasonCodes ≠ [] ∧ "ADMITTED" ∉ d.reasonCodes
  lineage : d.admitted = true → d.routeDigest.isSome = true ∧ d.policyDigest.isSome = true ∧
    d.topologyDigest.isSome = true ∧ d.requestedIntent.isSome = true
  verified : d.admitted = true → d.decisionKind = .attestationVerification →
    d.attestationDigest.isSome = true
  unattested : d.decisionKind = .planAdmission → d.attestationDigest = none
  checkedHops : d.checkedHops ≤ 64

theorem AdmissionDecision.check_ok {d : AdmissionDecision τ} : d.check = .ok () ↔
    d.schemaVersion = "locusmesh.admission-decision.v1" ∧ SelfConsistent d := by
  have hplan : (!(d.decisionKind == .planAdmission && d.attestationDigest.isSome)) = true ↔
      (d.decisionKind = .planAdmission → d.attestationDigest = none) := by
    rw [Bool.not_eq_true',Bool.and_eq_false_iff,beq_eq_false_iff_ne,Option.isSome_eq_false_iff,
      Option.isNone_iff_eq_none,imp_iff_not_or]
  have hverified : (!(d.decisionKind == .attestationVerification &&
      d.attestationDigest.isNone)) = true ↔
      (d.decisionKind = .attestationVerification → d.attestationDigest.isSome = true) := by
    rw [Bool.not_eq_true',Bool.and_eq_false_iff,beq_eq_false_iff_ne,Option.isNone_eq_false_iff,
      imp_iff_not_or]
  cases hadmitted : d.admitted with
  | true =>
    simp only [AdmissionDecision.check,andThen_ok,checkSchemaVersion,require_ok,hadmitted,if_true,
      hplan,hverified,decide_eq_true_eq,Bool.and_eq_true]
    constructor
    · rintro ⟨hversion,hhops,hcodes,hlineage,hkind,hunattested⟩
      exact ⟨hversion,by simp [hadmitted,hcodes],by simp [hadmitted,hcodes],fun _ => hlineage,
        fun _ => hkind,hunattested,hhops⟩
    · rintro ⟨hversion,h⟩
      exact ⟨hversion,h.checkedHops,h.admitted.mp hadmitted,h.lineage hadmitted,
        h.verified hadmitted,h.unattested⟩
  | false =>
    have hcodes : (!(d.reasonCodes.isEmpty || d.reasonCodes.contains "ADMITTED")) = true ↔
        d.reasonCodes ≠ [] ∧ "ADMITTED" ∉ d.reasonCodes := by
      rw [Bool.not_eq_true',Bool.or_eq_false_iff,List.isEmpty_eq_false_iff,
        List.contains_eq_mem,decide_eq_false_iff_not]
    simp only [AdmissionDecision.check,andThen_ok,checkSchemaVersion,require_ok,hadmitted,
      Bool.false_eq_true,if_false,hplan,hcodes,decide_eq_true_eq]
    constructor
    · rintro ⟨hversion,hhops,hdenied,hunattested⟩
      have hnot : d.reasonCodes ≠ ["ADMITTED"] := by
        intro h
        exact hdenied.2 (h ▸ List.mem_singleton_self _)
      exact ⟨hversion,by simp [hadmitted,hnot],by simp [hadmitted,hdenied],
        fun h => absurd (hadmitted.symm.trans h) Bool.false_ne_true,
        fun h => absurd (hadmitted.symm.trans h) Bool.false_ne_true,hunattested,hhops⟩
    · rintro ⟨hversion,h⟩
      exact ⟨hversion,h.checkedHops,h.denied.mp hadmitted,h.unattested⟩

/-- A denial satisfies its contract if it has reasons, none of them an admission. -/
theorem deny_selfConsistent (base : AdmissionDecision τ) {reasons : List String}
    {checkedHops : ℕ} (hash : Digest) (hne : reasons ≠ []) (hdenied : "ADMITTED" ∉ reasons)
    (hhops : checkedHops ≤ 64) : SelfConsistent (deny base reasons checkedHops hash) := by
  have hcodes : "ADMITTED" ∉ fromKeys reasons := mem_fromKeys.not.mpr hdenied
  have hnot : fromKeys reasons ≠ ["ADMITTED"] := by
    intro h
    exact hcodes (h ▸ List.mem_singleton_self _)
  exact {
    admitted := by simp [deny,hnot]
    denied := by simp [deny,hne,hcodes]
    lineage := fun h => absurd h Bool.false_ne_true
    verified := fun h => absurd h Bool.false_ne_true
    unattested := fun h => by cases h
    checkedHops := hhops }

theorem SelfConsistent.attested {base : AdmissionDecision τ} (h : SelfConsistent base)
    (hash : Digest) (level : Option EvidenceLevel) :
    SelfConsistent {base with
      decisionKind := .attestationVerification
      attestationDigest := some hash
      effectiveEvidence := level} where
  admitted := h.admitted
  denied := h.denied
  lineage := h.lineage
  verified _ _ := rfl
  unattested hkind := by cases hkind
  checkedHops := h.checkedHops

end Contracts

theorem ReceiptCode.ne_admitted {code : String} (h : ReceiptCode code) : code ≠ "ADMITTED" := by
  rintro rfl
  simp [ReceiptCode] at h

/-- Every decision that leaves the core would pass its own validators, also where it was
built past them. -/
theorem decisions_self_consistent {τ : Type} [AwareDatetime τ] (plat : Platform)
    (plan : Validated (RoutePlan τ)) (attestation : Validated (RouteAttestation τ))
    (policy : Validated (AdmissionPolicy τ)) (now : τ) {σ : Type} (store : Option (ReplayStore σ))
    (s : σ) :
    (∀ d, admitPlan plat plan.val policy.val now = .ok d →
      d.check = .ok () ∧ SelfConsistent d ∧ d.decisionKind = .planAdmission) ∧
    ∀ d, (verifyAttestation plat policy.val now attestation.val store s).1 = .ok d →
      d.check = .ok () ∧ SelfConsistent d ∧ d.decisionKind = .attestationVerification := by
  have hbase : ∀ p : Validated (RoutePlan τ),
      SelfConsistent (planDecision plat p.val policy.val now) :=
    fun p => (AdmissionDecision.check_ok.mp (planDecision_check plat p policy now)).2
  constructor
  · intro d hd
    rw [admitPlan_eq,Except.ok.injEq] at hd
    rw [← hd]
    exact ⟨planDecision_check plat plan policy now,hbase plan,rfl⟩
  · intro d hd
    suffices h : SelfConsistent d ∧ d.schemaVersion = "locusmesh.admission-decision.v1" ∧
        d.decisionKind = .attestationVerification from
      ⟨AdmissionDecision.check_ok.mpr ⟨h.2.1,h.1⟩,h.1,h.2.2⟩
    have hattested := hbase attestation.plan
    have hreceipts : attestation.val.receipts.length ≤ 64 :=
      (RouteAttestation.check_ok.mp attestation.accepted).2.2.2.1
    have hexit := verifyAttestation_exit plat attestation policy now store s
    rw [hd] at hexit
    cases hexit with
    | planDenied hdenied =>
      exact ⟨hattested.attested _ _,rfl,rfl⟩
    | receiptsDenied required hadmitted hg hreasons =>
      refine ⟨deny_selfConsistent _ _ hreasons (fun hmem => ?_) ((min_le_left _ _).trans hreceipts),
        rfl,rfl⟩
      exact (verifyReasons_receiptCode hmem).ne_admitted rfl
    | replayed hpassed hanswer =>
      exact ⟨deny_selfConsistent _ _ (by simp) (by simp) hreceipts,rfl,rfl⟩
    | admitted weakest hpassed hweakest hanswer =>
      exact ⟨hattested.attested _ _,rfl,rfl⟩

section Totality

variable {τ : Type} [AwareDatetime τ] {plat : Platform}
  {attestation : Validated (RouteAttestation τ)} {policy : Validated (AdmissionPolicy τ)} {now : τ}

theorem undecodable_key_reported (plan : Validated (RoutePlan τ)) {peer : PeerId}
    {manifest : PeerManifest τ} (hpeer : peer ∈ plan.val.hopPeerIds)
    (hget : policy.val.peersById peer = some manifest) {e : PyError}
    (hkey : deriveKeyId plat manifest.publicKey.val = .error e) :
    "PEER_PUBLIC_KEY_INVALID:" ++ peer.val ∈
      (scanPlan plat plan.val policy.val now).reasons := by
  rw [scanPlan_eq,List.mem_append]
  refine .inr (List.mem_flatMap.mpr ⟨peer,hpeer,?_⟩)
  simp [hopReasons,hget,peerReasons,keyReasons,hkey]

theorem verifyEd25519_undecodable {publicKey signature : String} {payload : List UInt8}
    {e : PyError} (h : decodeBase64url signature 64 = .error e) :
    verifyEd25519 plat publicKey payload signature = false := by
  rw [← Bool.not_eq_true]
  intro hverify
  obtain ⟨raw,hraw⟩ := verifyEd25519_signature plat hverify
  rw [decodeBase64url_ok_iff.mpr hraw] at h
  cases h

theorem bad_signature_reported {required : EvidenceLevel}
    (hg : Grounded attestation.val.plan policy.val required)
    (hkeys : ∀ peer ∈ attestation.val.plan.hopPeerIds, ∀ m, policy.val.peersById peer = some m →
      deriveKeyId plat m.publicKey.val = .ok m.keyId) {i : ℕ} {previous : Option (HopReceipt τ)}
    {receipts : List (HopReceipt τ)} {receipt : HopReceipt τ}
    (hmem : receipt ∈ receipts.take (attestation.val.plan.hopPeerIds.length - i))
    (hsignature : ∀ publicKey payload,
      verifyEd25519 plat publicKey payload receipt.signature = false) :
    "SIGNATURE_INVALID" ∈
      chainReasons plat attestation.val.plan policy.val now required i previous receipts := by
  induction receipts generalizing i previous with
  | nil => simp at hmem
  | cons first rest ih =>
    by_cases hi : attestation.val.plan.hopPeerIds.length ≤ i
    · simp [Nat.sub_eq_zero_of_le hi] at hmem
    · have hsucc : attestation.val.plan.hopPeerIds.length - i =
          attestation.val.plan.hopPeerIds.length - (i + 1) + 1 := by omega
      rw [hsucc,List.take_succ_cons,List.mem_cons] at hmem
      rw [chainReasons,if_neg hi,List.mem_append]
      rcases hmem with rfl | hmem
      · left
        have hpeer := List.getElem_mem (not_le.mp hi)
        obtain ⟨m,hm⟩ := hg.manifest _ hpeer
        simp [codesAt,List.getElem?_eq_getElem (not_le.mp hi),hm,receiptReasons,signatureReasons,
          hkeys _ hpeer m hm,hsignature]
      · exact .inr (ih hmem)

theorem admitted_key (h : (baseDecision plat attestation policy now).admitted = true)
    {peer : PeerId} (hpeer : peer ∈ attestation.val.plan.hopPeerIds) {m : PeerManifest τ}
    (hm : policy.val.peersById peer = some m) (e : PyError) :
    deriveKeyId plat m.publicKey.val ≠ .error e := by
  rw [keyBinding_of_admitted attestation.plan now h hpeer hm]
  simp

theorem undecodable_signature_reported {required : EvidenceLevel}
    (hg : Grounded attestation.val.plan policy.val required)
    (h : (baseDecision plat attestation policy now).admitted = true) {r : HopReceipt τ}
    (hr : r ∈ attestation.val.checked) {e : PyError}
    (he : decodeBase64url r.signature 64 = .error e) :
    "SIGNATURE_INVALID" ∈ verifyReasons plat attestation.val policy.val now required := by
  refine List.mem_append_right _ (bad_signature_reported hg ?_ hr
    fun _ _ => verifyEd25519_undecodable he)
  exact fun _ hpeer _ hm => keyBinding_of_admitted attestation.plan now h hpeer hm

theorem Passed.signature_decodes (h : Passed plat attestation policy now) {r : HopReceipt τ}
    (hr : r ∈ attestation.val.checked) (e : PyError) :
    decodeBase64url r.signature 64 ≠ .error e := by
  intro he
  obtain ⟨required,hg,hsilent⟩ := h.grounded
  have hcode := undecodable_signature_reported hg h.base hr he
  rw [hsilent] at hcode
  cases hcode

/-- The loop over the receipts of an admitted plan ends, whatever their number; if it is
silent, it leaves one level for each hop. -/
theorem verifyReceipts_ends (now : τ) {required : EvidenceLevel}
    (hg : Grounded attestation.val.plan policy.val required) :
    ∃ state, verifyReceipts plat attestation.val.plan policy.val now 0
        ⟨initialReasons attestation.val,none,[]⟩ attestation.val.receipts = .ok state ∧
      (state.reasons = [] → state.effectiveReceiptEvidence.length =
        attestation.val.plan.hopPeerIds.length ∧ state.effectiveReceiptEvidence ≠ []) := by
  obtain ⟨last,hrun⟩ := verifyReceipts_run plat now hg
  refine ⟨_,hrun,fun hsilent => ?_⟩
  have hcount := initialReasons_eq_nil.mp (List.append_eq_nil_iff.mp hsilent).1
  have hlength : ((attestation.val.receipts.take attestation.val.plan.hopPeerIds.length).map
      fun r => Attestation.effectiveEvidence r.evidenceLevel).length =
      attestation.val.plan.hopPeerIds.length := by
    rw [List.length_map,List.length_take,hcount,min_self]
  have hhops := List.length_pos_of_ne_nil attestation.plan.hops_ne_nil
  exact ⟨hlength,List.ne_nil_of_length_pos (hhops.trans_eq hlength.symm)⟩

end Totality

/-- Verification of validated input returns a decision whenever its store does not raise:
the floor it looks up exists, no hop is out of range, the levels it takes the least of are
one per hop, and keys or signatures that do not decode become reasons. -/
theorem verification_total {τ : Type} [AwareDatetime τ] (plat : Platform)
    (attestation : Validated (RouteAttestation τ)) (policy : Validated (AdmissionPolicy τ))
    (now : τ) {σ : Type} (store : Option (ReplayStore σ)) (s : σ)
    (hstore : ∀ port ∈ store, ∀ nonce requestCommitment attestationDigest, ∃ fresh,
      (port.recordIfNew nonce requestCommitment attestationDigest s).1 = .ok fresh) :
    ∃ d, (verifyAttestation plat policy.val now attestation.val store s).1 = .ok d ∧
      (∀ peer ∈ attestation.val.plan.hopPeerIds, ∀ m e, policy.val.peersById peer = some m →
        deriveKeyId plat m.publicKey.val = .error e →
        "PEER_PUBLIC_KEY_INVALID:" ++ peer.val ∈ d.reasonCodes) ∧
      (Admits plat attestation.val.plan policy.val now →
        (∃ required, policy.val.floor attestation.val.plan.intent = some required) ∧
        (∃ state, verifyReceipts plat attestation.val.plan policy.val now 0
            ⟨initialReasons attestation.val,none,[]⟩ attestation.val.receipts = .ok state ∧
          (state.reasons = [] → state.effectiveReceiptEvidence.length =
            attestation.val.plan.hopPeerIds.length ∧ state.effectiveReceiptEvidence ≠ [])) ∧
        ∀ r ∈ attestation.val.checked, ∀ e, decodeBase64url r.signature 64 = .error e →
          "SIGNATURE_INVALID" ∈ d.reasonCodes) := by
  have hexit := verifyAttestation_exit plat attestation policy now store s
  generalize (verifyAttestation plat policy.val now attestation.val store s).1 = outcome at hexit ⊢
  cases hexit with
  | planDenied hdenied =>
    refine ⟨_,rfl,fun peer hpeer m e hm hkey => ?_,fun hadmits => ?_⟩
    · have hcode : "PEER_PUBLIC_KEY_INVALID:" ++ peer.val ∈
          (scanPlan plat attestation.val.plan policy.val now).reasons :=
        undecodable_key_reported attestation.plan hpeer hm hkey
      have hempty : (scanPlan plat attestation.val.plan policy.val now).reasons.isEmpty = false :=
        hdenied
      simpa [baseDecision,planDecision,hempty] using hcode
    · exact absurd ((admits_iff.mp hadmits).symm.trans hdenied) (by simp)
  | receiptsDenied required hadmitted hg hreasons =>
    refine ⟨_,rfl,fun peer hpeer m e hm hkey => absurd hkey (admitted_key hadmitted hpeer hm e),
      fun _ => ⟨⟨required,hg.floor⟩,verifyReceipts_ends now hg,fun r hr e he => ?_⟩⟩
    exact mem_fromKeys.mpr (undecodable_signature_reported hg hadmitted hr he)
  | replayed hpassed hanswer =>
    obtain ⟨required,hg,_⟩ := hpassed.grounded
    exact ⟨_,rfl,fun peer hpeer m e hm hkey => absurd hkey (admitted_key hpassed.base hpeer hm e),
      fun _ => ⟨⟨required,hg.floor⟩,verifyReceipts_ends now hg,
        fun r hr e he => absurd he (hpassed.signature_decodes hr e)⟩⟩
  | admitted weakest hpassed hweakest hanswer =>
    obtain ⟨required,hg,_⟩ := hpassed.grounded
    exact ⟨_,rfl,fun peer hpeer m e hm hkey => absurd hkey (admitted_key hpassed.base hpeer hm e),
      fun _ => ⟨⟨required,hg.floor⟩,verifyReceipts_ends now hg,
        fun r hr e he => absurd he (hpassed.signature_decodes hr e)⟩⟩
  | raised e hpassed hanswer =>
    obtain ⟨fresh,hfresh⟩ : ∃ fresh, (recordFresh store attestation.val.plan
        (attestation.val.digest plat) s).1 = .ok fresh := by
      cases store with
      | none => exact ⟨true,rfl⟩
      | some port => exact hstore port rfl _ _ _
    rw [hanswer] at hfresh
    cases hfresh

theorem verification_total_demo : ∃ d, (verifyAttestation Demo.platform Demo.policy₀.val
    (Demo.minutes 0) Demo.attestation₀.val (some SQLiteReplayStore.port) Demo.recorded).1 =
      .ok d := by
  obtain ⟨d,hd,_⟩ := verification_total Demo.platform Demo.attestation₀ Demo.policy₀
    (Demo.minutes 0) (some SQLiteReplayStore.port) Demo.recorded (by
      intro port hport nonce requestCommitment attestationDigest
      obtain rfl := Option.some.inj hport
      exact recordIfNew_open rfl rfl nonce requestCommitment attestationDigest)
  exact ⟨d,hd⟩

def Widest (scopes : List ExecutionIntent) (scope : ExecutionIntent) : Prop :=
  scope ∈ scopes ∧ ∀ other ∈ scopes, Policy.scopeRank other ≤ Policy.scopeRank scope

def Weakest (levels : List EvidenceLevel) (level : EvidenceLevel) : Prop :=
  level ∈ levels ∧ ∀ other ∈ levels, Policy.evidenceRank level ≤ Policy.evidenceRank other

theorem hardware_ne_of_le {level : EvidenceLevel}
    (h : Policy.evidenceRank level ≤ Policy.evidenceRank .peerAsserted) :
    level ≠ .hardwareAttested := by
  rintro rfl
  exact absurd h (by decide)

theorem capped_le (level : EvidenceLevel) :
    Policy.evidenceRank (Policy.effectiveEvidence level) ≤ Policy.evidenceRank .peerAsserted := by
  cases level <;> decide

theorem map_eq_some {α β : Type} {f : α → Option β} {l : List α}
    (h : ∀ a ∈ l, ∃ b, f a = some b) : l.map f = (l.filterMap f).map some := by
  induction l with
  | nil => rfl
  | cons a l ih =>
    obtain ⟨b,hb⟩ := h a List.mem_cons_self
    rw [List.map_cons,ih fun c hc => h c (List.mem_cons_of_mem _ hc),hb,
      List.filterMap_cons_some hb,List.map_cons]

section Levels

variable {τ : Type} [AwareDatetime τ]

omit [AwareDatetime τ] in
/-- What an admitting plan decision says of the hops' manifests. -/
structure PlanLevels (plan : RoutePlan τ) (policy : AdmissionPolicy τ) (base : AdmissionDecision τ)
    (scope : ExecutionIntent) (required effective : EvidenceLevel)
    (manifests : List (PeerManifest τ)) : Prop where
  hops : plan.hopPeerIds.map policy.peersById = manifests.map some
  requestedIntent : base.requestedIntent = some plan.intent
  effectiveScope : base.effectiveScope = some scope
  widest : Widest (manifests.map PeerManifest.executionScope) scope
  within : Policy.scopeRank scope ≤ Policy.scopeRank plan.intent
  requiredEvidence : base.requiredEvidence = some required
  floor : policy.floor plan.intent = some required
  effectiveEvidence : base.effectiveEvidence = some effective
  weakest : Weakest (manifests.map fun m => Policy.effectiveEvidence m.evidenceLevel) effective
  adequate : Policy.evidenceRank required ≤ Policy.evidenceRank effective
  capped : Policy.evidenceRank effective ≤ Policy.evidenceRank .peerAsserted

omit [AwareDatetime τ] in
/-- What an admitting verification says of the receipts, below what the plan decision says of
the manifests. -/
structure ReceiptLevels (attestation : RouteAttestation τ) (base d : AdmissionDecision τ)
    (required claimed effective : EvidenceLevel) : Prop where
  effectiveScope : d.effectiveScope = base.effectiveScope
  requiredEvidence : d.requiredEvidence = base.requiredEvidence
  effectiveEvidence : d.effectiveEvidence = some effective
  weakest : Weakest (attestation.receipts.map fun r =>
    Attestation.effectiveEvidence r.evidenceLevel) effective
  adequate : Policy.evidenceRank required ≤ Policy.evidenceRank effective
  weaker : Policy.evidenceRank effective ≤ Policy.evidenceRank claimed

variable {plat : Platform} {policy : Validated (AdmissionPolicy τ)} {now : τ}

theorem plan_levels (plan : Validated (RoutePlan τ))
    (h : (planDecision plat plan.val policy.val now).admitted = true) :
    ∃ scope required effective manifests, PlanLevels plan.val policy.val
      (planDecision plat plan.val policy.val now) scope required effective manifests := by
  have hfits := planDecision_fits.mp h
  obtain ⟨required,hg⟩ := grounded_of_admitted plat plan policy now h
  let manifests := plan.val.hopPeerIds.filterMap policy.val.peersById
  have hhops : plan.val.hopPeerIds.map policy.val.peersById = manifests.map some :=
    map_eq_some hg.manifest
  have hne : manifests ≠ [] := by
    intro hnil
    rw [hnil,List.map_nil,List.map_eq_nil_iff] at hhops
    exact plan.hops_ne_nil hhops
  have hmanifest : ∀ m ∈ manifests, ManifestFits plat plan.val policy.val now m := by
    intro m hm
    obtain ⟨peer,hpeer,hget⟩ := List.mem_filterMap.mp hm
    obtain ⟨m',hget',hm'⟩ := hfits.hops peer hpeer
    rwa [Option.some.inj (hget.symm.trans hget')]
  obtain ⟨scope,hscope⟩ := maxBy_isSome Policy.scopeRank
    (mt List.map_eq_nil_iff.mp hne : manifests.map PeerManifest.executionScope ≠ [])
  obtain ⟨effective,heffective⟩ := minBy_isSome Policy.evidenceRank
    (mt List.map_eq_nil_iff.mp hne :
      manifests.map (fun m => Policy.effectiveEvidence m.evidenceLevel) ≠ [])
  have hwidest := maxBy_spec hscope
  have hweakest := minBy_spec heffective
  refine ⟨scope,required,effective,manifests,hhops,rfl,?_,hwidest,?_,hg.floor,hg.floor,?_,
    hweakest,?_,?_⟩
  · simp only [planDecision,scanPlan_eq]
    exact hscope
  · obtain ⟨m,hm,hmscope⟩ := List.mem_map.mp hwidest.1
    rw [← hmscope]
    exact (hmanifest m hm).scope
  · simp only [planDecision,scanPlan_eq]
    exact heffective
  · obtain ⟨m,hm,hmlevel⟩ := List.mem_map.mp hweakest.1
    rw [← hmlevel]
    exact (hmanifest m hm).evidence required hg.floor
  · obtain ⟨m,_,hmlevel⟩ := List.mem_map.mp hweakest.1
    rw [← hmlevel]
    exact capped_le m.evidenceLevel

theorem receipt_levels {attestation : Validated (RouteAttestation τ)}
    (hpassed : Passed plat attestation policy now) {scope : ExecutionIntent}
    {required claimed weakest : EvidenceLevel} {manifests : List (PeerManifest τ)}
    (hplan : PlanLevels attestation.val.plan policy.val
      (baseDecision plat attestation policy now) scope required claimed manifests)
    (hweakest : minBy Attestation.evidenceRank (attestation.val.receipts.map fun r =>
      Attestation.effectiveEvidence r.evidenceLevel) = some weakest) :
    ReceiptLevels attestation.val (baseDecision plat attestation policy now)
      {baseDecision plat attestation policy now with
        decisionKind := .attestationVerification
        attestationDigest := some (attestation.val.digest plat)
        effectiveEvidence := some weakest} required claimed weakest := by
  obtain ⟨required',hg,hsilent⟩ := hpassed.grounded
  have hpass : ReceiptsPass plat policy.val now attestation.val :=
    (verifyReasons_eq_nil plat (fun _ _ => Iff.rfl) hg).mp hsilent
  obtain ⟨hmem,hmin⟩ := minBy_spec hweakest
  refine ⟨rfl,rfl,rfl,?_,?_,?_⟩
  · rw [Attestation.evidenceRank_eq] at hmin
    exact ⟨hmem,hmin⟩
  · obtain ⟨r,hr,rfl⟩ := List.mem_map.mp hmem
    obtain ⟨i,hi⟩ := List.mem_iff_getElem?.mp hr
    have hlt : i < attestation.val.plan.hopPeerIds.length :=
      hpass.1 ▸ (List.getElem?_eq_some_iff.mp hi).1
    obtain ⟨m,_,_,hexact⟩ := hpass.2 i _ r (List.getElem?_eq_getElem hlt) hi
    obtain ⟨floor,hfloor,hle⟩ := hexact.evidence.floor
    rw [hplan.floor,Option.some.injEq] at hfloor
    rw [← Attestation.evidenceRank_eq,hfloor]
    exact hle
  · rw [← Attestation.evidenceRank_eq]
    exact weakest_le_claimed hg hpass hplan.effectiveEvidence hweakest

end Levels

/-- Admitted decisions respect both orders, and verification never strengthens them. -/
theorem admitted_levels {τ : Type} [AwareDatetime τ] (plat : Platform)
    (plan : Validated (RoutePlan τ)) (attestation : Validated (RouteAttestation τ))
    (policy : Validated (AdmissionPolicy τ)) (now : τ) {σ : Type} (store : Option (ReplayStore σ))
    (s : σ) :
    (∀ base, admitPlan plat plan.val policy.val now = .ok base → base.admitted = true →
      ∃ scope required effective manifests,
        PlanLevels plan.val policy.val base scope required effective manifests ∧
        required ≠ .hardwareAttested ∧ effective ≠ .hardwareAttested) ∧
    ∀ d, (verifyAttestation plat policy.val now attestation.val store s).1 = .ok d →
      d.admitted = true →
      ∃ base scope required claimed effective manifests,
        admitPlan plat attestation.val.plan policy.val now = .ok base ∧ base.admitted = true ∧
        PlanLevels attestation.val.plan policy.val base scope required claimed manifests ∧
        ReceiptLevels attestation.val base d required claimed effective ∧
        required ≠ .hardwareAttested ∧ effective ≠ .hardwareAttested := by
  constructor
  · intro base hbase hadmitted
    rw [admitPlan_eq,Except.ok.injEq] at hbase
    rw [← hbase] at hadmitted ⊢
    obtain ⟨scope,required,effective,manifests,h⟩ := plan_levels plan hadmitted
    exact ⟨scope,required,effective,manifests,h,hardware_ne_of_le (h.adequate.trans h.capped),
      hardware_ne_of_le h.capped⟩
  · intro d hd hadmitted
    have hexit := verifyAttestation_exit plat attestation policy now store s
    rw [hd] at hexit
    cases hexit with
    | planDenied hdenied => exact absurd (hadmitted.symm.trans hdenied) (by simp)
    | receiptsDenied required hbase hg hreasons => exact absurd hadmitted (by simp [deny])
    | replayed hpassed hanswer => exact absurd hadmitted (by simp [deny])
    | admitted weakest hpassed hweakest hanswer =>
      obtain ⟨scope,required,claimed,manifests,h⟩ : ∃ scope required claimed manifests,
          PlanLevels attestation.val.plan policy.val (baseDecision plat attestation policy now)
            scope required claimed manifests := plan_levels attestation.plan hpassed.base
      have hreceipts := receipt_levels hpassed h hweakest
      have hcapped := hreceipts.weaker.trans h.capped
      exact ⟨baseDecision plat attestation policy now,scope,required,claimed,weakest,manifests,
        admitPlan_eq plat attestation.plan policy now,hpassed.base,h,hreceipts,
        hardware_ne_of_le (hreceipts.adequate.trans hcapped),hardware_ne_of_le hcapped⟩

end LocusMesh
