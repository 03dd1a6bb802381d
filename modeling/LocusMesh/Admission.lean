import Mathlib
import LocusMesh.Policy

/-! What `admit_plan` reports: exactly the codes of the rules a plan violates. The rules
are stated once, over an arbitrary order of times, and the loop is related to them. -/
namespace LocusMesh

open PyCollections AwareClock

/-- The rules about the plan as a whole. -/
inductive PlanRule
  | intentNotAllowed | planNotYetValid | planExpired | topologyNotYetValid | topologyExpired
  | maxHopsExceeded | duplicatePeer | deviceOnlyRequiresLocalSingleHop
  | hardwareAttestationUnsupported
  deriving DecidableEq

inductive PeerRule
  | unknown | notYetValid | expired | scopeWidening | modelDigestMismatch
  | runtimeDigestMismatch | publicKeyInvalid | keyBindingInvalid | evidenceBelowFloor
  deriving DecidableEq

inductive Violation
  | plan (rule : PlanRule)
  | edge (source target : PeerId)
  | peer (rule : PeerRule) (peerId : PeerId)

def PlanRule.code : PlanRule → String
  | .intentNotAllowed => "INTENT_NOT_ALLOWED"
  | .planNotYetValid => "PLAN_NOT_YET_VALID"
  | .planExpired => "PLAN_EXPIRED"
  | .topologyNotYetValid => "TOPOLOGY_NOT_YET_VALID"
  | .topologyExpired => "TOPOLOGY_EXPIRED"
  | .maxHopsExceeded => "MAX_HOPS_EXCEEDED"
  | .duplicatePeer => "DUPLICATE_PEER"
  | .deviceOnlyRequiresLocalSingleHop => "DEVICE_ONLY_REQUIRES_LOCAL_SINGLE_HOP"
  | .hardwareAttestationUnsupported => "HARDWARE_ATTESTATION_UNSUPPORTED"

def PeerRule.label : PeerRule → String
  | .unknown => "PEER_UNKNOWN:"
  | .notYetValid => "PEER_NOT_YET_VALID:"
  | .expired => "PEER_EXPIRED:"
  | .scopeWidening => "SCOPE_WIDENING:"
  | .modelDigestMismatch => "MODEL_DIGEST_MISMATCH:"
  | .runtimeDigestMismatch => "RUNTIME_DIGEST_MISMATCH:"
  | .publicKeyInvalid => "PEER_PUBLIC_KEY_INVALID:"
  | .keyBindingInvalid => "PEER_KEY_BINDING_INVALID:"
  | .evidenceBelowFloor => "EVIDENCE_BELOW_FLOOR:"

def Violation.code : Violation → String
  | .plan rule => rule.code
  | .edge source target => "EDGE_NOT_ALLOWED:" ++ (source.val ++ ("->" ++ target.val))
  | .peer rule peerId => rule.label ++ peerId.val

theorem split_at_first {α : Type} {a : α} {l l' m m' : List α} (hl : a ∉ l) (hl' : a ∉ l')
    (h : l ++ a :: m = l' ++ a :: m') : l = l' ∧ m = m' := by
  induction l generalizing l' with
  | nil =>
    cases l' with
    | nil => simpa using h
    | cons b l' =>
      rw [List.nil_append,List.cons_append,List.cons.injEq] at h
      exact absurd (h.1 ▸ List.mem_cons_self) hl'
  | cons c l ih =>
    cases l' with
    | nil =>
      rw [List.nil_append,List.cons_append,List.cons.injEq] at h
      exact absurd (h.1 ▸ List.mem_cons_self) hl
    | cons b l' =>
      rw [List.cons_append,List.cons_append,List.cons.injEq] at h
      obtain ⟨hll,hmm⟩ := ih (fun hc => hl (List.mem_cons_of_mem _ hc))
        (fun hc => hl' (List.mem_cons_of_mem _ hc)) h.2
      exact ⟨by rw [h.1,hll],hmm⟩

def PeerRule.name (rule : PeerRule) : List Char := rule.label.toList.dropLast

theorem planRule_no_colon (rule : PlanRule) : ':' ∉ rule.code.toList := by
  cases rule <;> simp [PlanRule.code]

theorem peerRule_no_colon (rule : PeerRule) : ':' ∉ rule.name := by
  cases rule <;> simp [PeerRule.name,PeerRule.label]

theorem peerRule_label (rule : PeerRule) : rule.label.toList = rule.name ++ [':'] := by
  cases rule <;> simp [PeerRule.name,PeerRule.label]

theorem planRule_code_injective : Function.Injective PlanRule.code := by
  intro a b h
  cases a <;> cases b <;> first | rfl | simp [PlanRule.code] at h

theorem peerRule_name_injective : Function.Injective PeerRule.name := by
  intro a b h
  cases a <;> cases b <;> first | rfl | simp [PeerRule.name,PeerRule.label] at h

theorem peerRule_name_ne_edge (rule : PeerRule) : rule.name ≠ "EDGE_NOT_ALLOWED".toList := by
  cases rule <;> simp [PeerRule.name,PeerRule.label]

theorem edge_label : "EDGE_NOT_ALLOWED:".toList = "EDGE_NOT_ALLOWED".toList ++ [':'] := by
  simp

theorem edge_arrow : "->".toList = ['-','>'] := by simp

theorem edge_code_toList (s t : PeerId) : (Violation.edge s t).code.toList =
    "EDGE_NOT_ALLOWED".toList ++ ':' :: ((s.val.toList ++ ['-']) ++ '>' :: t.val.toList) := by
  calc (Violation.edge s t).code.toList
    _ = "EDGE_NOT_ALLOWED:".toList ++ (s.val.toList ++ ("->".toList ++ t.val.toList)) := by
      simp only [Violation.code,String.toList_append]
    _ = ("EDGE_NOT_ALLOWED".toList ++ [':']) ++ (s.val.toList ++ (['-','>'] ++ t.val.toList)) :=
      congrArg₂ _ edge_label (congrArg _ (congrArg (· ++ _) edge_arrow))
    _ = _ := by simp only [List.append_assoc,List.cons_append,List.nil_append]

theorem peer_code_toList (rule : PeerRule) (p : PeerId) :
    (Violation.peer rule p).code.toList = rule.name ++ ':' :: p.val.toList := by
  rw [Violation.code,String.toList_append,peerRule_label]
  simp only [List.append_assoc,List.cons_append,List.nil_append]

theorem plan_code_ne {v : Violation} (h : ':' ∈ v.code.toList) (rule : PlanRule) :
    (Violation.plan rule).code ≠ v.code := by
  intro he
  rw [← he] at h
  exact planRule_no_colon rule h

theorem edge_colon (s t : PeerId) : ':' ∈ (Violation.edge s t).code.toList := by
  simp [edge_code_toList]

theorem peer_colon (rule : PeerRule) (p : PeerId) :
    ':' ∈ (Violation.peer rule p).code.toList := by
  simp [peer_code_toList]

theorem peer_code_ne_edge (rule : PeerRule) (p s t : PeerId) :
    (Violation.peer rule p).code ≠ (Violation.edge s t).code := by
  intro h
  have hl := congrArg String.toList h
  rw [peer_code_toList,edge_code_toList] at hl
  exact peerRule_name_ne_edge rule
    (split_at_first (peerRule_no_colon rule) (by simp) hl).1

theorem peerId_no_arrow (p : PeerId) : '>' ∉ p.val.toList := by
  intro h
  have hp := p.property
  unfold peerIdPattern at hp
  cases hl : p.val.toList with
  | nil => simp [hl] at h
  | cons c cs =>
    rw [hl] at h hp
    simp only [Bool.and_eq_true,List.all_eq_true] at hp
    rcases List.mem_cons.mp h with hc | hcs
    · rw [← hc] at hp
      exact absurd hp.1 (by decide)
    · exact absurd (hp.2.2 '>' hcs) (by decide)

/-- No peer id contains `>`, so the first one in an edge code ends the source. -/
theorem edge_code_injective {s t s' t' : PeerId}
    (h : (Violation.edge s t).code = (Violation.edge s' t').code) : s = s' ∧ t = t' := by
  have hl := congrArg String.toList h
  rw [edge_code_toList,edge_code_toList,List.append_cancel_left_eq,List.cons.injEq] at hl
  have hno : ∀ p : PeerId, '>' ∉ p.val.toList ++ ['-'] := by
    intro p
    simp [peerId_no_arrow p]
  obtain ⟨hs,ht⟩ := split_at_first (hno s) (hno s') hl.2
  exact ⟨Subtype.ext (String.toList_inj.mp (List.append_cancel_right hs)),
    Subtype.ext (String.toList_inj.mp ht)⟩

theorem peer_code_injective {a b : PeerRule} {p q : PeerId}
    (h : (Violation.peer a p).code = (Violation.peer b q).code) : a = b ∧ p = q := by
  have hl := congrArg String.toList h
  rw [peer_code_toList,peer_code_toList] at hl
  obtain ⟨hname,hp⟩ := split_at_first (peerRule_no_colon a) (peerRule_no_colon b) hl
  exact ⟨peerRule_name_injective hname,Subtype.ext (String.toList_inj.mp hp)⟩

theorem violation_code_injective : Function.Injective Violation.code := by
  intro v w h
  cases v with
  | plan a =>
    cases w with
    | plan b => rw [planRule_code_injective h]
    | edge s t => exact absurd h (plan_code_ne (edge_colon s t) a)
    | peer b p => exact absurd h (plan_code_ne (peer_colon b p) a)
  | edge s t =>
    cases w with
    | plan b => exact absurd h.symm (plan_code_ne (edge_colon s t) b)
    | edge s' t' =>
      obtain ⟨hs,ht⟩ := edge_code_injective h
      rw [hs,ht]
    | peer b p => exact absurd h.symm (peer_code_ne_edge b p s t)
  | peer a p =>
    cases w with
    | plan b => exact absurd h.symm (plan_code_ne (peer_colon a p) b)
    | edge s t => exact absurd h (peer_code_ne_edge a p s t)
    | peer b q =>
      obtain ⟨hab,hpq⟩ := peer_code_injective h
      rw [hab,hpq]

def Adjacent (hops : List PeerId) (s t : PeerId) : Prop :=
  ∃ i : ℕ, hops[i]? = some s ∧ hops[i+1]? = some t

section Rules

variable {τ : Type} (before : τ → τ → Prop) (plat : Platform) (plan : RoutePlan τ)
  (policy : AdmissionPolicy τ) (now : τ)

/-- The plan-wide rules, with times ordered by `before`. -/
def PlanRule.Violated : PlanRule → Prop
  | .intentNotAllowed => plan.intent ∉ policy.allowedIntents.val
  | .planNotYetValid => before now plan.createdAt
  | .planExpired => ¬before now plan.expiresAt
  | .topologyNotYetValid => before now policy.topology.capturedAt
  | .topologyExpired => ¬before now policy.topology.expiresAt
  | .maxHopsExceeded => policy.maxHops < plan.hopPeerIds.length
  | .duplicatePeer => ¬plan.hopPeerIds.Nodup
  | .deviceOnlyRequiresLocalSingleHop =>
    plan.intent = .deviceOnly ∧ plan.hopPeerIds ≠ [policy.topology.localPeerId]
  | .hardwareAttestationUnsupported => policy.floor plan.intent = some .hardwareAttested

/-- The rules a known manifest breaks. -/
def PeerRule.BrokenBy (manifest : PeerManifest τ) : PeerRule → Prop
  | .unknown => False
  | .notYetValid => before now manifest.validFrom
  | .expired => ¬before now manifest.expiresAt
  | .scopeWidening => Policy.scopeRank plan.intent < Policy.scopeRank manifest.executionScope
  | .modelDigestMismatch => manifest.modelDigest ≠ plan.modelDigest
  | .runtimeDigestMismatch => manifest.runtimeDigest ≠ plan.runtimeDigest
  | .publicKeyInvalid =>
    ¬∃ raw : List UInt8, raw.length = 32 ∧ manifest.publicKey.val = encodeBase64url raw
  | .keyBindingInvalid => ∃ raw : List UInt8, raw.length = 32 ∧
      manifest.publicKey.val = encodeBase64url raw ∧
      tagged "ed25519:sha256:" (plat.sha256 raw) ≠ manifest.keyId
  | .evidenceBelowFloor => ∃ floor, policy.floor plan.intent = some floor ∧
      Policy.evidenceRank (Policy.effectiveEvidence manifest.evidenceLevel) <
        Policy.evidenceRank floor

def PeerRule.Violated (peerId : PeerId) : PeerRule → Prop
  | .unknown => ∀ manifest ∈ policy.topology.peers, manifest.peerId ≠ peerId
  | rule => ∃ manifest ∈ policy.topology.peers, manifest.peerId = peerId ∧
      rule.BrokenBy before plat plan policy now manifest

def Violation.Violated : Violation → Prop
  | .plan rule => rule.Violated before plan policy now
  | .edge source target => Adjacent plan.hopPeerIds source target ∧
      ∀ edge ∈ policy.topology.edges, ¬(edge.sourcePeerId = source ∧ edge.targetPeerId = target)
  | .peer rule peerId => peerId ∈ plan.hopPeerIds ∧
      rule.Violated before plat plan policy now peerId

end Rules

@[simp] theorem mem_flag {raised : Bool} {code c : String} :
    c ∈ flag raised code ↔ raised = true ∧ code = c := by
  cases raised <;> simp [flag,eq_comm]

@[simp] theorem flag_eq_nil {raised : Bool} {code : String} :
    flag raised code = [] ↔ raised = false := by
  cases raised <;> simp [flag]

theorem adjacent_iff {hops : List PeerId} {s t : PeerId} :
    (s,t) ∈ hops.zip hops.tail ↔ Adjacent hops s t := by
  simp [List.mem_iff_getElem?,List.getElem?_zip_eq_some,Adjacent]

theorem eq_singleton_iff {α : Type} {l : List α} {a : α} :
    l = [a] ↔ l.length = 1 ∧ l.head? = some a := by
  cases l with
  | nil => simp
  | cons b l => cases l <;> simp

theorem exists_planRule {P : PlanRule → Prop} : (∃ rule, P rule) ↔
    P .intentNotAllowed ∨ P .planNotYetValid ∨ P .planExpired ∨ P .topologyNotYetValid ∨
      P .topologyExpired ∨ P .maxHopsExceeded ∨ P .duplicatePeer ∨
      P .deviceOnlyRequiresLocalSingleHop ∨ P .hardwareAttestationUnsupported := by
  constructor
  · rintro ⟨rule,h⟩
    cases rule <;> simp [h]
  · rintro (h | h | h | h | h | h | h | h | h) <;> exact ⟨_,h⟩

theorem exists_peerRule {P : PeerRule → Prop} : (∃ rule, P rule) ↔
    P .unknown ∨ P .notYetValid ∨ P .expired ∨ P .scopeWidening ∨ P .modelDigestMismatch ∨
      P .runtimeDigestMismatch ∨ P .publicKeyInvalid ∨ P .keyBindingInvalid ∨
      P .evidenceBelowFloor := by
  constructor
  · rintro ⟨rule,h⟩
    cases rule <;> simp [h]
  · rintro (h | h | h | h | h | h | h | h | h) <;> exact ⟨_,h⟩

theorem exists_violation {P : Violation → Prop} : (∃ v, P v) ↔
    (∃ rule, P (.plan rule)) ∨ (∃ s t, P (.edge s t)) ∨ ∃ rule p, P (.peer rule p) := by
  constructor
  · rintro ⟨v,h⟩
    cases v with
    | plan rule => exact .inl ⟨rule,h⟩
    | edge s t => exact .inr (.inl ⟨s,t,h⟩)
    | peer rule p => exact .inr (.inr ⟨rule,p,h⟩)
  · rintro (⟨rule,h⟩ | ⟨s,t,h⟩ | ⟨rule,p,h⟩) <;> exact ⟨_,h⟩

section Scan

variable {τ : Type} [AwareDatetime τ] (plat : Platform) (plan : RoutePlan τ)
  (policy : AdmissionPolicy τ) (now : τ)

def hopReasons (peerId : PeerId) : List String :=
  match policy.peersById peerId with
  | none => ["PEER_UNKNOWN:" ++ peerId.val]
  | some peer => peerReasons plat plan policy now peerId peer

theorem scanHop_eq (scan : PlanScan) (peerId : PeerId) :
    scanHop plat plan policy now scan peerId =
      ⟨scan.reasons ++ hopReasons plat plan policy now peerId,
        scan.scopes ++ ((policy.peersById peerId).map PeerManifest.executionScope).toList,
        scan.evidence ++ ((policy.peersById peerId).map fun peer =>
          Policy.effectiveEvidence peer.evidenceLevel).toList⟩ := by
  cases h : policy.peersById peerId <;> simp [scanHop,hopReasons,h]

theorem foldl_scanHop (scan : PlanScan) (hops : List PeerId) :
    hops.foldl (scanHop plat plan policy now) scan =
      ⟨scan.reasons ++ hops.flatMap (hopReasons plat plan policy now),
        scan.scopes ++ (hops.filterMap policy.peersById).map PeerManifest.executionScope,
        scan.evidence ++ (hops.filterMap policy.peersById).map fun peer =>
          Policy.effectiveEvidence peer.evidenceLevel⟩ := by
  induction hops generalizing scan with
  | nil => simp
  | cons p hops ih =>
    rw [List.foldl_cons,ih,scanHop_eq]
    cases h : policy.peersById p <;> simp [h]

theorem scanPlan_eq : scanPlan plat plan policy now =
    ⟨routeReasons plan policy now ++ plan.hopPeerIds.flatMap (hopReasons plat plan policy now),
      (plan.hopPeerIds.filterMap policy.peersById).map PeerManifest.executionScope,
      (plan.hopPeerIds.filterMap policy.peersById).map fun peer =>
        Policy.effectiveEvidence peer.evidenceLevel⟩ := by
  simp [scanPlan,foldl_scanHop]

end Scan

section Reports

variable {τ : Type} [AwareDatetime τ]

omit [AwareDatetime τ] in
theorem not_mem_edgePairs {topology : TopologySnapshot τ} {s t : PeerId} :
    (s,t) ∉ topology.edgePairs ↔
      ∀ edge ∈ topology.edges, ¬(edge.sourcePeerId = s ∧ edge.targetPeerId = t) := by
  simp [TopologySnapshot.edgePairs]

theorem mem_peersById {policy : Validated (AdmissionPolicy τ)} {p : PeerId}
    {m : PeerManifest τ} : policy.val.peersById p = some m ↔
      m ∈ policy.val.topology.peers ∧ m.peerId = p :=
  dictGet_eq_some policy.topology.peerIds_nodup

omit [AwareDatetime τ] in
theorem peersById_eq_none {policy : AdmissionPolicy τ} {p : PeerId} :
    policy.peersById p = none ↔ ∀ m ∈ policy.topology.peers, m.peerId ≠ p :=
  dictGet_eq_none

omit [AwareDatetime τ] in
theorem belowFloor_iff {required : Option EvidenceLevel} {effective : EvidenceLevel} :
    belowFloor required effective = true ↔ ∃ floor, required = some floor ∧
      Policy.evidenceRank effective < Policy.evidenceRank floor := by
  cases required <;> simp [belowFloor]

omit [AwareDatetime τ] in
theorem mem_keyReasons {plat : Platform} {p : PeerId} {peer : PeerManifest τ} {c : String} :
    c ∈ keyReasons plat p peer ↔
      ((¬∃ raw : List UInt8, raw.length = 32 ∧ peer.publicKey.val = encodeBase64url raw) ∧
        "PEER_PUBLIC_KEY_INVALID:" ++ p.val = c) ∨
      ((∃ raw : List UInt8, raw.length = 32 ∧ peer.publicKey.val = encodeBase64url raw ∧
          tagged "ed25519:sha256:" (plat.sha256 raw) ≠ peer.keyId) ∧
        "PEER_KEY_BINDING_INVALID:" ++ p.val = c) := by
  unfold keyReasons deriveKeyId
  rcases decodeBase64url_ok_or peer.publicKey.val 32 with ⟨raw,h⟩ | ⟨message,h⟩
  · have hunique : ∀ raw' : List UInt8, raw'.length = 32 ∧
        peer.publicKey.val = encodeBase64url raw' ↔ raw' = raw := by
      intro raw'
      rw [← decodeBase64url_ok_iff,h]
      simp [eq_comm]
    simp [h,bind,Except.bind,hunique,← and_assoc]
  · have hnone : ∀ raw : List UInt8, ¬(raw.length = 32 ∧
        peer.publicKey.val = encodeBase64url raw) := by
      intro raw hraw
      rw [← decodeBase64url_ok_iff,h] at hraw
      cases hraw
    have hbinding : ¬∃ raw : List UInt8, raw.length = 32 ∧
        peer.publicKey.val = encodeBase64url raw ∧
          tagged "ed25519:sha256:" (plat.sha256 raw) ≠ peer.keyId :=
      fun ⟨raw,hlen,hkey,_⟩ => hnone raw ⟨hlen,hkey⟩
    rw [and_iff_right (not_exists.mpr hnone),iff_false_intro hbinding,false_and,or_false]
    simp [h,bind,Except.bind,eq_comm]

variable {before : τ → τ → Prop} (hbefore : ∀ a b : τ, lt a b = true ↔ before a b)
  {plat : Platform} {plan : RoutePlan τ} {now : τ}

include hbefore

theorem ge_iff_not_before (a b : τ) : ge a b = true ↔ ¬before a b := by
  rw [ge_eq_not_lt,← hbefore,Bool.not_eq_true',Bool.not_eq_true]

theorem mem_routeReasons {policy : AdmissionPolicy τ} {c : String} :
    c ∈ routeReasons plan policy now ↔
      (∃ rule : PlanRule, rule.Violated before plan policy now ∧ rule.code = c) ∨
        ∃ s t, (Violation.edge s t).Violated before plat plan policy now ∧
          (Violation.edge s t).code = c := by
  have hge := ge_iff_not_before hbefore
  have hlocal : (plan.hopPeerIds.length ≠ 1 ∨
      plan.hopPeerIds.head? ≠ some policy.topology.localPeerId) ↔
      plan.hopPeerIds ≠ [policy.topology.localPeerId] := by
    rw [ne_eq,ne_eq,ne_eq,eq_singleton_iff,not_and_or]
  have hedges : c ∈ (plan.hopPeerIds.zip plan.hopPeerIds.tail).flatMap (fun hop =>
      flag (decide (hop ∉ policy.topology.edgePairs))
        ("EDGE_NOT_ALLOWED:" ++ (hop.1.val ++ ("->" ++ hop.2.val)))) ↔
      ∃ s t, (Violation.edge s t).Violated before plat plan policy now ∧
        (Violation.edge s t).code = c := by
    simp only [List.mem_flatMap,Prod.exists,mem_flag,decide_eq_true_eq,adjacent_iff,
      not_mem_edgePairs,Violation.Violated,Violation.code,and_assoc]
  rw [exists_planRule]
  simp only [routeReasons,List.mem_append,hedges,mem_flag,decide_eq_true_eq,hbefore,hge,
    Bool.and_eq_true,Bool.or_eq_true,hlocal,PlanRule.Violated,PlanRule.code,or_assoc]
  -- the code tests the edges before the hardware floor
  rw [or_comm (b:=policy.floor plan.intent = some .hardwareAttested ∧ _ = c)]

theorem mem_peerReasons {p : PeerId} {peer : PeerManifest τ} {policy : AdmissionPolicy τ}
    {c : String} : c ∈ peerReasons plat plan policy now p peer ↔
      ∃ rule : PeerRule, rule.BrokenBy before plat plan policy now peer ∧
        (Violation.peer rule p).code = c := by
  have hge := ge_iff_not_before hbefore
  rw [exists_peerRule]
  simp only [peerReasons,List.mem_append,mem_flag,decide_eq_true_eq,hbefore,hge,belowFloor_iff,
    mem_keyReasons,PeerRule.BrokenBy,Violation.code,PeerRule.label,
    or_assoc,false_and,false_or]

theorem mem_hopReasons {policy : Validated (AdmissionPolicy τ)} {p : PeerId} {c : String} :
    c ∈ hopReasons plat plan policy.val now p ↔
      ∃ rule : PeerRule, rule.Violated before plat plan policy.val now p ∧
        (Violation.peer rule p).code = c := by
  cases hget : policy.val.peersById p with
  | none =>
    have hnone := peersById_eq_none.mp hget
    have hknown : ∀ rule : PeerRule, rule.Violated before plat plan policy.val now p ↔
        rule = .unknown := by
      intro rule
      cases rule <;> simp_all [PeerRule.Violated]
    simp only [hopReasons,hget,hknown,exists_eq_left,Violation.code,PeerRule.label,
      List.mem_singleton]
    exact eq_comm
  | some peer =>
    obtain ⟨hmem,hp⟩ := mem_peersById.mp hget
    have hknown : ∀ rule : PeerRule, rule.Violated before plat plan policy.val now p ↔
        rule.BrokenBy before plat plan policy.val now peer := by
      intro rule
      have hunique : ∀ m : PeerManifest τ, m ∈ policy.val.topology.peers ∧ m.peerId = p ↔
          m = peer := by
        intro m
        rw [← mem_peersById,hget,Option.some.injEq,eq_comm]
      cases rule with
      | unknown =>
        refine ⟨fun h => absurd hp (h peer hmem),False.elim⟩
      | _ => simp only [PeerRule.Violated,← and_assoc,hunique,exists_eq_left]
    simp only [hopReasons,hget,hknown,mem_peerReasons hbefore]

/-- The reasons the scan ends with are the codes of the violations, no more and no fewer. -/
theorem mem_scanReasons {policy : Validated (AdmissionPolicy τ)} {c : String} :
    c ∈ (scanPlan plat plan policy.val now).reasons ↔
      ∃ v : Violation, v.Violated before plat plan policy.val now ∧ v.code = c := by
  rw [scanPlan_eq,List.mem_append,mem_routeReasons hbefore,exists_violation,or_assoc]
  refine or_congr Iff.rfl (or_congr Iff.rfl ?_)
  simp only [List.mem_flatMap,mem_hopReasons hbefore,Violation.Violated,and_assoc]
  constructor
  · rintro ⟨p,hp,rule,hrule,hc⟩
    exact ⟨rule,p,hp,hrule,hc⟩
  · rintro ⟨rule,p,hp,hrule,hc⟩
    exact ⟨p,hp,rule,hrule,hc⟩

end Reports

theorem violation_code_ne_admitted (v : Violation) : v.code ≠ "ADMITTED" := by
  intro h
  cases v with
  | plan rule => cases rule <;> simp [Violation.code,PlanRule.code] at h
  | edge s t =>
    have hc := edge_colon s t
    simp [h] at hc
  | peer rule p =>
    have hc := peer_colon rule p
    simp [h] at hc

section Decisions

variable {τ : Type} [AwareDatetime τ] (plat : Platform) (plan : Validated (RoutePlan τ))
  (policy : Validated (AdmissionPolicy τ)) (now : τ)

theorem admitted_not_mem_scanReasons :
    "ADMITTED" ∉ (scanPlan plat plan.val policy.val now).reasons := by
  intro h
  obtain ⟨v,_,hv⟩ := (mem_scanReasons (fun _ _ => Iff.rfl)).mp h
  exact violation_code_ne_admitted v hv

theorem planDecision_check : (planDecision plat plan.val policy.val now).check = .ok () := by
  have hlen := plan.hops_length_le
  by_cases hempty : (scanPlan plat plan.val policy.val now).reasons = []
  · simp [AdmissionDecision.check,planDecision,hempty,andThen_ok,checkSchemaVersion,hlen]
  · have hadmitted := admitted_not_mem_scanReasons plat plan policy now
    simp [AdmissionDecision.check,planDecision,hempty,andThen_ok,checkSchemaVersion,hlen,
      hadmitted]

theorem admitPlan_eq : admitPlan plat plan.val policy.val now =
    .ok (planDecision plat plan.val policy.val now) := by
  rw [admitPlan,AdmissionDecision.construct,planDecision_check]

theorem planDecision_admitted :
    (planDecision plat plan.val policy.val now).admitted = true ↔
      (scanPlan plat plan.val policy.val now).reasons = [] := by
  simp [planDecision]

theorem planDecision_admitted_iff :
    (planDecision plat plan.val policy.val now).admitted = true ↔
      ∀ v : Violation, ¬v.Violated (fun a b => lt a b = true) plat plan.val policy.val now := by
  rw [planDecision_admitted,List.eq_nil_iff_forall_not_mem]
  simp only [mem_scanReasons (fun _ _ => Iff.rfl),not_exists,not_and]
  constructor
  · intro h v hv
    exact h v.code v hv rfl
  · intro h _ v hv
    exact absurd hv (h v)

end Decisions

section Fitting

variable {τ : Type} [AwareDatetime τ] (plat : Platform) (plan : RoutePlan τ)
  (policy : AdmissionPolicy τ) (now : τ)

structure RouteFits : Prop where
  allowed : plan.intent ∈ policy.allowedIntents.val
  window : inWindow plan.createdAt plan.expiresAt now = true
  topologyWindow : inWindow policy.topology.capturedAt policy.topology.expiresAt now = true
  maxHops : plan.hopPeerIds.length ≤ policy.maxHops
  distinct : plan.hopPeerIds.Nodup
  locally : plan.intent = .deviceOnly → plan.hopPeerIds = [policy.topology.localPeerId]
  edges : ∀ hop ∈ plan.hopPeerIds.zip plan.hopPeerIds.tail, hop ∈ policy.topology.edgePairs
  software : policy.floor plan.intent ≠ some .hardwareAttested

structure ManifestFits (manifest : PeerManifest τ) : Prop where
  window : inWindow manifest.validFrom manifest.expiresAt now = true
  scope : Policy.scopeRank manifest.executionScope ≤ Policy.scopeRank plan.intent
  modelDigest : manifest.modelDigest = plan.modelDigest
  runtimeDigest : manifest.runtimeDigest = plan.runtimeDigest
  key : deriveKeyId plat manifest.publicKey.val = .ok manifest.keyId
  evidence : ∀ floor, policy.floor plan.intent = some floor → Policy.evidenceRank floor ≤
    Policy.evidenceRank (Policy.effectiveEvidence manifest.evidenceLevel)

/-- The plan fits, and so does a known manifest for every hop. -/
structure PlanFits : Prop where
  route : RouteFits plan policy now
  hops : ∀ peer ∈ plan.hopPeerIds, ∃ manifest, policy.peersById peer = some manifest ∧
    ManifestFits plat plan policy now manifest

variable {plat plan policy now}

theorem routeReasons_eq_nil : routeReasons plan policy now = [] ↔ RouteFits plan policy now := by
  have hlocal : (¬plan.intent = .deviceOnly ∨ plan.hopPeerIds.length = 1 ∧
      plan.hopPeerIds.head? = some policy.topology.localPeerId) ↔
      (plan.intent = .deviceOnly → plan.hopPeerIds = [policy.topology.localPeerId]) := by
    rw [eq_singleton_iff,imp_iff_not_or]
  simp only [routeReasons,List.append_eq_nil_iff,flag_eq_nil,List.flatMap_eq_nil_iff,
    decide_eq_false_iff_not,not_lt,not_not,Bool.and_eq_false_iff,Bool.or_eq_false_iff,ne_eq,
    ge_eq_not_lt,Bool.not_eq_false']
  constructor
  · rintro ⟨⟨⟨⟨⟨⟨⟨⟨⟨hintent,hcreated⟩,hexpires⟩,hcaptured⟩,huntil⟩,hmax⟩,hnodup⟩,hfirst⟩,hedges⟩,
      hfloor⟩
    exact ⟨hintent,by simp [inWindow_eq,hcreated,hexpires],by simp [inWindow_eq,hcaptured,huntil],
      hmax,hnodup,hlocal.mp hfirst,hedges,hfloor⟩
  · rintro ⟨hintent,hwindow,htopology,hmax,hnodup,hfirst,hedges,hfloor⟩
    rw [inWindow_eq,Bool.and_eq_true,Bool.not_eq_true'] at hwindow htopology
    exact ⟨⟨⟨⟨⟨⟨⟨⟨⟨hintent,hwindow.1⟩,hwindow.2⟩,htopology.1⟩,htopology.2⟩,hmax⟩,hnodup⟩,
      hlocal.mpr hfirst⟩,hedges⟩,hfloor⟩

omit [AwareDatetime τ] in
theorem keyReasons_eq_nil {peer : PeerId} {manifest : PeerManifest τ} :
    keyReasons plat peer manifest = [] ↔
      deriveKeyId plat manifest.publicKey.val = .ok manifest.keyId := by
  unfold keyReasons
  cases deriveKeyId plat manifest.publicKey.val <;> simp

omit [AwareDatetime τ] in
theorem belowFloor_eq_false {required : Option EvidenceLevel} {effective : EvidenceLevel} :
    belowFloor required effective = false ↔ ∀ floor, required = some floor →
      Policy.evidenceRank floor ≤ Policy.evidenceRank effective := by
  cases required <;> simp [belowFloor]

theorem peerReasons_eq_nil {peer : PeerId} {manifest : PeerManifest τ} :
    peerReasons plat plan policy now peer manifest = [] ↔
      ManifestFits plat plan policy now manifest := by
  simp only [peerReasons,List.append_eq_nil_iff,flag_eq_nil,keyReasons_eq_nil,
    belowFloor_eq_false,decide_eq_false_iff_not,not_lt,ne_eq,not_not,ge_eq_not_lt,
    Bool.not_eq_false']
  constructor
  · rintro ⟨⟨⟨⟨⟨⟨hfrom,huntil⟩,hscope⟩,hmodel⟩,hruntime⟩,hkey⟩,hfloor⟩
    exact ⟨by simp [inWindow_eq,hfrom,huntil],hscope,hmodel,hruntime,hkey,hfloor⟩
  · rintro ⟨hwindow,hscope,hmodel,hruntime,hkey,hfloor⟩
    rw [inWindow_eq,Bool.and_eq_true,Bool.not_eq_true'] at hwindow
    exact ⟨⟨⟨⟨⟨⟨hwindow.1,hwindow.2⟩,hscope⟩,hmodel⟩,hruntime⟩,hkey⟩,hfloor⟩

theorem hopReasons_eq_nil {peer : PeerId} : hopReasons plat plan policy now peer = [] ↔
    ∃ manifest, policy.peersById peer = some manifest ∧
      ManifestFits plat plan policy now manifest := by
  cases hget : policy.peersById peer with
  | none => simp [hopReasons,hget]
  | some manifest =>
    simp only [hopReasons,hget,peerReasons_eq_nil,Option.some.injEq,exists_eq_left']

/-- A plan is admitted exactly when it fits. -/
theorem planDecision_fits :
    (planDecision plat plan policy now).admitted = true ↔ PlanFits plat plan policy now := by
  simp only [planDecision,scanPlan_eq,List.isEmpty_iff,List.append_eq_nil_iff,
    List.flatMap_eq_nil_iff,routeReasons_eq_nil,hopReasons_eq_nil]
  exact ⟨fun h => ⟨h.1,h.2⟩,fun h => ⟨h.route,h.hops⟩⟩

end Fitting

/-- Plan admission reports exactly the violated rules, each under a code of its own. -/
theorem admitPlan_reports_violations (plat : Platform) (plan : Validated (RoutePlan FixedTime))
    (policy : Validated (AdmissionPolicy FixedTime)) (now : FixedTime) :
    (∃ d, admitPlan plat plan.val policy.val now = .ok d ∧
      ((∀ v : Violation,
          ¬v.Violated (fun a b => instant a < instant b) plat plan.val policy.val now) →
        d.admitted = true ∧ d.reasonCodes = ["ADMITTED"]) ∧
      ((∃ v : Violation,
          v.Violated (fun a b => instant a < instant b) plat plan.val policy.val now) →
        d.admitted = false ∧ d.reasonCodes.Nodup ∧ ∀ c, c ∈ d.reasonCodes ↔
          ∃ v : Violation, v.Violated (fun a b => instant a < instant b) plat plan.val
            policy.val now ∧ v.code = c)) ∧
    Function.Injective Violation.code := by
  have hmem : ∀ c, c ∈ (scanPlan plat plan.val policy.val now).reasons ↔ ∃ v : Violation,
      v.Violated (fun a b => instant a < instant b) plat plan.val policy.val now ∧ v.code = c :=
    fun _ => mem_scanReasons FixedTime.lt_iff
  refine ⟨⟨_,admitPlan_eq plat plan policy now,?_,?_⟩,violation_code_injective⟩
  · intro hnone
    have hempty : (scanPlan plat plan.val policy.val now).reasons = [] := by
      rw [List.eq_nil_iff_forall_not_mem]
      intro c hc
      obtain ⟨v,hv,_⟩ := (hmem c).mp hc
      exact hnone v hv
    simp [planDecision,hempty]
  · rintro ⟨v,hv⟩
    have hne : (scanPlan plat plan.val policy.val now).reasons ≠ [] :=
      List.ne_nil_of_mem ((hmem v.code).mpr ⟨v,hv,rfl⟩)
    simp only [planDecision,List.isEmpty_eq_false_iff.mpr hne,Bool.false_eq_true,if_false,
      mem_fromKeys,hmem]
    exact ⟨trivial,fromKeys_nodup _,fun _ => trivial⟩

end LocusMesh
