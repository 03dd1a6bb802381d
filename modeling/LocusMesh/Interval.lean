import Mathlib
import LocusMesh.Decisions

/-! The instants at which a plan or an attestation is admitted: all lower bounds on now are
closed, all upper bounds open, and everything else in a verdict is timeless. -/
namespace LocusMesh

open CanonicalJson PyCollections AwareClock HashChain

section Bounds

variable {α : Type*} [LinearOrder α]

theorem exists_isGreatest {l : List α} (h : l ≠ []) : ∃ t, IsGreatest {x | x ∈ l} t := by
  rw [← List.coe_toFinset]
  exact ⟨_,Finset.isGreatest_max' _ (List.toFinset_nonempty_iff l |>.mpr h)⟩

theorem exists_isLeast {l : List α} (h : l ≠ []) : ∃ t, IsLeast {x | x ∈ l} t := by
  rw [← List.coe_toFinset]
  exact ⟨_,Finset.isLeast_min' _ (List.toFinset_nonempty_iff l |>.mpr h)⟩

/-- Finitely many closed lower and open upper bounds leave one half-open interval. -/
theorem forall_bounds_iff {starts ends : List α} {lo hi : α}
    (hlo : IsGreatest {x | x ∈ starts} lo) (hhi : IsLeast {x | x ∈ ends} hi) {t : α} :
    ((∀ x ∈ starts, x ≤ t) ∧ ∀ x ∈ ends, t < x) ↔ t ∈ Set.Ico lo hi := by
  constructor
  · rintro ⟨hstarts,hends⟩
    exact ⟨hstarts lo hlo.1,hends hi hhi.1⟩
  · rintro ⟨hstart,hend⟩
    exact ⟨fun x hx => (hlo.2 hx).trans hstart,fun x hx => hend.trans_le (hhi.2 hx)⟩

/-- What holds at one time, and from then on wherever the bounds do, holds on an interval
or nowhere. -/
theorem never_or_between {τ : Type*} {P : τ → Prop} {reading : τ → α} {starts ends : List α} {lo hi : α}
    (hlo : IsGreatest {x | x ∈ starts} lo) (hhi : IsLeast {x | x ∈ ends} hi)
    (hbounded : ∀ now, P now → (∀ x ∈ starts, x ≤ reading now) ∧ ∀ x ∈ ends, reading now < x)
    (htimeless : ∀ now later, P now →
      ((∀ x ∈ starts, x ≤ reading later) ∧ ∀ x ∈ ends, reading later < x) → P later) :
    ((∀ now, ¬P now) ∨ ∀ now, P now ↔ reading now ∈ Set.Ico lo hi) ∧
      ∀ now, hi ≤ reading now → ¬P now := by
  refine ⟨?_,fun now hlate hP => ?_⟩
  · by_cases hsome : ∃ now, P now
    · obtain ⟨first,hfirst⟩ := hsome
      right
      intro now
      rw [← forall_bounds_iff hlo hhi]
      exact ⟨hbounded now,htimeless first now hfirst⟩
    · exact .inl (not_exists.mp hsome)
  · exact absurd ((hbounded now hP).2 hi hhi.1) (not_lt.mpr hlate)

end Bounds

section Times

variable (plat : Platform)

def hopManifests (plan : RoutePlan FixedTime) (policy : AdmissionPolicy FixedTime) :
    List (PeerManifest FixedTime) :=
  plan.hopPeerIds.filterMap policy.peersById

def openings (plan : RoutePlan FixedTime) (policy : AdmissionPolicy FixedTime) : List ℤ :=
  instant plan.createdAt :: instant policy.topology.capturedAt ::
    (hopManifests plan policy).map fun m => instant m.validFrom

def closings (plan : RoutePlan FixedTime) (policy : AdmissionPolicy FixedTime) : List ℤ :=
  instant plan.expiresAt :: instant policy.topology.expiresAt ::
    (hopManifests plan policy).map fun m => instant m.expiresAt

theorem openings_ne_nil (plan : RoutePlan FixedTime) (policy : AdmissionPolicy FixedTime) :
    openings plan policy ≠ [] :=
  List.cons_ne_nil _ _

theorem closings_ne_nil (plan : RoutePlan FixedTime) (policy : AdmissionPolicy FixedTime) :
    closings plan policy ≠ [] :=
  List.cons_ne_nil _ _

def observations (attestation : RouteAttestation FixedTime) : List ℤ :=
  attestation.receipts.map fun r => instant r.observedAt

def VerifyAdmits (attestation : RouteAttestation FixedTime) (policy : AdmissionPolicy FixedTime)
    (now : FixedTime) : Prop :=
  ∃ d, verify plat policy now attestation = .ok d ∧ d.admitted = true

variable {plat} {plan : RoutePlan FixedTime} {policy : AdmissionPolicy FixedTime}
  {now later : FixedTime}

theorem PlanFits.bounds (h : PlanFits plat plan policy now) :
    (∀ x ∈ openings plan policy, x ≤ instant now) ∧
      ∀ x ∈ closings plan policy, instant now < x := by
  have hplan := (FixedTime.inWindow_iff _ _ _).mp h.route.window
  have htopology := (FixedTime.inWindow_iff _ _ _).mp h.route.topologyWindow
  have hmanifest : ∀ m ∈ hopManifests plan policy,
      instant m.validFrom ≤ instant now ∧ instant now < instant m.expiresAt := by
    intro m hm
    obtain ⟨peer,hpeer,hget⟩ := List.mem_filterMap.mp hm
    obtain ⟨m',hget',hfits⟩ := h.hops peer hpeer
    obtain rfl : m = m' := Option.some.inj (hget.symm.trans hget')
    exact (FixedTime.inWindow_iff _ _ _).mp hfits.window
  constructor
  · simp only [openings,List.forall_mem_cons,List.forall_mem_map]
    exact ⟨hplan.1,htopology.1,fun m hm => (hmanifest m hm).1⟩
  · simp only [closings,List.forall_mem_cons,List.forall_mem_map]
    exact ⟨hplan.2,htopology.2,fun m hm => (hmanifest m hm).2⟩

theorem PlanFits.lasts (h : PlanFits plat plan policy now)
    (hbounds : (∀ x ∈ openings plan policy, x ≤ instant later) ∧
      ∀ x ∈ closings plan policy, instant later < x) : PlanFits plat plan policy later := by
  simp only [openings,closings,List.forall_mem_cons,List.forall_mem_map] at hbounds
  obtain ⟨⟨hcreated,hcaptured,hfrom⟩,hexpires,huntil,hmanifest⟩ := hbounds
  refine ⟨{h.route with
    window := (FixedTime.inWindow_iff _ _ _).mpr ⟨hcreated,hexpires⟩
    topologyWindow := (FixedTime.inWindow_iff _ _ _).mpr ⟨hcaptured,huntil⟩},fun peer hpeer => ?_⟩
  obtain ⟨m,hget,hfits⟩ := h.hops peer hpeer
  have hm : m ∈ hopManifests plan policy := List.mem_filterMap.mpr ⟨peer,hpeer,hget⟩
  exact ⟨m,hget,{hfits with
    window := (FixedTime.inWindow_iff _ _ _).mpr ⟨hfrom m hm,hmanifest m hm⟩}⟩

theorem ReceiptExact.lasts {τ : Type} [AwareDatetime τ] {before : τ → τ → Prop} {plan : RoutePlan τ}
    {policy : AdmissionPolicy τ} {now later : τ} {i : ℕ} {peer : PeerId}
    {manifest : PeerManifest τ} {previous : Option (HopReceipt τ)} {receipt : HopReceipt τ}
    (h : ReceiptExact before plat plan policy now i peer manifest previous receipt)
    (hlater : ¬before later receipt.observedAt) :
    ReceiptExact before plat plan policy later i peer manifest previous receipt where
  bound := h.bound
  timely := ⟨h.timely.plan,h.timely.topology,h.timely.peer,hlater,h.timely.ordered⟩
  signed := h.signed
  evidence := h.evidence

theorem ReceiptsPass.lasts {attestation : RouteAttestation FixedTime}
    (h : ReceiptsPass plat policy now attestation)
    (hlater : ∀ x ∈ observations attestation, x ≤ instant later) :
    ReceiptsPass plat policy later attestation := by
  refine ⟨h.1,fun i peer receipt hpeer hreceipt => ?_⟩
  obtain ⟨m,hm,hid,hexact⟩ := h.2 i peer receipt hpeer hreceipt
  have hobserved : instant receipt.observedAt ≤ instant later :=
    hlater _ (List.mem_map_of_mem (List.mem_of_getElem? hreceipt))
  refine ⟨m,hm,hid,hexact.lasts ?_⟩
  rw [FixedTime.lt_iff]
  exact not_lt.mpr hobserved

theorem ReceiptsPass.bounds {attestation : RouteAttestation FixedTime}
    (h : ReceiptsPass plat policy now attestation) :
    ∀ x ∈ observations attestation, x ≤ instant now := by
  simp only [observations,List.forall_mem_map]
  intro r hr
  obtain ⟨i,hi⟩ := List.mem_iff_getElem?.mp hr
  have hlt : i < attestation.plan.hopPeerIds.length := h.1 ▸ (List.getElem?_eq_some_iff.mp hi).1
  obtain ⟨m,_,_,hexact⟩ := h.2 i _ r (List.getElem?_eq_getElem hlt) hi
  have hfuture := hexact.timely.notFuture
  rw [FixedTime.lt_iff] at hfuture
  exact not_lt.mp hfuture

end Times

theorem admits_fits {τ : Type} [AwareDatetime τ] {plat : Platform}
    {plan : Validated (RoutePlan τ)} {policy : Validated (AdmissionPolicy τ)} {now : τ} :
    Admits plat plan.val policy.val now ↔ PlanFits plat plan.val policy.val now := by
  simp only [Admits,admitPlan_eq,Except.ok.injEq,exists_eq_left',planDecision_fits]

theorem verifyAdmits_iff {plat : Platform} {attestation : Validated (RouteAttestation FixedTime)}
    {policy : Validated (AdmissionPolicy FixedTime)} {now : FixedTime} :
    VerifyAdmits plat attestation.val policy.val now ↔
      PlanFits plat attestation.val.plan policy.val now ∧
        ReceiptsPass plat policy.val now attestation.val := by
  obtain ⟨d,hd,hadmitted⟩ : ∃ d, verify plat policy.val now attestation.val = .ok d ∧
      (d.admitted = true ↔ (baseDecision plat attestation policy now).admitted = true ∧
        ReceiptsPass plat policy.val now attestation.val) :=
    verify_admits_iff plat fun _ _ => Iff.rfl
  simp only [VerifyAdmits,hd,Except.ok.injEq,exists_eq_left',hadmitted]
  exact and_congr planDecision_fits Iff.rfl

/-- The instants at which a plan is admitted, and those at which an attestation is, are none
or all from the latest opening to the earliest closing. -/
theorem admission_times_interval (plat : Platform) (plan : Validated (RoutePlan FixedTime))
    (attestation : Validated (RouteAttestation FixedTime))
    (policy : Validated (AdmissionPolicy FixedTime)) :
    (∃ lo hi, IsGreatest {t | t ∈ openings plan.val policy.val} lo ∧
      IsLeast {t | t ∈ closings plan.val policy.val} hi ∧
      ((∀ now, ¬Admits plat plan.val policy.val now) ∨
        ∀ now, Admits plat plan.val policy.val now ↔ instant now ∈ Set.Ico lo hi) ∧
      ∀ now, hi ≤ instant now → ¬Admits plat plan.val policy.val now) ∧
    ∃ lo hi, IsGreatest {t | t ∈ openings attestation.val.plan policy.val ++
        observations attestation.val} lo ∧
      IsLeast {t | t ∈ closings attestation.val.plan policy.val} hi ∧
      ((∀ now, ¬VerifyAdmits plat attestation.val policy.val now) ∨
        ∀ now, VerifyAdmits plat attestation.val policy.val now ↔ instant now ∈ Set.Ico lo hi) ∧
      ∀ now, hi ≤ instant now → ¬VerifyAdmits plat attestation.val policy.val now := by
  constructor
  · obtain ⟨lo,hlo⟩ := exists_isGreatest (openings_ne_nil plan.val policy.val)
    obtain ⟨hi,hhi⟩ := exists_isLeast (closings_ne_nil plan.val policy.val)
    refine ⟨lo,hi,hlo,hhi,never_or_between hlo hhi ?_ ?_⟩
    · intro now h
      exact (admits_fits.mp h).bounds
    · intro now later h hbounds
      exact admits_fits.mpr ((admits_fits.mp h).lasts hbounds)
  · obtain ⟨lo,hlo⟩ := exists_isGreatest (List.append_ne_nil_of_left_ne_nil
      (openings_ne_nil attestation.val.plan policy.val) (observations attestation.val))
    obtain ⟨hi,hhi⟩ := exists_isLeast (closings_ne_nil attestation.val.plan policy.val)
    refine ⟨lo,hi,hlo,hhi,never_or_between hlo hhi ?_ ?_⟩
    · intro now h
      obtain ⟨hfits,hpass⟩ := verifyAdmits_iff.mp h
      refine ⟨fun x hx => ?_,hfits.bounds.2⟩
      rcases List.mem_append.mp hx with hx | hx
      · exact hfits.bounds.1 x hx
      · exact ReceiptsPass.bounds hpass x hx
    · intro now later h hbounds
      obtain ⟨hfits,hpass⟩ := verifyAdmits_iff.mp h
      have hopen : ∀ x ∈ openings attestation.val.plan policy.val, x ≤ instant later :=
        fun x hx => hbounds.1 x (List.mem_append_left _ hx)
      have hobserved : ∀ x ∈ observations attestation.val, x ≤ instant later :=
        fun x hx => hbounds.1 x (List.mem_append_right _ hx)
      exact verifyAdmits_iff.mpr ⟨hfits.lasts ⟨hopen,hbounds.2⟩,ReceiptsPass.lasts hpass hobserved⟩

end LocusMesh
