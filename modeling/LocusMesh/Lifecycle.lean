import Mathlib
import LocusMesh.Invocations
import LocusMesh.Loading

/-! The life of an attestation: honest signers build it, it is written to a file, and of the runs
of `verify` that read the file on one database, the first admits it and no other does. -/
namespace LocusMesh

open AwareClock CanonicalJson PyCollections PyJson PyText

section Built

variable {τ : Type} [AwareDatetime τ] {plat : Platform} {plan : Validated (RoutePlan τ)}
  {policy : Validated (AdmissionPolicy τ)} {now observedAt : τ}
  {evidenceLevels : Option (PeerId → Option EvidenceLevel)}

variable (plat plan policy observedAt evidenceLevels) in
/-- An attestation of the plan whose receipts are a built chain. -/
structure BuiltFor (a : Validated (RouteAttestation τ)) : Prop where
  route : plan = a.plan
  count : a.val.receipts.length = plan.val.hopPeerIds.length
  chain : BuiltChain plat plan.val policy.val observedAt evidenceLevels a.val.receipts

variable (observedAt evidenceLevels) in
theorem build_of_admitted {signers : PeerId → Option Signer}
    (hsigners : HonestFamily plat plan.val policy.val signers)
    (hadmitted : (planDecision plat plan.val policy.val now).admitted = true) :
    ∃ built : Validated (RouteAttestation τ),
      buildAttestation plat plan.val policy.val signers observedAt evidenceLevels =
        .ok built.val ∧ BuiltFor plat plan policy observedAt evidenceLevels built := by
  obtain ⟨required,hg⟩ := grounded_of_admitted plat plan policy now hadmitted
  obtain ⟨receipts,hbuild,hcount,hchain⟩ :=
    buildAttestation_eq plan policy.val observedAt evidenceLevels hsigners hg.manifest
  exact ⟨⟨_,builtChain_check hcount hchain⟩,hbuild,rfl,hcount,hchain⟩

/-- While the plan is admitted and the observation acceptable, only the replay check is left. -/
theorem BuiltFor.passes {built : Validated (RouteAttestation τ)}
    (h : BuiltFor plat plan policy observedAt evidenceLevels built)
    (hadmitted : (planDecision plat plan.val policy.val now).admitted = true)
    (hacceptable : Acceptable plan.val policy.val now observedAt evidenceLevels) :
    ∃ verified : Verified τ, checkAttestation plat policy.val now built.val = .ok (.inr verified) ∧
      verified.attestationHash = built.val.digest plat := by
  obtain ⟨rfl,hcount,hchain⟩ := h
  rcases checkAttestation_cases plat built policy now with
    ⟨hdenied,_⟩ | ⟨required,_,hg,⟨hreasons,_⟩ | ⟨_,hcheck⟩⟩
  · exact absurd (hadmitted.symm.trans hdenied) (by simp)
  · have hkeys : ∀ peer ∈ built.plan.val.hopPeerIds, ∀ m, policy.val.peersById peer = some m →
        deriveKeyId plat m.publicKey.val = .ok m.keyId :=
      fun _ hpeer _ hm => keyBinding_of_admitted built.plan now hadmitted hpeer hm
    have hexact := (builtChain_exact_iff hg hkeys hcount hchain).mpr hacceptable
    exact absurd ((verifyReasons_eq_nil plat (fun _ _ => Iff.rfl) hg).mpr ⟨hcount,hexact⟩) hreasons
  · exact ⟨_,hcheck,rfl⟩

end Built

theorem BuiltFor.mem_times {plat : Platform} {plan : Validated (RoutePlan FixedTime)}
    {policy : Validated (AdmissionPolicy FixedTime)} {observedAt : FixedTime}
    {evidenceLevels : Option (PeerId → Option EvidenceLevel)}
    {built : Validated (RouteAttestation FixedTime)}
    (h : BuiltFor plat plan policy observedAt evidenceLevels built) {t : FixedTime}
    (ht : t ∈ built.val.times) : t ∈ [plan.val.createdAt,plan.val.expiresAt,observedAt] := by
  rw [h.route]
  rcases List.mem_append.mp ht with hplan | hreceipt
  · exact List.mem_append_left [observedAt] hplan
  · obtain ⟨receipt,hr,rfl⟩ := List.mem_map.mp hreceipt
    obtain ⟨j,hj⟩ := List.mem_iff_getElem?.mp hr
    obtain ⟨_,_,_,_,_,_,⟨_,hbody⟩,_⟩ := h.chain j receipt hj
    have hat : receipt.observedAt = observedAt := by rw [hbody]; rfl
    rw [hat]
    exact List.mem_append_right built.val.plan.times List.mem_cons_self

section Runs

variable {plat : Platform} {p : Pydantic} {policy : Validated (AdmissionPolicy FixedTime)}
  {attestation : Validated (RouteAttestation FixedTime)} {a : Attempt FixedTime} {file : Path}

variable (plat p policy attestation a) in
/-- An undisturbed run under the policy that reads the attestation from a file. -/
structure Attempt.Presents : Prop where
  calm : a.disturbance = none
  platform : a.backend.plat = plat
  nesting : 3 ≤ a.backend.nestingLimit
  loadPolicy : a.backend.loadPolicy a.policyFile = .ok policy
  loadAttestation : a.backend.loadAttestation a.attestationFile =
    loadJsonModel (modelValidate p (RouteAttestation.parse p)) a.backend.nestingLimit
      (canonicalFile (attestation.val.dump plat))

def Attempt.output (a : Attempt FixedTime) (file : Path) (disk : Disk) : Output :=
  main (a.onDisk file disk) a.json (.verify a.policyFile a.attestationFile (some file))

def Attempt.reported (a : Attempt FixedTime) (d : AdmissionDecision FixedTime) : Output :=
  report a.json "verify" (.ok (decisionResult a.backend 4 d))

theorem Attempt.reported_exitCode (d : AdmissionDecision FixedTime) :
    (a.reported d).exitCode = if d.admitted then 0 else 4 := by
  rw [reported,report]
  cases a.json <;> rfl

variable (h : a.Presents plat p policy attestation)
  (hload : loadJsonModel (modelValidate p (RouteAttestation.parse p)) a.backend.nestingLimit
    (canonicalFile (attestation.val.dump plat)) = .ok attestation)
  {verified : Verified FixedTime}
  (hcheck : checkAttestation plat policy.val a.backend.now attestation.val = .ok (.inr verified))

include h hload hcheck

theorem Attempt.Presents.output (hfile : file ≠ ":memory:") (disk : Disk) :
    ∃ d, a.output file disk = a.reported d ∧
      conclude attestation.val verified
        (decide (attestation.val.plan.nonce.val ∉ disk.rows.map NonceRow.nonce)) = .ok d := by
  let call : PendingCall FixedTime plat := ⟨attestation,policy,a.backend.now,verified,hcheck⟩
  obtain ⟨store,disk',hrecord,hopen,_⟩ := recordIfNew_create hfile disk call.row
  have hstore : a.store = SQLiteReplayStore.port := by rw [Attempt.store,h.calm]
  have hclosing : a.closing = none := by rw [Attempt.closing,h.calm]
  have hasked : a.store.recordIfNew call.row.nonce call.row.requestCommitment
      call.row.attestationDigest (SQLiteReplayStore.create file,disk) =
        (.ok (decide (call.row.nonce ∉ disk.rows.map NonceRow.nonce)),(store,disk')) := by
    rw [hstore]
    exact hrecord
  have hclose : (a.session file disk).close (store,disk') = (none,(store.close,disk')) := by
    simp [session,closeStore,hopen,hclosing]
  obtain ⟨d,hd⟩ : ∃ d, conclude attestation.val verified
      (decide (attestation.val.plan.nonce.val ∉ disk.rows.map NonceRow.nonce)) = .ok d := by
    cases decide (attestation.val.plan.nonce.val ∉ disk.rows.map NonceRow.nonce) with
    | true =>
      obtain ⟨d,hd,_⟩ := call.conclude_fresh
      exact ⟨d,hd⟩
    | false =>
      obtain ⟨d,hd,_⟩ := call.conclude_replayed
      exact ⟨d,hd⟩
  have hdecision : verifyDecision (a.onDisk file disk) a.policyFile a.attestationFile
      (some file) = .ok d := by
    have hwith : verifyDecision (a.onDisk file disk) a.policyFile a.attestationFile (some file) =
        (withStore (a.session file disk) fun store s => verifyAttestation a.backend.plat policy.val
          a.backend.now attestation.val (some store) s).1 := by
      simp only [verifyDecision,onDisk,h.loadPolicy,h.loadAttestation,hload]
      rfl
    rw [hwith,h.platform,withStore_eq (call.asked hasked) hclose]
    exact hd
  refine ⟨d,?_,hd⟩
  rw [Attempt.output,main,run,hdecision]
  rfl

theorem Attempt.Presents.admits (hfile : file ≠ ":memory:") {disk : Disk}
    (hnew : attestation.val.plan.nonce.val ∉ disk.rows.map NonceRow.nonce) :
    ∃ d, d.admitted = true ∧ d.attestationDigest = some verified.attestationHash ∧
      a.output file disk = a.reported d := by
  obtain ⟨d,houtput,hd⟩ := h.output hload hcheck hfile disk
  let call : PendingCall FixedTime plat := ⟨attestation,policy,a.backend.now,verified,hcheck⟩
  obtain ⟨_,hadmitted,weakest,hweakest⟩ := call.verified_eq
  rw [decide_eq_true hnew,conclude,if_pos rfl,admission,hweakest,Except.ok.injEq] at hd
  exact ⟨d,by rw [← hd]; exact hadmitted,by rw [← hd],houtput⟩

theorem Attempt.Presents.replays (hfile : file ≠ ":memory:") {disk : Disk}
    (hold : attestation.val.plan.nonce.val ∈ disk.rows.map NonceRow.nonce) :
    ∃ d, d.admitted = false ∧ d.reasonCodes = ["REPLAY_DETECTED"] ∧
      a.output file disk = a.reported d := by
  obtain ⟨d,houtput,hd⟩ := h.output hload hcheck hfile disk
  rw [decide_eq_false (not_not.mpr hold),conclude,if_neg Bool.false_ne_true,
    Except.ok.injEq] at hd
  exact ⟨d,by rw [← hd]; rfl,by rw [← hd]; rfl,houtput⟩

theorem Attempt.Presents.recorded : ∃ row, a.recorded file = some row ∧
    row.nonce = attestation.val.plan.nonce.val := by
  have hattestation := h.loadAttestation.trans hload
  rw [← h.platform] at hcheck
  have hrow := Attempt.row_of_passed h.loadPolicy hattestation hcheck
  have hrecorded : a.recorded file = a.row := by rw [Attempt.recorded,h.calm]
  exact ⟨_,hrecorded.trans hrow,rfl⟩

end Runs

structure Attempt.Timely (plan : Validated (RoutePlan FixedTime))
    (policy : Validated (AdmissionPolicy FixedTime)) (observedAt : FixedTime)
    (evidenceLevels : Option (PeerId → Option EvidenceLevel)) (a : Attempt FixedTime) : Prop where
  admitted : ∃ base, admitPlan a.backend.plat plan.val policy.val a.backend.now = .ok base ∧
    base.admitted = true
  acceptable : Acceptable plan.val policy.val a.backend.now observedAt evidenceLevels

/-- At an acceptable time a run that reads what was built comes to the replay check. -/
theorem BuiltFor.passes_timely {plat : Platform} {plan : Validated (RoutePlan FixedTime)}
    {policy : Validated (AdmissionPolicy FixedTime)} {observedAt : FixedTime}
    {evidenceLevels : Option (PeerId → Option EvidenceLevel)} {p : Pydantic}
    {built : Validated (RouteAttestation FixedTime)} {a : Attempt FixedTime}
    (h : BuiltFor plat plan policy observedAt evidenceLevels built)
    (hpresents : a.Presents plat p policy built)
    (htimely : a.Timely plan policy observedAt evidenceLevels) : ∃ verified : Verified FixedTime,
    checkAttestation plat policy.val a.backend.now built.val = .ok (.inr verified) ∧
      verified.attestationHash = built.val.digest plat := by
  obtain ⟨base,hbase,hadmitted⟩ := htimely.admitted
  rw [hpresents.platform,admitPlan_eq,Except.ok.injEq] at hbase
  rw [← hbase] at hadmitted
  exact h.passes hadmitted htimely.acceptable

/-- Liveness and exactly one admission: what honest signers build for an admitted plan, written to
a file as canonical bytes, is admitted by the first undisturbed run of `verify` that reads it on a
database without its nonce, at any time at which the plan is admitted and the observation is
acceptable; and every such run after that is denied as a replay, whatever runs come between. -/
theorem built_admitted_once (plat : Platform) (plan : Validated (RoutePlan FixedTime))
    (policy : Validated (AdmissionPolicy FixedTime)) (now : FixedTime)
    (hadmits : ∃ base, admitPlan plat plan.val policy.val now = .ok base ∧ base.admitted = true)
    (signers : PeerId → Option Signer)
    (hsigners : HonestFamily plat plan.val policy.val signers) (observedAt : FixedTime)
    (evidenceLevels : Option (PeerId → Option EvidenceLevel)) (p : Pydantic)
    (hcounts : p.ReadsCounts)
    (hlegible : ∀ t ∈ [plan.val.createdAt,plan.val.expiresAt,observedAt], Legible p plat t) :
    ∃ built : Validated (RouteAttestation FixedTime),
      buildAttestation plat plan.val policy.val signers observedAt evidenceLevels =
        .ok built.val ∧
      ∀ (file : Path) (disk : Disk) (before between : List (Attempt FixedTime))
        (first again : Attempt FixedTime), file ≠ ":memory:" →
        plan.val.nonce.val ∉ (afterAll file disk before).rows.map NonceRow.nonce →
        (∀ a ∈ [first,again], a.Presents plat p policy built ∧
          a.Timely plan policy observedAt evidenceLevels) →
        (∃ d, d.admitted = true ∧ d.attestationDigest = some (built.val.digest plat) ∧
          first.output file (afterAll file disk before) = first.reported d ∧
          (first.reported d).exitCode = 0) ∧
        ∃ d, d.admitted = false ∧ d.reasonCodes = ["REPLAY_DETECTED"] ∧
          again.output file (afterAll file disk (before ++ first :: between)) = again.reported d ∧
          (again.reported d).exitCode = 4 := by
  obtain ⟨base,hbase,hadmitted⟩ := hadmits
  rw [admitPlan_eq,Except.ok.injEq] at hbase
  rw [← hbase] at hadmitted
  obtain ⟨built,hbuild,hbuilt⟩ := build_of_admitted observedAt evidenceLevels hsigners hadmitted
  refine ⟨built,hbuild,fun file disk before between first again hfile hnew hruns => ?_⟩
  obtain ⟨hfirst,htimely⟩ := hruns first List.mem_cons_self
  obtain ⟨hagain,htimely'⟩ := hruns again (List.mem_cons_of_mem _ List.mem_cons_self)
  have hload : ∀ a : Attempt FixedTime, a.Presents plat p policy built →
      loadJsonModel (modelValidate p (RouteAttestation.parse p)) a.backend.nestingLimit
        (canonicalFile (built.val.dump plat)) = .ok built := fun a ha =>
    RouteAttestation.load_dump built ha.nesting hcounts fun t ht => hlegible t (hbuilt.mem_times ht)
  have hnonce : built.val.plan.nonce = plan.val.nonce := by
    rw [hbuilt.route]
    rfl
  obtain ⟨verified,hcheck,hhash⟩ := hbuilt.passes_timely hfirst htimely
  obtain ⟨verified',hcheck',_⟩ := hbuilt.passes_timely hagain htimely'
  obtain ⟨d,hd,hdigest,houtput⟩ := hfirst.admits (hload first hfirst) hcheck hfile
    (by rw [hnonce]; exact hnew)
  obtain ⟨row,hrow,hsame⟩ : ∃ row, first.recorded file = some row ∧
    row.nonce = built.val.plan.nonce.val := hfirst.recorded (hload first hfirst) hcheck
  have hold : built.val.plan.nonce.val ∈
      (afterAll file disk (before ++ first :: between)).rows.map NonceRow.nonce := by
    rw [afterAll_rows hfile,mem_foldl_remember]
    exact .inr ⟨row,List.mem_filterMap.mpr ⟨first,by simp,hrow⟩,hsame⟩
  obtain ⟨d',hd',hcodes,houtput'⟩ := hagain.replays (hload again hagain) hcheck' hfile hold
  refine ⟨⟨d,hd,by rw [hdigest,hhash],houtput,?_⟩,d',hd',hcodes,houtput',?_⟩
  · rw [Attempt.reported_exitCode,hd,if_pos rfl]
  · rw [Attempt.reported_exitCode,hd',if_neg Bool.false_ne_true]

namespace Demo

def reading (attestation : Validated (RouteAttestation FixedTime)) (now : FixedTime) :
    Attempt FixedTime :=
  ⟨{(failing databaseLocked).reading pydantic fun _ => canonicalFile (attestation.val.dump platform)
      with now := now},true,"policy.yaml","attestation.json",none⟩

theorem reading_presents (attestation : Validated (RouteAttestation FixedTime)) (now : FixedTime) :
    (reading attestation now).Presents platform pydantic policy₀ attestation :=
  ⟨rfl,rfl,show 3 ≤ 1000 by decide,rfl,rfl⟩

end Demo

theorem built_admitted_once_demo : ∃ built : Validated (RouteAttestation FixedTime),
    buildAttestation Demo.platform Demo.plan₀.val Demo.policy₀.val
      (Demo.signers Demo.platform Demo.keys) (Demo.minutes 0) Demo.observedOnly = .ok built.val ∧
    ∃ d d', d.admitted = true ∧ d'.reasonCodes = ["REPLAY_DETECTED"] ∧
      (Demo.reading built (Demo.minutes 0)).output "replay.sqlite3" ⟨false,none⟩ =
        (Demo.reading built (Demo.minutes 0)).reported d ∧
      (Demo.reading built (Demo.minutes 2)).output "replay.sqlite3" (afterAll "replay.sqlite3"
        ⟨false,none⟩ [Demo.reading built (Demo.minutes 0)]) =
          (Demo.reading built (Demo.minutes 2)).reported d' := by
  have hopen : ∀ now : FixedTime, le (Demo.minutes 0) now = true → Demo.windows.Contain now →
      ∀ built, (Demo.reading built now).Timely Demo.plan₀ Demo.policy₀ (Demo.minutes 0)
        Demo.observedOnly := fun now hnoon hnow built =>
    ⟨⟨_,admitPlan_eq Demo.platform Demo.plan₀ Demo.policy₀ now,
      Demo.devicePlan_admitted_iff.mpr hnow⟩,Demo.acceptable hnoon⟩
  obtain ⟨built,hbuild,honce⟩ := built_admitted_once Demo.platform Demo.plan₀ Demo.policy₀
    (Demo.minutes 0) ⟨_,admitPlan_eq Demo.platform Demo.plan₀ Demo.policy₀ (Demo.minutes 0),
      Demo.devicePlan_admitted_iff.mpr Demo.contain_noon⟩ (Demo.signers Demo.platform Demo.keys)
    Demo.honestFamily (Demo.minutes 0) Demo.observedOnly Demo.pydantic Demo.pydantic_counts
    fun t ht => Demo.pydantic_legible ht
  have hlater : Demo.windows.Contain (Demo.minutes 2) := ⟨by decide,by decide,by decide⟩
  obtain ⟨⟨d,hd,_,houtput,_⟩,d',_,hcodes,houtput',_⟩ := honce "replay.sqlite3" ⟨false,none⟩ [] []
    (Demo.reading built (Demo.minutes 0)) (Demo.reading built (Demo.minutes 2)) (by decide)
    List.not_mem_nil (by
      simp only [List.forall_mem_cons,List.not_mem_nil,false_imp_iff,implies_true,and_true]
      exact ⟨⟨Demo.reading_presents built _,hopen _ (by decide) Demo.contain_noon built⟩,
        Demo.reading_presents built _,hopen _ (by decide) hlater built⟩)
  exact ⟨built,hbuild,d,d',hd,hcodes,houtput,houtput'⟩

end LocusMesh
