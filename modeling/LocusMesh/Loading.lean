import Mathlib
import LocusMesh.Decisions
import LocusMesh.Endpoint
import LocusMesh.Files

/-! The command line over files that hold contracts as canonical bytes: it decides as if it had
been handed the contracts themselves, and its digests are those of the bytes in the files. -/
namespace LocusMesh

open AwareClock CanonicalJson PyCollections PyText PyJson Fallible

/-- The rendering of a time is short, and read as that time. -/
structure Legible (p : Pydantic) (plat : Platform) (t : FixedTime) : Prop where
  short : plat.ShortTime t
  reads : p.ReadsTime plat t

section Loading

variable {p : Pydantic} {plat : Platform} {limit : ℕ}

theorem loadJsonModel_dump {α : Type} [Contract α] {parse : Value → Option α} (a : Validated α)
    {v : Json} (htame : Tame limit v) (hsize : (canonicalJsonBytes v).length ≤ maxInputBytes)
    (hparse : parse (readValue v) = some a.val) :
    loadJsonModel (modelValidate p parse) limit (canonicalFile v) = .ok a := by
  rw [loadJsonModel,loadJsonData_canonical htame.distinct htame.ints htame.nesting hsize]
  exact modelValidate_parsed a hparse

theorem RoutePlan.load_dump (plan : Validated (RoutePlan FixedTime)) (hlimit : 3 ≤ limit)
    (h : ∀ t ∈ plan.val.times, Legible p plat t) :
    loadJsonModel (modelValidate p (RoutePlan.parse p)) limit
      (canonicalFile (plan.val.dump plat)) = .ok plan := by
  refine loadJsonModel_dump plan ((RoutePlan.dump_tame plan.val).mono (by omega)) ?_
    (RoutePlan.parse_shows (fun t ht => (h t ht).reads)
      (shows_read (RoutePlan.dump_tame plan.val).distinct))
  have hbound := RoutePlan.sizeBound_dump (fun t ht => (h t ht).short) plan.accepted
  have hbytes := canonicalJsonBytes_bound (plan.val.dump plat)
  rw [maxInputBytes]
  omega

theorem RouteAttestation.load_dump (a : Validated (RouteAttestation FixedTime)) (hlimit : 3 ≤ limit)
    (hcounts : p.ReadsCounts) (h : ∀ t ∈ a.val.times, Legible p plat t) :
    loadJsonModel (modelValidate p (RouteAttestation.parse p)) limit
      (canonicalFile (a.val.dump plat)) = .ok a := by
  refine loadJsonModel_dump a ((RouteAttestation.dump_tame a.accepted).mono hlimit) ?_
    (RouteAttestation.parse_shows hcounts a.accepted (fun t ht => (h t ht).reads)
      (shows_read (RouteAttestation.dump_tame a.accepted).distinct))
  have hbound := RouteAttestation.sizeBound_dump (fun t ht => (h t ht).short) a.accepted
  have hbytes := canonicalJsonBytes_bound (a.val.dump plat)
  rw [maxInputBytes]
  omega

/-- The largest snapshots do not fit into a fixture, so their size is asked for. -/
theorem TopologySnapshot.load_dump (t : Validated (TopologySnapshot FixedTime)) (hlimit : 3 ≤ limit)
    (h : ∀ u ∈ t.val.times, p.ReadsTime plat u)
    (hsize : (canonicalJsonBytes (t.val.dump plat)).length ≤ maxInputBytes) :
    FixtureTopologyProvider.snapshot (modelValidate p (TopologySnapshot.parse p)) limit
      (canonicalFile (t.val.dump plat)) = .ok t := by
  have htame : Tame limit (t.val.dump plat) := (TopologySnapshot.dump_tame t.val).mono hlimit
  have hread : FixtureTopologyProvider.read (canonicalFile (t.val.dump plat)) =
      .ok (dumps (t.val.dump plat)).toList := boundedText_canonical _ hsize
  have hparse : parseJson "duplicate JSON key: " limit (dumps (t.val.dump plat)).toList =
      .ok (parsedValue (sortKeys (t.val.dump plat))) :=
    parseJson_ok.mpr (loads_canonical htame.distinct htame.ints htame.nesting)
  rw [FixtureTopologyProvider.snapshot,hread]
  simp only [bind,Except.bind,hparse]
  exact modelValidate_parsed t (TopologySnapshot.parse_shows h (shows_read htame.distinct))

end Loading

def fileDigest (plat : Platform) (raw : List UInt8) : Digest := tagged "sha256:" (plat.sha256 raw)

section Files

variable {σ : Type} (b : Backend FixedTime σ) (p : Pydantic) (files : Path → File)

/-- The command line whose contracts are read from files, strictly and with the bound on their
size. -/
def Backend.reading : Backend FixedTime σ :=
  {b with
    snapshot := fun path => FixtureTopologyProvider.snapshot
      (modelValidate p (TopologySnapshot.parse p)) b.nestingLimit (files path)
    loadPlan := fun path => loadJsonModel (modelValidate p (RoutePlan.parse p)) b.nestingLimit
      (files path)
    loadAttestation := fun path => loadJsonModel (modelValidate p (RouteAttestation.parse p))
      b.nestingLimit (files path)}

/-- The command line with a contract in memory. -/
def Backend.holdingPlan (plan : Validated (RoutePlan FixedTime)) : Backend FixedTime σ :=
  {b with loadPlan := fun _ => .ok plan}

def Backend.holdingTopology (t : Validated (TopologySnapshot FixedTime)) : Backend FixedTime σ :=
  {b with snapshot := fun _ => .ok t}

def Backend.holdingAttestation (a : Validated (RouteAttestation FixedTime)) : Backend FixedTime σ :=
  {b with loadAttestation := fun _ => .ok a}

def DigestOf (file : File) (digest : Option Digest) : Prop :=
  ∃ raw, file.read = .ok raw ∧ digest = some (fileDigest b.plat raw)

variable {b p files} {policyFile file : Path}

theorem admitDecision_reading {plan : Validated (RoutePlan FixedTime)}
    (h : loadJsonModel (modelValidate p (RoutePlan.parse p)) b.nestingLimit (files file) = .ok plan) :
    admitDecision (b.reading p files) policyFile file =
      admitDecision (b.holdingPlan plan) policyFile file := by
  simp only [admitDecision,Backend.reading,Backend.holdingPlan,h]

theorem verifyDecision_reading {a : Validated (RouteAttestation FixedTime)}
    (h : loadJsonModel (modelValidate p (RouteAttestation.parse p)) b.nestingLimit (files file) =
      .ok a) (nonceStore : Option Path) :
    verifyDecision (b.reading p files) policyFile file nonceStore =
      verifyDecision (b.holdingAttestation a) policyFile file nonceStore := by
  simp only [verifyDecision,Backend.reading,Backend.holdingAttestation,h]

theorem probe_reading {t : Validated (TopologySnapshot FixedTime)}
    (h : FixtureTopologyProvider.snapshot (modelValidate p (TopologySnapshot.parse p))
      b.nestingLimit (files file) = .ok t) :
    probe (b.reading p files) file = probe (b.holdingTopology t) file := by
  simp only [probe,Backend.reading,Backend.holdingTopology,h]

theorem verifyAttestation_digest {plat : Platform} {a : Validated (RouteAttestation FixedTime)}
    {policy : Validated (AdmissionPolicy FixedTime)} {now : FixedTime} {store : Option (ReplayStore σ)}
    {s : σ} {d : AdmissionDecision FixedTime}
    (h : (verifyAttestation plat policy.val now a.val store s).1 = .ok d) :
    d.attestationDigest = some (a.val.digest plat) := by
  have hexit := verifyAttestation_exit plat a policy now store s
  rw [h] at hexit
  cases hexit <;> rfl

theorem verifyDecision_holding {a : Validated (RouteAttestation FixedTime)}
    {policy : Validated (AdmissionPolicy FixedTime)} (hpolicy : b.loadPolicy policyFile = .ok policy) :
    verifyDecision (b.holdingAttestation a) policyFile file none =
      verify b.plat policy.val b.now a.val := by
  simp only [verifyDecision,Backend.holdingAttestation,hpolicy]
  rfl

theorem verifyDecision_digest {a : Validated (RouteAttestation FixedTime)}
    {nonceStore : Option Path} {d : AdmissionDecision FixedTime}
    (h : verifyDecision (b.holdingAttestation a) policyFile file nonceStore = .ok d) :
    d.attestationDigest = some (a.val.digest b.plat) := by
  obtain ⟨policy,_,hrest⟩ := bind_ok.mp h
  obtain ⟨a',ha,hrest⟩ := bind_ok.mp hrest
  obtain rfl : a = a' := Except.ok.inj ha
  cases nonceStore with
  | none => exact verifyAttestation_digest hrest
  | some path => exact verifyAttestation_digest (withExit_ok hrest)

theorem admitDecision_digest {plan : Validated (RoutePlan FixedTime)} {d : AdmissionDecision FixedTime}
    (h : admitDecision (b.holdingPlan plan) policyFile file = .ok d) :
    d.routeDigest = some (sha256Digest b.plat (plan.val.dump b.plat)) := by
  obtain ⟨policy,_,hrest⟩ := bind_ok.mp h
  obtain ⟨plan',hplan,hrest⟩ := bind_ok.mp hrest
  obtain rfl : plan = plan' := Except.ok.inj hplan
  rw [admitPlan_eq,Except.ok.injEq] at hrest
  rw [← hrest]
  rfl

end Files

/-- A plan or an attestation that any program writes as canonical bytes is decided on as if it
were in memory, never too large and never too deep, and under the digest of its file; so is a
topology shown that fits into a fixture. -/
theorem canonical_files_decided {σ : Type} (b : Backend FixedTime σ) (p : Pydantic)
    (files : Path → File) (hcounts : p.ReadsCounts) (hlimit : 3 ≤ b.nestingLimit)
    (policyFile file : Path) :
    (∀ plan : Validated (RoutePlan FixedTime), (∀ t ∈ plan.val.times, Legible p b.plat t) →
      files file = canonicalFile (plan.val.dump b.plat) →
      (∀ json, main (b.reading p files) json (.admitPlan policyFile file) =
        main (b.holdingPlan plan) json (.admitPlan policyFile file)) ∧
      ∀ d, admitDecision (b.reading p files) policyFile file = .ok d →
        DigestOf b (files file) d.routeDigest) ∧
    (∀ a : Validated (RouteAttestation FixedTime), (∀ t ∈ a.val.times, Legible p b.plat t) →
      files file = canonicalFile (a.val.dump b.plat) →
      (∀ json nonceStore, main (b.reading p files) json (.verify policyFile file nonceStore) =
        main (b.holdingAttestation a) json (.verify policyFile file nonceStore)) ∧
      ∀ nonceStore d, verifyDecision (b.reading p files) policyFile file nonceStore = .ok d →
        DigestOf b (files file) d.attestationDigest) ∧
    ∀ t : Validated (TopologySnapshot FixedTime), (∀ u ∈ t.val.times, p.ReadsTime b.plat u) →
      (canonicalJsonBytes (t.val.dump b.plat)).length ≤ maxInputBytes →
      files file = canonicalFile (t.val.dump b.plat) →
      ∀ json, main (b.reading p files) json (.probe file) =
        main (b.holdingTopology t) json (.probe file) := by
  refine ⟨?_,?_,?_⟩
  · intro plan hlegible hfile
    have hload := RoutePlan.load_dump plan hlimit hlegible
    rw [← hfile] at hload
    refine ⟨fun json => ?_,fun d hd => ?_⟩
    · rw [main,run,admitDecision_reading hload]
      rfl
    · rw [admitDecision_reading hload] at hd
      exact ⟨canonicalJsonBytes (plan.val.dump b.plat),by rw [hfile]; rfl,admitDecision_digest hd⟩
  · intro a hlegible hfile
    have hload := RouteAttestation.load_dump a hlimit hcounts hlegible
    rw [← hfile] at hload
    refine ⟨fun json nonceStore => ?_,fun nonceStore d hd => ?_⟩
    · rw [main,run,verifyDecision_reading hload]
      rfl
    · rw [verifyDecision_reading hload] at hd
      exact ⟨canonicalJsonBytes (a.val.dump b.plat),by rw [hfile]; rfl,verifyDecision_digest hd⟩
  · intro t hreads hsize hfile json
    have hload := TopologySnapshot.load_dump t hlimit hreads hsize
    rw [← hfile] at hload
    rw [main,run,probe_reading hload]
    rfl

namespace Demo

/-- A validator that reads numbers of hops, and the times of the demo. -/
def pydantic : Pydantic where
  laxBool _ := none
  int
    | .number literal =>
      if literal.all isDigit then some (Nat.ofDigitChars 10 literal 0) else none
    | _ => none
  datetime
    | .str s => ((texts "Z").find? fun shown => decide (str shown.2 = s)).map fun shown =>
      .aware shown.1
    | _ => none
  refused _ := ⟨[.validationError,.valueError],"",[],by simp [PyClass.base]⟩
  refused_class _ := by simp

theorem pydantic_counts : pydantic.ReadsCounts := by
  have hall : ∀ n < 65, pydantic.int (.number (intText (n : ℕ))) = some (n : ℤ) := by decide
  exact fun n hn => hall n (by omega)

theorem pydantic_legible {t : FixedTime} (h : t ∈ [minutes (-5),minutes 5,minutes 0]) :
    Legible pydantic platform t := by
  have hcases : t = minutes (-5) ∨ t = minutes 5 ∨ t = minutes 0 := by simpa using h
  rcases hcases with rfl | rfl | rfl
  · exact ⟨Nat.le_of_ble_eq_true rfl,rfl⟩
  · exact ⟨Nat.le_of_ble_eq_true rfl,rfl⟩
  · exact ⟨Nat.le_of_ble_eq_true rfl,rfl⟩

def offline : Backend FixedTime Unit := observing (.refused (.osError "refused"))

def attestationFiles (_ : Path) : File := canonicalFile (attestation₀.val.dump platform)

theorem attestation_read : ∃ d : AdmissionDecision FixedTime,
    verifyDecision (offline.reading pydantic attestationFiles) "policy.yaml" "attestation.json" none =
      .ok d ∧ d.admitted = true := by
  have hload : loadJsonModel (modelValidate pydantic (RouteAttestation.parse pydantic))
      offline.nestingLimit (attestationFiles "attestation.json") = .ok attestation₀ :=
    RouteAttestation.load_dump attestation₀ (show 3 ≤ 1000 by decide) pydantic_counts
      fun t ht => pydantic_legible ht
  have hpolicy : offline.loadPolicy "policy.yaml" = .ok policy₀ := rfl
  have hnoon : le (minutes 0) (minutes 0) = true := by decide
  obtain ⟨d,hd,hadmitted,_⟩ :=
    attestation_admitted hnoon contain_noon (none : Option (ReplayStore Unit)) () rfl
  have hverify : verify platform policy₀.val (minutes 0) attestation₀.val = .ok d := by
    rw [verify,hd]
  refine ⟨d,?_,hadmitted⟩
  rw [verifyDecision_reading hload,verifyDecision_holding hpolicy]
  exact hverify

end Demo

/-- The demo's device attestation is admitted from its file, under the digest of that. -/
theorem canonical_files_decided_demo : ∃ d : AdmissionDecision FixedTime,
    verifyDecision (Demo.offline.reading Demo.pydantic Demo.attestationFiles) "policy.yaml"
      "attestation.json" none = .ok d ∧ d.admitted = true ∧
    DigestOf Demo.offline (Demo.attestationFiles "attestation.json") d.attestationDigest := by
  obtain ⟨d,hd,hadmitted⟩ := Demo.attestation_read
  obtain ⟨_,hattestations,_⟩ := canonical_files_decided Demo.offline Demo.pydantic
    Demo.attestationFiles Demo.pydantic_counts (show 3 ≤ 1000 by decide) "policy.yaml"
    "attestation.json"
  exact ⟨d,hd,hadmitted,(hattestations Demo.attestation₀
    (fun t ht => Demo.pydantic_legible ht) rfl).2 none d hd⟩

end LocusMesh
