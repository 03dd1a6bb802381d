import Mathlib
import LocusMesh.PlainDocuments
import LocusMesh.PolicyInput
import LocusMesh.Loading
import LocusMesh.Reordering

/-! Policies in YAML files: a file whose document stands for the fields of a policy, in any order
and with aliases for any parts, is decided on as the policy would be in memory. -/
namespace LocusMesh

open AwareClock CanonicalJson PyCollections PyText PyJson PyYaml Fallible

/-- `AdmissionPolicy.model_validate(data)`, for data that JSON could hold as well. -/
def AdmissionPolicy.validateYaml {κ : Type} (leaf : κ → Option Leaf) (p : Pydantic)
    (other : Option (YamlData κ) → Except PyError (Validated (AdmissionPolicy FixedTime)))
    (data : Option (YamlData κ)) : Except PyError (Validated (AdmissionPolicy FixedTime)) :=
  match (data.bind YamlData.tree).bind (treeValue leaf) with
  | some v => modelValidate p (AdmissionPolicy.parse p) v
  | none => other data

section Validation

variable {p : Pydantic} {plat : Platform}

/-- The loaded policy is the one shown, in any order of its floors. -/
theorem AdmissionPolicy.validate_shows (policy : Validated (AdmissionPolicy FixedTime))
    (hcounts : p.ReadsCounts) (h : ∀ u ∈ policy.val.topology.times, p.ReadsTime plat u) {v : Value}
    (hv : Shows (policy.val.dump plat) v) : ∃ loaded,
      modelValidate p (AdmissionPolicy.parse p) v = .ok loaded ∧
      SamePolicy loaded.val policy.val := by
  obtain ⟨hpositive,hhops,htopology,hversion,hcovers⟩ := AdmissionPolicy.check_ok.mp policy.accepted
  obtain ⟨floors,hparse,hsame⟩ := AdmissionPolicy.parse_shows hcounts hhops h hv
  have haccepted : Contract.check {policy.val with minimumEvidence := floors} = .ok () := by
    refine AdmissionPolicy.check_ok.mpr ⟨hpositive,hhops,htopology,hversion,?_⟩
    intro intent hintent
    rw [AdmissionPolicy.floor,hsame]
    exact hcovers intent hintent
  refine ⟨⟨_,haccepted⟩,modelValidate_parsed _ hparse,⟨rfl,fun _ => .rfl,rfl,hsame,?_⟩⟩
  exact ⟨rfl,rfl,rfl,rfl,rfl,fun _ => .rfl,fun _ => .rfl⟩

end Validation

section CommandLine

variable {σ : Type} (b : Backend FixedTime σ)

def Backend.holdingPolicy (policy : Validated (AdmissionPolicy FixedTime)) : Backend FixedTime σ :=
  {b with loadPolicy := fun _ => .ok policy}

variable {κ : Type} [DecidableEq κ] {compose : Text → Except PyError (Option Document)}
  {scalars : Scalars κ PyError}
  {validate : Option (YamlData κ) → Except PyError (Validated (AdmissionPolicy FixedTime))}
  {limit : ℕ} {files : Path → File} {policyFile : Path}
  {loaded policy : Validated (AdmissionPolicy FixedTime)}
  (hload : loadYamlModel compose scalars validate limit (files policyFile) = .ok loaded)
  (hsame : SamePolicy loaded.val policy.val)

include hload hsame

theorem admitDecision_samePolicy (plan : Path) :
    admitDecision (b.readingPolicies compose scalars validate limit files) policyFile plan =
      admitDecision (b.holdingPolicy policy) policyFile plan := by
  simp only [admitDecision,Backend.readingPolicies,Backend.holdingPolicy,hload,bind,Except.bind,
    hsame.admitPlan]

theorem verifyDecision_samePolicy (attestation : Path) (nonceStore : Option Path) :
    verifyDecision (b.readingPolicies compose scalars validate limit files) policyFile attestation
        nonceStore =
      verifyDecision (b.holdingPolicy policy) policyFile attestation nonceStore := by
  simp only [verifyDecision,Backend.readingPolicies,Backend.holdingPolicy,hload,bind,Except.bind,
    verify,hsame.verifyAttestation]

end CommandLine

/-- A policy file decides as the policy in memory does, as soon as its document means what the
policy holds: with fields, intents, floors, peers and edges in any order, aliases for any parts,
and however the scalars are written. -/
theorem yaml_policy_decided {σ κ : Type} [DecidableEq κ] (b : Backend FixedTime σ) (p : Pydantic)
    (compose : Text → Except PyError (Option Document)) (scalars : Scalars κ PyError)
    (leaf : κ → Option Leaf)
    (other : Option (YamlData κ) → Except PyError (Validated (AdmissionPolicy FixedTime)))
    (limit : ℕ) (files : Path → File) (hcounts : p.ReadsCounts) (policyFile : Path)
    (policy shown : Validated (AdmissionPolicy FixedTime)) (hsame : SamePolicy shown.val policy.val)
    (htimes : ∀ u ∈ shown.val.topology.times, p.ReadsTime b.plat u) (text : Text) (d : Document)
    (t : PyYaml.Tree κ) (v : Value) (htext : readBounded (files policyFile) = .ok text)
    (hcompose : compose text = .ok (some d)) (hmeans : Means scalars d.graph t d.root)
    (hlimit : t.depth < limit) (hvalue : treeValue leaf t = some v)
    (hshows : Shows (shown.val.dump b.plat) v) (json : Bool) :
    (∀ plan, main (b.readingPolicies compose scalars (AdmissionPolicy.validateYaml leaf p other)
        limit files) json (.admitPlan policyFile plan) =
      main (b.holdingPolicy policy) json (.admitPlan policyFile plan)) ∧
    ∀ attestation nonceStore, main (b.readingPolicies compose scalars
        (AdmissionPolicy.validateYaml leaf p other) limit files) json
          (.verify policyFile attestation nonceStore) =
      main (b.holdingPolicy policy) json (.verify policyFile attestation nonceStore) := by
  obtain ⟨data,hdata,htree⟩ := loadYamlData_means htext hcompose hmeans hlimit
  obtain ⟨loaded,hvalidate,hshown⟩ := AdmissionPolicy.validate_shows shown hcounts htimes hshows
  have hload : loadYamlModel compose scalars (AdmissionPolicy.validateYaml leaf p other) limit
      (files policyFile) = .ok loaded := by
    rw [loadYamlModel,hdata]
    simp only [bind,Except.bind,AdmissionPolicy.validateYaml,Option.bind_some,htree,hvalue]
    exact hvalidate
  constructor
  · intro plan
    have hadmission := admitDecision_samePolicy b hload (hshown.trans hsame) plan
    rw [main,run,hadmission]
    rfl
  · intro attestation nonceStore
    have hverification := verifyDecision_samePolicy b hload (hshown.trans hsame) attestation
      nonceStore
    rw [main,run,hverification]
    rfl

namespace Demo

def zeros : String := "0000000000000000000000000000000000000000000000000000000000000000"

def loneDigest : Digest := ⟨"sha256:" ++ zeros,by decide⟩

def lonePolicy : AdmissionPolicy FixedTime where
  schemaVersion := "locusmesh.admission-policy.v1"
  allowedIntents := ⟨[.privateMesh,.deviceOnly],by decide⟩
  maxHops := 1
  minimumEvidence := ⟨[(.privateMesh,.peerAsserted),(.deviceOnly,.observed)],by decide⟩
  topology :=
    {schemaVersion := "locusmesh.topology-snapshot.v1"
     snapshotId := ⟨"lone-topology-v1",by decide⟩
     localPeerId := deviceLocal
     capturedAt := minutes (-60)
     expiresAt := minutes 60
     peers := [
      {schemaVersion := "locusmesh.peer-manifest.v1"
       peerId := deviceLocal
       executionScope := .deviceOnly
       modelDigest := loneDigest
       runtimeDigest := loneDigest
       evidenceLevel := .peerAsserted
       keyId := ⟨"ed25519:sha256:" ++ zeros,by decide⟩
       publicKey := ⟨"AAAAAAAAAAAAAAAAAAAAAAAAAAAAAAAAAAAAAAAAAAA",by decide⟩
       validFrom := minutes (-1440)
       expiresAt := minutes 1440
       addressHint := none}]
     edges := []}

def loneValid : Validated (AdmissionPolicy FixedTime) := ⟨lonePolicy,by decide⟩

def loneDump : Json := lonePolicy.dump platform

def loneDocument : Document := treeDocument id (jsonTree (sortKeys loneDump))

theorem loneDump_size : (canonicalJsonBytes loneDump).length ≤ maxInputBytes :=
  (canonicalJsonBytes_bound loneDump).trans (by decide)

theorem lonePolicy_reads : ∀ u ∈ lonePolicy.topology.times, pydantic.ReadsTime platform u := by
  have htimes : lonePolicy.topology.times =
      [minutes (-60),minutes 60,minutes (-1440),minutes 1440] := rfl
  rw [htimes]
  simp only [List.forall_mem_cons,List.not_mem_nil,false_implies,implies_true,and_true]
  exact ⟨rfl,rfl,rfl,rfl⟩

end Demo

theorem yaml_policy_decided_demo :
    main (Demo.offline.readingPolicies (Demo.composing (dumps Demo.loneDump) Demo.loneDocument)
        writtenScalars (AdmissionPolicy.validateYaml writtenLeaf Demo.pydantic Demo.rejecting) 100
        fun _ => canonicalFile Demo.loneDump) true (.admitPlan "policy.yaml" "plan.json") =
      main (Demo.offline.holdingPolicy Demo.loneValid.reversed) true
        (.admitPlan "policy.yaml" "plan.json") := by
  have htame : Tame 4 Demo.loneDump := AdmissionPolicy.dump_tame (by decide)
  have hsorted : Distinct (sortKeys Demo.loneDump) := distinct_sortKeys htame.distinct
  have htext : readBounded (canonicalFile Demo.loneDump) = .ok (dumps Demo.loneDump).toList := by
    rw [readBounded,boundedText_canonical _ Demo.loneDump_size]
  have hmeans : Means writtenScalars Demo.loneDocument.graph (jsonTree (sortKeys Demo.loneDump))
      Demo.loneDocument.root := treeDocument_means (jsonTree_writes _ hsorted)
  have hdepth : (jsonTree (sortKeys Demo.loneDump)).depth < 100 := by
    have hdepth := jsonTree_depth (sortKeys Demo.loneDump)
    have hnesting := (nesting_sortKeys_le Demo.loneDump 4).mpr htame.nesting
    omega
  exact (yaml_policy_decided Demo.offline Demo.pydantic
    (Demo.composing (dumps Demo.loneDump) Demo.loneDocument) writtenScalars writtenLeaf
    Demo.rejecting 100 (fun _ => canonicalFile Demo.loneDump) Demo.pydantic_counts "policy.yaml"
    Demo.loneValid.reversed Demo.loneValid (samePolicy_reversed _) Demo.lonePolicy_reads _
    Demo.loneDocument _ _ htext (if_pos rfl) hmeans hdepth (jsonTree_value _)
    (shows_read htame.distinct) true).1 "plan.json"

end LocusMesh
