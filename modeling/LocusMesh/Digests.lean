import Mathlib
import LocusMesh.Admission

/-! What the digests identify. A body is compared as rendered: every datetime counts as its
local time and offset. -/
namespace LocusMesh

open CanonicalJson PyCollections AwareClock

section Rendered

variable {τ : Type} [AwareDatetime τ] (plat : Platform)

def PeerManifest.rendered (m : PeerManifest τ) : PeerManifest FixedTime :=
  {m with validFrom := stamp m.validFrom, expiresAt := stamp m.expiresAt}

def TopologySnapshot.rendered (t : TopologySnapshot τ) : TopologySnapshot FixedTime :=
  {t with
    capturedAt := stamp t.capturedAt
    expiresAt := stamp t.expiresAt
    peers := t.peers.map PeerManifest.rendered}

def AdmissionPolicy.rendered (policy : AdmissionPolicy τ) : AdmissionPolicy FixedTime :=
  {policy with topology := policy.topology.rendered}

def RoutePlan.rendered (p : RoutePlan τ) : RoutePlan FixedTime :=
  {p with createdAt := stamp p.createdAt, expiresAt := stamp p.expiresAt}

def HopReceipt.rendered (r : HopReceipt τ) : HopReceipt FixedTime :=
  {r with observedAt := stamp r.observedAt}

@[simp] theorem PeerManifest.rendered_fixed (m : PeerManifest FixedTime) : m.rendered = m := rfl

@[simp] theorem RoutePlan.rendered_fixed (p : RoutePlan FixedTime) : p.rendered = p := rfl

@[simp] theorem HopReceipt.rendered_fixed (r : HopReceipt FixedTime) : r.rendered = r := rfl

theorem TopologySnapshot.digestBody_rendered (t : TopologySnapshot τ) :
    t.rendered.digestBody plat = t.digestBody plat := by
  have hpeers : (sortedBy (fun peer => peer.peerId.val) t.rendered.peers).map
      (PeerManifest.dump plat) =
      (sortedBy (fun peer => peer.peerId.val) t.peers).map (PeerManifest.dump plat) := by
    show (sortedBy _ (t.peers.map PeerManifest.rendered)).map _ = _
    rw [← map_sortedBy PeerManifest.rendered (fun _ => rfl),List.map_map]
    rfl
  rw [digestBody,hpeers]
  rfl

theorem topologyDigest_rendered (t : TopologySnapshot τ) :
    topologyDigest plat t.rendered = topologyDigest plat t := by
  rw [topologyDigest,topologyDigest,t.digestBody_rendered]

theorem AdmissionPolicy.digestBody_rendered (policy : AdmissionPolicy τ) :
    policy.rendered.digestBody plat = policy.digestBody plat := by
  have htopology := topologyDigest_rendered plat policy.topology
  rw [digestBody,digestBody]
  show Json.obj [_,_,_,_,(_,text (topologyDigest plat policy.topology.rendered))] = _
  rw [htopology]
  rfl

end Rendered

section Leaves

theorem sortKeys_str {a b : String} : sortKeys (.str a) = sortKeys (.str b) ↔ a = b := by
  simp [sortKeys]

theorem sortKeys_int {a b : ℤ} : sortKeys (.int a) = sortKeys (.int b) ↔ a = b := by
  simp [sortKeys]

theorem sortKeys_text {p : String → Prop} {a b : {s : String // p s}} :
    sortKeys (text a) = sortKeys (text b) ↔ a = b := by
  simp [text,sortKeys,Subtype.ext_iff]

theorem sortKeys_optional {p : String → Prop} {a b : Option {s : String // p s}} :
    sortKeys (optional text a) = sortKeys (optional text b) ↔ a = b := by
  cases a <;> cases b <;> simp [optional,text,sortKeys,Subtype.ext_iff]

theorem sortKeys_timestamp {plat : Platform} (hf : plat.FaithfulTimes) {a b : FixedTime} :
    sortKeys (timestamp plat a) = sortKeys (timestamp plat b) ↔ a = b := by
  simp only [timestamp,stamp_fixed,sortKeys_str]
  exact hf.datetimeJson.eq_iff

theorem sortKeys_arr {α : Type} {dump : α → Json}
    (hdump : ∀ a b, sortKeys (dump a) = sortKeys (dump b) ↔ a = b) {l m : List α} :
    sortKeys (.arr (l.map dump)) = sortKeys (.arr (m.map dump)) ↔ l = m := by
  have hinj : Function.Injective fun a => sortKeys (dump a) := fun a b h => (hdump a b).mp h
  simp only [sortKeys,Json.arr.injEq,sortItems_eq_map,List.map_map]
  exact (List.map_injective_iff.mpr hinj).eq_iff

end Leaves

section Contents

variable {plat : Platform} (hf : plat.FaithfulTimes)

include hf

theorem PeerManifest.dump_inj (m n : PeerManifest FixedTime) :
    sortKeys (m.dump plat) = sortKeys (n.dump plat) ↔ m = n := by
  rw [PeerManifest.dump,PeerManifest.dump,sortKeys_record (by rfl) (by simp),PeerManifest.ext_iff]
  simp only [sortEntries,List.cons.injEq,Prod.mk.injEq,true_and,and_true,sortKeys_str,
    sortKeys_text,sortKeys_optional,sortKeys_timestamp hf,ExecutionIntent.value_injective.eq_iff,
    EvidenceLevel.value_injective.eq_iff]

theorem RoutePlan.dump_inj (p q : RoutePlan FixedTime) :
    sortKeys (p.dump plat) = sortKeys (q.dump plat) ↔ p = q := by
  rw [RoutePlan.dump,RoutePlan.dump,sortKeys_record (by rfl) (by simp),RoutePlan.ext_iff]
  simp only [sortEntries,List.cons.injEq,Prod.mk.injEq,true_and,and_true,sortKeys_str,
    sortKeys_text,sortKeys_timestamp hf,ExecutionIntent.value_injective.eq_iff,
    sortKeys_arr (fun _ _ => sortKeys_text)]

theorem HopReceipt.dump_inj (r s : HopReceipt FixedTime) :
    sortKeys (r.dump plat) = sortKeys (s.dump plat) ↔ r = s := by
  rw [HopReceipt.dump,HopReceipt.dump,sortKeys_record (by rfl) (by simp [signingPayload]),
    HopReceipt.ext_iff]
  simp only [signingPayload,List.cons_append,List.nil_append,sortEntries,List.cons.injEq,
    Prod.mk.injEq,true_and,and_true,sortKeys_str,sortKeys_text,sortKeys_optional,
    sortKeys_timestamp hf,sortKeys_int,Int.natCast_inj,ExecutionIntent.value_injective.eq_iff,
    EvidenceLevel.value_injective.eq_iff]

omit hf in
theorem TopologyEdge.dump_inj (e f : TopologyEdge) :
    sortKeys e.dump = sortKeys f.dump ↔ e = f := by
  rw [TopologyEdge.dump,TopologyEdge.dump,sortKeys_record (by rfl) (by simp),TopologyEdge.ext_iff]
  simp only [sortEntries,List.cons.injEq,Prod.mk.injEq,true_and,and_true,sortKeys_str,
    sortKeys_text]

end Contents

section SameContents

variable {τ : Type}

/-- Equal scalars, and the same peers and edges in any order. -/
structure SameTopology (t u : TopologySnapshot τ) : Prop where
  schemaVersion : t.schemaVersion = u.schemaVersion
  snapshotId : t.snapshotId = u.snapshotId
  localPeerId : t.localPeerId = u.localPeerId
  capturedAt : t.capturedAt = u.capturedAt
  expiresAt : t.expiresAt = u.expiresAt
  peers : ∀ m, m ∈ t.peers ↔ m ∈ u.peers
  edges : ∀ e, e ∈ t.edges ↔ e ∈ u.edges

/-- Equal scalars, and the same intents, floors and topology in any order. -/
structure SamePolicy (p q : AdmissionPolicy τ) : Prop where
  schemaVersion : p.schemaVersion = q.schemaVersion
  allowedIntents : ∀ intent, intent ∈ p.allowedIntents.val ↔ intent ∈ q.allowedIntents.val
  maxHops : p.maxHops = q.maxHops
  minimumEvidence : ∀ intent, p.floor intent = q.floor intent
  topology : SameTopology p.topology q.topology

theorem peerKeys_nodup {t : TopologySnapshot τ} (h : t.peerIds.Nodup) :
    (t.peers.map fun peer => peer.peerId.val).Nodup := by
  have hkeys := h.map Subtype.val_injective
  rwa [TopologySnapshot.peerIds,List.map_map] at hkeys

theorem edgeKeys_nodup {t : TopologySnapshot τ} (h : t.edgePairs.Nodup) :
    (t.edges.map TopologyEdge.sortKey).Nodup := by
  have hinj : Function.Injective fun e : PeerId × PeerId => toLex (e.1.val,e.2.val) := by
    rintro ⟨s,t⟩ ⟨s',t'⟩ he
    have hpair : (s.val,t.val) = (s'.val,t'.val) := he
    rw [Prod.mk.injEq] at hpair
    exact Prod.ext (Subtype.ext hpair.1) (Subtype.ext hpair.2)
  have hkeys := h.map hinj
  rwa [TopologySnapshot.edgePairs,List.map_map] at hkeys

end SameContents

section Intents

theorem intents_eq_iff {l m : List ExecutionIntent} (hl : l.Nodup) (hm : m.Nodup) :
    sortKeys (.arr ((sortedBy id (l.map ExecutionIntent.value)).map .str)) =
        sortKeys (.arr ((sortedBy id (m.map ExecutionIntent.value)).map .str)) ↔
      ∀ intent, intent ∈ l ↔ intent ∈ m := by
  have hvalues : ∀ {n : List ExecutionIntent}, n.Nodup →
      ((n.map ExecutionIntent.value).map id).Nodup := by
    intro n hn
    rw [List.map_id]
    exact hn.map ExecutionIntent.value_injective
  rw [sortKeys_arr (fun _ _ => sortKeys_str),sortedBy_eq_iff (hvalues hl) (hvalues hm)]
  constructor
  · intro h intent
    rw [← List.mem_map_of_injective ExecutionIntent.value_injective,h,
      List.mem_map_of_injective ExecutionIntent.value_injective]
  · intro h value
    simp only [List.mem_map,h]

def evidenceEntry (entry : ExecutionIntent × EvidenceLevel) : String × Json :=
  (entry.1.value,.str entry.2.value)

theorem evidenceEntry_injective : Function.Injective evidenceEntry := by
  rintro ⟨i,l⟩ ⟨i',l'⟩ h
  simp only [evidenceEntry,Prod.mk.injEq,Json.str.injEq] at h
  rw [ExecutionIntent.value_injective h.1,EvidenceLevel.value_injective h.2]

theorem sortEntries_evidence (l : List (ExecutionIntent × EvidenceLevel)) :
    sortEntries (l.map evidenceEntry) = l.map evidenceEntry := by
  rw [sortEntries_eq_map,List.map_map]
  apply List.map_congr_left
  intro entry _
  simp [evidenceEntry,sortKeys]

theorem evidence_eq_iff {l m : List (ExecutionIntent × EvidenceLevel)}
    (hl : (l.map Prod.fst).Nodup) (hm : (m.map Prod.fst).Nodup) :
    sortKeys (.obj ((sortedBy (fun entry => entry.1.value) l).map evidenceEntry)) =
        sortKeys (.obj ((sortedBy (fun entry => entry.1.value) m).map evidenceEntry)) ↔
      ∀ intent, l.lookup intent = m.lookup intent := by
  rw [← perm_iff_lookup hl hm]
  constructor
  · intro h
    simp only [sortKeys,Json.obj.injEq,sortEntries_evidence] at h
    have hperm := (sortedBy_perm Prod.fst
      ((sortedBy (fun entry => entry.1.value) l).map evidenceEntry)).symm
    rw [h] at hperm
    have hsorted := hperm.trans (sortedBy_perm _ _)
    rw [List.map_perm_map_iff evidenceEntry_injective] at hsorted
    exact ((sortedBy_perm _ l).symm.trans hsorted).trans (sortedBy_perm _ m)
  · intro h
    have hkeys : (l.map fun entry => entry.1.value).Nodup := by
      have hvalues := hl.map ExecutionIntent.value_injective
      rwa [List.map_map] at hvalues
    rw [sortedBy_eq_of_perm h hkeys]

end Intents

section Bodies

variable {plat : Platform} (hf : plat.FaithfulTimes)

include hf

theorem topologyBody_eq_iff {t u : TopologySnapshot FixedTime} (ht : t.peerIds.Nodup)
    (hte : t.edgePairs.Nodup) (hu : u.peerIds.Nodup) (hue : u.edgePairs.Nodup) :
    sortKeys (t.digestBody plat) = sortKeys (u.digestBody plat) ↔ SameTopology t u := by
  have hpeers := sortedBy_eq_iff (peerKeys_nodup ht) (peerKeys_nodup hu)
  have hedges := sortedBy_eq_iff (edgeKeys_nodup hte) (edgeKeys_nodup hue)
  rw [TopologySnapshot.digestBody,TopologySnapshot.digestBody,
    sortKeys_record (by rfl) (by simp)]
  simp only [sortEntries,List.cons.injEq,Prod.mk.injEq,true_and,and_true,sortKeys_str,
    sortKeys_text,stamp_fixed,hf.isoformat.eq_iff,sortKeys_arr (PeerManifest.dump_inj hf),
    sortKeys_arr TopologyEdge.dump_inj,hpeers,hedges]
  constructor
  · rintro ⟨h1,h2,h3,h4,h5,h6,h7⟩
    exact ⟨h1,h2,h3,h4,h5,h6,h7⟩
  · rintro ⟨h1,h2,h3,h4,h5,h6,h7⟩
    exact ⟨h1,h2,h3,h4,h5,h6,h7⟩

omit hf in
theorem policyBody_eq_iff {p q : AdmissionPolicy FixedTime} :
    sortKeys (p.digestBody plat) = sortKeys (q.digestBody plat) ↔
      p.schemaVersion = q.schemaVersion ∧
      (∀ intent, intent ∈ p.allowedIntents.val ↔ intent ∈ q.allowedIntents.val) ∧
      p.maxHops = q.maxHops ∧ (∀ intent, p.floor intent = q.floor intent) ∧
      topologyDigest plat p.topology = topologyDigest plat q.topology := by
  have hintents := intents_eq_iff p.allowedIntents.property q.allowedIntents.property
  have hevidence := evidence_eq_iff p.minimumEvidence.property q.minimumEvidence.property
  unfold evidenceEntry at hevidence
  rw [AdmissionPolicy.digestBody,AdmissionPolicy.digestBody,
    sortKeys_record (by simp only [List.map_cons,List.map_nil]) (by simp)]
  simp only [sortEntries,List.cons.injEq,Prod.mk.injEq,true_and,and_true,sortKeys_str,
    sortKeys_text,sortKeys_int,Int.natCast_inj,hintents,hevidence,AdmissionPolicy.floor]

end Bodies

section Identify

variable {τ : Type} [AwareDatetime τ] {plat : Platform}

theorem sha256Digest_eq_iff {v w : Json}
    (hc : CollisionFree plat {canonicalJsonBytes v,canonicalJsonBytes w}) :
    sha256Digest plat v = sha256Digest plat w ↔ sortKeys v = sortKeys w :=
  ⟨sha256Digest_inj hc (by simp) (by simp),sha256Digest_congr⟩

omit [AwareDatetime τ] in
theorem rendered_peerIds [AwareDatetime τ] (t : TopologySnapshot τ) :
    t.rendered.peerIds = t.peerIds := by
  show (t.peers.map PeerManifest.rendered).map PeerManifest.peerId = _
  rw [List.map_map]
  rfl

theorem topologyDigest_eq_iff (hf : plat.FaithfulTimes) (t u : Validated (TopologySnapshot τ))
    (hc : CollisionFree plat {canonicalJsonBytes (t.val.digestBody plat),
      canonicalJsonBytes (u.val.digestBody plat)}) :
    topologyDigest plat t.val = topologyDigest plat u.val ↔
      SameTopology t.val.rendered u.val.rendered := by
  have ht : t.val.rendered.peerIds.Nodup := by
    rw [rendered_peerIds]
    exact t.peerIds_nodup
  have hu : u.val.rendered.peerIds.Nodup := by
    rw [rendered_peerIds]
    exact u.peerIds_nodup
  rw [topologyDigest,topologyDigest,sha256Digest_eq_iff hc,← t.val.digestBody_rendered,
    ← u.val.digestBody_rendered]
  exact topologyBody_eq_iff hf ht t.edgePairs_nodup hu u.edgePairs_nodup

theorem policyDigest_eq_iff (hf : plat.FaithfulTimes) (p q : Validated (AdmissionPolicy τ))
    (hc : CollisionFree plat {canonicalJsonBytes (p.val.digestBody plat),
      canonicalJsonBytes (q.val.digestBody plat)})
    (hct : CollisionFree plat {canonicalJsonBytes (p.val.topology.digestBody plat),
      canonicalJsonBytes (q.val.topology.digestBody plat)}) :
    policyDigest plat p.val = policyDigest plat q.val ↔ SamePolicy p.val.rendered q.val.rendered := by
  have htopology : topologyDigest plat p.val.rendered.topology =
      topologyDigest plat q.val.rendered.topology ↔
      SameTopology p.val.rendered.topology q.val.rendered.topology := by
    show topologyDigest plat p.val.topology.rendered = topologyDigest plat q.val.topology.rendered
      ↔ _
    rw [topologyDigest_rendered,topologyDigest_rendered]
    exact topologyDigest_eq_iff hf p.topology q.topology hct
  rw [policyDigest,policyDigest,sha256Digest_eq_iff hc,← p.val.digestBody_rendered,
    ← q.val.digestBody_rendered,policyBody_eq_iff,htopology]
  constructor
  · rintro ⟨h1,h2,h3,h4,h5⟩
    exact ⟨h1,h2,h3,h4,h5⟩
  · rintro ⟨h1,h2,h3,h4,h5⟩
    exact ⟨h1,h2,h3,h4,h5⟩

end Identify

end LocusMesh
