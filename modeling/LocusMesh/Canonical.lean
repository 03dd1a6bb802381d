import Mathlib
import LocusMesh.Json
import LocusMesh.Models

/-! Canonical serialization and digests: `model_dump(mode="json")` of every contract, the
canonical bytes of a JSON value, and the typed SHA-256 digest over them. -/
namespace LocusMesh

open CanonicalJson AwareClock

inductive Ed25519Failure
  | invalidSignature | valueError
  deriving DecidableEq

/-- What the program takes from its platform: SHA-256, the Ed25519 primitive, and the two
renderings of a timestamp, each of its local time and offset. -/
structure Platform where
  sha256 : List UInt8 → Vector UInt8 32
  /-- `Ed25519PublicKey.from_public_bytes(key).verify(signature, payload)`. -/
  ed25519Verify : (key signature payload : List UInt8) → Except Ed25519Failure Unit
  isoformat : FixedTime → String
  /-- The rendering of `model_dump(mode="json")`. -/
  datetimeJson : FixedTime → String

/-- Both renderings show the local time and the offset without loss. -/
structure Platform.FaithfulTimes (plat : Platform) : Prop where
  isoformat : Function.Injective plat.isoformat
  datetimeJson : Function.Injective plat.datetimeJson

def canonicalJsonBytes (v : Json) : List UInt8 := encodeUtf8 (dumps v)

/-- JSON values as Python holds them: no dict has two entries of one key. -/
abbrev JsonValue := {v : Json // Distinct v}

/-- Canonical bytes are injective: only the order of object entries is lost. -/
theorem canonicalJsonBytes_eq_iff (v w : JsonValue) :
    canonicalJsonBytes v.val = canonicalJsonBytes w.val ↔ SameValue v.val w.val := by
  rw [canonicalJsonBytes,canonicalJsonBytes]
  exact encode_dumps_eq_iff v.property

def hexByte (b : UInt8) : List Char :=
  [Nat.digitChar (b.toNat / 16),Nat.digitChar (b.toNat % 16)]

def hexdigest (raw : Vector UInt8 32) : List Char := raw.toList.flatMap hexByte

theorem hexByte_injective : Function.Injective hexByte := by
  intro a b h
  simp only [hexByte,List.cons.injEq,and_true] at h
  have ha := a.toNat_lt
  have hb := b.toNat_lt
  have hhi := hexValue_digitChar (a.toNat / 16) (by omega)
  have hlo := hexValue_digitChar (a.toNat % 16) (by omega)
  rw [h.1,hexValue_digitChar (b.toNat / 16) (by omega)] at hhi
  rw [h.2,hexValue_digitChar (b.toNat % 16) (by omega)] at hlo
  exact UInt8.toNat_inj.mp (by omega)

theorem flatMap_hexByte_injective {l m : List UInt8}
    (h : l.flatMap hexByte = m.flatMap hexByte) : l = m := by
  induction l generalizing m with
  | nil => cases m <;> simp_all [hexByte]
  | cons a l ih =>
    cases m with
    | nil => simp [hexByte] at h
    | cons b m =>
      obtain ⟨hhead,htail⟩ := List.append_inj h rfl
      rw [hexByte_injective hhead,ih htail]

theorem hexdigest_injective : Function.Injective hexdigest := by
  intro a b h
  exact Vector.toList_inj.mp (flatMap_hexByte_injective h)

theorem hexdigest_length (raw : Vector UInt8 32) : (hexdigest raw).length = 64 := by
  simp [hexdigest,List.length_flatMap,hexByte]

theorem digitChar_isLowerHex : ∀ d < 16, isLowerHex (Nat.digitChar d) = true := by decide

theorem hexdigest_isLowerHex (raw : Vector UInt8 32) :
    (hexdigest raw).all isLowerHex = true := by
  rw [List.all_eq_true]
  intro c hc
  obtain ⟨b,_,hc⟩ := List.mem_flatMap.mp hc
  have hb := b.toNat_lt
  simp only [hexByte,List.mem_cons,List.not_mem_nil,or_false] at hc
  rcases hc with rfl | rfl
  · exact digitChar_isLowerHex _ (by omega)
  · exact digitChar_isLowerHex _ (by omega)

theorem taggedHex_hexdigest (tag : String) (raw : Vector UInt8 32) :
    taggedHex tag (tag ++ String.ofList (hexdigest raw)) = true := by
  simp [taggedHex,String.toList_append,hexdigest_length,hexdigest_isLowerHex]

def tagged (tag : String) (raw : Vector UInt8 32) : {s : String // taggedHex tag s = true} :=
  ⟨tag ++ String.ofList (hexdigest raw),taggedHex_hexdigest tag raw⟩

theorem tagged_injective (tag : String) : Function.Injective (tagged tag) := by
  intro a b h
  have hs := congrArg String.toList (congrArg Subtype.val h)
  simp only [tagged,String.toList_append,String.toList_ofList,List.append_cancel_left_eq] at hs
  exact hexdigest_injective hs

def sha256Digest (plat : Platform) (v : Json) : Digest :=
  tagged "sha256:" (plat.sha256 (canonicalJsonBytes v))

/-- No two of the byte strings in `s` have the same SHA-256 digest. -/
def CollisionFree (plat : Platform) (s : Set (List UInt8)) : Prop := Set.InjOn plat.sha256 s

theorem sha256Digest_inj {plat : Platform} {s : Set (List UInt8)} (hs : CollisionFree plat s)
    {v w : Json} (hv : canonicalJsonBytes v ∈ s) (hw : canonicalJsonBytes w ∈ s)
    (h : sha256Digest plat v = sha256Digest plat w) : sortKeys v = sortKeys w :=
  dumps_injective (encodeUtf8_injective (hs hv hw (tagged_injective _ h)))

theorem sha256Digest_congr {plat : Platform} {v w : Json} (h : sortKeys v = sortKeys w) :
    sha256Digest plat v = sha256Digest plat w := by
  rw [sha256Digest,sha256Digest,canonicalJsonBytes,canonicalJsonBytes,dumps,dumps,h]

def optional {α : Type} (dump : α → Json) : Option α → Json
  | none => .null
  | some a => dump a

def text {p : String → Prop} (s : {s : String // p s}) : Json := .str s.val

def DecisionKind.value : DecisionKind → String
  | .planAdmission => "plan_admission"
  | .attestationVerification => "attestation_verification"

section Dumps

variable {τ : Type} [AwareDatetime τ] (plat : Platform)

def timestamp (t : τ) : Json := .str (plat.datetimeJson (stamp t))

def PeerManifest.dump (m : PeerManifest τ) : Json := .obj
  [("schema_version",.str m.schemaVersion),
   ("peer_id",text m.peerId),
   ("execution_scope",.str m.executionScope.value),
   ("model_digest",text m.modelDigest),
   ("runtime_digest",text m.runtimeDigest),
   ("evidence_level",.str m.evidenceLevel.value),
   ("key_id",text m.keyId),
   ("public_key",text m.publicKey),
   ("valid_from",timestamp plat m.validFrom),
   ("expires_at",timestamp plat m.expiresAt),
   ("address_hint",optional text m.addressHint)]

def TopologyEdge.dump (e : TopologyEdge) : Json := .obj
  [("schema_version",.str e.schemaVersion),
   ("source_peer_id",text e.sourcePeerId),
   ("target_peer_id",text e.targetPeerId)]

def RoutePlan.dump (p : RoutePlan τ) : Json := .obj
  [("schema_version",.str p.schemaVersion),
   ("request_id",text p.requestId),
   ("nonce",text p.nonce),
   ("request_commitment",text p.requestCommitment),
   ("intent",.str p.intent.value),
   ("model_digest",text p.modelDigest),
   ("runtime_digest",text p.runtimeDigest),
   ("hop_peer_ids",.arr (p.hopPeerIds.map text)),
   ("created_at",timestamp plat p.createdAt),
   ("expires_at",timestamp plat p.expiresAt)]

def HopReceipt.signingPayload (r : HopReceipt τ) : List (String × Json) :=
  [("schema_version",.str r.schemaVersion),
   ("request_id",text r.requestId),
   ("nonce",text r.nonce),
   ("request_commitment",text r.requestCommitment),
   ("route_plan_digest",text r.routePlanDigest),
   ("policy_digest",text r.policyDigest),
   ("topology_digest",text r.topologyDigest),
   ("intent",.str r.intent.value),
   ("hop_index",.int r.hopIndex),
   ("hop_count",.int r.hopCount),
   ("peer_id",text r.peerId),
   ("previous_peer_id",optional text r.previousPeerId),
   ("next_peer_id",optional text r.nextPeerId),
   ("previous_receipt_digest",optional text r.previousReceiptDigest),
   ("model_digest",text r.modelDigest),
   ("runtime_digest",text r.runtimeDigest),
   ("evidence_level",.str r.evidenceLevel.value),
   ("observed_at",timestamp plat r.observedAt),
   ("key_id",.str r.keyId),
   ("signature_algorithm",.str r.signatureAlgorithm)]

def HopReceipt.dump (r : HopReceipt τ) : Json :=
  .obj (r.signingPayload plat ++ [("signature",.str r.signature)])

def RouteAttestation.dump (a : RouteAttestation τ) : Json := .obj
  [("schema_version",.str a.schemaVersion),
   ("plan",a.plan.dump plat),
   ("receipts",.arr (a.receipts.map (HopReceipt.dump plat)))]

def AdmissionDecision.dump (d : AdmissionDecision τ) : Json := .obj
  [("schema_version",.str d.schemaVersion),
   ("decision_kind",.str d.decisionKind.value),
   ("admitted",.bool d.admitted),
   ("reason_codes",.arr (d.reasonCodes.map .str)),
   ("evaluated_at",timestamp plat d.evaluatedAt),
   ("checked_hops",.int d.checkedHops),
   ("route_digest",optional text d.routeDigest),
   ("attestation_digest",optional text d.attestationDigest),
   ("policy_digest",optional text d.policyDigest),
   ("topology_digest",optional text d.topologyDigest),
   ("requested_intent",optional (fun intent => .str intent.value) d.requestedIntent),
   ("effective_scope",optional (fun scope => .str scope.value) d.effectiveScope),
   ("required_evidence",optional (fun level => .str level.value) d.requiredEvidence),
   ("effective_evidence",optional (fun level => .str level.value) d.effectiveEvidence)]

end Dumps

end LocusMesh
