import Mathlib
import LocusMesh.Base64
import LocusMesh.Canonical
import LocusMesh.Exceptions

/-! Request commitments, and Ed25519 encoding, key binding and verification. -/
namespace LocusMesh

open CanonicalJson

def hmacSha256 (plat : Platform) (key message : List UInt8) : Vector UInt8 32 :=
  let key := if 64 < key.length then (plat.sha256 key).toList else key
  let block := key ++ List.replicate (64 - key.length) 0
  let inner := plat.sha256 (block.map (· ^^^ 0x36) ++ message)
  plat.sha256 (block.map (· ^^^ 0x5c) ++ inner.toList)

/-- A caller-keyed commitment resistant to low-entropy guessing. -/
def commitRequest (plat : Platform) (value : Json) (key : List UInt8) :
    Except PyError Commitment :=
  if key.length < 32 then
    .error (.valueError "commitment key must contain at least 32 bytes")
  else .ok (tagged "hmac-sha256:" (hmacSha256 plat key (canonicalJsonBytes value)))

def encodeBase64url (raw : List UInt8) : String := String.ofList (Base64.encode raw)

/-- Strictly decode canonical unpadded base64url with an exact size. -/
def decodeBase64url (value : String) (expectedLength : ℕ) : Except PyError (List UInt8) :=
  if '=' ∈ value.toList then .error (.valueError "base64url padding is not allowed")
  else match Base64.b64decode (value.toList ++ Base64.padding value.toList) with
    | none => .error (.valueError "invalid base64url value")
    | some raw =>
      if raw.length ≠ expectedLength ∨ encodeBase64url raw ≠ value then
        .error (.valueError "non-canonical or incorrectly sized base64url value")
      else .ok raw

/-- The re-encoding check cuts off everything the lenient decoder accepts beside the one
canonical spelling. -/
theorem decodeBase64url_ok_iff {value : String} {n : ℕ} {raw : List UInt8} :
    decodeBase64url value n = .ok raw ↔ raw.length = n ∧ value = encodeBase64url raw := by
  constructor
  · intro h
    unfold decodeBase64url at h
    split at h
    · cases h
    split at h
    · cases h
    split at h
    · cases h
    rename_i decoded _ hgood
    cases h
    rw [not_or,not_not,not_not] at hgood
    exact ⟨hgood.1,hgood.2.symm⟩
  · rintro ⟨hlen,rfl⟩
    have hpad : '=' ∉ (encodeBase64url raw).toList := by
      simpa [encodeBase64url] using Base64.pad_not_mem_encode raw
    have hdecode : Base64.b64decode ((encodeBase64url raw).toList ++
        Base64.padding (encodeBase64url raw).toList) = some raw := by
      simpa [encodeBase64url] using Base64.b64decode_encode raw
    simp [decodeBase64url,hpad,hdecode,hlen]

theorem decodeBase64url_ok_or (value : String) (n : ℕ) :
    (∃ raw, decodeBase64url value n = .ok raw) ∨
      ∃ message, decodeBase64url value n = .error (.valueError message) := by
  unfold decodeBase64url
  split
  · exact .inr ⟨_,rfl⟩
  split
  · exact .inr ⟨_,rfl⟩
  split
  · exact .inr ⟨_,rfl⟩
  · exact .inl ⟨_,rfl⟩

/-- Keys and signatures have one spelling: the decoder accepts the encoding of every byte
string of the expected size and nothing else, so that no two texts decode alike. -/
theorem base64url_one_spelling (value : String) (n : ℕ) :
    (∀ raw, decodeBase64url value n = .ok raw ↔ raw.length = n ∧ value = encodeBase64url raw) ∧
    ((∀ raw, ¬(raw.length = n ∧ value = encodeBase64url raw)) →
      ∃ message, decodeBase64url value n = .error (.valueError message)) ∧
    (∀ raw, decodeBase64url (encodeBase64url raw) raw.length = .ok raw) ∧
    (∀ raw, decodeBase64url value n = .ok raw → encodeBase64url raw = value) ∧
    ∀ other m raw, decodeBase64url value n = .ok raw → decodeBase64url other m = .ok raw →
      value = other := by
  refine ⟨fun raw => decodeBase64url_ok_iff,?_,?_,?_,?_⟩
  · intro hnone
    apply (decodeBase64url_ok_or value n).resolve_left
    rintro ⟨raw,h⟩
    exact hnone raw (decodeBase64url_ok_iff.mp h)
  · intro raw
    exact decodeBase64url_ok_iff.mpr ⟨rfl,rfl⟩
  · intro raw h
    exact (decodeBase64url_ok_iff.mp h).2.symm
  · intro other m raw h h'
    rw [(decodeBase64url_ok_iff.mp h).2,(decodeBase64url_ok_iff.mp h').2]

/-- The library decoder alone takes these three texts for the same byte. -/
example : Base64.b64decode ['-','w','=','='] = some [251] ∧
    Base64.b64decode ['+','w','=','='] = some [251] ∧
    Base64.b64decode ['-','x','=','='] = some [251] := by decide

theorem symbol_base64url : ∀ n < 64, (isAlnum (Base64.symbol n) || Base64.symbol n == '_' ||
    Base64.symbol n == '-') = true := by decide +kernel

theorem base64urlPattern_encode {raw : List UInt8} {n : ℕ} (h : (4 * raw.length + 2) / 3 = n) :
    base64urlPattern n (encodeBase64url raw) = true := by
  simp only [base64urlPattern,encodeBase64url,String.toList_ofList,Base64.encode_length,h,
    Bool.and_eq_true,List.all_eq_true]
  refine ⟨beq_self_eq_true n,fun c hc => ?_⟩
  obtain ⟨n,hn,rfl⟩ := Base64.mem_encode hc
  exact symbol_base64url n hn

section Keys

variable (plat : Platform)

/-- The only accepted key identifier of raw Ed25519 key bytes. -/
def deriveKeyId (publicKey : String) : Except PyError KeyId := do
  let raw ← decodeBase64url publicKey 32
  .ok (tagged "ed25519:sha256:" (plat.sha256 raw))

/-- Verify one canonical Ed25519 signature without raising on bad evidence. -/
def verifyEd25519 (publicKey : String) (payload : List UInt8) (signature : String) : Bool :=
  match decodeBase64url publicKey 32 with
  | .error _ => false
  | .ok rawKey =>
    match decodeBase64url signature 64 with
    | .error _ => false
    | .ok rawSignature =>
      match plat.ed25519Verify rawKey rawSignature payload with
      | .error _ => false
      | .ok _ => true

theorem deriveKeyId_encode {raw : List UInt8} (h : raw.length = 32) :
    deriveKeyId plat (encodeBase64url raw) = .ok (tagged "ed25519:sha256:" (plat.sha256 raw)) := by
  rw [deriveKeyId,decodeBase64url_ok_iff.mpr ⟨h,rfl⟩]
  rfl

theorem verifyEd25519_encode {key signature payload : List UInt8} (hkey : key.length = 32)
    (hsignature : signature.length = 64) :
    verifyEd25519 plat (encodeBase64url key) payload (encodeBase64url signature) = true ↔
      plat.ed25519Verify key signature payload = .ok () := by
  rw [verifyEd25519,decodeBase64url_ok_iff.mpr ⟨hkey,rfl⟩]
  simp only [decodeBase64url_ok_iff.mpr ⟨hsignature,rfl⟩]
  cases plat.ed25519Verify key signature payload <;> simp

theorem verifyEd25519_signature {publicKey signature : String} {payload : List UInt8}
    (h : verifyEd25519 plat publicKey payload signature = true) :
    ∃ raw : List UInt8, raw.length = 64 ∧ signature = encodeBase64url raw := by
  unfold verifyEd25519 at h
  split at h
  · cases h
  split at h
  · cases h
  · exact ⟨_,decodeBase64url_ok_iff.mp ‹_›⟩

end Keys

end LocusMesh
