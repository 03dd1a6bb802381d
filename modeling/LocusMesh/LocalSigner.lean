import Mathlib
import LocusMesh.Attestation

/-! The signer that holds its Ed25519 key in memory. -/
namespace LocusMesh

/-- An Ed25519 private key, as its raw public half and the signatures it makes. -/
structure Ed25519PrivateKey where
  publicBytes : List UInt8
  sign : List UInt8 → List UInt8
  publicBytes_length : publicBytes.length = 32
  sign_length : ∀ payload, (sign payload).length = 64

namespace LocalEd25519Signer

variable (plat : Platform) (privateKey : Ed25519PrivateKey)

def publicKey : PublicKey :=
  ⟨encodeBase64url privateKey.publicBytes,
    base64urlPattern_encode (by rw [privateKey.publicBytes_length])⟩

def keyId : KeyId := tagged "ed25519:sha256:" (plat.sha256 privateKey.publicBytes)

def create : Except PyError Signer := do
  let publicKey := encodeBase64url privateKey.publicBytes
  let keyId ← deriveKeyId plat publicKey
  .ok ⟨keyId.val,publicKey,fun payload => .ok (encodeBase64url (privateKey.sign payload))⟩

theorem deriveKeyId_publicKey :
    deriveKeyId plat (publicKey privateKey).val = .ok (keyId plat privateKey) :=
  deriveKeyId_encode plat privateKey.publicBytes_length

def signer : Signer where
  keyId := (keyId plat privateKey).val
  publicKey := (publicKey privateKey).val
  sign payload := .ok (encodeBase64url (privateKey.sign payload))

theorem create_eq : create plat privateKey = .ok (signer plat privateKey) := by
  have h := deriveKeyId_publicKey plat privateKey
  rw [publicKey] at h
  rw [create]
  simp only [h]
  rfl

theorem verify_sign {payload : List UInt8} (h : plat.ed25519Verify privateKey.publicBytes
    (privateKey.sign payload) payload = .ok ()) :
    verifyEd25519 plat (publicKey privateKey).val payload
      (encodeBase64url (privateKey.sign payload)) = true :=
  (verifyEd25519_encode plat privateKey.publicBytes_length (privateKey.sign_length payload)).mpr h

end LocalEd25519Signer

end LocusMesh
