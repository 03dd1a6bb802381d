import Mathlib

/-! HMAC over an arbitrary hash function of `n` bytes and an arbitrary block size, and what it
binds: where the hash function does not collide on the inputs concerned, a tag determines the
message and the block of the key. -/
namespace Hmac

section Definitions

variable {n : ℕ} (hash : List UInt8 → Vector UInt8 n) (blockSize : ℕ)

def shorten (key : List UInt8) : List UInt8 :=
  if blockSize < key.length then (hash key).toList else key

def block (key : List UInt8) : List UInt8 :=
  shorten hash blockSize key ++
    List.replicate (blockSize - (shorten hash blockSize key).length) 0

def inner (key message : List UInt8) : List UInt8 :=
  (block hash blockSize key).map (· ^^^ 0x36) ++ message

def outer (key message : List UInt8) : List UInt8 :=
  (block hash blockSize key).map (· ^^^ 0x5c) ++ (hash (inner hash blockSize key message)).toList

def hmac (key message : List UInt8) : Vector UInt8 n := hash (outer hash blockSize key message)

end Definitions

section Blocks

variable {n : ℕ} {hash : List UInt8 → Vector UInt8 n} {blockSize : ℕ}

theorem shorten_length_le (hsize : n ≤ blockSize) (key : List UInt8) :
    (shorten hash blockSize key).length ≤ blockSize := by
  by_cases hlong : blockSize < key.length
  · simpa [shorten,hlong] using hsize
  · rw [shorten,if_neg hlong]
    exact Nat.not_lt.mp hlong

theorem block_length (hsize : n ≤ blockSize) (key : List UInt8) :
    (block hash blockSize key).length = blockSize := by
  have hle : (shorten hash blockSize key).length ≤ blockSize := shorten_length_le hsize key
  rw [block,List.length_append,List.length_replicate]
  omega

theorem block_of_le {key : List UInt8} (h : key.length ≤ blockSize) :
    block hash blockSize key = key ++ List.replicate (blockSize - key.length) 0 := by
  rw [block,shorten,if_neg (Nat.not_lt.mpr h)]

/-- Two keys that fit into a block have the same block exactly when the longer one is the other
filled up with zeros. -/
theorem block_eq_iff {key key' : List UInt8} (hle : key.length ≤ key'.length)
    (hfit : key'.length ≤ blockSize) :
    block hash blockSize key = block hash blockSize key' ↔
      key' = key ++ List.replicate (key'.length - key.length) 0 := by
  have hsplit : List.replicate (blockSize - key.length) (0 : UInt8) =
      List.replicate (key'.length - key.length) 0 ++
        List.replicate (blockSize - key'.length) 0 := by
    rw [List.replicate_append_replicate]
    congr 1
    omega
  rw [block_of_le (hle.trans hfit),block_of_le hfit,hsplit,← List.append_assoc]
  constructor
  · intro h
    exact (List.append_cancel_right h).symm
  · intro h
    rw [← h]

/-- Keys of one length have one block only if they are the same, unless they collide. -/
theorem block_injective {key key' : List UInt8} (hlength : key.length = key'.length)
    (hinj : blockSize < key.length → Set.InjOn hash {key,key'})
    (h : block hash blockSize key = block hash blockSize key') : key = key' := by
  by_cases hlong : blockSize < key.length
  · rw [block,block,shorten,shorten,if_pos hlong,if_pos (hlength ▸ hlong),Vector.length_toList,
      Vector.length_toList] at h
    exact hinj hlong (by simp) (by simp) (Vector.toList_inj.mp (List.append_cancel_right h))
  · have hfit := Nat.not_lt.mp hlong
    have hkey := (block_eq_iff hlength.le (hlength ▸ hfit)).mp h
    rw [hlength,Nat.sub_self,List.replicate_zero,List.append_nil] at hkey
    exact hkey.symm

end Blocks

section Tags

variable {n : ℕ} {hash : List UInt8 → Vector UInt8 n} {blockSize : ℕ}

theorem xor_injective (mask : UInt8) : Function.Injective (· ^^^ mask) := by
  intro a b h
  have hcancel := congrArg (· ^^^ mask) h
  simpa [UInt8.xor_assoc] using hcancel

/-- A masked block in front keeps both the block and what follows it. -/
theorem masked_append_inj (hsize : n ≤ blockSize) (mask : UInt8) {key key' rest rest' : List UInt8}
    (h : (block hash blockSize key).map (· ^^^ mask) ++ rest =
      (block hash blockSize key').map (· ^^^ mask) ++ rest') :
    block hash blockSize key = block hash blockSize key' ∧ rest = rest' := by
  have hlength : ((block hash blockSize key).map (· ^^^ mask)).length =
      ((block hash blockSize key').map (· ^^^ mask)).length := by
    rw [List.length_map,List.length_map,block_length hsize,block_length hsize]
  obtain ⟨hblock,hrest⟩ := List.append_inj h hlength
  exact ⟨List.map_injective_iff.mpr (xor_injective mask) hblock,hrest⟩

variable {key key' message message' : List UInt8}

theorem hmac_eq_iff (hsize : n ≤ blockSize)
    (hinner : Set.InjOn hash {inner hash blockSize key message,inner hash blockSize key' message'})
    (houter : Set.InjOn hash
      {outer hash blockSize key message,outer hash blockSize key' message'}) :
    hmac hash blockSize key message = hmac hash blockSize key' message' ↔
      block hash blockSize key = block hash blockSize key' ∧ message = message' := by
  constructor
  · intro h
    have hbytes := houter (by simp) (by simp) h
    obtain ⟨_,hhash⟩ := masked_append_inj hsize 0x5c hbytes
    have hrest := hinner (by simp) (by simp) (Vector.toList_inj.mp hhash)
    exact masked_append_inj hsize 0x36 hrest
  · rintro ⟨hblock,rfl⟩
    rw [hmac,hmac,outer,outer,inner,inner,hblock]

end Tags

end Hmac
