import Mathlib

/-! SHA-256 over byte lists. Words are natural numbers below `2^32`. -/
namespace Sha256

def modulus : ℕ := 4294967296

def rotr (x n : ℕ) : ℕ := (x >>> n) ||| ((x <<< (32 - n)) % modulus)

def k : List ℕ :=
  [0x428a2f98,0x71374491,0xb5c0fbcf,0xe9b5dba5,0x3956c25b,0x59f111f1,0x923f82a4,0xab1c5ed5,
   0xd807aa98,0x12835b01,0x243185be,0x550c7dc3,0x72be5d74,0x80deb1fe,0x9bdc06a7,0xc19bf174,
   0xe49b69c1,0xefbe4786,0x0fc19dc6,0x240ca1cc,0x2de92c6f,0x4a7484aa,0x5cb0a9dc,0x76f988da,
   0x983e5152,0xa831c66d,0xb00327c8,0xbf597fc7,0xc6e00bf3,0xd5a79147,0x06ca6351,0x14292967,
   0x27b70a85,0x2e1b2138,0x4d2c6dfc,0x53380d13,0x650a7354,0x766a0abb,0x81c2c92e,0x92722c85,
   0xa2bfe8a1,0xa81a664b,0xc24b8b70,0xc76c51a3,0xd192e819,0xd6990624,0xf40e3585,0x106aa070,
   0x19a4c116,0x1e376c08,0x2748774c,0x34b0bcb5,0x391c0cb3,0x4ed8aa4a,0x5b9cca4f,0x682e6ff3,
   0x748f82ee,0x78a5636f,0x84c87814,0x8cc70208,0x90befffa,0xa4506ceb,0xbef9a3f7,0xc67178f2]

/-- The message schedule, from a window of its last sixteen words. -/
def schedule : ℕ → List ℕ → List ℕ
  | 0, window => window
  | _ + 1, [] => []
  | n + 1, w0 :: rest =>
    let w1 := rest.getD 0 0
    let w9 := rest.getD 8 0
    let w14 := rest.getD 13 0
    let s0 := rotr w1 7 ^^^ rotr w1 18 ^^^ (w1 >>> 3)
    let s1 := rotr w14 17 ^^^ rotr w14 19 ^^^ (w14 >>> 10)
    w0 :: schedule n (rest ++ [(w0 + s0 + w9 + s1) % modulus])

structure Chain where
  a : ℕ
  b : ℕ
  c : ℕ
  d : ℕ
  e : ℕ
  f : ℕ
  g : ℕ
  h : ℕ

def start : Chain :=
  ⟨0x6a09e667,0xbb67ae85,0x3c6ef372,0xa54ff53a,0x510e527f,0x9b05688c,0x1f83d9ab,0x5be0cd19⟩

def round (s : Chain) (kw : ℕ) : Chain :=
  let s1 := rotr s.e 6 ^^^ rotr s.e 11 ^^^ rotr s.e 25
  let ch := (s.e &&& s.f) ^^^ ((modulus - 1 - s.e) &&& s.g)
  let t1 := s.h + s1 + ch + kw
  let s0 := rotr s.a 2 ^^^ rotr s.a 13 ^^^ rotr s.a 22
  let maj := (s.a &&& s.b) ^^^ (s.a &&& s.c) ^^^ (s.b &&& s.c)
  ⟨(t1 + s0 + maj) % modulus,s.a,s.b,s.c,(s.d + t1) % modulus,s.e,s.f,s.g⟩

def compress (s : Chain) (block : List ℕ) : Chain :=
  let r := (List.zipWith (· + ·) k (schedule 48 block)).foldl round s
  ⟨(s.a + r.a) % modulus,(s.b + r.b) % modulus,(s.c + r.c) % modulus,(s.d + r.d) % modulus,
   (s.e + r.e) % modulus,(s.f + r.f) % modulus,(s.g + r.g) % modulus,(s.h + r.h) % modulus⟩

def bigEndian (size n : ℕ) : List UInt8 :=
  (List.range size).map fun i => UInt8.ofNat (n >>> (8 * (size - 1 - i)))

def pad (m : List UInt8) : List UInt8 :=
  m ++ 0x80 :: List.replicate ((119 - m.length % 64) % 64) 0 ++ bigEndian 8 (8 * m.length)

theorem bigEndian_length (size n : ℕ) : (bigEndian size n).length = size := by simp [bigEndian]

theorem pad_length (m : List UInt8) : 64 ∣ (pad m).length := by
  simp only [pad,List.length_append,List.length_cons,List.length_replicate,bigEndian_length]
  omega

def words : List UInt8 → List ℕ
  | a :: b :: c :: d :: rest =>
    (((a.toNat * 256 + b.toNat) * 256 + c.toNat) * 256 + d.toNat) :: words rest
  | _ => []

def blocks (message : List ℕ) : List (List ℕ) :=
  (List.range (message.length / 16)).map fun i => (message.drop (16 * i)).take 16

def sha256 (m : List UInt8) : Vector UInt8 32 :=
  let s := (blocks (words (pad m))).foldl compress start
  let digest := [s.a,s.b,s.c,s.d,s.e,s.f,s.g,s.h].flatMap (bigEndian 4)
  Vector.ofFn fun i => digest.getD i.val 0

end Sha256
