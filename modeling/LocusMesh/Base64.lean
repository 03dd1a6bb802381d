import Mathlib

/-! URL-safe base64 without padding, and the lenient library decoder that accepts the
standard alphabet and stray trailing bits besides. -/
namespace Base64

def alphabet : List Char :=
  "ABCDEFGHIJKLMNOPQRSTUVWXYZabcdefghijklmnopqrstuvwxyz0123456789-_".toList

def symbol (n : ℕ) : Char := alphabet.getD n 'A'

def encode : List UInt8 → List Char
  | [] => []
  | [a] => [symbol (a.toNat / 4),symbol (a.toNat % 4 * 16)]
  | [a,b] =>
    [symbol (a.toNat / 4),symbol (a.toNat % 4 * 16 + b.toNat / 16),symbol (b.toNat % 16 * 4)]
  | a :: b :: c :: r =>
    symbol (a.toNat / 4) :: symbol (a.toNat % 4 * 16 + b.toNat / 16) ::
      symbol (b.toNat % 16 * 4 + c.toNat / 64) :: symbol (c.toNat % 64) :: encode r

/-- One symbol of either alphabet: `altchars=b"-_"` is translated to `+/`, and `+/`
themselves stay valid. -/
def sextet (c : Char) : Option ℕ :=
  if 'A' ≤ c ∧ c ≤ 'Z' then some (c.toNat - 65)
  else if 'a' ≤ c ∧ c ≤ 'z' then some (c.toNat - 71)
  else if '0' ≤ c ∧ c ≤ '9' then some (c.toNat + 4)
  else if c = '+' ∨ c = '-' then some 62
  else if c = '/' ∨ c = '_' then some 63
  else none

/-- `b64decode(s, altchars=b"-_", validate=True)` on whole quads; `none` is its
`ValueError`. The unused low bits of a padded quad are not looked at. -/
def b64decode : List Char → Option (List UInt8)
  | [] => some []
  | a :: b :: c :: d :: r => do
    let x ← sextet a
    let y ← sextet b
    if d = '=' then
      if r ≠ [] then none
      else if c = '=' then some [UInt8.ofNat (x * 4 + y / 16)]
      else do
        let z ← sextet c
        some [UInt8.ofNat (x * 4 + y / 16),UInt8.ofNat (y % 16 * 16 + z / 4)]
    else do
      let z ← sextet c
      let w ← sextet d
      let rest ← b64decode r
      some (UInt8.ofNat (x * 4 + y / 16) :: UInt8.ofNat (y % 16 * 16 + z / 4) ::
        UInt8.ofNat (z % 4 * 64 + w) :: rest)
  | _ => none

def padding (s : List Char) : List Char := List.replicate ((4 - s.length % 4) % 4) '='

theorem sextet_symbol : ∀ n < 64, sextet (symbol n) = some n := by decide +kernel

theorem symbol_ne_pad : ∀ n < 64, symbol n ≠ '=' := by decide +kernel

theorem ofNat_eq {a : UInt8} {n : ℕ} (h : n = a.toNat) : UInt8.ofNat n = a := by
  rw [h,UInt8.ofNat_toNat]

theorem encode_length (raw : List UInt8) : (encode raw).length = (4 * raw.length + 2) / 3 := by
  fun_induction encode raw with
  | case1 => simp
  | case2 => simp
  | case3 => simp
  | case4 a b c r ih =>
    simp only [List.length_cons,ih]
    omega

theorem mem_encode {raw : List UInt8} {c : Char} (h : c ∈ encode raw) :
    ∃ n < 64, c = symbol n := by
  fun_induction encode raw with
  | case1 => simp at h
  | case2 a =>
    have ha := a.toNat_lt
    simp only [List.mem_cons,List.not_mem_nil,or_false] at h
    rcases h with h | h <;> exact ⟨_,by omega,h⟩
  | case3 a b =>
    have ha := a.toNat_lt
    have hb := b.toNat_lt
    simp only [List.mem_cons,List.not_mem_nil,or_false] at h
    rcases h with h | h | h <;> exact ⟨_,by omega,h⟩
  | case4 a b c r ih =>
    have ha := a.toNat_lt
    have hb := b.toNat_lt
    have hc := c.toNat_lt
    simp only [List.mem_cons] at h
    rcases h with h | h | h | h | h
    · exact ⟨_,by omega,h⟩
    · exact ⟨_,by omega,h⟩
    · exact ⟨_,by omega,h⟩
    · exact ⟨_,by omega,h⟩
    · exact ih h

theorem pad_not_mem_encode (raw : List UInt8) : '=' ∉ encode raw := by
  intro h
  obtain ⟨n,hn,hc⟩ := mem_encode h
  exact symbol_ne_pad n hn hc.symm

/-- The library decoder undoes the encoder once the padding is put back. -/
theorem b64decode_encode (raw : List UInt8) :
    b64decode (encode raw ++ padding (encode raw)) = some raw := by
  fun_induction encode raw with
  | case1 => rfl
  | case2 a =>
    have ha := a.toNat_lt
    have h0 : UInt8.ofNat (a.toNat / 4 * 4 + a.toNat % 4 * 16 / 16) = a := ofNat_eq (by omega)
    simp only [padding,b64decode,List.length_cons,List.length_nil,List.cons_append,
      List.nil_append,List.replicate_succ,List.replicate_zero,Option.bind_eq_bind,
      sextet_symbol (a.toNat / 4) (by omega),sextet_symbol (a.toNat % 4 * 16) (by omega),
      Option.bind_some,ne_eq,not_true_eq_false,if_true,if_false,h0]
  | case3 a b =>
    have ha := a.toNat_lt
    have hb := b.toNat_lt
    have h0 : UInt8.ofNat (a.toNat / 4 * 4 + (a.toNat % 4 * 16 + b.toNat / 16) / 16) = a :=
      ofNat_eq (by omega)
    have h1 : UInt8.ofNat ((a.toNat % 4 * 16 + b.toNat / 16) % 16 * 16 +
        b.toNat % 16 * 4 / 4) = b := ofNat_eq (by omega)
    have hpad := symbol_ne_pad (b.toNat % 16 * 4) (by omega)
    simp only [padding,b64decode,List.length_cons,List.length_nil,List.cons_append,
      List.nil_append,List.replicate_succ,List.replicate_zero,Option.bind_eq_bind,
      sextet_symbol (a.toNat / 4) (by omega),
      sextet_symbol (a.toNat % 4 * 16 + b.toNat / 16) (by omega),
      sextet_symbol (b.toNat % 16 * 4) (by omega),hpad,
      Option.bind_some,ne_eq,not_true_eq_false,if_true,if_false,h0,h1]
  | case4 a b c r ih =>
    have ha := a.toNat_lt
    have hb := b.toNat_lt
    have hc := c.toNat_lt
    have h0 : UInt8.ofNat (a.toNat / 4 * 4 + (a.toNat % 4 * 16 + b.toNat / 16) / 16) = a :=
      ofNat_eq (by omega)
    have h1 : UInt8.ofNat ((a.toNat % 4 * 16 + b.toNat / 16) % 16 * 16 +
        (b.toNat % 16 * 4 + c.toNat / 64) / 4) = b := ofNat_eq (by omega)
    have h2 : UInt8.ofNat ((b.toNat % 16 * 4 + c.toNat / 64) % 4 * 64 + c.toNat % 64) = c :=
      ofNat_eq (by omega)
    have hpad := symbol_ne_pad (c.toNat % 64) (by omega)
    have hsame : ∀ w x y z : Char, padding (w :: x :: y :: z :: encode r) = padding (encode r) := by
      intro w x y z
      simp only [padding,List.length_cons]
      congr 2
      omega
    simp only [hsame,b64decode,List.cons_append,Option.bind_eq_bind,ih,
      sextet_symbol (a.toNat / 4) (by omega),
      sextet_symbol (a.toNat % 4 * 16 + b.toNat / 16) (by omega),
      sextet_symbol (b.toNat % 16 * 4 + c.toNat / 64) (by omega),
      sextet_symbol (c.toNat % 64) (by omega),hpad,Option.bind_some,if_false,h0,h1,h2]

end Base64
