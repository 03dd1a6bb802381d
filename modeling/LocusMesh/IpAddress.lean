import Mathlib
import LocusMesh.Text

/-! `ipaddress.ip_address`: textual IPv4 and IPv6 addresses, and which are loopback. -/
namespace IpAddress

open PyText

def isHexDigit (c : Char) : Bool :=
  isDigit c || (decide ('a' ≤ c) && decide (c ≤ 'f')) || (decide ('A' ≤ c) && decide (c ≤ 'F'))

def hexValue (c : Char) : ℕ :=
  if isDigit c then c.toNat - '0'.toNat else c.toLower.toNat - 'a'.toNat + 10

/-- One decimal octet: at most three digits, no leading zero, at most 255. -/
def parseOctet (s : Text) : Option ℕ :=
  if s ≠ [] ∧ s.all isDigit = true ∧ s.length ≤ 3 ∧ (s = ['0'] ∨ s.head? ≠ some '0') ∧
      ofDigits s ≤ 255 then some (ofDigits s)
  else none

def ipv4 (s : Text) : Option ℕ :=
  match (s.splitOn '.').mapM parseOctet with
  | some [a,b,c,d] => some (((a * 256 + b) * 256 + c) * 256 + d)
  | _ => none

def parseHextet (s : Text) : Option ℕ :=
  if s ≠ [] ∧ s.all isHexDigit = true ∧ s.length ≤ 4 then
    some (s.foldl (fun n c => 16 * n + hexValue c) 0)
  else none

/-- The parts that `:` separates; an IPv4-style suffix stands for two. -/
def hextets (parts : List Text) : Option (List ℕ) :=
  match parts.getLast? with
  | none => some []
  | some last =>
    if '.' ∈ last then do
      let high ← parts.dropLast.mapM parseHextet
      let low ← ipv4 last
      some (high ++ [low / 65536,low % 65536])
    else parts.mapM parseHextet

def ofHextets (values : List ℕ) : ℕ := values.foldl (fun n v => n * 65536 + v) 0

/-- The indices of empty parts other than the endpoints. -/
def gaps (parts : List Text) : List ℕ :=
  (List.range parts.length).filter fun i =>
    decide (0 < i) && decide (i + 1 < parts.length) && decide (parts[i]? = some [])

def side (parse : List Text → Option (List ℕ)) (parts : List Text) : Option (List ℕ) :=
  if parts = [[]] then some [] else parse parts

/-- `IPv6Address(s)` as an integer, its scope already cut off. -/
def ipv6 (s : Text) : Option ℕ :=
  let parts := s.splitOn ':'
  if parts.length < 3 then none
  else match gaps parts with
    | [] => do
      let values ← hextets parts
      if values.length = 8 then some (ofHextets values) else none
    | [i] => do
      let high ← side (fun before => before.mapM parseHextet) (parts.take i)
      let low ← side hextets (parts.drop (i + 1))
      if high.length + low.length ≤ 7 then
        some (ofHextets (high ++ List.replicate (8 - (high.length + low.length)) 0 ++ low))
      else none
    | _ => none

inductive Address
  | v4 (value : ℕ)
  | v6 (value : ℕ)
  deriving DecidableEq

/-- The scope identifier is cut off at `%` and must be a single nonempty one. -/
def ipv6Scoped (s : Text) : Option ℕ :=
  match partition '%' s with
  | (address,none) => ipv6 address
  | (address,some scope) => if scope = [] ∨ '%' ∈ scope then none else ipv6 address

def ipAddress (s : Text) : Option Address :=
  if '/' ∈ s then none
  else match ipv4 s with
    | some value => some (.v4 value)
    | none => (ipv6Scoped s).map .v6

def Address.isLoopback : Address → Bool
  | .v4 value => decide (value / 2 ^ 24 = 127)
  | .v6 value => decide (value = 1)

theorem mapM_all {α β : Type} {f : α → Option β} {l : List α} {values : List β}
    (h : l.mapM f = some values) : ∀ a ∈ l, ∃ b, f a = some b := by
  induction l generalizing values with
  | nil => simp
  | cons a l ih =>
    rw [List.mapM_cons] at h
    cases ha : f a with
    | none => simp [ha] at h
    | some b =>
      cases hl : l.mapM f with
      | none => simp [ha,hl] at h
      | some bs =>
        intro x hx
        rcases List.mem_cons.mp hx with rfl | hx
        · exact ⟨b,ha⟩
        · exact ih hl x hx

theorem parseOctet_digits {s : Text} {n : ℕ} (h : parseOctet s = some n) : s.all isDigit = true := by
  unfold parseOctet at h
  split_ifs at h with hs
  exact hs.2.1

theorem ipv4_chars {s : Text} {n : ℕ} (h : ipv4 s = some n) :
    ∀ c ∈ s, c = '.' ∨ isDigit c = true := by
  intro c hc
  unfold ipv4 at h
  cases hm : (s.splitOn '.').mapM parseOctet with
  | none => simp [hm] at h
  | some values =>
    rcases mem_splitOn '.' hc with rfl | ⟨w,hw,hcw⟩
    · exact .inl rfl
    · obtain ⟨v,hv⟩ := mapM_all hm w hw
      exact .inr (List.all_eq_true.mp (parseOctet_digits hv) c hcw)

end IpAddress
