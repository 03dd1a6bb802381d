import Mathlib

/-! The `str` methods that URL handling leans on, over lists of characters. What needs the
Unicode tables is a parameter, fixed on ASCII. -/
namespace PyText

abbrev Text := List Char

def isAscii (c : Char) : Bool := decide (c.toNat < 128)

/-- What the Unicode database decides: `str.lower`, NFKC and, asked of what is not ASCII, the
decimal digits and whether IDNA encodes a name. -/
structure Unicode where
  lower : Text → Text
  lower_ascii : ∀ s : Text, s.all isAscii = true → lower s = s.map Char.toLower
  nfkc : Text → Text
  digit : Char → Option ℕ
  idna : Text → Bool

def isSpace (c : Char) : Bool :=
  let n := c.toNat
  (9 ≤ n && n ≤ 13) || (28 ≤ n && n ≤ 32) || n == 0x85 || n == 0xa0 || n == 0x1680 ||
    (0x2000 ≤ n && n ≤ 0x200a) || n == 0x2028 || n == 0x2029 || n == 0x202f || n == 0x205f ||
    n == 0x3000

def isDigit (c : Char) : Bool := decide ('0' ≤ c) && decide (c ≤ '9')

def lstrip (p : Char → Bool) (s : Text) : Text := s.dropWhile p

def rstrip (p : Char → Bool) (s : Text) : Text := (s.reverse.dropWhile p).reverse

def strip (p : Char → Bool) (s : Text) : Text := rstrip p (lstrip p s)

/-- `s.partition(c)`; the rest is `none` where `c` is missing. -/
def partition (c : Char) : Text → Text × Option Text
  | [] => ([],none)
  | d :: s => if d = c then ([],some s) else (d :: (partition c s).1,(partition c s).2)

/-- `s.rpartition(c)`; what stands before is `none` where `c` is missing. -/
def rpartition (c : Char) (s : Text) : Option Text × Text :=
  match partition c s.reverse with
  | (_,none) => (none,s)
  | (after,some before) => (some before.reverse,after.reverse)

def ofDigits (s : Text) : ℕ := s.foldl (fun n c => 10 * n + (c.toNat - '0'.toNat)) 0

/-- `sys.int_info.default_max_str_digits`. -/
def maxStrDigits : ℕ := 4300

def digitValue (u : Unicode) (c : Char) : Option ℕ :=
  if isAscii c then (if isDigit c then some (c.toNat - '0'.toNat) else none) else u.digit c

/-- What `int` strips: of the ASCII separators only whitespace proper. -/
def isIntSpace (c : Char) : Bool := isSpace c && !(decide (28 ≤ c.toNat) && decide (c.toNat ≤ 31))

/-- The number that digits in groups stand for, `_` between the groups. -/
def groupedDigits (u : Unicode) (s : Text) : Option ℕ :=
  if [] ∈ s.splitOn '_' then none
  else match (s.splitOn '_').flatten.mapM (digitValue u) with
    | none => none
    | some digits =>
      if maxStrDigits < digits.length then none else some (digits.foldl (fun n d => 10 * n + d) 0)

def int (u : Unicode) (s : Text) : Option ℤ :=
  match strip isIntSpace s with
  | '-' :: digits => (groupedDigits u digits).map Int.negOfNat
  | '+' :: digits => (groupedDigits u digits).map Int.ofNat
  | digits => (groupedDigits u digits).map Int.ofNat

variable {p : Char → Bool} {s l m : Text} {c : Char}

theorem rstrip_of_last (h : ∀ d ∈ s.getLast?, p d = false) : rstrip p s = s := by
  unfold rstrip
  rcases List.eq_nil_or_concat s with rfl | ⟨init,d,rfl⟩
  · rfl
  · have hd : p d = false := h d (by simp)
    simp [hd]

theorem strip_of_ends (hfirst : ∀ d ∈ s.head?, p d = false) (hlast : ∀ d ∈ s.getLast?, p d = false) :
    strip p s = s := by
  have hl : lstrip p s = s := by
    cases s with
    | nil => rfl
    | cons d s =>
      have hd : p d = false := hfirst d rfl
      simp [lstrip,hd]
  rw [strip,hl,rstrip_of_last hlast]

theorem partition_of_not_mem (h : c ∉ s) : partition c s = (s,none) := by
  induction s with
  | nil => rfl
  | cons d s ih =>
    rw [List.mem_cons,not_or] at h
    rw [partition,if_neg (Ne.symm h.1),ih h.2]

theorem partition_append (h : c ∉ l) : partition c (l ++ c :: m) = (l,some m) := by
  induction l with
  | nil => simp [partition]
  | cons d l ih =>
    rw [List.mem_cons,not_or] at h
    rw [List.cons_append,partition,if_neg (Ne.symm h.1),ih h.2]

theorem partition_cases (c : Char) (s : Text) :
    (c ∉ s ∧ partition c s = (s,none)) ∨
      ∃ l m, s = l ++ c :: m ∧ c ∉ l ∧ partition c s = (l,some m) := by
  by_cases h : c ∈ s
  · right
    obtain ⟨l,m,hs,hl⟩ := List.eq_append_cons_of_mem h
    exact ⟨l,m,hs,hl,hs ▸ partition_append hl⟩
  · exact .inl ⟨h,partition_of_not_mem h⟩

theorem rpartition_of_not_mem (h : c ∉ s) : rpartition c s = (none,s) := by
  rw [rpartition,partition_of_not_mem (by simpa using h)]

theorem rpartition_append (h : c ∉ m) : rpartition c (l ++ c :: m) = (some l,m) := by
  have hrev : (l ++ c :: m).reverse = m.reverse ++ c :: l.reverse := by simp
  rw [rpartition,hrev,partition_append (by simpa using h)]
  simp

theorem rpartition_cases (c : Char) (s : Text) :
    (c ∉ s ∧ rpartition c s = (none,s)) ∨
      ∃ l m, s = l ++ c :: m ∧ c ∉ m ∧ rpartition c s = (some l,m) := by
  rcases partition_cases c s.reverse with ⟨h,_⟩ | ⟨l,m,hs,hl,_⟩
  · have hnot : c ∉ s := by simpa using h
    exact .inl ⟨hnot,rpartition_of_not_mem hnot⟩
  · have hsplit : s = m.reverse ++ c :: l.reverse := by
      have hrev := congrArg List.reverse hs
      simpa using hrev
    have hnot : c ∉ l.reverse := by simpa using hl
    exact .inr ⟨m.reverse,l.reverse,hsplit,hnot,hsplit ▸ rpartition_append hnot⟩

theorem mem_intercalate {d : Char} {words : List Text} (h : d ∈ [c].intercalate words) :
    d = c ∨ ∃ w ∈ words, d ∈ w := by
  induction words with
  | nil => simp [List.intercalate] at h
  | cons w words ih =>
    cases words with
    | nil => exact .inr ⟨w,by simp,by simpa [List.intercalate] using h⟩
    | cons w' words =>
      rw [List.intercalate,List.intersperse_cons_cons,List.flatten_cons,List.flatten_cons,
        List.mem_append,List.mem_append,List.mem_singleton] at h
      rcases h with hw | rfl | hrest
      · exact .inr ⟨w,by simp,hw⟩
      · exact .inl rfl
      · rcases ih hrest with hd | ⟨v,hv,hd⟩
        · exact .inl hd
        · exact .inr ⟨v,List.mem_cons_of_mem _ hv,hd⟩

theorem mem_splitOn (c : Char) {d : Char} (h : d ∈ s) : d = c ∨ ∃ w ∈ s.splitOn c, d ∈ w := by
  have hjoin : [c].intercalate (s.splitOn c) = s := List.intercalate_splitOn c
  rw [← hjoin] at h
  exact mem_intercalate h

end PyText
