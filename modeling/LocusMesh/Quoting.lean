import Mathlib
import LocusMesh.IpAddress

/-! `urllib.parse.unquote`: percent escapes are bytes, and runs of them are read as UTF-8 with
U+FFFD in the place of what is none. -/
namespace PyUrl

open PyText IpAddress

def replacement : Char := '\uFFFD'

/-- A character whose first bytes were read: how many it lacks, and the range of the next. -/
structure Begun where
  missing : ℕ
  low : ℕ
  high : ℕ
  value : ℕ

def leadByte (b : ℕ) : Text × Option Begun :=
  if b < 0x80 then ([Char.ofNat b],none)
  else if 0xC2 ≤ b ∧ b < 0xE0 then ([],some ⟨1,0x80,0xBF,b - 0xC0⟩)
  else if b = 0xE0 then ([],some ⟨2,0xA0,0xBF,0⟩)
  else if b = 0xED then ([],some ⟨2,0x80,0x9F,0xD⟩)
  else if 0xE1 ≤ b ∧ b < 0xF0 then ([],some ⟨2,0x80,0xBF,b - 0xE0⟩)
  else if b = 0xF0 then ([],some ⟨3,0x90,0xBF,0⟩)
  else if 0xF1 ≤ b ∧ b < 0xF4 then ([],some ⟨3,0x80,0xBF,b - 0xF0⟩)
  else if b = 0xF4 then ([],some ⟨3,0x80,0x8F,4⟩)
  else ([replacement],none)

def feed : Option Begun → ℕ → Text × Option Begun
  | none, b => leadByte b
  | some begun, b =>
    if begun.low ≤ b ∧ b ≤ begun.high then
      let value := 64 * begun.value + (b - 0x80)
      if begun.missing ≤ 1 then ([Char.ofNat value],none)
      else ([],some ⟨begun.missing - 1,0x80,0xBF,value⟩)
    else (replacement :: (leadByte b).1,(leadByte b).2)

def flush : Option Begun → Text
  | none => []
  | some _ => [replacement]

@[simp] theorem flush_none : flush none = [] := rfl

def unquoteFrom : Option Begun → Text → Text
  | begun, '%' :: a :: b :: s =>
    if isHexDigit a && isHexDigit b then
      (feed begun (16 * hexValue a + hexValue b)).1 ++
        unquoteFrom (feed begun (16 * hexValue a + hexValue b)).2 s
    else flush begun ++ '%' :: unquoteFrom none (a :: b :: s)
  | begun, c :: s => flush begun ++ c :: unquoteFrom none s
  | begun, [] => flush begun

def unquote (s : Text) : Text := unquoteFrom none s

def hasEscape : Text → Bool
  | '%' :: a :: b :: s => isHexDigit a && isHexDigit b || hasEscape (a :: b :: s)
  | _ :: s => hasEscape s
  | [] => false

/-- No escape begins with `c` where `s` follows it. -/
def Literal (c : Char) (s : Text) : Prop :=
  ∀ a b t, s = a :: b :: t → c = '%' → (isHexDigit a && isHexDigit b) = false

theorem unquoteFrom_literal {begun : Option Begun} {s : Text} {c : Char} (h : Literal c s) :
    unquoteFrom begun (c :: s) = flush begun ++ c :: unquoteFrom none s := by
  by_cases hc : c = '%'
  · subst hc
    match s, h with
    | [], _ => rfl
    | [a], _ => rfl
    | a :: b :: t, h => rw [unquoteFrom,h a b t rfl rfl,if_neg Bool.false_ne_true]
  · rw [unquoteFrom]
    intro a b t hpercent _
    exact hc hpercent

theorem hasEscape_literal {s : Text} {c : Char} (h : Literal c s) :
    hasEscape (c :: s) = hasEscape s := by
  by_cases hc : c = '%'
  · subst hc
    match s, h with
    | [], _ => rfl
    | [a], _ => rfl
    | a :: b :: t, h => rw [hasEscape,h a b t rfl rfl,Bool.false_or]
  · rw [hasEscape]
    intro a b t hpercent _
    exact hc hpercent

theorem unquoteFrom_escape {begun : Option Begun} {a b : Char} {s : Text}
    (h : (isHexDigit a && isHexDigit b) = true) : unquoteFrom begun ('%' :: a :: b :: s) =
      (feed begun (16 * hexValue a + hexValue b)).1 ++
        unquoteFrom (feed begun (16 * hexValue a + hexValue b)).2 s := by
  rw [unquoteFrom,if_pos h]

theorem hasEscape_escape {a b : Char} {s : Text} (h : (isHexDigit a && isHexDigit b) = true) :
    hasEscape ('%' :: a :: b :: s) = true := by
  rw [hasEscape,h,Bool.true_or]

/-- A text is read escape by escape and otherwise character by character. -/
theorem quoted_induction {motive : Text → Prop} (nil : motive [])
    (escape : ∀ a b s, (isHexDigit a && isHexDigit b) = true → motive s →
      motive ('%' :: a :: b :: s))
    (literal : ∀ c s, Literal c s → motive s → motive (c :: s)) (s : Text) : motive s := by
  induction hn : s.length using Nat.strong_induction_on generalizing s with
  | _ n ih =>
    subst hn
    match s with
    | [] => exact nil
    | c :: t =>
      by_cases hescape : ∃ a b r, t = a :: b :: r ∧ c = '%' ∧
          (isHexDigit a && isHexDigit b) = true
      · obtain ⟨a,b,r,rfl,rfl,hhex⟩ := hescape
        exact escape a b r hhex (ih r.length (by simp; omega) r rfl)
      · have hliteral : Literal c t := by
          intro a b r ht hc
          rw [Bool.eq_false_iff]
          exact fun hhex => hescape ⟨a,b,r,ht,hc,hhex⟩
        exact literal c t hliteral (ih t.length (by simp) t rfl)

theorem unquoteFrom_plain {s : Text} (h : hasEscape s = false) (begun : Option Begun) :
    unquoteFrom begun s = flush begun ++ s := by
  induction s using quoted_induction generalizing begun with
  | nil => simp [unquoteFrom]
  | escape a b s hhex _ =>
    rw [hasEscape_escape hhex] at h
    cases h
  | literal c s hliteral ih =>
    rw [hasEscape_literal hliteral] at h
    rw [unquoteFrom_literal hliteral,ih h none,flush_none,List.nil_append]

theorem unquote_plain {s : Text} (h : hasEscape s = false) : unquote s = s :=
  unquoteFrom_plain h none

/-- No escape reaches across a character that is none of its own. -/
theorem unquoteFrom_append {c : Char} (hc : c ≠ '%') (hhex : isHexDigit c = false) (l r : Text)
    (begun : Option Begun) :
    unquoteFrom begun (l ++ c :: r) = unquoteFrom begun l ++ c :: unquote r ∧
      hasEscape (l ++ c :: r) = (hasEscape l || hasEscape r) := by
  induction l using quoted_induction generalizing begun with
  | nil =>
    have hliteral : Literal c r := fun a b t _ hpercent => absurd hpercent hc
    rw [List.nil_append,unquoteFrom_literal hliteral,hasEscape_literal hliteral]
    exact ⟨rfl,rfl⟩
  | escape a b s hab ih =>
    rw [List.cons_append,List.cons_append,List.cons_append,unquoteFrom_escape hab,
      unquoteFrom_escape hab,(ih _).1,hasEscape_escape hab,hasEscape_escape hab,Bool.true_or,
      List.append_assoc]
    exact ⟨rfl,rfl⟩
  | literal d s hliteral ih =>
    have hlong : Literal d (s ++ c :: r) := by
      intro a b t ht hd
      match s, hliteral with
      | [], _ =>
        rw [List.nil_append,List.cons.injEq] at ht
        rw [← ht.1,hhex,Bool.false_and]
      | [e], _ =>
        rw [List.cons_append,List.nil_append,List.cons.injEq,List.cons.injEq] at ht
        rw [← ht.2.1,hhex,Bool.and_false]
      | e :: f :: s, hliteral =>
        rw [List.cons_append,List.cons_append,List.cons.injEq,List.cons.injEq] at ht
        rw [← ht.1,← ht.2.1]
        exact hliteral e f s rfl hd
    rw [List.cons_append,unquoteFrom_literal hlong,unquoteFrom_literal hliteral,(ih none).1,
      hasEscape_literal hlong,hasEscape_literal hliteral,(ih none).2,List.append_assoc]
    exact ⟨rfl,rfl⟩

theorem unquote_append {c : Char} (hc : c ≠ '%') (hhex : isHexDigit c = false) (l r : Text) :
    unquote (l ++ c :: r) = unquote l ++ c :: unquote r :=
  (unquoteFrom_append hc hhex l r none).1

theorem hasEscape_append {c : Char} (hc : c ≠ '%') (hhex : isHexDigit c = false) (l r : Text) :
    hasEscape (l ++ c :: r) = (hasEscape l || hasEscape r) :=
  (unquoteFrom_append hc hhex l r none).2

theorem hasEscape_of_not_mem {s : Text} (h : '%' ∉ s) : hasEscape s = false := by
  induction s using quoted_induction with
  | nil => rfl
  | escape a b s _ _ => simp at h
  | literal c s hliteral ih =>
    rw [hasEscape_literal hliteral]
    exact ih fun hin => h (List.mem_cons_of_mem c hin)

end PyUrl
