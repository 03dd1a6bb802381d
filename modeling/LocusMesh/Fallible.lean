import Mathlib

/-! Computations in `Except`: when a sequence of them succeeds, and what it may raise. -/
namespace Fallible

variable {ε α β : Type}

theorem bind_ok {x : Except ε α} {f : α → Except ε β} {b : β} :
    (x >>= f) = .ok b ↔ ∃ a, x = .ok a ∧ f a = .ok b := by
  cases x with
  | error e => simp [bind,Except.bind]
  | ok a => simp [bind,Except.bind]

theorem mapError_ok {ε' : Type} {f : ε → ε'} {x : Except ε α} {a : α} :
    x.mapError f = .ok a ↔ x = .ok a := by
  cases x with
  | error e => simp [Except.mapError]
  | ok b => simp [Except.mapError]

theorem mapM_ok {f : α → Except ε β} {l : List α} {out : List β} :
    l.mapM f = .ok out ↔ List.Forall₂ (fun a b => f a = .ok b) l out := by
  induction l generalizing out with
  | nil =>
    rw [List.mapM_nil,List.forall₂_nil_left_iff]
    exact ⟨fun h => (Except.ok.inj h).symm,fun h => congrArg Except.ok h.symm⟩
  | cons a l ih =>
    simp only [List.mapM_cons,bind_ok,ih,List.forall₂_cons_left_iff]
    constructor
    · rintro ⟨b,hb,bs,hbs,hout⟩
      exact ⟨b,bs,hb,hbs,(Except.ok.inj hout).symm⟩
    · rintro ⟨b,bs,hb,hbs,rfl⟩
      exact ⟨b,hb,bs,hbs,rfl⟩

variable {P : ε → Prop}

def Raises (P : ε → Prop) (x : Except ε α) : Prop := ∀ e, x = .error e → P e

theorem raises_ok (a : α) : Raises P (.ok a : Except ε α) := by
  intro e h
  cases h

theorem raises_error {e : ε} (h : P e) : Raises P (.error e : Except ε α) := by
  intro e' h'
  cases h'
  exact h

theorem raises_bind {x : Except ε α} {f : α → Except ε β} (hx : Raises P x)
    (hf : ∀ a, Raises P (f a)) : Raises P (x >>= f) := by
  cases x with
  | ok a => exact hf a
  | error e => exact raises_error (hx e rfl)

theorem raises_bind_iff {x : Except ε α} {f : α → Except ε β} (hf : ∀ a, Raises P (f a)) :
    Raises P (x >>= f) ↔ Raises P x := by
  cases x with
  | ok a => exact iff_of_true (hf a) (raises_ok a)
  | error e => exact ⟨fun h => raises_error (h e rfl),fun h => raises_error (h e rfl)⟩

theorem raises_mapM {f : α → Except ε β} {l : List α} (hf : ∀ a ∈ l, Raises P (f a)) :
    Raises P (l.mapM f) := by
  induction l with
  | nil => exact raises_ok []
  | cons a l ih =>
    rw [List.mapM_cons]
    apply raises_bind (hf a List.mem_cons_self)
    intro b
    apply raises_bind (ih fun c hc => hf c (List.mem_cons_of_mem a hc))
    intro bs
    exact raises_ok (b :: bs)

def After (x : Except ε α) (p : α → Prop) : Prop := ∃ a, x = .ok a ∧ p a

def Fails (P : ε → Prop) (x : Except ε α) : Prop := ∃ e, x = .error e ∧ P e

@[simp] theorem not_fails_ok (a : α) : ¬Fails P (.ok a : Except ε α) := by
  rintro ⟨e,h,_⟩
  cases h

@[simp] theorem fails_error {e : ε} : Fails P (.error e : Except ε α) ↔ P e := by
  simp [Fails]

@[simp] theorem after_false {x : Except ε α} : ¬After x fun _ => False := by
  rintro ⟨a,_,h⟩
  exact h

theorem after_congr_of_ok {x : Except ε α} {p q : α → Prop} (h : ∀ a, x = .ok a → (p a ↔ q a)) :
    After x p ↔ After x q := exists_congr fun a => and_congr_right (h a)

theorem after_congr {x : Except ε α} {p q : α → Prop} (h : ∀ a, p a ↔ q a) :
    After x p ↔ After x q := after_congr_of_ok fun a _ => h a

/-- A sequence fails where its first part does, or else its second. -/
theorem fails_bind {x : Except ε α} {f : α → Except ε β} :
    Fails P (x >>= f) ↔ Fails P x ∨ After x fun a => Fails P (f a) := by
  cases x with
  | error e => simp [Fails,After,bind,Except.bind]
  | ok a => simp [Fails,After,bind,Except.bind]

end Fallible
