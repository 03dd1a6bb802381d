import Mathlib

/-! Transition systems whose state is shared by clients that move one at a time: runs,
invariants over runs, and sums over the clients. -/
namespace Transition

section Systems

variable {S : Type*}

structure System (S : Type*) where
  Initial : S → Prop
  Step : S → S → Prop

inductive System.Reachable (M : System S) : S → Prop
  | initial {s : S} (h : M.Initial s) : M.Reachable s
  | step {s t : S} (h : M.Reachable s) (hstep : M.Step s t) : M.Reachable t

/-- What holds initially and survives every step holds in every run. -/
theorem System.Reachable.invariant {M : System S} {P : S → Prop}
    (hinit : ∀ s, M.Initial s → P s) (hstep : ∀ s t, P s → M.Step s t → P t) {s : S}
    (h : M.Reachable s) : P s := by
  induction h with
  | initial h => exact hinit _ h
  | step _ hs ih => exact hstep _ _ ih hs

theorem System.Reachable.trans {M : System S} {s t : S} (h : M.Reachable s)
    (hrun : Relation.ReflTransGen M.Step s t) : M.Reachable t := by
  induction hrun with
  | refl => exact h
  | tail _ hstep ih => exact ih.step hstep

end Systems

section Clients

variable {ι A B : Type*} [DecidableEq ι]

theorem sum_update [Fintype ι] [AddCommMonoid B] (f : A → B) (clients : ι → A) (i : ι) (a : A) :
    (∑ j, f (Function.update clients i a j)) + f (clients i) = (∑ j, f (clients j)) + f a := by
  rw [← Finset.add_sum_erase _ _ (Finset.mem_univ i),
    ← Finset.add_sum_erase _ (fun j => f (clients j)) (Finset.mem_univ i),Function.update_self]
  have hrest : ∑ j ∈ Finset.univ.erase i, f (Function.update clients i a j) =
      ∑ j ∈ Finset.univ.erase i, f (clients j) := by
    apply Finset.sum_congr rfl
    intro j hj
    rw [Function.update_of_ne (Finset.ne_of_mem_erase hj)]
  rw [hrest]
  abel

theorem sum_update_same [Fintype ι] [AddCommMonoid B] {f : A → B} {clients : ι → A} {i : ι}
    {a : A} (h : f a = f (clients i)) :
    (∑ j, f (Function.update clients i a j)) = ∑ j, f (clients j) := by
  apply Finset.sum_congr rfl
  intro j _
  by_cases hj : j = i
  · rw [hj,Function.update_self,h]
  · rw [Function.update_of_ne hj]

end Clients

end Transition
