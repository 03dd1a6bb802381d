import Mathlib

/-! Lists whose members carry the digest of their predecessor: one common member fixes
everything before it. -/
namespace HashChain

variable {α δ : Type*}

/-- The member before position `i`. -/
def precursor (l : List α) (i : ℕ) : Option α := if i = 0 then none else l[i-1]?

@[simp] theorem precursor_zero (l : List α) : precursor l 0 = none := rfl

@[simp] theorem precursor_succ (l : List α) (i : ℕ) : precursor l (i + 1) = l[i]? := rfl

theorem getLast?_take {l : List α} {i : ℕ} (hi : i ≤ l.length) :
    (l.take i).getLast? = precursor l i := by
  cases i with
  | zero => simp
  | succ i =>
    rw [precursor_succ,List.getLast?_take,if_neg (Nat.succ_ne_zero i),Nat.add_sub_cancel,
      List.getElem?_eq_getElem (by omega : i < l.length)]
    rfl

theorem precursor_map {β : Type*} (f : α → β) (l : List α) (i : ℕ) :
    precursor (l.map f) i = (precursor l i).map f := by
  cases i <;> simp

/-- Every member carries the digest of the one before it; the first carries none. -/
def Linked (digest : α → δ) (link : α → Option δ) (l : List α) : Prop :=
  ∀ i a, l[i]? = some a → link a = (precursor l i).map digest

/-- A member that two chains share stands at the same position behind the same members,
as long as no two members have the same digest. -/
theorem Linked.prefix_eq {digest : α → δ} {link : α → Option δ} {l m : List α}
    (hl : Linked digest link l) (hm : Linked digest link m)
    (hinj : ∀ a ∈ l, ∀ b ∈ m, digest a = digest b → a = b) {i j : ℕ} {a : α}
    (hi : l[i]? = some a) (hj : m[j]? = some a) : i = j ∧ ∀ k ≤ i, l[k]? = m[k]? := by
  induction i generalizing j a with
  | zero =>
    have hnone : link a = none := hl 0 a hi
    cases j with
    | zero =>
      refine ⟨rfl,fun k hk => ?_⟩
      rw [Nat.le_zero.mp hk,hi,hj]
    | succ j =>
      have hlt := (List.getElem?_eq_some_iff.mp hj).1
      have hback := hm (j + 1) a hj
      rw [hnone,precursor_succ,List.getElem?_eq_getElem (by omega : j < m.length)] at hback
      cases hback
  | succ i ih =>
    have hlt := (List.getElem?_eq_some_iff.mp hi).1
    have hprior := List.getElem?_eq_getElem (by omega : i < l.length)
    have hlink : link a = some (digest l[i]) := by rw [hl (i + 1) a hi,precursor_succ,hprior]; rfl
    cases j with
    | zero =>
      have hnone : link a = none := hm 0 a hj
      rw [hnone] at hlink
      cases hlink
    | succ j =>
      have hltm := (List.getElem?_eq_some_iff.mp hj).1
      have hpriorm := List.getElem?_eq_getElem (by omega : j < m.length)
      have hlinkm : link a = some (digest m[j]) := by
        rw [hm (j + 1) a hj,precursor_succ,hpriorm]
        rfl
      have hsame : l[i] = m[j] := hinj _ (List.getElem_mem _) _ (List.getElem_mem _)
        (Option.some.inj (hlink.symm.trans hlinkm))
      obtain ⟨hij,hfront⟩ := ih hprior (hsame ▸ hpriorm)
      refine ⟨by rw [hij],fun k hk => ?_⟩
      rcases Nat.lt_or_eq_of_le hk with hkl | hkeq
      · exact hfront k (by omega)
      · rw [hkeq,hi,hij,hj]

section Fronts

variable {digest : α → δ} {link : α → Option δ} {l m : List α}

theorem linked_nil : Linked digest link [] := by
  intro i a h
  simp at h

theorem Linked.snoc (hl : Linked digest link l) {a : α} (ha : link a = l.getLast?.map digest) :
    Linked digest link (l ++ [a]) := by
  have hfront : ∀ i ≤ l.length, precursor (l ++ [a]) i = precursor l i := by
    intro i hi
    rw [← getLast?_take hi,← getLast?_take (by simp; omega),List.take_append_of_le_length hi]
  intro i b hb
  rcases Nat.lt_or_ge i l.length with hlt | hge
  · rw [List.getElem?_append_left hlt] at hb
    rw [hfront i hlt.le]
    exact hl i b hb
  · have hlen := (List.getElem?_eq_some_iff.mp hb).1
    obtain rfl : i = l.length := by simp at hlen; omega
    obtain rfl : a = b := by simpa using hb
    rw [hfront l.length le_rfl,← getLast?_take le_rfl,List.take_length]
    exact ha

/-- A chain whose last member has the digest of the member before some position of another is
the other up to there. -/
theorem Linked.eq_take (hl : Linked digest link l) (hm : Linked digest link m)
    (hinj : ∀ a ∈ l, ∀ b ∈ m, digest a = digest b → a = b) {i : ℕ} (hi : i ≤ m.length)
    (hlast : l.getLast?.map digest = (precursor m i).map digest) : l = m.take i := by
  cases i with
  | zero =>
    rw [precursor_zero,Option.map_none,Option.map_eq_none_iff,List.getLast?_eq_none_iff] at hlast
    rw [hlast,List.take_zero]
  | succ i =>
    have hprior := List.getElem?_eq_getElem hi
    rw [precursor_succ,hprior,Option.map_some,Option.map_eq_some_iff] at hlast
    obtain ⟨a,ha,hdigest⟩ := hlast
    have hsame : a = m[i] :=
      hinj a (List.mem_of_getLast? ha) m[i] (List.getElem_mem _) hdigest
    rw [List.getLast?_eq_getElem?,hsame] at ha
    obtain ⟨hlength,hfront⟩ := hl.prefix_eq hm hinj ha hprior
    have hlt := (List.getElem?_eq_some_iff.mp ha).1
    apply List.ext_getElem?
    intro k
    rw [List.getElem?_take]
    split_ifs with hk
    · exact hfront k (by omega)
    · exact List.getElem?_eq_none (by omega)

end Fronts

end HashChain
