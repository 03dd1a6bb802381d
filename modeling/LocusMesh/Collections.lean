import Mathlib

/-! The Python collection operations the code leans on: `sorted(..., key=...)`,
`dict.fromkeys` used as an ordered set, and a dict built from a sequence. -/
namespace PyCollections

section Sorted

variable {α κ : Type*} [LinearOrder κ]

/-- `sorted(l, key=key)`: stable, so equal keys keep their order. -/
def sortedBy (key : α → κ) (l : List α) : List α :=
  l.insertionSort fun a b => key a ≤ key b

theorem sortedBy_perm (key : α → κ) (l : List α) : (sortedBy key l).Perm l :=
  List.perm_insertionSort _ l

@[simp] theorem mem_sortedBy {key : α → κ} {l : List α} {a : α} :
    a ∈ sortedBy key l ↔ a ∈ l :=
  (sortedBy_perm key l).mem_iff

theorem sortedBy_pairwise (key : α → κ) (l : List α) :
    (sortedBy key l).Pairwise fun a b => key a ≤ key b := by
  have htotal : Std.Total fun a b : α => key a ≤ key b := ⟨fun a b => le_total (key a) (key b)⟩
  have htrans : IsTrans α fun a b => key a ≤ key b := ⟨fun _ _ _ => le_trans⟩
  exact List.pairwise_insertionSort _ l

theorem sortedBy_eq_of_perm {key : α → κ} {l m : List α} (h : l.Perm m)
    (hl : (l.map key).Nodup) : sortedBy key l = sortedBy key m := by
  have hperm := ((sortedBy_perm key l).trans h).trans (sortedBy_perm key m).symm
  have hinj : ∀ a ∈ l, ∀ b ∈ l, key a = key b → a = b := List.inj_on_of_nodup_map hl
  refine hperm.eq_of_pairwise ?_ (sortedBy_pairwise key l) (sortedBy_pairwise key m)
  intro a b ha hb hab hba
  exact hinj a (mem_sortedBy.mp ha) b (h.mem_iff.mpr (mem_sortedBy.mp hb)) (le_antisymm hab hba)

omit [LinearOrder κ] in
theorem perm_of_same_members {key : α → κ} {l m : List α} (hl : (l.map key).Nodup) (hm : (m.map key).Nodup)
    (h : ∀ a, a ∈ l ↔ a ∈ m) : l.Perm m :=
  (List.perm_ext_iff_of_nodup (hl.of_map key) (hm.of_map key)).mpr h

/-- Sorting forgets the order and nothing else. -/
theorem sortedBy_eq_iff {key : α → κ} {l m : List α} (hl : (l.map key).Nodup)
    (hm : (m.map key).Nodup) : sortedBy key l = sortedBy key m ↔ ∀ a, a ∈ l ↔ a ∈ m := by
  constructor
  · intro h a
    rw [← (sortedBy_perm key l).mem_iff,h,mem_sortedBy]
  · intro h
    exact sortedBy_eq_of_perm (perm_of_same_members hl hm h) hl

theorem map_sortedBy {β : Type*} (f : α → β) {key : α → κ} {key' : β → κ}
    (hkey : ∀ a, key' (f a) = key a) (l : List α) :
    (sortedBy key l).map f = sortedBy key' (l.map f) := by
  apply List.map_insertionSort
  intro a _ b _
  rw [hkey,hkey]

end Sorted

section FromKeys

variable {α : Type*} [DecidableEq α]

/-- `tuple(dict.fromkeys(l))`: the members in order of first occurrence. -/
def fromKeys (l : List α) : List α :=
  l.foldl (fun seen a => if a ∈ seen then seen else seen ++ [a]) []

theorem fromKeys_append_singleton (l : List α) (a : α) :
    fromKeys (l ++ [a]) = if a ∈ fromKeys l then fromKeys l else fromKeys l ++ [a] := by
  rw [fromKeys,List.foldl_append]
  rfl

@[simp] theorem mem_fromKeys {l : List α} {a : α} : a ∈ fromKeys l ↔ a ∈ l := by
  induction l using List.reverseRecOn with
  | nil => simp [fromKeys]
  | append_singleton l b ih =>
    rw [fromKeys_append_singleton]
    split_ifs with hb
    · rw [ih,List.mem_append,List.mem_singleton]
      exact ⟨Or.inl,fun h => h.elim id fun hab => ih.mp (hab ▸ hb)⟩
    · simp [ih]

theorem fromKeys_nodup (l : List α) : (fromKeys l).Nodup := by
  induction l using List.reverseRecOn with
  | nil => simp [fromKeys]
  | append_singleton l b ih =>
    rw [fromKeys_append_singleton]
    split_ifs with hb
    · exact ih
    · refine List.nodup_append.mpr ⟨ih,List.nodup_singleton b,fun a ha c hc hac => hb ?_⟩
      rw [← List.mem_singleton.mp hc,← hac]
      exact ha

theorem fromKeys_of_nodup {l : List α} (h : l.Nodup) : fromKeys l = l := by
  induction l using List.reverseRecOn with
  | nil => rfl
  | append_singleton l a ih =>
    rw [List.nodup_append] at h
    have hnew : a ∉ l := fun ha => h.2.2 a ha a (List.mem_singleton_self a) rfl
    rw [fromKeys_append_singleton,ih h.1,if_neg hnew]

@[simp] theorem fromKeys_eq_nil {l : List α} : fromKeys l = [] ↔ l = [] := by
  simp only [List.eq_nil_iff_forall_not_mem,mem_fromKeys]

/-- What a suffix adds: its own members, less those already seen. -/
theorem fromKeys_append (l m : List α) :
    fromKeys (l ++ m) = fromKeys l ++ (fromKeys m).filter (fun a => decide (a ∉ l)) := by
  induction m using List.reverseRecOn with
  | nil => simp [fromKeys]
  | append_singleton m a ih =>
    rw [← List.append_assoc,fromKeys_append_singleton,fromKeys_append_singleton,ih]
    by_cases hm : a ∈ m
    · simp [hm]
    · by_cases hl : a ∈ l <;> simp [hm,hl]

theorem fromKeys_filter (p : α → Bool) (l : List α) :
    (fromKeys l).filter p = fromKeys (l.filter p) := by
  induction l using List.reverseRecOn with
  | nil => simp [fromKeys]
  | append_singleton l a ih =>
    rw [fromKeys_append_singleton,List.filter_append]
    by_cases hp : p a = true
    · have hsingle : [a].filter p = [a] := by simp [hp]
      rw [hsingle,fromKeys_append_singleton,← ih]
      by_cases hl : a ∈ l <;> simp [hl,hp]
    · have hsingle : [a].filter p = [] := by simp [hp]
      rw [hsingle,List.append_nil,← ih]
      by_cases hl : a ∈ l <;> simp [hl,hp]

theorem fromKeys_mark {mark : α} {l m : List α} (hl : mark ∉ l) :
    ∃ rest, fromKeys (l ++ mark :: m) = fromKeys l ++ mark :: rest ∧
      fromKeys (l ++ m.filter fun a => decide (a ≠ mark)) = fromKeys l ++ rest := by
  have hhead : fromKeys (mark :: m) =
      mark :: (fromKeys m).filter (fun a => decide (a ≠ mark)) := by
    rw [← List.singleton_append,fromKeys_append]
    simp [fromKeys]
  refine ⟨((fromKeys m).filter fun a => decide (a ≠ mark)).filter fun a => decide (a ∉ l),?_,?_⟩
  · rw [fromKeys_append,hhead,List.filter_cons_of_pos (by simpa using hl)]
  · rw [fromKeys_append,← fromKeys_filter (fun a => decide (a ≠ mark)) m]

theorem filter_mark {mark : α} {l m : List α} (hl : mark ∉ l) :
    (l ++ mark :: m).filter (fun a => decide (a ≠ mark)) =
      l ++ m.filter fun a => decide (a ≠ mark) := by
  have hself : l.filter (fun a => decide (a ≠ mark)) = l := by
    rw [List.filter_eq_self]
    intro a ha
    exact decide_eq_true fun h => hl (h ▸ ha)
  rw [List.filter_append,hself,List.filter_cons_of_neg (by simp)]

/-- Two sequences that differ in where a mark stands leave the same ordered set exactly
when the same members precede its first occurrence. -/
theorem fromKeys_mark_eq_iff {mark : α} {l l' m m' : List α} (hl : mark ∉ l) (hl' : mark ∉ l')
    (hrest : (l ++ mark :: m).filter (fun a => decide (a ≠ mark)) =
      (l' ++ mark :: m').filter fun a => decide (a ≠ mark)) :
    fromKeys (l ++ mark :: m) = fromKeys (l' ++ mark :: m') ↔ ∀ a, a ∈ l ↔ a ∈ l' := by
  obtain ⟨rest,hmark,hothers⟩ := fromKeys_mark (m:=m) hl
  obtain ⟨rest',hmark',hothers'⟩ := fromKeys_mark (m:=m') hl'
  rw [filter_mark hl,filter_mark hl'] at hrest
  rw [hmark,hmark']
  constructor
  · intro h a
    have htake := congrArg (List.takeWhile fun a => decide (a ≠ mark)) h
    have hfront : ∀ (n : List α) (r : List α), mark ∉ n →
        (fromKeys n ++ mark :: r).takeWhile (fun a => decide (a ≠ mark)) = fromKeys n := by
      intro n r hn
      rw [List.takeWhile_append_of_pos]
      · simp
      · intro b hb
        exact decide_eq_true fun hbm => hn (mem_fromKeys.mp (hbm ▸ hb))
    rw [hfront l rest hl,hfront l' rest' hl'] at htake
    rw [← mem_fromKeys,htake,mem_fromKeys]
  · intro h
    -- both fronts are prefixes of one sequence, and the longer adds no new member
    have hsame : fromKeys l = fromKeys l' := by
      have hone : ∀ {n n' : List α}, (∀ a, a ∈ n ↔ a ∈ n') → n <+: n' →
          fromKeys n = fromKeys n' := by
        rintro n _ hmem ⟨more,rfl⟩
        rw [fromKeys_append,List.filter_eq_nil_iff.mpr,List.append_nil]
        intro a ha
        have hn := (hmem a).mpr (List.mem_append_right _ (mem_fromKeys.mp ha))
        simp [hn]
      rcases List.prefix_or_prefix_of_prefix (List.prefix_append l _)
        (hrest ▸ List.prefix_append l' _) with hpre | hpre
      · exact hone h hpre
      · exact (hone (fun a => (h a).symm) hpre).symm
    have htail : rest = rest' := by
      rw [hrest,hothers',hsame] at hothers
      exact (List.append_cancel_left hothers).symm
    rw [hsame,htail]

end FromKeys

/-- What is listed before and after a mark that stands there when `key` passes a test. -/
structure Marked (α β : Type*) where
  front : List α
  key : β
  back : List α

section Marks

variable {α β : Type*} [DecidableEq α] (mark : α) (p : β → Bool)

def marks (l : List (Marked α β)) : List α :=
  l.flatMap fun e => e.front ++ (if p e.key then [mark] else []) ++ e.back

def unmarked (l : List (Marked α β)) : List α := l.flatMap fun e => e.front ++ e.back

def beforeMark : List (Marked α β) → List α
  | [] => []
  | e :: l => if p e.key then e.front else e.front ++ e.back ++ beforeMark l

variable {mark p} {l : List (Marked α β)}

omit [DecidableEq α] in
theorem marks_of_none (h : ¬∃ e ∈ l, p e.key = true) : marks mark p l = unmarked l := by
  induction l with
  | nil => rfl
  | cons e l ih =>
    have he : ¬p e.key = true := fun he => h ⟨e,List.mem_cons_self,he⟩
    have hl : ¬∃ e ∈ l, p e.key = true := by
      rintro ⟨e',he',hp⟩
      exact h ⟨e',List.mem_cons_of_mem _ he',hp⟩
    have htail := ih hl
    unfold marks unmarked at htail ⊢
    rw [List.flatMap_cons,List.flatMap_cons,htail,if_neg he,List.append_nil]

omit [DecidableEq α] in
variable (mark) in
theorem marks_of_some (h : ∃ e ∈ l, p e.key = true) :
    ∃ rest, marks mark p l = beforeMark p l ++ mark :: rest := by
  induction l with
  | nil =>
    obtain ⟨_,hmem,_⟩ := h
    cases hmem
  | cons e l ih =>
    by_cases he : p e.key = true
    · exact ⟨e.back ++ marks mark p l,by simp [marks,beforeMark,he]⟩
    · have hl : ∃ e ∈ l, p e.key = true := by
        obtain ⟨e',he',hp⟩ := h
        rcases List.mem_cons.mp he' with rfl | hmem
        · exact absurd hp he
        · exact ⟨e',hmem,hp⟩
      obtain ⟨rest,hrest⟩ := ih hl
      refine ⟨rest,?_⟩
      unfold marks at hrest ⊢
      rw [List.flatMap_cons,hrest,beforeMark,if_neg he,if_neg he]
      simp only [List.append_nil,List.append_assoc]

omit [DecidableEq α] in
theorem mem_beforeMark {a : α} (h : a ∈ beforeMark p l) : a ∈ unmarked l := by
  induction l with
  | nil => cases h
  | cons e l ih =>
    unfold beforeMark at h
    rw [unmarked,List.flatMap_cons]
    split_ifs at h
    · simp [h]
    · rcases List.mem_append.mp h with h | h
      · exact List.mem_append_left _ h
      · exact List.mem_append_right _ (ih h)

theorem filter_marks (hfree : mark ∉ unmarked l) :
    (marks mark p l).filter (fun a => decide (a ≠ mark)) = unmarked l := by
  induction l with
  | nil => rfl
  | cons e l ih =>
    rw [unmarked,List.flatMap_cons,List.mem_append,not_or] at hfree
    have hself : (e.front ++ e.back).filter (fun a => decide (a ≠ mark)) = e.front ++ e.back := by
      rw [List.filter_eq_self]
      intro a ha
      exact decide_eq_true fun h => hfree.1 (h ▸ ha)
    have htail := ih hfree.2
    unfold marks unmarked at htail ⊢
    rw [List.flatMap_cons,List.flatMap_cons,List.filter_append,htail,← hself]
    cases p e.key <;> simp

/-- Two tests leave the same ordered set exactly when both mark something or neither does,
and the same members precede the first mark. -/
theorem fromKeys_marks_eq_iff {q : β → Bool} {init last : List α} (hinit : mark ∉ init)
    (hfree : mark ∉ unmarked l) (hlast : mark ∉ last) :
    fromKeys (init ++ marks mark p l ++ last) = fromKeys (init ++ marks mark q l ++ last) ↔
      ((∃ e ∈ l, p e.key = true) ↔ ∃ e ∈ l, q e.key = true) ∧
      ((∃ e ∈ l, q e.key = true) →
        ∀ a, a ∈ init ++ beforeMark p l ↔ a ∈ init ++ beforeMark q l) := by
  have hmem : ∀ r : β → Bool, mark ∈ init ++ marks mark r l ++ last ↔
      ∃ e ∈ l, r e.key = true := by
    intro r
    have hmarks : mark ∈ marks mark r l ↔ ∃ e ∈ l, r e.key = true := by
      by_cases h : ∃ e ∈ l, r e.key = true
      · obtain ⟨rest,hrest⟩ := marks_of_some mark h
        simp only [hrest,h,List.mem_append,List.mem_cons,true_or,or_true]
      · simp only [marks_of_none h,h,hfree]
    simp only [List.mem_append,hinit,hlast,hmarks,false_or,or_false]
  by_cases hq : ∃ e ∈ l, q e.key = true
  · by_cases hp : ∃ e ∈ l, p e.key = true
    · obtain ⟨restp,hrestp⟩ := marks_of_some mark hp
      obtain ⟨restq,hrestq⟩ := marks_of_some mark hq
      have hsplit : ∀ {r : β → Bool} {rest : List α}, marks mark r l = beforeMark r l ++ mark :: rest →
          init ++ marks mark r l ++ last = (init ++ beforeMark r l) ++ mark :: (rest ++ last) := by
        intro r rest h
        rw [h]
        simp only [List.append_assoc,List.cons_append]
      have hahead : ∀ r : β → Bool, mark ∉ init ++ beforeMark r l := by
        intro r h
        rcases List.mem_append.mp h with h | h
        · exact hinit h
        · exact hfree (mem_beforeMark h)
      have hothers : (init ++ marks mark p l ++ last).filter (fun a => decide (a ≠ mark)) =
          (init ++ marks mark q l ++ last).filter fun a => decide (a ≠ mark) := by
        simp only [List.filter_append,filter_marks hfree]
      rw [hsplit hrestp,hsplit hrestq] at hothers ⊢
      rw [fromKeys_mark_eq_iff (hahead p) (hahead q) hothers]
      simp only [hp,hq,true_and,true_implies]
    · refine ⟨fun h => ?_,fun h => absurd (h.1.mpr hq) hp⟩
      rw [← hmem,← mem_fromKeys,h,mem_fromKeys,hmem] at hp
      exact absurd hq hp
  · by_cases hp : ∃ e ∈ l, p e.key = true
    · refine ⟨fun h => ?_,fun h => absurd (h.1.mp hp) hq⟩
      rw [← hmem,← mem_fromKeys,← h,mem_fromKeys,hmem] at hq
      exact absurd hp hq
    · simp only [marks_of_none hp,marks_of_none hq,hp,hq,true_and,false_implies]

end Marks

section Extremes

variable {α : Type*} (key : α → ℕ)

/-- `max(l, key=key)`: the first of the members with the greatest key. -/
def maxBy : List α → Option α
  | [] => none
  | a :: l => some (l.foldl (fun best b => if key best < key b then b else best) a)

def minBy : List α → Option α
  | [] => none
  | a :: l => some (l.foldl (fun best b => if key b < key best then b else best) a)

theorem maxBy_isSome {l : List α} (h : l ≠ []) : ∃ a, maxBy key l = some a := by
  cases l with
  | nil => exact absurd rfl h
  | cons a l => exact ⟨_,rfl⟩

theorem minBy_isSome {l : List α} (h : l ≠ []) : ∃ a, minBy key l = some a := by
  cases l with
  | nil => exact absurd rfl h
  | cons a l => exact ⟨_,rfl⟩

variable {key}

theorem foldl_min_spec {κ : Type*} [LinearOrder κ] (key : α → κ) (a : α) (l : List α) :
    l.foldl (fun best b => if key b < key best then b else best) a ∈ a :: l ∧
      ∀ b ∈ a :: l, key (l.foldl (fun best b => if key b < key best then b else best) a) ≤
        key b := by
  induction l generalizing a with
  | nil => simp
  | cons c l ih =>
    rw [List.foldl_cons]
    by_cases hlt : key c < key a
    · rw [if_pos hlt]
      obtain ⟨hmem,hmin⟩ := ih c
      refine ⟨List.mem_cons_of_mem _ hmem,fun b hb => ?_⟩
      rcases List.mem_cons.mp hb with hba | hb
      · rw [hba]
        exact (hmin c List.mem_cons_self).trans hlt.le
      · exact hmin b hb
    · rw [if_neg hlt]
      obtain ⟨hmem,hmin⟩ := ih a
      have hle := hmin a List.mem_cons_self
      refine ⟨?_,fun b hb => ?_⟩
      · rcases List.mem_cons.mp hmem with h | h
        · rw [h]
          exact List.mem_cons_self
        · exact List.mem_cons_of_mem _ (List.mem_cons_of_mem _ h)
      · rcases List.mem_cons.mp hb with hba | hb
        · rw [hba]
          exact hle
        · rcases List.mem_cons.mp hb with hbc | hb
          · rw [hbc]
            exact hle.trans (not_lt.mp hlt)
          · exact hmin b (List.mem_cons_of_mem _ hb)

theorem minBy_spec {l : List α} {a : α} (h : minBy key l = some a) :
    a ∈ l ∧ ∀ b ∈ l, key a ≤ key b := by
  cases l with
  | nil => cases h
  | cons b l =>
    rw [minBy,Option.some.injEq] at h
    rw [← h]
    exact foldl_min_spec key b l

theorem maxBy_spec {l : List α} {a : α} (h : maxBy key l = some a) :
    a ∈ l ∧ ∀ b ∈ l, key b ≤ key a := by
  cases l with
  | nil => cases h
  | cons b l =>
    rw [maxBy,Option.some.injEq] at h
    rw [← h]
    exact foldl_min_spec (fun c => OrderDual.toDual (key c)) b l

end Extremes

section Dict

variable {α κ : Type*} [DecidableEq κ]

/-- `{key(a): a for a in l}.get(k)`: a later member overwrites an earlier one. -/
def dictGet (key : α → κ) (l : List α) (k : κ) : Option α :=
  l.reverse.find? fun a => decide (key a = k)

theorem dictGet_some {key : α → κ} {l : List α} {k : κ} {a : α}
    (h : dictGet key l k = some a) : a ∈ l ∧ key a = k := by
  have hmem := List.mem_of_find?_eq_some h
  have hkey := List.find?_some h
  exact ⟨List.mem_reverse.mp hmem,of_decide_eq_true hkey⟩

theorem dictGet_eq_none {key : α → κ} {l : List α} {k : κ} :
    dictGet key l k = none ↔ ∀ a ∈ l, key a ≠ k := by
  simp [dictGet,List.find?_eq_none]

theorem dictGet_eq_some {key : α → κ} {l : List α} (hl : (l.map key).Nodup) {k : κ} {a : α} :
    dictGet key l k = some a ↔ a ∈ l ∧ key a = k := by
  refine ⟨dictGet_some,fun h => ?_⟩
  cases hget : dictGet key l k with
  | none => exact absurd h.2 (dictGet_eq_none.mp hget a h.1)
  | some b =>
    obtain ⟨hb,hkey⟩ := dictGet_some hget
    rw [List.inj_on_of_nodup_map hl hb h.1 (hkey.trans h.2.symm)]

theorem lookup_eq_some {β : Type*} {l : List (κ × β)} (hl : (l.map Prod.fst).Nodup) {k : κ}
    {b : β} : l.lookup k = some b ↔ (k,b) ∈ l := by
  induction l with
  | nil => simp
  | cons e l ih =>
    obtain ⟨k',b'⟩ := e
    rw [List.map_cons,List.nodup_cons] at hl
    rw [List.mem_cons,Prod.mk.injEq]
    by_cases hk : k = k'
    · have hnot : (k,b) ∉ l := fun hmem => hl.1 (List.mem_map.mpr ⟨(k,b),hmem,hk⟩)
      have hlookup : List.lookup k ((k',b') :: l) = some b' := by simp [List.lookup,hk]
      rw [hlookup,Option.some.injEq]
      exact ⟨fun h => .inl ⟨hk,h.symm⟩,fun h => h.elim (fun h => h.2.symm) (absurd · hnot)⟩
    · have hlookup : List.lookup k ((k',b') :: l) = l.lookup k := by
        rw [List.lookup,beq_eq_false_iff_ne.mpr hk]
      rw [hlookup,ih hl.2]
      exact ⟨.inr,fun h => h.elim (fun h => absurd h.1 hk) id⟩

theorem perm_iff_lookup {β : Type*} {l m : List (κ × β)} (hl : (l.map Prod.fst).Nodup)
    (hm : (m.map Prod.fst).Nodup) : l.Perm m ↔ ∀ k, l.lookup k = m.lookup k := by
  rw [List.perm_ext_iff_of_nodup (hl.of_map _) (hm.of_map _)]
  constructor
  · intro h k
    ext b
    rw [lookup_eq_some hl,lookup_eq_some hm,h]
  · rintro h ⟨k,b⟩
    rw [← lookup_eq_some hl,← lookup_eq_some hm,h]

end Dict

end PyCollections
