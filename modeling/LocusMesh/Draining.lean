import Mathlib
import LocusMesh.Running

/-! No node is queued twice, so that as many rounds as there are nodes drain all generators. -/
namespace PyYaml

open Fallible

variable {ν κ ε : Type} [DecidableEq ν]

/-- The nodes that are queued on the way were not yet constructed, and are now. -/
structure Queues (s s' : Loading ν κ) : Prop extends Extends s s' where
  queued : ∃ new, s'.generators = s.generators ++ new ∧ (new.map Prod.fst).Nodup ∧
    ∀ n ∈ new.map Prod.fst, s.constructed n = none ∧ ∃ o, s'.constructed n = some o

variable {s s' s'' : Loading ν κ}

omit [DecidableEq ν] in
theorem queues_same (hconstructed : s'.constructed = s.constructed)
    (hrecursive : s'.recursive = s.recursive) (hgenerators : s'.generators = s.generators) :
    Queues s s' := by
  refine ⟨⟨fun n o h => by rw [hconstructed,h],hrecursive⟩,[],?_,List.nodup_nil,by simp⟩
  rw [hgenerators,List.append_nil]

omit [DecidableEq ν] in
theorem Queues.refl (s : Loading ν κ) : Queues s s := queues_same rfl rfl rfl

omit [DecidableEq ν] in
theorem Queues.trans (h : Queues s s') (h' : Queues s' s'') : Queues s s'' := by
  obtain ⟨new,hnew,hnodup,hfresh⟩ := h.queued
  obtain ⟨new',hnew',hnodup',hfresh'⟩ := h'.queued
  refine ⟨h.toExtends.trans h'.toExtends,new ++ new',?_,?_,?_⟩
  · rw [hnew',hnew,List.append_assoc]
  · rw [List.map_append,List.nodup_append]
    refine ⟨hnodup,hnodup',fun a ha b hb hab => ?_⟩
    obtain ⟨o,ho⟩ := (hfresh a ha).2
    rw [hab,(hfresh' b hb).1] at ho
    cases ho
  · intro n hn
    rw [List.map_append,List.mem_append] at hn
    rcases hn with hn | hn
    · obtain ⟨hnone,o,ho⟩ := hfresh n hn
      exact ⟨hnone,o,h'.constructed n o ho⟩
    · obtain ⟨hnone,hsome⟩ := hfresh' n hn
      refine ⟨?_,hsome⟩
      cases hs : s.constructed n with
      | none => rfl
      | some o =>
        rw [h.constructed n o hs] at hnone
        cases hnone

theorem Queues.leave {n : ν} {o : Object ν κ} (h : Queues (s.enter n) s')
    (hn : s.constructed n = none) : Queues s (s'.leave n o) := by
  obtain ⟨new,hnew,hnodup,hfresh⟩ := h.queued
  refine ⟨h.toExtends.leave hn o,new,hnew,hnodup,?_⟩
  intro m hm
  obtain ⟨hnone,p,hp⟩ := hfresh m hm
  refine ⟨hnone,?_⟩
  by_cases hmn : m = n
  · exact ⟨o,by rw [hmn,Loading.leave_self]⟩
  · exact ⟨p,by rw [Loading.leave_of_ne hmn,hp]⟩

theorem queues_respected : Respected ε (Queues (ν := ν) (κ := κ)) where
  refl := .refl
  trans := .trans
  fill s n contents := queues_same rfl rfl rfl
  flatten _ := queues_same rfl rfl rfl
  leave hn h _ := h.leave hn
  queue := by
    intro n s d hn _
    -- the node itself is queued, and constructed as soon as it is left
    have hentered : Extends (s.enter n)
      {(s.enter n).fill n d.empty with generators := s.generators ++ [(n,d)]} := ⟨fun _ _ h => h,rfl⟩
    refine ⟨hentered.leave hn _,[(n,d)],rfl,List.nodup_singleton n,?_⟩
    intro m hm
    rw [List.mem_singleton.mp hm]
    exact ⟨hn,_,Loading.leave_self _ n _⟩

/-- So many rounds are left for the queue: those nodes that are through take no part in it. -/
structure Drainable [Fintype ν] (s : Loading ν κ) (rounds : ℕ) : Prop where
  through : ∃ done : Finset ν, done.card + rounds = Fintype.card ν ∧
    (∀ n ∈ done, ∃ o, s.constructed n = some o) ∧ ∀ n ∈ done, n ∉ s.generators.map Prod.fst
  distinct : (s.generators.map Prod.fst).Nodup
  constructed : ∀ n ∈ s.generators.map Prod.fst, ∃ o, s.constructed n = some o

section Rounds

variable [DecidableEq κ] [Fintype ν] {rounds : ℕ} {mapping : MappingConstructor ν κ ε}
  {scalars : Scalars κ ε}

omit [DecidableEq ν] [DecidableEq κ] in
theorem Drainable.rounds_pos (h : Drainable s rounds) {n : ν} {d : Deferred}
    {generators : List (ν × Deferred)} (hs : s.generators = (n,d) :: generators) : 0 < rounds := by
  obtain ⟨done,hcard,_,hnot⟩ := h.through
  rw [Nat.pos_iff_ne_zero]
  rintro rfl
  have hall : done = Finset.univ := Finset.card_eq_iff_eq_univ done |>.mp hcard
  exact hnot n (by rw [hall]; exact Finset.mem_univ n) (by simp [hs])

omit [DecidableEq κ] in
/-- After a round its node is through, and what it has queued is new. -/
theorem Drainable.next (h : Drainable s (rounds + 1)) {n : ν} {d : Deferred}
    {generators : List (ν × Deferred)} (hs : s.generators = (n,d) :: generators)
    (hqueues : Queues {s with generators := generators} s') : Drainable s' rounds := by
  obtain ⟨done,hcard,hdone,hnot⟩ := h.through
  obtain ⟨new,hnew,hnodup,hfresh⟩ := hqueues.queued
  have hdistinct := h.distinct
  have hconstructed := h.constructed
  rw [hs,List.map_cons,List.nodup_cons] at hdistinct
  rw [hs,List.map_cons,List.forall_mem_cons] at hconstructed
  have hold : ∀ m ∈ new.map Prod.fst, ∀ o, s.constructed m ≠ some o := by
    intro m hm o ho
    have hnone := (hfresh m hm).1
    rw [show s.constructed m = none from hnone] at ho
    cases ho
  have hn : n ∉ done := fun hin => hnot n hin (by simp [hs])
  have hlater : s'.generators = generators ++ new := hnew
  refine ⟨⟨insert n done,?_,?_,?_⟩,?_,?_⟩
  · rw [Finset.card_insert_of_notMem hn]
    omega
  · intro m hm
    rcases Finset.mem_insert.mp hm with rfl | hm
    · obtain ⟨o,ho⟩ := hconstructed.1
      exact ⟨o,hqueues.constructed _ o ho⟩
    · obtain ⟨o,ho⟩ := hdone m hm
      exact ⟨o,hqueues.constructed m o ho⟩
  · intro m hm hin
    rw [hlater,List.map_append,List.mem_append] at hin
    rcases Finset.mem_insert.mp hm with rfl | hm
    · rcases hin with hin | hin
      · exact hdistinct.1 hin
      · obtain ⟨o,ho⟩ := hconstructed.1
        exact hold _ hin o ho
    · rcases hin with hin | hin
      · exact hnot m hm (by rw [hs,List.map_cons]; exact List.mem_cons_of_mem _ hin)
      · obtain ⟨o,ho⟩ := hdone m hm
        exact hold m hin o ho
  · rw [hlater,List.map_append,List.nodup_append]
    refine ⟨hdistinct.2,hnodup,fun a ha b hb hab => ?_⟩
    obtain ⟨o,ho⟩ := hconstructed.2 a ha
    exact hold b hb o (by rw [← hab]; exact ho)
  · intro m hm
    rw [hlater,List.map_append,List.mem_append] at hm
    rcases hm with hm | hm
    · obtain ⟨o,ho⟩ := hconstructed.2 m hm
      exact ⟨o,hqueues.constructed m o ho⟩
    · exact (hfresh m hm).2

omit [DecidableEq ν] [DecidableEq κ] in
theorem drainable_start {g : NodeGraph ν} {found : Object ν κ × Loading ν κ}
    (h : Queues ⟨g,fun _ => none,fun _ => none,[],[]⟩ found.2) :
    Drainable found.2 (Fintype.card ν) := by
  obtain ⟨new,hnew,hnodup,hfresh⟩ := h.queued
  rw [List.nil_append] at hnew
  refine ⟨⟨∅,by simp,by simp,by simp⟩,?_,?_⟩
  · rw [hnew]
    exact hnodup
  · rw [hnew]
    exact fun n hn => (hfresh n hn).2

omit [Fintype ν] in
theorem drain_nil {limit : ℕ} (hs : s.generators = []) :
    drain mapping scalars limit rounds s = .ok s := by
  unfold drain
  split
  · rfl
  · rename_i n d generators hjobs
    rw [hs] at hjobs
    cases hjobs

omit [Fintype ν] in
theorem drain_cons {limit : ℕ} {n : ν} {d : Deferred} {generators : List (ν × Deferred)}
    (hs : s.generators = (n,d) :: generators) :
    drain mapping scalars limit (rounds + 1) s =
      resume (constructObject mapping scalars limit) limit n {s with generators := generators} d >>=
        drain mapping scalars limit rounds := by
  rw [drain]
  split
  · rename_i hnil
    rw [hs] at hnil
    cases hnil
  · rename_i n' d' generators' hjobs
    rw [hs] at hjobs
    cases hjobs
    rfl

/-- More rounds make no difference. -/
theorem drain_enough (hmapping : RelatesWith Queues mapping) {limit : ℕ} (more : ℕ)
    (h : Drainable s rounds) :
    drain mapping scalars limit (rounds + more) s = drain mapping scalars limit rounds s := by
  induction rounds generalizing s with
  | zero =>
    cases hs : s.generators with
    | nil => rw [drain_nil hs,drain_nil hs]
    | cons job generators => exact absurd (h.rounds_pos hs) (lt_irrefl 0)
  | succ rounds ih =>
    cases hs : s.generators with
    | nil => rw [drain_nil hs,drain_nil hs]
    | cons job generators =>
      rw [Nat.add_right_comm,drain_cons hs,drain_cons hs]
      cases hresume : resume (constructObject mapping scalars limit) limit job.1
          {s with generators := generators} job.2 with
      | error e => rfl
      | ok mid => exact ih (h.next hs (resume_relates queues_respected hmapping hresume))

/-- The bound on the rounds of a document is no bound. -/
theorem constructDocument_enough (hmapping : RelatesWith Queues mapping) {limit : ℕ} (more : ℕ)
    {g : NodeGraph ν} {root : ν} :
    constructDocument mapping scalars limit (Fintype.card ν + more) g root =
      constructDocument mapping scalars limit (Fintype.card ν) g root := by
  unfold constructDocument
  cases hfound : constructObject mapping scalars limit root
      ⟨g,fun _ => none,fun _ => none,[],[]⟩ with
  | error e => rfl
  | ok found =>
    have hqueues := constructObject_relates queues_respected hmapping limit _ _ _ hfound
    simp only [bind,Except.bind,drain_enough hmapping more (drainable_start hqueues)]

end Rounds

end PyYaml
