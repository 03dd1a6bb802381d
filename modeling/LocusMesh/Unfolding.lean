import Mathlib
import LocusMesh.Draining
import LocusMesh.Trees

/-! A plain document is constructed to its meaning. The constructor fills its lists late and
constructs no node twice; what its objects hold in the end unfolds to the tree of the document. -/
namespace PyYaml

open Fallible

variable {ν κ ε : Type}

section Runs

variable [DecidableEq ν]

def Node.children : Node ν → List ν
  | .scalar _ _ => []
  | .sequence _ items => items
  | .mapping _ entries => entries.flatMap fun entry => [entry.1,entry.2]

variable (scalars : Scalars κ ε) (g : NodeGraph ν)

def objectAt (n : ν) : Object ν κ :=
  match g n with
  | .scalar tag text =>
    match scalars.construct .scalar tag text with
    | .ok datum => datum.object n
    | .error _ => .collection n
  | _ => .collection n

def entryObjects (entries : List (ν × ν)) : List (Object ν κ × Object ν κ) :=
  entries.map fun entry => (objectAt scalars g entry.1,objectAt scalars g entry.2)

def contentsAt (n : ν) : Option (Contents ν κ) :=
  match g n with
  | .scalar _ _ => none
  | .sequence _ items => some (.list (items.map (objectAt scalars g)))
  | .mapping _ entries => some (.dict (entryObjects scalars g entries))

/-- The object of a node holds what it should, and its parts are constructed. -/
structure Full (s : Loading ν κ) (n : ν) : Prop where
  contents : ∀ c, contentsAt scalars g n = some c → s.contents n = some c
  parts : ∀ m ∈ (g n).children, ∃ o, s.constructed m = some o

/-- The invariant of a run on a plain document: all constructed nodes are full, but for the
lists that have a generator, or are among `pending`. -/
structure Follows (bound : ℕ) (pending : List ν) (s : Loading ν κ) : Prop where
  graph : s.graph = g
  objects : ∀ n o, s.constructed n = some o → o = objectAt scalars g n
  full : ∀ n o, s.constructed n = some o → n ∉ pending → n ∉ s.generators.map Prod.fst →
    Full scalars g s n
  queued : ∀ job ∈ s.generators, job.2 = .sequence ∧ ∃ items, Means scalars g (.list items) job.1 ∧
    (Tree.list items).depth ≤ bound

variable {scalars g} {bound : ℕ} {pending : List ν} {s s' : Loading ν κ} {n : ν}

omit [DecidableEq ν] in
theorem objectAt_key {key : κ} (h : MeansKey scalars g key n) :
    objectAt scalars g n = .scalar key := by
  obtain ⟨tag,text,hn,_,hkey⟩ := h
  simp only [objectAt,hn,hkey]
  rfl

omit [DecidableEq ν] in
theorem meansEntries_key {entries : List (κ × Tree κ)} {nodes : List (ν × ν)}
    (h : MeansEntries scalars g entries nodes) :
    ∀ entry ∈ nodes, ∃ key, MeansKey scalars g key entry.1 := by
  induction entries generalizing nodes with
  | nil =>
    obtain rfl : nodes = [] := h
    simp
  | cons e es ih =>
    obtain ⟨k,v,rest,rfl,hk,_,hes⟩ := h
    exact List.forall_mem_cons.mpr ⟨⟨e.1,hk⟩,ih hes⟩

omit [DecidableEq ν] in
theorem entryObjects_keys {entries : List (κ × Tree κ)} {nodes : List (ν × ν)}
    (h : MeansEntries scalars g entries nodes) : (entryObjects scalars g nodes).map Prod.fst =
      entries.map fun e => (.scalar e.1 : Object ν κ) := by
  induction entries generalizing nodes with
  | nil =>
    obtain rfl : nodes = [] := h
    rfl
  | cons e es ih =>
    obtain ⟨k,v,rest,rfl,hk,_,hes⟩ := h
    have hrest := ih hes
    rw [entryObjects] at hrest ⊢
    rw [List.map_cons,List.map_cons,hrest,List.map_cons,objectAt_key hk]

omit [DecidableEq ν] in
theorem Full.mono (h : Full scalars g s n) (hextends : ∀ m o, s.constructed m = some o →
      ∃ o', s'.constructed m = some o') (hcontents : s'.contents n = s.contents n) :
    Full scalars g s' n where
  contents c hc := hcontents.trans (h.contents c hc)
  parts m hm := by
    obtain ⟨o,ho⟩ := h.parts m hm
    exact hextends m o ho

omit [DecidableEq ν] in
theorem Follows.enter (h : Follows scalars g bound pending s) (n : ν) :
    Follows scalars g bound pending (s.enter n) :=
  ⟨h.graph,h.objects,fun m o ho hp hq => (h.full m o ho hp hq).mono (fun _ o ho => ⟨o,ho⟩) rfl,
    h.queued⟩

theorem Loading.leave_constructed {m : ν} {o : Object ν κ} (h : s.constructed m = some o) (n : ν)
    (p : Object ν κ) : ∃ o', (s.leave n p).constructed m = some o' := by
  by_cases hm : m = n
  · exact ⟨p,by rw [hm,Loading.leave_self]⟩
  · exact ⟨o,by rw [Loading.leave_of_ne hm,h]⟩

theorem Follows.leave (h : Follows scalars g bound pending s)
    (hn : n ∈ s.generators.map Prod.fst ∨ Full scalars g s n) :
    Follows scalars g bound pending (s.leave n (objectAt scalars g n)) := by
  refine ⟨h.graph,?_,?_,h.queued⟩
  · intro m o ho
    by_cases hm : m = n
    · rw [hm,Loading.leave_self,Option.some.injEq] at ho
      rw [hm,ho]
    · rw [Loading.leave_of_ne hm] at ho
      exact h.objects m o ho
  · intro m o ho hp hq
    have hfull : Full scalars g s m := by
      by_cases hm : m = n
      · rw [hm] at hq ⊢
        exact hn.resolve_left hq
      · rw [Loading.leave_of_ne hm] at ho
        exact h.full m o ho hp hq
    exact hfull.mono (fun _ _ ho => Loading.leave_constructed ho n _) rfl

theorem Loading.fill_self (s : Loading ν κ) (n : ν) (c : Contents ν κ) :
    (s.fill n c).contents n = some c :=
  Function.update_self n _ _

theorem Follows.fill (h : Follows scalars g bound pending s) {c : Contents ν κ}
    (hc : contentsAt scalars g n = some c) : Follows scalars g bound pending (s.fill n c) := by
  refine ⟨h.graph,h.objects,?_,h.queued⟩
  intro m o ho hp hq
  have hfull := h.full m o ho hp hq
  by_cases hm : m = n
  · rw [hm] at hfull ⊢
    refine ⟨fun c' hc' => ?_,hfull.parts⟩
    rw [Loading.fill_self,← hc,hc']
  · exact hfull.mono (fun _ o ho => ⟨o,ho⟩) (Function.update_of_ne hm _ _)

theorem full_of_fill {c : Contents ν κ} (hc : contentsAt scalars g n = some c)
    (hparts : ∀ m ∈ (g n).children, ∃ o, s.constructed m = some o) :
    Full scalars g (s.fill n c) n := by
  refine ⟨fun c' hc' => ?_,hparts⟩
  rw [Loading.fill_self,← hc,hc']

theorem Follows.queue (h : Follows scalars g bound pending s) {items : List (Tree κ)}
    (hn : Means scalars g (.list items) n) (hdepth : (Tree.list items).depth ≤ bound) :
    Follows scalars g bound pending
      {s.fill n (.list []) with generators := s.generators ++ [(n,.sequence)]} := by
  refine ⟨h.graph,h.objects,?_,?_⟩
  · intro m o ho hp hq
    rw [List.map_append,List.mem_append,not_or] at hq
    have hm : m ≠ n := fun hmn => hq.2 (by rw [hmn]; exact List.mem_singleton_self n)
    exact (h.full m o ho hp hq.1).mono (fun _ o ho => ⟨o,ho⟩) (Function.update_of_ne hm _ _)
  · intro job hjob
    rcases List.mem_append.mp hjob with hjob | hjob
    · exact h.queued job hjob
    · rw [List.mem_singleton.mp hjob]
      exact ⟨rfl,items,hn,hdepth⟩

section Steps

/-- The objects of the keys and the values in their order. -/
def constructKeyed (construct : Construct ν κ ε) : List (ν × ν) → Loading ν κ →
    Except (YamlFailure ε) (List (Object ν κ × Object ν κ) × Loading ν κ)
  | [], s => .ok ([],s)
  | (k,v) :: entries, s => do
    let key ← construct k s
    let value ← construct v key.2
    let rest ← constructKeyed construct entries value.2
    .ok ((key.1,value.1) :: rest.1,rest.2)

/-- The constructor of dicts takes the entries of a plain mapping as they come. -/
def Builds (mapping : MappingConstructor ν κ ε) : Prop :=
  ∀ construct limit n s nodes found, s.graph n = .mapping .map nodes →
    (∀ entry ∈ nodes, (s.graph entry.1).tag.isScalar = true) →
    constructKeyed construct nodes s = .ok found → (found.1.map Prod.fst).Nodup →
    (∀ entry ∈ found.1, ∃ key, entry.1 = .scalar key) →
    mapping construct (limit + 1) n s = .ok found

variable (scalars g bound) in
/-- Nodes whose trees are no deeper are constructed to their objects, unless they are under
construction themselves. -/
def FollowsWithin (depth : ℕ) (construct : Construct ν κ ε) : Prop :=
  ∀ t n s pending, Means scalars g t n → t.depth ≤ depth → Follows scalars g bound pending s →
    (∀ m ∈ s.recursive, ∀ t', Means scalars g t' m → t.depth < t'.depth) →
    ∃ s', construct n s = .ok (objectAt scalars g n,s') ∧ Follows scalars g bound pending s' ∧
      Extends s s' ∧ ∃ o, s'.constructed n = some o

variable {depth : ℕ} {construct : Construct ν κ ε}
  (hconstruct : FollowsWithin scalars g bound depth construct)

include hconstruct

omit [DecidableEq ν] in
theorem constructItems_follows {items : List (Tree κ)} {nodes : List ν}
    (hitems : MeansItems scalars g items nodes) (hdepth : Tree.depthItems items ≤ depth)
    (hs : Follows scalars g bound pending s) (hrecursive : s.recursive = []) :
    ∃ s', constructItems construct nodes s = .ok (nodes.map (objectAt scalars g),s') ∧
      Follows scalars g bound pending s' ∧ Extends s s' ∧
      ∀ m ∈ nodes, ∃ o, s'.constructed m = some o := by
  induction items generalizing nodes s with
  | nil =>
    obtain rfl : nodes = [] := hitems
    exact ⟨s,rfl,hs,.refl s,by simp⟩
  | cons t ts ih =>
    obtain ⟨n,rest,rfl,ht,hts⟩ := hitems
    rw [Tree.depthItems,max_le_iff] at hdepth
    obtain ⟨s₁,h₁,hs₁,hext₁,o,ho⟩ := hconstruct t n s pending ht hdepth.1 hs
      (by rw [hrecursive]; simp)
    obtain ⟨s₂,h₂,hs₂,hext₂,hparts⟩ := ih hts hdepth.2 hs₁ (hext₁.recursive.trans hrecursive)
    refine ⟨s₂,?_,hs₂,hext₁.trans hext₂,?_⟩
    · rw [constructItems,h₁]
      simp only [bind,Except.bind,h₂]
      rfl
    · rw [List.forall_mem_cons]
      exact ⟨⟨o,hext₂.constructed n o ho⟩,hparts⟩

omit [DecidableEq ν] in
theorem constructKeyed_follows {entries : List (κ × Tree κ)} {nodes : List (ν × ν)}
    (hentries : MeansEntries scalars g entries nodes) (hdepth : Tree.depthEntries entries ≤ depth)
    (hs : Follows scalars g bound pending s)
    (hrecursive : ∀ m ∈ s.recursive, ∀ t', Means scalars g t' m →
      Tree.depthEntries entries < t'.depth) :
    ∃ s', constructKeyed construct nodes s = .ok (entryObjects scalars g nodes,s') ∧
      Follows scalars g bound pending s' ∧ Extends s s' ∧
      ∀ entry ∈ nodes, (∃ o, s'.constructed entry.1 = some o) ∧
        ∃ o, s'.constructed entry.2 = some o := by
  induction entries generalizing nodes s with
  | nil =>
    obtain rfl : nodes = [] := hentries
    exact ⟨s,rfl,hs,.refl s,by simp⟩
  | cons e es ih =>
    obtain ⟨key,t⟩ := e
    obtain ⟨k,v,rest,rfl,hk,ht,hes⟩ := hentries
    rw [Tree.depthEntries] at hdepth hrecursive
    have hleft := le_max_left t.depth (Tree.depthEntries es)
    have hright := le_max_right t.depth (Tree.depthEntries es)
    have hone := t.depth_pos
    obtain ⟨s₁,h₁,hs₁,hext₁,o₁,ho₁⟩ := hconstruct (.scalar key) k s pending hk
      (by rw [Tree.depth]; omega) hs
      (fun m hm t' ht' => by have := hrecursive m hm t' ht'; rw [Tree.depth]; omega)
    obtain ⟨s₂,h₂,hs₂,hext₂,o₂,ho₂⟩ := hconstruct t v s₁ pending ht (hleft.trans hdepth) hs₁
      (fun m hm t' ht' => hleft.trans_lt (hrecursive m (hext₁.recursive ▸ hm) t' ht'))
    obtain ⟨s₃,h₃,hs₃,hext₃,hparts⟩ := ih hes (hright.trans hdepth) hs₂
      (fun m hm t' ht' => hright.trans_lt
        (hrecursive m (hext₁.recursive ▸ hext₂.recursive ▸ hm) t' ht'))
    refine ⟨s₃,?_,hs₃,(hext₁.trans hext₂).trans hext₃,?_⟩
    · rw [constructKeyed,h₁]
      simp only [bind,Except.bind,h₂,h₃]
      rfl
    · rw [List.forall_mem_cons]
      exact ⟨⟨⟨o₁,hext₃.constructed k o₁ (hext₂.constructed k o₁ ho₁)⟩,
        ⟨o₂,hext₃.constructed v o₂ ho₂⟩⟩,hparts⟩

end Steps

section Objects

variable {mapping : MappingConstructor ν κ ε} {construct : Construct ν κ ε} {limit : ℕ}

/-- What the constructor of a node leaves before the node is through. -/
def Dispatched (mapping : MappingConstructor ν κ ε) (scalars : Scalars κ ε) (g : NodeGraph ν)
    (bound : ℕ) (pending : List ν) (construct : Construct ν κ ε) (limit : ℕ) (n : ν)
    (s : Loading ν κ) : Prop :=
  ∃ s', dispatch mapping scalars construct limit n s = .ok (objectAt scalars g n,s') ∧
    Follows scalars g bound pending s' ∧ Extends s s' ∧
    (n ∈ s'.generators.map Prod.fst ∨ Full scalars g s' n)

theorem dispatch_scalar {key : κ} (hkey : MeansKey scalars g key n)
    (hs : Follows scalars g bound pending s) :
    Dispatched mapping scalars g bound pending construct (limit + 1) n s := by
  have hobject := objectAt_key hkey
  obtain ⟨tag,text,hn,htag,hconstructed⟩ := hkey
  have hcollection := isCollection_of_isScalar htag
  rw [Tag.isCollection,Bool.or_eq_false_iff,Option.isSome_eq_false_iff,Option.isNone_iff_eq_none,
    beq_eq_false_iff_ne] at hcollection
  have hnode : s.graph n = .scalar tag text := by rw [hs.graph,hn]
  have htext : (constructScalar s.graph (limit + 1) n : Except (YamlFailure ε) String) =
      .ok text := by
    rw [constructScalar,hnode]
  refine ⟨s,?_,hs,.refl s,.inr ⟨fun c hc => ?_,fun m hm => ?_⟩⟩
  · simp only [dispatch,hnode,Node.tag,Node.kind,hcollection.1,if_neg hcollection.2,htag,if_true,htext,
      bind,Except.bind,hconstructed,Except.mapError,hobject,Datum.object]
  · rw [contentsAt,hn] at hc
    cases hc
  · rw [hn] at hm
    exact absurd hm List.not_mem_nil

theorem dispatch_list {items : List (Tree κ)} (hitems : Means scalars g (.list items) n)
    (hdepth : (Tree.list items).depth ≤ bound) (hs : Follows scalars g bound pending s) :
    Dispatched mapping scalars g bound pending construct limit n s := by
  have hqueue := hs.queue hitems hdepth
  obtain ⟨nodes,hn,_⟩ := hitems
  have hnode : s.graph n = .sequence .seq nodes := by rw [hs.graph,hn]
  refine ⟨_,?_,hqueue,⟨fun _ _ h => h,rfl⟩,.inl (by simp)⟩
  simp only [dispatch,hnode,Node.tag,Tag.deferred,objectAt,hn]
  rfl

theorem dispatch_dict (hmapping : Builds mapping) {entries : List (κ × Tree κ)}
    (hconstruct : FollowsWithin scalars g bound (Tree.depthEntries entries) construct)
    (hdict : Means scalars g (.dict entries) n) (hs : Follows scalars g bound pending s)
    (hrecursive : ∀ m ∈ s.recursive, ∀ t', Means scalars g t' m →
      Tree.depthEntries entries < t'.depth) :
    Dispatched mapping scalars g bound pending construct (limit + 1) n s := by
  obtain ⟨nodes,hn,hkeys,hentries⟩ := hdict
  have hnode : s.graph n = .mapping .map nodes := by rw [hs.graph,hn]
  obtain ⟨s',hkeyed,hs',hextends,hparts⟩ :=
    constructKeyed_follows hconstruct hentries le_rfl hs hrecursive
  have hfst := entryObjects_keys hentries
  have hscalars : ∀ entry ∈ nodes, (s.graph entry.1).tag.isScalar = true := by
    intro entry hentry
    obtain ⟨key,tag,text,hk,htag,_⟩ := meansEntries_key hentries entry hentry
    rw [hs.graph,hk]
    exact htag
  have hnodup : ((entryObjects scalars g nodes).map Prod.fst).Nodup := by
    rw [hfst]
    have hmap := hkeys.map (f := fun key => (.scalar key : Object ν κ)) fun a b h =>
      Object.scalar.inj h
    rwa [List.map_map] at hmap
  have hscalarKeys : ∀ entry ∈ entryObjects scalars g nodes, ∃ key, entry.1 = .scalar key := by
    intro entry hentry
    obtain ⟨e,_,he⟩ := List.mem_map.mp (hfst ▸ List.mem_map_of_mem hentry)
    exact ⟨e.1,he.symm⟩
  have hmade := hmapping construct limit n s nodes _ hnode hscalars hkeyed hnodup hscalarKeys
  have hcontents : contentsAt scalars g n = some (.dict (entryObjects scalars g nodes)) := by
    rw [contentsAt,hn]
  have hchildren : ∀ m ∈ (g n).children, ∃ o, s'.constructed m = some o := by
    rw [hn]
    intro m hm
    obtain ⟨entry,hentry,hm⟩ := List.mem_flatMap.mp hm
    rcases List.mem_cons.mp hm with rfl | hm
    · exact (hparts entry hentry).1
    · rw [List.mem_singleton.mp hm]
      exact (hparts entry hentry).2
  refine ⟨s'.fill n (.dict (entryObjects scalars g nodes)),?_,hs'.fill hcontents,
    ⟨hextends.constructed,hextends.recursive⟩,.inr (full_of_fill hcontents hchildren)⟩
  simp only [dispatch,hnode,Node.tag,Tag.deferred,if_true,hmade,bind,Except.bind,objectAt,hn]

/-- Every node with a meaning is constructed to its object. -/
theorem constructObject_follows (hmapping : Builds mapping) {depth : ℕ} (hlimit : depth < limit)
    (hbound : depth ≤ bound) :
    FollowsWithin scalars g bound depth (constructObject mapping scalars limit) := by
  induction limit generalizing depth with
  | zero => exact absurd hlimit (Nat.not_lt_zero depth)
  | succ limit ih =>
    intro t n s pending ht hdepth hs hrecursive
    cases hcached : s.constructed n with
    | some o =>
      refine ⟨s,?_,hs,.refl s,o,hcached⟩
      rw [constructObject,hcached,hs.objects n o hcached]
    | none =>
      have hfresh : n ∉ s.recursive := fun hm => lt_irrefl _ (hrecursive n hm t ht)
      have hdispatched : Dispatched mapping scalars g bound pending
          (constructObject mapping scalars limit) limit n (s.enter n) := by
        have hpos := t.depth_pos
        obtain ⟨more,rfl⟩ : ∃ more, limit = more + 1 := Nat.exists_eq_succ_of_ne_zero (by omega)
        cases t with
        | scalar key => exact dispatch_scalar ht (hs.enter n)
        | list items => exact dispatch_list ht (hdepth.trans hbound) (hs.enter n)
        | dict entries =>
          rw [Tree.depth] at hdepth hrecursive
          refine dispatch_dict hmapping (ih (by omega) (by omega)) ht (hs.enter n) ?_
          intro m hm t' ht'
          rcases List.mem_cons.mp hm with rfl | hm
          · -- the node itself means this dict and nothing else
            rw [← means_unique ht ht',Tree.depth]
            exact Nat.lt_succ_self _
          · have hlt := hrecursive m hm t' ht'
            omega
      obtain ⟨s',hmade,hs',hextends,hfull⟩ := hdispatched
      refine ⟨s'.leave n (objectAt scalars g n),?_,hs'.leave hfull,hextends.leave hcached _,_,
        s'.leave_self n _⟩
      rw [constructObject,hcached]
      simp only [if_neg hfresh,bind,Except.bind,hmade]

end Objects

section Queues

variable [DecidableEq κ] {mapping : MappingConstructor ν κ ε} {limit : ℕ}

theorem resume_follows (hmapping : Builds mapping) (hbound : bound < limit)
    {items : List (Tree κ)} (hitems : Means scalars g (.list items) n)
    (hdepth : (Tree.list items).depth ≤ bound) (hs : Follows scalars g bound [n] s)
    (hrecursive : s.recursive = []) :
    ∃ s', resume (constructObject mapping scalars limit) limit n s .sequence = .ok s' ∧
      Follows scalars g bound [] s' ∧ Extends s s' := by
  obtain ⟨nodes,hn,hmeans⟩ := hitems
  rw [Tree.depth] at hdepth
  have hnode : s.graph n = .sequence .seq nodes := by rw [hs.graph,hn]
  obtain ⟨s',hmade,hs',hextends,hparts⟩ := constructItems_follows
    (constructObject_follows hmapping hbound le_rfl) hmeans (Nat.le_of_succ_le hdepth) hs hrecursive
  have hcontents : contentsAt scalars g n = some (.list (nodes.map (objectAt scalars g))) := by
    rw [contentsAt,hn]
  have hchildren : ∀ m ∈ (g n).children, ∃ o, s'.constructed m = some o := by
    rw [hn]
    exact hparts
  have hfilled := hs'.fill hcontents
  refine ⟨s'.fill n (.list (nodes.map (objectAt scalars g))),?_,⟨hfilled.graph,hfilled.objects,?_,
    hfilled.queued⟩,⟨hextends.constructed,hextends.recursive⟩⟩
  · simp only [resume,hnode,hmade,bind,Except.bind]
  · intro m o ho _ hq
    by_cases hm : m = n
    · rw [hm]
      exact full_of_fill hcontents hchildren
    · exact hfilled.full m o ho (by simpa using hm) hq

/-- Once its generators are drained, a document has all its constructed nodes full. -/
theorem drain_follows [Fintype ν] (hmapping : Builds mapping) (hqueues : RelatesWith Queues mapping)
    (hbound : bound < limit) {rounds : ℕ} (hrounds : Drainable s rounds)
    (hs : Follows scalars g bound [] s) (hrecursive : s.recursive = []) :
    ∃ s', drain mapping scalars limit rounds s = .ok s' ∧ s'.generators = [] ∧
      Follows scalars g bound [] s' ∧ Extends s s' := by
  induction rounds generalizing s with
  | zero =>
    cases hjobs : s.generators with
    | nil => exact ⟨s,drain_nil hjobs,hjobs,hs,.refl s⟩
    | cons job generators => exact absurd (hrounds.rounds_pos hjobs) (lt_irrefl 0)
  | succ rounds ih =>
    cases hjobs : s.generators with
    | nil => exact ⟨s,drain_nil hjobs,hjobs,hs,.refl s⟩
    | cons job generators =>
      obtain ⟨n,d⟩ := job
      have hdistinct := hrounds.distinct
      rw [hjobs,List.map_cons,List.nodup_cons] at hdistinct
      have hqueued := hs.queued
      rw [hjobs,List.forall_mem_cons] at hqueued
      obtain ⟨⟨rfl,items,hitems,hdepth⟩,hrest⟩ := hqueued
      have hpopped : Follows scalars g bound [n] {s with generators := generators} := by
        refine ⟨hs.graph,hs.objects,fun m o ho hp hq => ?_,hrest⟩
        rw [List.mem_singleton] at hp
        have hnot : m ∉ s.generators.map Prod.fst := by
          rw [hjobs,List.map_cons,List.mem_cons,not_or]
          exact ⟨hp,hq⟩
        exact (hs.full m o ho List.not_mem_nil hnot).mono (fun _ o ho => ⟨o,ho⟩) rfl
      obtain ⟨s₁,hresume,hs₁,hext₁⟩ :=
        resume_follows hmapping hbound hitems hdepth hpopped hrecursive
      have hnext := hrounds.next hjobs (resume_relates queues_respected hqueues hresume)
      obtain ⟨s₂,hdrain,hdone,hs₂,hext₂⟩ := ih hnext hs₁ (hext₁.recursive.trans hrecursive)
      refine ⟨s₂,?_,hdone,hs₂,⟨fun m o ho => hext₂.constructed m o (hext₁.constructed m o ho),
        hext₂.recursive.trans hext₁.recursive⟩⟩
      rw [drain_cons hjobs,hresume]
      exact hdrain

end Queues

end Runs

section Unfolding

def unfoldEntry (unfold : Object ν κ → Option (Tree κ)) (entry : Object ν κ × Object ν κ) :
    Option (κ × Tree κ) :=
  match entry.1 with
  | .scalar key => (unfold entry.2).map (Prod.mk key)
  | _ => none

/-- The tree that an object stands for, as far as the levels go. -/
def unfoldTree (contents : ν → Option (Contents ν κ)) : ℕ → Object ν κ → Option (Tree κ)
  | 0, _ => none
  | _ + 1, .scalar key => some (.scalar key)
  | _ + 1, .nan _ => none
  | levels + 1, .collection n =>
    match contents n with
    | some (.list items) => (items.mapM (unfoldTree contents levels)).map .list
    | some (.dict entries) => (entries.mapM (unfoldEntry (unfoldTree contents levels))).map .dict
    | _ => none

variable {scalars : Scalars κ ε} {g : NodeGraph ν} {bound : ℕ} {s : Loading ν κ} {levels : ℕ}
  {unfold : Object ν κ → Option (Tree κ)}
  (hunfold : ∀ t n, Means scalars g t n → t.depth ≤ levels → (∃ o, s.constructed n = some o) →
    unfold (objectAt scalars g n) = some t)

include hunfold

theorem unfoldItems_means {items : List (Tree κ)} {nodes : List ν}
    (h : MeansItems scalars g items nodes) (hlevels : Tree.depthItems items ≤ levels)
    (hparts : ∀ m ∈ nodes, ∃ o, s.constructed m = some o) :
    (nodes.map (objectAt scalars g)).mapM unfold = some items := by
  induction items generalizing nodes with
  | nil =>
    obtain rfl : nodes = [] := h
    rfl
  | cons t ts ih =>
    obtain ⟨n,rest,rfl,ht,hts⟩ := h
    rw [Tree.depthItems,max_le_iff] at hlevels
    rw [List.forall_mem_cons] at hparts
    rw [List.map_cons,List.mapM_cons,hunfold t n ht hlevels.1 hparts.1,
      ih hts hlevels.2 hparts.2]
    rfl

theorem unfoldEntries_means {entries : List (κ × Tree κ)} {nodes : List (ν × ν)}
    (h : MeansEntries scalars g entries nodes) (hlevels : Tree.depthEntries entries ≤ levels)
    (hparts : ∀ entry ∈ nodes, ∃ o, s.constructed entry.2 = some o) :
    (entryObjects scalars g nodes).mapM (unfoldEntry unfold) = some entries := by
  induction entries generalizing nodes with
  | nil =>
    obtain rfl : nodes = [] := h
    rfl
  | cons e es ih =>
    obtain ⟨k,v,rest,rfl,hk,ht,hes⟩ := h
    rw [Tree.depthEntries,max_le_iff] at hlevels
    rw [List.forall_mem_cons] at hparts
    have hrest := ih hes hlevels.2 hparts.2
    have hentry : unfoldEntry unfold (objectAt scalars g k,objectAt scalars g v) = some e := by
      rw [unfoldEntry,objectAt_key hk]
      simp only [hunfold e.2 v ht hlevels.1 hparts.1,Option.map_some]
    rw [entryObjects] at hrest ⊢
    rw [List.map_cons,List.mapM_cons,hentry,hrest]
    rfl

omit hunfold

theorem Follows.unfolds (hs : Follows scalars g bound [] s) (hdone : s.generators = [])
    {t : Tree κ} {n : ν} (ht : Means scalars g t n) (hlevels : t.depth ≤ levels)
    (hn : ∃ o, s.constructed n = some o) :
    unfoldTree s.contents levels (objectAt scalars g n) = some t := by
  induction levels generalizing t n with
  | zero => exact absurd hlevels (Nat.not_le.mpr t.depth_pos)
  | succ levels ih =>
    obtain ⟨o,ho⟩ := hn
    have hfull := hs.full n o ho List.not_mem_nil (by simp [hdone])
    have hunfold : ∀ t n, Means scalars g t n → t.depth ≤ levels →
        (∃ o, s.constructed n = some o) →
        unfoldTree s.contents levels (objectAt scalars g n) = some t :=
      fun _ _ ht hlevels hn => ih ht hlevels hn
    have hparts := hfull.parts
    cases t with
    | scalar key =>
      have hkey : MeansKey scalars g key n := ht
      rw [objectAt_key hkey,unfoldTree]
    | list items =>
      obtain ⟨nodes,hnode,hitems⟩ := ht
      rw [Tree.depth,Nat.succ_le_succ_iff] at hlevels
      rw [hnode] at hparts
      have hobject : objectAt scalars g n = .collection n := by rw [objectAt,hnode]
      have hcontents := hfull.contents _ (by rw [contentsAt,hnode])
      have hlist := unfoldItems_means hunfold hitems hlevels hparts
      rw [hobject,unfoldTree,hcontents]
      simp only [hlist,Option.map_some]
    | dict entries =>
      obtain ⟨nodes,hnode,_,hentries⟩ := ht
      rw [Tree.depth,Nat.succ_le_succ_iff] at hlevels
      rw [hnode] at hparts
      have hobject : objectAt scalars g n = .collection n := by rw [objectAt,hnode]
      have hcontents := hfull.contents _ (by rw [contentsAt,hnode])
      have hvalues : ∀ entry ∈ nodes, ∃ o, s.constructed entry.2 = some o := fun entry hentry =>
        hparts entry.2 (List.mem_flatMap.mpr ⟨entry,hentry,by simp⟩)
      have hdict := unfoldEntries_means hunfold hentries hlevels hvalues
      rw [hobject,unfoldTree,hcontents]
      simp only [hdict,Option.map_some]

variable [DecidableEq ν] [DecidableEq κ] [Fintype ν] {mapping : MappingConstructor ν κ ε}
  {limit : ℕ}

/-- A document that means a tree is constructed to objects that stand for it. -/
theorem constructDocument_means (hmapping : Builds mapping) (hqueues : RelatesWith Queues mapping)
    {t : Tree κ} {root : ν} (ht : Means scalars g t root) (hlimit : t.depth < limit) :
    ∃ found, constructDocument mapping scalars limit (Fintype.card ν) g root = .ok found ∧
      unfoldTree found.2.contents (Fintype.card ν) found.1 = some t := by
  let start : Loading ν κ := ⟨g,fun _ => none,fun _ => none,[],[]⟩
  have hstart : Follows scalars g t.depth [] start := by
    refine ⟨rfl,fun n o h => ?_,fun n o h => ?_,by simp [start]⟩
    · cases h
    · cases h
  obtain ⟨s₁,hroot,hs₁,hext₁,o,ho⟩ := constructObject_follows hmapping hlimit le_rfl t root start []
    ht le_rfl hstart (by simp [start])
  have hdrainable : Drainable s₁ (Fintype.card ν) :=
    drainable_start (constructObject_relates queues_respected hqueues limit _ _ _ hroot)
  obtain ⟨s₂,hdrain,hdone,hs₂,hext₂⟩ :=
    drain_follows hmapping hqueues hlimit hdrainable hs₁ hext₁.recursive
  refine ⟨(objectAt scalars g root,s₂),?_,?_⟩
  · rw [constructDocument]
    simp only [bind,Except.bind,hdrain,show constructObject mapping scalars limit root
      ⟨g,fun _ => none,fun _ => none,[],[]⟩ = _ from hroot]
  · exact hs₂.unfolds hdone ht (means_depth_le ht) ⟨o,hext₂.constructed root o ho⟩

end Unfolding

end PyYaml
