import Mathlib
import LocusMesh.Merging

/-! What the constructor has done of a document once it is through: every part of the document
is constructed, as the node says, and the entries of every plain mapping have distinct keys,
where the constructor of plain mappings sees to it. -/
namespace PyYaml

open Fallible

variable {ν κ ε : Type}

/-- The nodes that are constructed with `n`, where they can be told from the document. -/
inductive Part (g : NodeGraph ν) (n : ν) : ν → Prop
  | key {depth : ℕ} {entry : ν × ν} (htag : (g n).tag = .map ∨ (g n).tag = .set)
    (hmerges : g.MergesWithin depth n) (hentry : entry ∈ g.flattened depth n) : Part g n entry.1
  | value {depth : ℕ} {entry : ν × ν} (htag : (g n).tag = .map ∨ (g n).tag = .set)
    (hmerges : g.MergesWithin depth n) (hentry : entry ∈ g.flattened depth n) : Part g n entry.2
  | item {items : List ν} {item : ν} (hnode : g n = .sequence .seq items)
    (hitem : item ∈ items) : Part g n item
  | pairKey {t : Tag} {items : List ν} {item : ν} {depth : ℕ} {entry : ν × ν}
    (hnode : g n = .sequence t items) (htag : t.deferred = some .pairs) (hitem : item ∈ items)
    (hmerges : g.MergesWithin depth item) (hentry : entry ∈ g.flattened depth item) :
    Part g n entry.1
  | pairValue {t : Tag} {items : List ν} {item : ν} {depth : ℕ} {entry : ν × ν}
    (hnode : g n = .sequence t items) (htag : t.deferred = some .pairs) (hitem : item ∈ items)
    (hmerges : g.MergesWithin depth item) (hentry : entry ∈ g.flattened depth item) :
    Part g n entry.2

/-- The tags whose constructors yield a collection. -/
def Tag.isCollection (t : Tag) : Bool := t.deferred.isSome || t == .map

@[simp] theorem isCollection_settled (t : Tag) : t.settled.isCollection = t.isCollection := by
  cases t <;> rfl

theorem isCollection_of_isScalar {t : Tag} (h : t.isScalar = true) : t.isCollection = false := by
  cases t <;> first | rfl | cases h

/-- What a node of a shape is constructed to. A mapping that is read as a scalar may become
any. -/
inductive Denotes (scalars : Scalars κ ε) (n : ν) : Node ν → Object ν κ → Prop
  | scalar {t : Tag} {value : String} {datum : Datum κ} (htag : t.isScalar = true)
    (h : scalars.construct .scalar t value = .ok datum) :
    Denotes scalars n (.scalar t value) (datum.object n)
  | mapping {t : Tag} {entries : List (ν × ν)} (htag : t.isScalar = true) (o : Object ν κ) :
    Denotes scalars n (.mapping t entries) o
  | collection {node : Node ν} (htag : node.tag.isCollection = true) :
    Denotes scalars n node (.collection n)

abbrev Constructed (ν κ : Type) := ν → Option (Object ν κ)

def BothConstructed (constructed : Constructed ν κ) (entries : List (ν × ν)) : Prop :=
  ∀ entry ∈ entries, (∃ o, constructed entry.1 = some o) ∧ ∃ o, constructed entry.2 = some o

structure DistinctKeys (constructed : Constructed ν κ) (entries : List (ν × ν)) : Prop where
  hashable : ∀ entry ∈ entries, ∃ o, constructed entry.1 = some o ∧ ∀ m, o ≠ .collection m
  distinct : entries.Pairwise fun e e' => constructed e.1 ≠ constructed e'.1

/-- All parts of a node are constructed, and its keys differ where it is a plain mapping. -/
structure Filled (g : NodeGraph ν) (constructed : Constructed ν κ) (n : ν) : Prop where
  parts : ∀ m, Part g n m → ∃ o, constructed m = some o
  keys : (g n).tag = .map → ∀ depth, g.MergesWithin depth n →
    DistinctKeys constructed (g.flattened depth n)

/-- What is constructed stays so, and the nodes under construction are the same. -/
structure Extends (s s' : Loading ν κ) : Prop where
  constructed : ∀ n o, s.constructed n = some o → s'.constructed n = some o
  recursive : s'.recursive = s.recursive

/-- The invariant of a run on `g`. All constructed nodes are filled, but for those that have a
generator, or are among `pending`. -/
structure Sound (g : NodeGraph ν) (scalars : Scalars κ ε) (pending : List ν)
    (s : Loading ν κ) : Prop where
  graph : Flattening g s.graph
  recursive : ∀ n ∈ s.recursive, s.constructed n = none
  denotes : ∀ n o, s.constructed n = some o → Denotes scalars n (g.shape n) o
  generated : ∀ job ∈ s.generators, (g job.1).tag.deferred = some job.2
  filled : ∀ n o, s.constructed n = some o → n ∉ pending → (∀ d, (n,d) ∉ s.generators) →
    Filled g s.constructed n

variable {g : NodeGraph ν} {scalars : Scalars κ ε} {pending : List ν}
  {s s' s'' : Loading ν κ} {constructed constructed' : Constructed ν κ}

theorem Extends.refl (s : Loading ν κ) : Extends s s := ⟨fun _ _ h => h,rfl⟩

theorem Extends.trans (h : Extends s s') (h' : Extends s' s'') : Extends s s'' :=
  ⟨fun n o hn => h'.constructed n o (h.constructed n o hn),h'.recursive.trans h.recursive⟩

section Monotone

variable (h : ∀ n o, constructed n = some o → constructed' n = some o)

include h

theorem constructed_mono {n : ν} (hn : ∃ o, constructed n = some o) :
    ∃ o, constructed' n = some o :=
  hn.imp (h n)

theorem DistinctKeys.mono {entries : List (ν × ν)} (hkeys : DistinctKeys constructed entries) :
    DistinctKeys constructed' entries := by
  constructor
  · intro entry hentry
    obtain ⟨o,ho,hhash⟩ := hkeys.hashable entry hentry
    exact ⟨o,h _ o ho,hhash⟩
  · apply hkeys.distinct.imp_of_mem
    intro e e' he he' hne heq
    obtain ⟨o,ho,_⟩ := hkeys.hashable e he
    obtain ⟨o',ho',_⟩ := hkeys.hashable e' he'
    rw [h _ o ho,h _ o' ho'] at heq
    rw [ho,ho'] at hne
    exact hne heq

theorem Filled.mono {n : ν} (hn : Filled g constructed n) : Filled g constructed' n :=
  ⟨fun m hm => constructed_mono h (hn.parts m hm),
    fun htag depth hmerges => (hn.keys htag depth hmerges).mono h⟩

end Monotone

theorem Sound.mergeKey {entry : ν × ν} {o : Object ν κ} (hs : Sound g scalars pending s)
    (h : s.constructed entry.1 = some o) : g.mergeKey entry = false := by
  have htag : ∀ {node : Node ν}, Denotes scalars entry.1 node o → node.tag ≠ .merge := by
    intro node hdenotes hmerge
    cases hdenotes with
    | scalar htag _ => simp_all [Node.tag,Tag.isScalar]
    | mapping htag => simp_all [Node.tag,Tag.isScalar]
    | collection htag => simp_all [Tag.isCollection,Tag.deferred]
  have hshape := htag (hs.denotes _ o h)
  rw [NodeGraph.shape,tag_shape,Ne,settled_eq_merge] at hshape
  rw [NodeGraph.mergeKey,beq_eq_false_iff_ne]
  exact hshape

variable (g scalars pending) in
/-- A construction that keeps the invariant, and constructs its node. -/
def Sane (construct : Construct ν κ ε) : Prop :=
  ∀ n s found, Sound g scalars pending s → construct n s = .ok found →
    Sound g scalars pending found.2 ∧ Extends s found.2 ∧ found.2.constructed n = some found.1

section Loops

variable {construct : Construct ν κ ε} (hconstruct : Sane g scalars pending construct)

include hconstruct

theorem constructItems_sound {items : List ν} {found : List (Object ν κ) × Loading ν κ}
    (hs : Sound g scalars pending s) (h : constructItems construct items s = .ok found) :
    Sound g scalars pending found.2 ∧ Extends s found.2 ∧
      ∀ item ∈ items, ∃ o, found.2.constructed item = some o := by
  induction items generalizing s found with
  | nil =>
    cases h
    exact ⟨hs,.refl s,by simp⟩
  | cons item items ih =>
    rw [constructItems] at h
    obtain ⟨first,hfirst,h⟩ := bind_ok.mp h
    obtain ⟨rest,hrest,h⟩ := bind_ok.mp h
    cases h
    obtain ⟨hsound,hextends,hitem⟩ := hconstruct item s first hs hfirst
    obtain ⟨hsound',hextends',hitems⟩ := ih hsound hrest
    refine ⟨hsound',hextends.trans hextends',?_⟩
    intro n hn
    rcases List.mem_cons.mp hn with rfl | hn
    · exact ⟨_,hextends'.constructed _ _ hitem⟩
    · exact hitems n hn

theorem constructPairs_sound {items : List ν}
    {found : List (Object ν κ × Object ν κ) × Loading ν κ} (hs : Sound g scalars pending s)
    (h : constructPairs construct items s = .ok found) :
    Sound g scalars pending found.2 ∧ Extends s found.2 ∧ ∀ item ∈ items, ∀ depth,
      g.MergesWithin depth item → BothConstructed found.2.constructed (g.flattened depth item) := by
  induction items generalizing s found with
  | nil =>
    cases h
    exact ⟨hs,.refl s,by simp⟩
  | cons item items ih =>
    rw [constructPairs] at h
    split at h
    · rename_i t k v hnode
      obtain ⟨key,hkey,h⟩ := bind_ok.mp h
      obtain ⟨value,hvalue,h⟩ := bind_ok.mp h
      obtain ⟨rest,hrest,h⟩ := bind_ok.mp h
      cases h
      obtain ⟨hsound,hextends,hk⟩ := hconstruct k s key hs hkey
      obtain ⟨hsound',hextends',hv⟩ := hconstruct v key.2 value hsound hvalue
      obtain ⟨hsound'',hextends'',hitems⟩ := ih hsound' hrest
      refine ⟨hsound'',(hextends.trans hextends').trans hextends'',?_⟩
      intro n hn depth hmerges
      rcases List.mem_cons.mp hn with rfl | hn
      · have hkeys : (s.graph n).entries = [(k,v)] := by
          rw [hnode]
          rfl
        have hflat : g.flattened depth n = [(k,v)] := by
          rw [← hkeys]
          apply hs.graph.entries_of_free hmerges
          rw [hkeys]
          intro entry hentry
          rw [List.mem_singleton.mp hentry]
          exact hsound.mergeKey hk
        intro entry hentry
        rw [hflat,List.mem_singleton] at hentry
        subst hentry
        exact ⟨⟨_,(hextends'.trans hextends'').constructed _ _ hk⟩,
          ⟨_,hextends''.constructed _ _ hv⟩⟩
      · exact hitems n hn depth hmerges
    · cases h

theorem constructEntries_sound [DecidableEq ν] [DecidableEq κ] {entries : List (ν × ν)}
    {result : List (Object ν κ × Object ν κ)}
    {found : List (Object ν κ × Object ν κ) × Loading ν κ} (hs : Sound g scalars pending s)
    (h : constructEntries construct result entries s = .ok found) :
    Sound g scalars pending found.2 ∧ Extends s found.2 ∧
      BothConstructed found.2.constructed entries := by
  induction entries generalizing result s found with
  | nil =>
    cases h
    exact ⟨hs,.refl s,by simp [BothConstructed]⟩
  | cons entry entries ih =>
    obtain ⟨k,v⟩ := entry
    rw [constructEntries] at h
    obtain ⟨key,hkey,h⟩ := bind_ok.mp h
    obtain ⟨hsound,hextends,hk⟩ := hconstruct k s key hs hkey
    split at h
    · cases h
    · obtain ⟨value,hvalue,h⟩ := bind_ok.mp h
      obtain ⟨hsound',hextends',hv⟩ := hconstruct v key.2 value hsound hvalue
      obtain ⟨hsound'',hextends'',hentries⟩ := ih hsound' h
      refine ⟨hsound'',(hextends.trans hextends').trans hextends'',?_⟩
      intro entry hentry
      rcases List.mem_cons.mp hentry with rfl | hentry
      · exact ⟨⟨_,(hextends'.trans hextends'').constructed _ _ hk⟩,
          ⟨_,hextends''.constructed _ _ hv⟩⟩
      · exact hentries entry hentry

end Loops

variable (g scalars) in
def Checks (mapping : MappingConstructor ν κ ε) : Prop :=
  ∀ construct pending limit n s found, Sane g scalars pending construct →
    Sound g scalars pending s → mapping construct limit n s = .ok found →
    Sound g scalars pending found.2 ∧ Extends s found.2 ∧ ∀ depth, g.MergesWithin depth n →
      BothConstructed found.2.constructed (g.flattened depth n) ∧
        DistinctKeys found.2.constructed (g.flattened depth n)

theorem Part.tag {n m : ν} (h : Part g n m) : (g n).tag.isCollection = true := by
  cases h with
  | key htag | value htag => rcases htag with htag | htag <;> rw [htag] <;> rfl
  | item hnode => rw [hnode]; rfl
  | pairKey hnode htag | pairValue hnode htag => rw [hnode]; simp [Node.tag,Tag.isCollection,htag]

theorem filled_of_scalar {n : ν} (h : (g n).tag.isCollection = false) : Filled g constructed n := by
  constructor
  · intro m hm
    rw [hm.tag] at h
    cases h
  · intro htag
    rw [htag] at h
    cases h

theorem filled_of_map {n : ν} (htag : (g n).tag = .map)
    (h : ∀ depth, g.MergesWithin depth n → BothConstructed constructed (g.flattened depth n) ∧
      DistinctKeys constructed (g.flattened depth n)) : Filled g constructed n := by
  refine ⟨?_,fun _ depth hmerges => (h depth hmerges).2⟩
  intro m hm
  cases hm with
  | key _ hmerges hentry => exact ((h _ hmerges).1 _ hentry).1
  | value _ hmerges hentry => exact ((h _ hmerges).1 _ hentry).2
  | item hnode => simp [hnode,Node.tag] at htag
  | pairKey hnode hpairs | pairValue hnode hpairs =>
    rw [hnode,Node.tag] at htag
    rw [htag] at hpairs
    cases hpairs

theorem constructScalar_denotes {limit : ℕ} {n : ν} {text : String} {datum : Datum κ}
    (htag : (s.graph n).tag.isScalar = true)
    (htext : constructScalar s.graph limit n = (.ok text : Except (YamlFailure ε) String))
    (hdatum : scalars.construct (s.graph n).kind (s.graph n).tag text = .ok datum) :
    Denotes scalars n (s.graph.shape n) (datum.object n) := by
  cases limit with
  | zero => cases htext
  | succ limit =>
    rw [constructScalar] at htext
    rw [NodeGraph.shape]
    cases hnode : s.graph n with
    | scalar t value =>
      rw [hnode] at htag htext hdatum
      cases htext
      rw [Node.tag] at htag hdatum
      rw [Node.shape,settled_of_isScalar htag]
      exact .scalar htag hdatum
    | sequence t items =>
      rw [hnode] at htext
      cases htext
    | mapping t entries =>
      rw [hnode,Node.tag] at htag
      rw [Node.shape,settled_of_isScalar htag]
      exact .mapping htag _

theorem Sound.deferred (hs : Sound g scalars pending s) (n : ν) :
    (g n).tag.deferred = (s.graph n).tag.deferred := by
  rw [← deferred_settled,← settled_congr hs.graph.shape n,deferred_settled]

theorem Sound.isCollection (hs : Sound g scalars pending s) (n : ν) :
    (g n).tag.isCollection = (s.graph n).tag.isCollection := by
  rw [← isCollection_settled,← settled_congr hs.graph.shape n,isCollection_settled]

theorem Sound.queue {n : ν} {d : Deferred} (hs : Sound g scalars pending s)
    (hd : (s.graph n).tag.deferred = some d) :
    Sound g scalars pending {s with generators := s.generators ++ [(n,d)]} := by
  refine ⟨hs.graph,hs.recursive,hs.denotes,?_,?_⟩
  · intro job hjob
    rcases List.mem_append.mp hjob with hjob | hjob
    · exact hs.generated job hjob
    · rw [List.mem_singleton.mp hjob,hs.deferred,hd]
  · intro m o hm hpending hfree
    exact hs.filled m o hm hpending fun d' hd' => hfree d' (List.mem_append_left _ hd')

theorem filled_of_items {n : ν} (htag : (g n).tag.deferred = some .sequence)
    (h : ∀ t items, g n = .sequence t items → ∀ item ∈ items, ∃ o, constructed item = some o) :
    Filled g constructed n := by
  constructor
  · intro m hm
    cases hm with
    | key hmap | value hmap => rcases hmap with hmap | hmap <;> rw [hmap] at htag <;> cases htag
    | item hnode hitem => exact h _ _ hnode m hitem
    | pairKey hnode hpairs | pairValue hnode hpairs =>
      rw [hnode,Node.tag,hpairs] at htag
      cases htag
  · intro hmap
    rw [hmap] at htag
    cases htag

theorem filled_of_pairs {n : ν} (htag : (g n).tag.deferred = some .pairs)
    (h : ∀ t items, g n = .sequence t items → ∀ item ∈ items, ∀ depth,
      g.MergesWithin depth item → BothConstructed constructed (g.flattened depth item)) :
    Filled g constructed n := by
  constructor
  · intro m hm
    cases hm with
    | key hmap | value hmap => rcases hmap with hmap | hmap <;> rw [hmap] at htag <;> cases htag
    | item hnode =>
      rw [hnode] at htag
      cases htag
    | pairKey hnode _ hitem hmerges hentry => exact (h _ _ hnode _ hitem _ hmerges _ hentry).1
    | pairValue hnode _ hitem hmerges hentry => exact (h _ _ hnode _ hitem _ hmerges _ hentry).2
  · intro hmap
    rw [hmap] at htag
    cases htag

theorem filled_of_set {n : ν} (htag : (g n).tag.deferred = some .set)
    (h : ∀ depth, g.MergesWithin depth n → BothConstructed constructed (g.flattened depth n)) :
    Filled g constructed n := by
  constructor
  · intro m hm
    cases hm with
    | key _ hmerges hentry => exact (h _ hmerges _ hentry).1
    | value _ hmerges hentry => exact (h _ hmerges _ hentry).2
    | item hnode =>
      rw [hnode] at htag
      cases htag
    | pairKey hnode hpairs | pairValue hnode hpairs =>
      rw [hnode,Node.tag,hpairs] at htag
      cases htag
  · intro hmap
    rw [hmap] at htag
    cases htag

theorem Sound.pop {n : ν} {d : Deferred} {generators : List (ν × Deferred)}
    (hs : Sound g scalars [] s) (h : s.generators = (n,d) :: generators) :
    Sound g scalars [n] {s with generators := generators} := by
  refine ⟨hs.graph,hs.recursive,hs.denotes,?_,?_⟩
  · intro job hjob
    exact hs.generated job (h ▸ List.mem_cons_of_mem _ hjob)
  · intro m o hm hpending hfree
    apply hs.filled m o hm List.not_mem_nil
    intro d' hd'
    rw [h] at hd'
    rcases List.mem_cons.mp hd' with heq | hd'
    · cases heq
      exact hpending List.mem_cons_self
    · exact hfree d' hd'

theorem Sound.close {n : ν} (hs : Sound g scalars [n] s) (hn : Filled g s.constructed n) :
    Sound g scalars [] s := by
  refine ⟨hs.graph,hs.recursive,hs.denotes,hs.generated,?_⟩
  intro m o hm _ hfree
  by_cases hmn : m = n
  · rw [hmn]
    exact hn
  · exact hs.filled m o hm (by simpa using hmn) hfree

theorem sound_start (g : NodeGraph ν) (scalars : Scalars κ ε) :
    Sound g scalars [] ⟨g,fun _ => none,fun _ => none,[],[]⟩ := by
  refine ⟨flattening_refl g,by simp,?_,by simp,?_⟩
  · intro n o hn
    cases hn
  · intro n o hn
    cases hn

variable [DecidableEq ν]

theorem Sound.fill (hs : Sound g scalars pending s) (n : ν) (contents : Contents ν κ) :
    Sound g scalars pending (s.fill n contents) :=
  ⟨hs.graph,hs.recursive,hs.denotes,hs.generated,hs.filled⟩

theorem Sound.flatten {limit : ℕ} {n : ν} {g' : NodeGraph ν} (hs : Sound g scalars pending s)
    (h : (PyYaml.flatten limit : Flattener ν ε) n s.graph = .ok g') :
    Sound g scalars pending {s with graph := g'} :=
  ⟨flatten_flattening hs.graph h,hs.recursive,hs.denotes,hs.generated,hs.filled⟩

theorem extends_fill (s : Loading ν κ) (n : ν) (contents : Contents ν κ) :
    Extends s (s.fill n contents) :=
  ⟨fun _ _ h => h,rfl⟩

theorem dispatch_sound {mapping : MappingConstructor ν κ ε} {construct : Construct ν κ ε}
    (hmapping : Checks g scalars mapping) (hconstruct : Sane g scalars pending construct)
    {limit : ℕ} {n : ν} {found : Object ν κ × Loading ν κ} (hs : Sound g scalars pending s)
    (h : dispatch mapping scalars construct limit n s = .ok found) :
    Sound g scalars pending found.2 ∧ Extends s found.2 ∧
      Denotes scalars n (g.shape n) found.1 ∧
      (Filled g found.2.constructed n ∨ ∃ d, (n,d) ∈ found.2.generators) := by
  simp only [dispatch] at h
  split at h
  · rename_i d hd
    cases h
    have hqueue := hs.queue hd
    refine ⟨hqueue.fill n d.empty,⟨fun _ _ hm => hm,rfl⟩,?_,?_⟩
    · apply Denotes.collection
      rw [NodeGraph.shape,tag_shape,isCollection_settled,hs.isCollection,Tag.isCollection,hd]
      rfl
    · exact .inr ⟨d,List.mem_append_right _ List.mem_cons_self⟩
  · rename_i hd
    split_ifs at h with hmap hscalar
    · obtain ⟨entries,hentries,h⟩ := bind_ok.mp h
      cases h
      obtain ⟨hsound,hextends,hkeys⟩ :=
        hmapping construct pending limit n s entries hconstruct hs hentries
      have htag : (g n).tag = .map := by
        rw [← settled_eq_map,← settled_congr hs.graph.shape n,hmap]
        rfl
      refine ⟨hsound.fill n _,hextends.trans (extends_fill _ n _),?_,.inl ?_⟩
      · apply Denotes.collection
        rw [NodeGraph.shape,tag_shape,htag]
        rfl
      · exact filled_of_map htag hkeys
    · obtain ⟨text,htext,h⟩ := bind_ok.mp h
      obtain ⟨datum,hdatum,h⟩ := bind_ok.mp h
      cases h
      refine ⟨hs,.refl s,?_,.inl ?_⟩
      · rw [← hs.graph.shape]
        apply constructScalar_denotes hscalar htext
        exact mapError_ok.mp hdatum
      · apply filled_of_scalar
        rw [hs.isCollection]
        exact isCollection_of_isScalar hscalar

section Run

variable {mapping : MappingConstructor ν κ ε} (hmapping : Checks g scalars mapping)

theorem Loading.leave_self (s : Loading ν κ) (n : ν) (o : Object ν κ) :
    (s.leave n o).constructed n = some o :=
  Function.update_self n _ _

theorem Loading.leave_of_ne {m n : ν} (h : m ≠ n) (s : Loading ν κ) (o : Object ν κ) :
    (s.leave n o).constructed m = s.constructed m :=
  Function.update_of_ne h _ _

omit [DecidableEq ν] in
theorem Sound.enter {n : ν} (hs : Sound g scalars pending s) (hn : s.constructed n = none) :
    Sound g scalars pending (s.enter n) := by
  refine ⟨hs.graph,?_,hs.denotes,hs.generated,hs.filled⟩
  intro m hm
  rcases List.mem_cons.mp hm with rfl | hm
  · exact hn
  · exact hs.recursive m hm

theorem Extends.leave {n : ν} (h : Extends (s.enter n) s') (hn : s.constructed n = none)
    (o : Object ν κ) : Extends s (s'.leave n o) := by
  constructor
  · intro m p hm
    have hne : m ≠ n := by
      rintro rfl
      rw [hn] at hm
      cases hm
    rw [Loading.leave_of_ne hne]
    exact h.constructed m p hm
  · rw [Loading.leave,h.recursive]
    simp [Loading.enter]

/-- A node that is through is cached. It is filled, or a generator waits for it. -/
theorem Sound.leave {n : ν} {o : Object ν κ} (hs : Sound g scalars pending s')
    (hextends : Extends (s.enter n) s') (hfresh : n ∉ s.recursive)
    (hdenotes : Denotes scalars n (g.shape n) o)
    (hfilled : Filled g s'.constructed n ∨ ∃ d, (n,d) ∈ s'.generators) :
    Sound g scalars pending (s'.leave n o) := by
  have hentered : s'.recursive = n :: s.recursive := hextends.recursive
  have hnone : s'.constructed n = none := hs.recursive n (by simp [hentered])
  have hmono : ∀ m p, s'.constructed m = some p → (s'.leave n o).constructed m = some p := by
    intro m p hm
    by_cases hmn : m = n
    · rw [hmn,hnone] at hm
      cases hm
    · rw [Loading.leave_of_ne hmn,hm]
  refine ⟨hs.graph,?_,?_,hs.generated,?_⟩
  · intro m hm
    rw [Loading.leave,hentered,List.erase_cons_head] at hm
    have hne : m ≠ n := fun heq => hfresh (heq ▸ hm)
    rw [Loading.leave_of_ne hne]
    exact hs.recursive m (hentered ▸ List.mem_cons_of_mem n hm)
  · intro m p hm
    by_cases hmn : m = n
    · rw [hmn,Loading.leave_self,Option.some.injEq] at hm
      rw [hmn,← hm]
      exact hdenotes
    · rw [Loading.leave_of_ne hmn] at hm
      exact hs.denotes m p hm
  · intro m p hm hpending hfree
    by_cases hmn : m = n
    · rw [hmn] at hfree ⊢
      rcases hfilled with hfilled | ⟨d,hd⟩
      · exact hfilled.mono hmono
      · exact absurd hd (hfree d)
    · rw [Loading.leave_of_ne hmn] at hm
      exact (hs.filled m p hm hpending hfree).mono hmono

include hmapping

theorem constructObject_sound (limit : ℕ) :
    Sane g scalars pending (constructObject mapping scalars limit) := by
  induction limit with
  | zero =>
    intro n s found hs h
    cases h
  | succ limit ih =>
    intro n s found hs h
    rw [constructObject] at h
    split at h
    · rename_i o ho
      cases h
      exact ⟨hs,.refl s,ho⟩
    · rename_i hnone
      split_ifs at h with hmem
      obtain ⟨made,hmade,h⟩ := bind_ok.mp h
      cases h
      obtain ⟨hsound,hextends,hdenotes,hfilled⟩ := dispatch_sound hmapping ih (hs.enter hnone) hmade
      exact ⟨hsound.leave hextends hmem hdenotes hfilled,hextends.leave hnone made.1,
        made.2.leave_self n made.1⟩

variable [DecidableEq κ]

/-- A generator that is through leaves its node filled. -/
theorem resume_sound {limit : ℕ} {n : ν} {d : Deferred} (hd : (g n).tag.deferred = some d)
    (hs : Sound g scalars [n] s)
    (h : resume (constructObject mapping scalars limit) limit n s d = .ok s') :
    Sound g scalars [n] s' ∧ Extends s s' ∧ Filled g s'.constructed n := by
  have hconstruct : Sane g scalars [n] (constructObject mapping scalars limit) :=
    constructObject_sound hmapping limit
  cases d with
  | sequence =>
    simp only [resume] at h
    split at h
    · rename_i t items hnode
      obtain ⟨found,hfound,h⟩ := bind_ok.mp h
      cases h
      obtain ⟨hsound,hextends,hitems⟩ := constructItems_sound hconstruct hs hfound
      refine ⟨hsound.fill n _,hextends.trans (extends_fill _ n _),filled_of_items hd ?_⟩
      intro t' items' hsequence
      rw [hs.graph.items hsequence hnode]
      exact hitems
    · cases h
  | pairs =>
    simp only [resume] at h
    split at h
    · rename_i t items hnode
      obtain ⟨found,hfound,h⟩ := bind_ok.mp h
      cases h
      obtain ⟨hsound,hextends,hitems⟩ := constructPairs_sound hconstruct hs hfound
      refine ⟨hsound.fill n _,hextends.trans (extends_fill _ n _),filled_of_pairs hd ?_⟩
      intro t' items' hsequence
      rw [hs.graph.items hsequence hnode]
      exact hitems
    · cases h
  | set =>
    simp only [resume] at h
    split at h
    · obtain ⟨g',hg',h⟩ := bind_ok.mp h
      obtain ⟨found,hfound,h⟩ := bind_ok.mp h
      cases h
      obtain ⟨hsound,hextends,hentries⟩ :=
        constructEntries_sound hconstruct (hs.flatten hg') hfound
      refine ⟨hsound.fill n _,⟨hextends.constructed,hextends.recursive⟩,filled_of_set hd ?_⟩
      intro depth hmerges
      rw [← flatten_entries hs.graph hmerges hg']
      exact hentries
    · cases h

theorem drain_sound {limit rounds : ℕ} (hs : Sound g scalars [] s)
    (h : drain mapping scalars limit rounds s = .ok s') :
    Sound g scalars [] s' ∧ Extends s s' ∧ s'.generators = [] := by
  induction rounds generalizing s with
  | zero =>
    rw [drain] at h
    split at h
    · rename_i hnil
      cases h
      exact ⟨hs,.refl _,hnil⟩
    · cases h
  | succ rounds ih =>
    rw [drain] at h
    split at h
    · rename_i hnil
      cases h
      exact ⟨hs,.refl _,hnil⟩
    · rename_i n d generators hjobs
      obtain ⟨mid,hmid,h⟩ := bind_ok.mp h
      have hd : (g n).tag.deferred = some d := hs.generated (n,d) (by simp [hjobs])
      obtain ⟨hsound,hextends,hfilled⟩ := resume_sound hmapping hd (hs.pop hjobs) hmid
      obtain ⟨hsound',hextends',hgoal⟩ := ih (hsound.close hfilled) h
      have htaken : Extends s mid := ⟨hextends.constructed,hextends.recursive⟩
      exact ⟨hsound',htaken.trans hextends',hgoal⟩

/-- Once a document is constructed, all that can be told to belong to it is. -/
theorem constructDocument_sound {limit nodes : ℕ} {root : ν} {found : Object ν κ × Loading ν κ}
    (h : constructDocument mapping scalars limit nodes g root = .ok found) {n : ν}
    (hn : Relation.ReflTransGen (Part g) root n) :
    (∃ o, found.2.constructed n = some o) ∧ Filled g found.2.constructed n ∧
      ∀ m o, found.2.constructed m = some o → Denotes scalars m (g.shape m) o := by
  obtain ⟨made,hmade,h⟩ := bind_ok.mp h
  obtain ⟨last,hdrain,h⟩ := bind_ok.mp h
  cases h
  obtain ⟨hsound,_,hroot⟩ :=
    constructObject_sound hmapping limit root _ made (sound_start g scalars) hmade
  obtain ⟨hsound',hextends,hdone⟩ := drain_sound hmapping hsound hdrain
  have hfilled : ∀ m, (∃ o, last.constructed m = some o) → Filled g last.constructed m := by
    rintro m ⟨o,ho⟩
    exact hsound'.filled m o ho List.not_mem_nil (by simp [hdone])
  have hconstructed : ∃ o, last.constructed n = some o := by
    induction hn with
    | refl => exact ⟨_,hextends.constructed _ _ hroot⟩
    | tail _ hpart ih => exact (hfilled _ ih).parts _ hpart
  exact ⟨hconstructed,hfilled n hconstructed,hsound'.denotes⟩

end Run

end PyYaml
