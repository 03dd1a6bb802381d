import Mathlib
import LocusMesh.Unclassified

/-! Documents on which the construction cannot trip, whatever their depth: those without merge
keys in which no key is a collection. -/
namespace LocusMesh

open PyText PyYaml Fallible

section Harmless

variable {ν κ : Type} [DecidableEq ν] {g : NodeGraph ν}

/-- No key is tagged as a collection, or merges; the plain mapping tag stands on no sequence
with items; and no mapping is read as a scalar. -/
structure Harmless (g : NodeGraph ν) : Prop where
  keys : ∀ n, ∀ entry ∈ (g n).entries,
    (g entry.1).tag.isCollection = false ∧ (g entry.1).tag ≠ .merge
  items : ∀ n items, g n = .sequence .map items → items = []
  scalars : ∀ n t entries, g n = .mapping t entries → t.settled.isScalar = false

variable (g) in
/-- A state of a run on `g`, where nothing is merged. -/
def Unmerged (s : Loading ν κ) : Prop := Passes (fun _ => False) g s.graph

omit [DecidableEq ν] in
theorem Unmerged.entries {s : Loading ν κ} (hs : Unmerged g s) (n : ν) :
    (s.graph n).entries = (g n).entries := hs.frame n not_false

omit [DecidableEq ν] in
theorem Unmerged.node {s : Loading ν κ} (hs : Unmerged g s) {n : ν} {node : Node ν}
    (h : s.graph n = node) : (g n).shape = node.shape := by
  rw [← h]
  exact (congrFun hs.shape n).symm

variable (hg : Harmless g)

include hg

omit [DecidableEq ν] in
theorem Unmerged.keys {s : Loading ν κ} (hs : Unmerged g s) {n : ν} {entry : ν × ν}
    (h : entry ∈ (s.graph n).entries) {s' : Loading ν κ} (hs' : Unmerged g s') :
    (s'.graph entry.1).tag.isCollection = false := by
  rw [hs.entries] at h
  rw [← isCollection_settled,settled_congr hs'.shape,isCollection_settled]
  exact (hg.keys n entry h).1

theorem Unmerged.flatten {s : Loading ν κ} (hs : Unmerged g s) (limit : ℕ) (n : ν) :
    ∃ g', (flatten (limit + 1) n s.graph : Except (YamlFailure PyError) _) = .ok g' ∧
      (g' n).entries = (s.graph n).entries ∧ Unmerged g {s with graph := g'} := by
  have hfree : ∀ entry ∈ (s.graph n).entries, s.graph.mergeKey entry = false := by
    intro entry hentry
    rw [hs.entries] at hentry
    rw [mergeKey_congr hs.shape]
    exact beq_eq_false_iff_ne.mpr (hg.keys n entry hentry).2
  obtain ⟨g',hg',hpass⟩ := flatten_free limit hfree
  exact ⟨g',hg',hpass.frame n not_false,hs.trans hpass⟩

theorem unmerged_respected : Respected PyError fun s s' : Loading ν κ =>
    Unmerged g s → Unmerged g s' where
  refl s := id
  trans h h' := h' ∘ h
  fill s n contents := id
  flatten := by
    intro limit n s g' h hs
    cases limit with
    | zero => cases h
    | succ limit =>
      obtain ⟨g'',hg'',_,hs'⟩ := hs.flatten hg limit n
      rw [hg''] at h
      cases h
      exact hs'
  leave _ h _ := h
  queue _ _ := id

end Harmless

section Loops

variable {ν κ : Type} {construct : Construct ν κ PyError} {trips : ν → Loading ν κ → Prop}
  {P : Loading ν κ → Prop} (htrips : ∀ n s, P s → ¬trips n s)
  (hconstruct : ∀ n s found, P s → construct n s = .ok found → P found.2)

include htrips hconstruct

theorem not_itemsTrip {items : List ν} {s : Loading ν κ} (hs : P s) :
    ¬ItemsTrip construct trips items s := by
  induction items generalizing s with
  | nil => exact id
  | cons item items ih =>
    rintro (h | ⟨found,hfound,h⟩)
    · exact htrips item s hs h
    · exact ih (hconstruct item s found hs hfound) h

theorem not_pairsTrip {items : List ν} {s : Loading ν κ} (hs : P s) :
    ¬PairsTrip construct trips items s := by
  induction items generalizing s with
  | nil => exact id
  | cons item items ih =>
    rw [PairsTrip]
    split
    · rename_i t k v hnode
      rintro (h | ⟨key,hkey,h⟩)
      · exact htrips k s hs h
      · have hs' := hconstruct k s key hs hkey
        rcases h with h | ⟨value,hvalue,h⟩
        · exact htrips v _ hs' h
        · exact ih (hconstruct v _ value hs' hvalue) h
    · exact id

theorem not_entriesTrip {entries : List (ν × ν)} {s : Loading ν κ} (hs : P s) :
    ¬EntriesTrip construct trips entries s := by
  induction entries generalizing s with
  | nil => exact id
  | cons entry entries ih =>
    obtain ⟨k,v⟩ := entry
    rintro (h | ⟨key,hkey,_,h⟩)
    · exact htrips k s hs h
    · have hs' := hconstruct k s key hs hkey
      rcases h with h | ⟨value,hvalue,h⟩
      · exact htrips v _ hs' h
      · exact ih (hconstruct v _ value hs' hvalue) h

theorem not_uniqueTrip {entries : List (ν × ν)} {result : List (Object ν κ × Object ν κ)}
    {s : Loading ν κ} (hs : P s)
    (hkeys : ∀ entry ∈ entries, ∀ s, P s → (s.graph entry.1).tag.isCollection = false) :
    ¬UniqueTrip construct trips result entries s := by
  induction entries generalizing result s with
  | nil => exact id
  | cons entry entries ih =>
    obtain ⟨k,v⟩ := entry
    rintro (h | ⟨key,hkey,h⟩)
    · exact htrips k s hs h
    · have hs' := hconstruct k s key hs hkey
      rcases h with h | ⟨_,h | ⟨value,hvalue,h⟩⟩
      · rw [hkeys (k,v) List.mem_cons_self s hs] at h
        cases h
      · exact htrips v _ hs' h
      · refine ih (hconstruct v _ value hs' hvalue) ?_ h
        exact fun entry hentry => hkeys entry (List.mem_cons_of_mem _ hentry)

end Loops

section Nodes

variable {ν κ : Type} [DecidableEq ν] [Fintype ν] [DecidableEq κ] {g : NodeGraph ν}
  {scalars : Scalars κ PyError} {limit : ℕ} {n : ν} {s s' : Loading ν κ}

/-- The nodes under construction differ, and as many nested calls are left as there are other
nodes, and one more. -/
structure Roomy (g : NodeGraph ν) (limit : ℕ) (s : Loading ν κ) : Prop where
  unmerged : Unmerged g s
  distinct : s.recursive.Nodup
  room : Fintype.card ν < s.recursive.length + limit

omit [DecidableEq κ] [DecidableEq ν] in
theorem Roomy.limit_pos (h : Roomy g limit s) : ∃ more, limit = more + 1 := by
  have hle := h.distinct.length_le_card
  have hroom := h.room
  exact ⟨limit - 1,by omega⟩

omit [DecidableEq κ] [DecidableEq ν] in
theorem Roomy.enter (h : Roomy g (limit + 1) s) (hn : n ∉ s.recursive) :
    Roomy g limit (s.enter n) := by
  refine ⟨h.unmerged,List.nodup_cons.mpr ⟨hn,h.distinct⟩,?_⟩
  have hroom := h.room
  simp only [Loading.enter,List.length_cons]
  omega

omit [DecidableEq κ] [DecidableEq ν] in
theorem Roomy.next (h : Roomy g limit s) (hunmerged : Unmerged g s')
    (hrecursive : s'.recursive = s.recursive) : Roomy g limit s' :=
  ⟨hunmerged,by rw [hrecursive]; exact h.distinct,by rw [hrecursive]; exact h.room⟩

variable (hg : Harmless g)
  (hscalars : ∀ t text, Raises (fun e => ¬Unclassified e) (scalars.construct .scalar t text))

include hg

theorem Roomy.constructObject (h : Roomy g limit s) {found : Object ν κ × Loading ν κ}
    (hfound : constructObject (constructUniqueMapping scalars) scalars limit n s = .ok found) :
    Roomy g limit found.2 := by
  have hunmerged := constructObject_relates (unmerged_respected hg)
    (constructUniqueMapping_relates (unmerged_respected hg)) limit n s found hfound
  have hqueues := constructObject_relates queues_respected
    (constructUniqueMapping_relates queues_respected) limit n s found hfound
  exact h.next (hunmerged h.unmerged) hqueues.recursive

theorem Roomy.resume {d : Deferred} (h : Roomy g limit s)
    (hresume : resume (PyYaml.constructObject (constructUniqueMapping scalars) scalars limit)
      limit n s d = .ok s') : Roomy g limit s' := by
  have hunmerged := resume_relates (unmerged_respected hg)
    (constructUniqueMapping_relates (unmerged_respected hg)) hresume
  have hqueues := resume_relates queues_respected
    (constructUniqueMapping_relates queues_respected) hresume
  exact h.next (hunmerged h.unmerged) hqueues.recursive

include hscalars

omit [DecidableEq κ] [DecidableEq ν] in
theorem not_scalarTrips (h : Roomy g limit s) (htag : (s.graph n).tag.isScalar = true) :
    ¬ScalarTrips scalars limit n s.graph := by
  obtain ⟨more,rfl⟩ := h.limit_pos
  rw [ScalarTrips,constructScalar]
  cases hnode : s.graph n with
  | scalar t value =>
    rintro (hrecursion | ⟨text,_,e,he,hunclassified⟩)
    · cases hrecursion
    · exact hscalars _ _ e he hunclassified
  | sequence t items =>
    rintro (hrecursion | ⟨text,htext,_⟩)
    · cases hrecursion
    · cases htext
  | mapping t entries =>
    obtain ⟨t',entries',hwritten,hsettled⟩ := mapping_of_shape (h.unmerged.node hnode)
    rw [hnode,Node.tag] at htag
    have hno := hg.scalars n t' entries' hwritten
    rw [hsettled,settled_of_isScalar htag,htag] at hno
    cases hno

omit [DecidableEq κ] hscalars in
theorem not_mappingTrips {trips : ν → Loading ν κ → Prop} {construct : Construct ν κ PyError}
    (htrips : ∀ n s, Roomy g limit s → ¬trips n s)
    (hconstruct : ∀ n s found, Roomy g limit s → construct n s = .ok found → Roomy g limit found.2)
    (h : Roomy g limit s) (htag : (s.graph n).tag = .map) :
    ¬MappingTrips construct trips limit n s := by
  obtain ⟨more,hmore⟩ := h.limit_pos
  rw [MappingTrips]
  split
  · exact id
  · rename_i t items hnode
    obtain ⟨t',hwritten,hsettled⟩ := sequence_of_shape (h.unmerged.node hnode)
    rw [hnode,Node.tag] at htag
    have hmap : t' = .map := settled_eq_map.mp (by rw [hsettled,htag]; rfl)
    rw [hmap] at hwritten
    exact not_not.mpr (hg.items n items hwritten)
  · rename_i t entries hnode
    obtain ⟨g',hg',hentries,hunmerged⟩ := h.unmerged.flatten hg more n
    rw [← hmore] at hg'
    rw [hg']
    rintro (hrecursion | ⟨g'',hg'',htrip⟩)
    · cases hrecursion
    · cases hg''
      refine not_uniqueTrip htrips hconstruct (h.next hunmerged rfl) ?_ htrip
      rw [hentries]
      exact fun entry hentry s' hs' => h.unmerged.keys hg hentry hs'.unmerged

/-- On a harmless graph no node trips. -/
theorem not_nodeTrips (h : Roomy g limit s) : ¬NodeTrips scalars limit n s := by
  induction limit generalizing n s with
  | zero =>
    obtain ⟨more,hmore⟩ := h.limit_pos
    cases hmore
  | succ limit ih =>
    rintro ⟨_,hmem,_,⟨htag,hmapping⟩ | ⟨htag,hscalar⟩⟩
    · exact not_mappingTrips hg (fun n s => ih) (fun n s found hs => hs.constructObject hg)
        (h.enter hmem) htag hmapping
    · exact not_scalarTrips hg hscalars (h.enter hmem) htag hscalar

theorem not_resumeTrips (h : Roomy g limit s) (d : Deferred) :
    ¬ResumeTrips (constructObject (constructUniqueMapping scalars) scalars limit)
      (NodeTrips scalars limit) limit n s d := by
  have htrips : ∀ n s, Roomy g limit s → ¬NodeTrips scalars limit n s :=
    fun n s hs => not_nodeTrips hg hscalars hs
  have hconstruct : ∀ n s found, Roomy g limit s →
      constructObject (constructUniqueMapping scalars) scalars limit n s = .ok found →
      Roomy g limit found.2 := fun n s found hs => hs.constructObject hg
  cases d with
  | sequence =>
    rw [ResumeTrips]
    split
    · exact not_itemsTrip htrips hconstruct h
    · exact id
  | pairs =>
    rw [ResumeTrips]
    split
    · exact not_pairsTrip htrips hconstruct h
    · exact id
  | set =>
    rw [ResumeTrips]
    split
    · obtain ⟨more,hmore⟩ := h.limit_pos
      obtain ⟨g',hg',_,hunmerged⟩ := h.unmerged.flatten hg more n
      rw [← hmore] at hg'
      rw [hg']
      rintro (hrecursion | ⟨g'',hg'',htrip⟩)
      · cases hrecursion
      · cases hg''
        exact not_entriesTrip htrips hconstruct (h.next hunmerged rfl) htrip
    · exact id

theorem not_drainTrips {rounds : ℕ} (h : Roomy g limit s) : ¬DrainTrips scalars limit rounds s := by
  induction rounds generalizing s with
  | zero => exact id
  | succ rounds ih =>
    rw [DrainTrips]
    split
    · exact id
    · rename_i n d generators _
      have htaken : Roomy g limit {s with generators := generators} := h.next h.unmerged rfl
      rintro (htrip | ⟨s',hs',htrip⟩)
      · exact not_resumeTrips hg hscalars htaken d htrip
      · exact ih (htaken.resume hg hs') htrip

end Nodes

/-- A harmless document does not trip, where the nested calls outnumber its nodes and the
constructors of scalars raise nothing but bad input. -/
theorem Harmless.not_trips {κ : Type} [DecidableEq κ] {scalars : Scalars κ PyError} {limit : ℕ}
    {d : Document} (hg : Harmless d.graph) (hlimit : d.size < limit)
    (hscalars : ∀ t text, Raises (fun e => ¬Unclassified e) (scalars.construct .scalar t text)) :
    ¬d.Trips scalars limit := by
  have hstart : Roomy d.graph limit
      (⟨d.graph,fun _ => none,fun _ => none,[],[]⟩ : Loading (Fin d.size) κ) :=
    ⟨.refl _ _,List.nodup_nil,by simpa using hlimit⟩
  rintro (htrip | ⟨found,hfound,htrip⟩)
  · exact not_nodeTrips hg hscalars hstart htrip
  · exact not_drainTrips hg hscalars (hstart.constructObject hg hfound) htrip

end LocusMesh
