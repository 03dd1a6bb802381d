import Mathlib
import LocusMesh.Cli
import LocusMesh.DuplicateKeys
import LocusMesh.Draining

/-! Which policy documents end in an internal error: those on which the construction trips
over something that `main` does not take for bad input. -/
namespace LocusMesh

open PyText PyYaml Fallible

/-- An exception that `main` does not take for bad input. -/
def Unclassified (e : PyError) : Prop := (classify e).code ≠ "INPUT_INVALID"

section Trips

variable {ν κ : Type} [DecidableEq ν] [DecidableEq κ] (scalars : Scalars κ PyError)

section Loops

variable (construct : Construct ν κ PyError) (trips : ν → Loading ν κ → Prop)

def ItemsTrip : List ν → Loading ν κ → Prop
  | [], _ => False
  | item :: items, s => trips item s ∨ After (construct item s) fun found => ItemsTrip items found.2

def PairsTrip : List ν → Loading ν κ → Prop
  | [], _ => False
  | item :: items, s =>
    match s.graph item with
    | .mapping _ [(k,v)] =>
      trips k s ∨ After (construct k s) fun key =>
        trips v key.2 ∨ After (construct v key.2) fun value => PairsTrip items value.2
    | _ => False

/-- A key or a value trips. A key that carries the tag of a collection is bad input. -/
def EntriesTrip : List (ν × ν) → Loading ν κ → Prop
  | [], _ => False
  | (k,v) :: entries, s =>
    trips k s ∨ After (construct k s) fun key =>
      (s.graph k).tag.isCollection = false ∧
        (trips v key.2 ∨ After (construct v key.2) fun value => EntriesTrip entries value.2)

/-- A key or a value trips, or a key carries the tag of a collection. -/
def UniqueTrip (result : List (Object ν κ × Object ν κ)) : List (ν × ν) → Loading ν κ → Prop
  | [], _ => False
  | (k,v) :: entries, s =>
    trips k s ∨ After (construct k s) fun key =>
      (s.graph k).tag.isCollection = true ∨
        (key.1 ∉ result.map Prod.fst ∧ (trips v key.2 ∨ After (construct v key.2) fun value =>
          UniqueTrip (result ++ [(key.1,value.1)]) entries value.2))

/-- The plain mapping tag stands on a sequence with items, the merge keys nest too deep, or an
entry trips. -/
def MappingTrips (limit : ℕ) (n : ν) (s : Loading ν κ) : Prop :=
  match s.graph n with
  | .scalar _ _ => False
  | .sequence _ items => items ≠ []
  | .mapping _ _ =>
    flatten limit n s.graph = (.error .recursion : Except (YamlFailure PyError) _) ∨
      After (flatten limit n s.graph : Except (YamlFailure PyError) _) fun g =>
        UniqueTrip construct trips [] (g n).entries {s with graph := g}

/-- What is left of a collection trips. -/
def ResumeTrips (limit : ℕ) (n : ν) (s : Loading ν κ) : Deferred → Prop
  | .sequence =>
    match s.graph n with
    | .sequence _ items => ItemsTrip construct trips items s
    | _ => False
  | .pairs =>
    match s.graph n with
    | .sequence _ items => PairsTrip construct trips items s
    | _ => False
  | .set =>
    match s.graph n with
    | .mapping _ _ =>
      flatten limit n s.graph = (.error .recursion : Except (YamlFailure PyError) _) ∨
        After (flatten limit n s.graph : Except (YamlFailure PyError) _) fun g =>
          EntriesTrip construct trips (g n).entries {s with graph := g}
    | _ => False

end Loops

/-- The values of a scalar nest too deep, or its constructor raises what is no bad input. -/
def ScalarTrips (limit : ℕ) (n : ν) (g : NodeGraph ν) : Prop :=
  constructScalar g limit n = (.error .recursion : Except (YamlFailure PyError) _) ∨
    After (constructScalar g limit n : Except (YamlFailure PyError) _) fun text =>
      Fails Unclassified (scalars.construct (g n).kind (g n).tag text)

/-- A node that is constructed only now trips. -/
def NodeTrips : ℕ → ν → Loading ν κ → Prop
  | 0, _, _ => True
  | limit + 1, n, s =>
    s.constructed n = none ∧ n ∉ s.recursive ∧ (s.graph n).tag.deferred = none ∧
      (((s.graph n).tag = .map ∧
        MappingTrips (constructObject (constructUniqueMapping scalars) scalars limit)
          (NodeTrips limit) limit n (s.enter n)) ∨
      ((s.graph n).tag.isScalar = true ∧ ScalarTrips scalars limit n s.graph))

/-- A collection trips, in the order in which they are filled. -/
def DrainTrips (limit : ℕ) : ℕ → Loading ν κ → Prop
  | 0, _ => False
  | rounds + 1, s =>
    match s.generators with
    | [] => False
    | (n,d) :: generators =>
      ResumeTrips (constructObject (constructUniqueMapping scalars) scalars limit)
        (NodeTrips scalars limit) limit n {s with generators := generators} d ∨
      After (resume (constructObject (constructUniqueMapping scalars) scalars limit) limit n
        {s with generators := generators} d) fun s => DrainTrips limit rounds s

end Trips

/-- The construction of the document trips. -/
def Document.Trips {κ : Type} [DecidableEq κ] (scalars : Scalars κ PyError) (limit : ℕ)
    (d : Document) : Prop :=
  NodeTrips scalars limit d.root ⟨d.graph,fun _ => none,fun _ => none,[],[]⟩ ∨
    After (constructObject (constructUniqueMapping scalars) scalars limit d.root
      ⟨d.graph,fun _ => none,fun _ => none,[],[]⟩) fun found =>
        DrainTrips scalars limit d.size found.2

def Untaken (f : YamlFailure PyError) : Prop := Unclassified (yamlFailure f)

@[simp] theorem not_untaken_unconstructable (problem : String) :
    ¬Untaken (.unconstructable problem) := fun h => h rfl

theorem untaken_of_code {f : YamlFailure PyError}
    (h : (classify (yamlFailure f)).code = "INTERNAL_ERROR") : Untaken f := by
  rw [Untaken,Unclassified,h]
  decide

@[simp] theorem untaken_recursion : Untaken .recursion := untaken_of_code rfl

@[simp] theorem untaken_typeError (message : String) : Untaken (.raised (.typeError message)) :=
  untaken_of_code rfl

@[simp] theorem not_untaken_valueError (message : String) :
    ¬Untaken (.raised (.valueError message)) := fun h => h rfl

section Merging

variable {ν ε : Type} [DecidableEq ν]

/-- Merging itself raises nothing but its own exceptions. -/
def Own (f : YamlFailure ε) : Prop := ∀ e, f ≠ .raised e

theorem own_unconstructable (problem : String) : Own (.unconstructable problem : YamlFailure ε) :=
  nofun

theorem own_recursion : Own (.recursion : YamlFailure ε) := nofun

section Loops

variable {flatten : Flattener ν ε} (hflatten : ∀ c g, Raises Own (flatten c g))

include hflatten

omit [DecidableEq ν] in
theorem flattenItems_own (items : List ν) (g : NodeGraph ν) :
    Raises Own (flattenItems flatten items g) := by
  induction items generalizing g with
  | nil => exact raises_ok _
  | cons item items ih =>
    rw [flattenItems]
    split
    · exact raises_bind (hflatten item g) fun g' => raises_bind (ih g') fun found => raises_ok _
    · exact raises_error (own_unconstructable _)

omit [DecidableEq ν] in
theorem mergedEntries_own (v : ν) (g : NodeGraph ν) :
    Raises Own (mergedEntries flatten v g) := by
  unfold mergedEntries
  split
  · exact raises_bind (hflatten v g) fun g' => raises_ok _
  · exact raises_bind (flattenItems_own hflatten _ g) fun found => raises_ok _
  · exact raises_error (own_unconstructable _)

theorem flattenEntries_own (c : ν) (kept rest merge : List (ν × ν)) (g : NodeGraph ν) :
    Raises Own (flattenEntries flatten c kept rest merge g) := by
  induction rest generalizing kept merge g with
  | nil => exact raises_ok _
  | cons entry rest ih =>
    obtain ⟨k,v⟩ := entry
    rw [flattenEntries]
    split_ifs with hmerge
    · apply raises_bind (mergedEntries_own hflatten v _)
      intro found
      split_ifs
      · exact ih kept _ _
      · exact raises_ok _
    · exact ih _ merge _

end Loops

theorem flatten_own (limit : ℕ) (c : ν) (g : NodeGraph ν) :
    Raises Own (flatten limit c g : Except (YamlFailure ε) _) := by
  induction limit generalizing c g with
  | zero => exact raises_error own_recursion
  | succ limit ih =>
    exact raises_bind (flattenEntries_own ih c _ _ _ g) fun found => raises_ok _

omit [DecidableEq ν] in
theorem constructScalar_own (limit : ℕ) (n : ν) (g : NodeGraph ν) :
    Raises Own (constructScalar g limit n : Except (YamlFailure ε) _) := by
  induction limit generalizing n with
  | zero => exact raises_error own_recursion
  | succ limit ih =>
    rw [constructScalar]
    split
    · exact raises_ok _
    · exact raises_error (own_unconstructable _)
    · split
      · exact ih _
      · exact raises_error (own_unconstructable _)

end Merging

theorem fails_own {α : Type} {x : Except (YamlFailure PyError) α} (h : Raises Own x) :
    Fails Untaken x ↔ x = .error .recursion := by
  constructor
  · rintro ⟨f,hf,huntaken⟩
    cases f with
    | unconstructable problem => exact absurd huntaken (not_untaken_unconstructable problem)
    | recursion => exact hf
    | raised e => exact absurd rfl (h _ hf e)
  · intro hx
    exact ⟨.recursion,hx,untaken_recursion⟩

section Running

variable {ν κ : Type} [DecidableEq ν] [DecidableEq κ] {scalars : Scalars κ PyError}
  {R : Loading ν κ → Loading ν κ → Prop} (hR : Respected PyError R)

include hR

theorem uniqueEntries_relates {construct : Construct ν κ PyError} (hconstruct : Relates R construct)
    {entries : List (ν × ν)} {result : List (Object ν κ × Object ν κ)} {s : Loading ν κ}
    {found : List (Object ν κ × Object ν κ) × Loading ν κ}
    (h : uniqueEntries scalars construct result entries s = .ok found) : R s found.2 := by
  induction entries generalizing result s found with
  | nil =>
    cases h
    exact hR.refl s
  | cons entry entries ih =>
    obtain ⟨k,v⟩ := entry
    rw [uniqueEntries] at h
    obtain ⟨key,hkey,h⟩ := bind_ok.mp h
    split at h
    · cases h
    · split_ifs at h
      obtain ⟨value,hvalue,h⟩ := bind_ok.mp h
      have hkeyed := hconstruct k s key hkey
      exact hR.trans (hR.trans hkeyed (hconstruct v _ value hvalue)) (ih h)

theorem constructUniqueMapping_relates :
    RelatesWith R (constructUniqueMapping scalars : MappingConstructor ν κ PyError) := by
  intro construct limit n s found hconstruct h
  simp only [constructUniqueMapping] at h
  split at h
  · split_ifs at h
    cases h
    exact hR.refl s
  · split_ifs at h
    cases h
    exact hR.refl s
  · obtain ⟨g,hg,h⟩ := bind_ok.mp h
    exact hR.trans (hR.flatten hg) (uniqueEntries_relates hR hconstruct h)

end Running

section Failing

variable {ν κ : Type} [DecidableEq ν] [DecidableEq κ] {scalars : Scalars κ PyError}

/-- A construction that fails where it trips, and whose objects are of the kind that the tags of
their nodes tell. -/
structure Foretold (construct : Construct ν κ PyError) (trips : ν → Loading ν κ → Prop) :
    Prop where
  fails : ∀ n s, Told s → (Fails Untaken (construct n s) ↔ trips n s)
  kinds : Relates Kinds construct
  object : ∀ n s found, Told s → construct n s = .ok found → OfKind (s.graph n) found.1

section Loops

variable {construct : Construct ν κ PyError} {trips : ν → Loading ν κ → Prop}
  (h : Foretold construct trips) {s : Loading ν κ}

include h

omit [DecidableEq ν] [DecidableEq κ] in
theorem Foretold.next {n : ν} {found : Object ν κ × Loading ν κ} (hs : Told s)
    (hfound : construct n s = .ok found) : Told found.2 := (h.kinds n s found hfound).told hs

omit [DecidableEq ν] [DecidableEq κ] in
theorem constructItems_trips (hs : Told s) (items : List ν) :
    Fails Untaken (constructItems construct items s) ↔ ItemsTrip construct trips items s := by
  induction items generalizing s with
  | nil => simp [constructItems,ItemsTrip]
  | cons item items ih =>
    rw [constructItems,fails_bind,h.fails item s hs,ItemsTrip]
    refine or_congr_right (after_congr_of_ok fun found hfound => ?_)
    rw [fails_bind,ih (h.next hs hfound)]
    simp

omit [DecidableEq ν] [DecidableEq κ] in
theorem constructPairs_trips (hs : Told s) (items : List ν) :
    Fails Untaken (constructPairs construct items s) ↔ PairsTrip construct trips items s := by
  induction items generalizing s with
  | nil => simp [constructPairs,PairsTrip]
  | cons item items ih =>
    rw [constructPairs]
    split
    · rename_i t k v hnode
      simp only [PairsTrip,hnode]
      rw [fails_bind,h.fails k s hs]
      refine or_congr_right (after_congr_of_ok fun key hkey => ?_)
      have hs' := h.next hs hkey
      rw [fails_bind,h.fails v _ hs']
      refine or_congr_right (after_congr_of_ok fun value hvalue => ?_)
      rw [fails_bind,ih (h.next hs' hvalue)]
      simp
    · rename_i hno
      simp only [not_untaken_unconstructable,fails_error,false_iff]
      rw [PairsTrip]
      split
      · rename_i t k v hnode
        exact absurd hnode (hno t k v)
      · exact id

theorem constructEntries_trips (hs : Told s) (entries : List (ν × ν))
    (result : List (Object ν κ × Object ν κ)) :
    Fails Untaken (constructEntries construct result entries s) ↔
      EntriesTrip construct trips entries s := by
  induction entries generalizing result s with
  | nil => simp [constructEntries,EntriesTrip]
  | cons entry entries ih =>
    obtain ⟨k,v⟩ := entry
    rw [constructEntries,fails_bind,h.fails k s hs,EntriesTrip]
    refine or_congr_right (after_congr_of_ok fun key hkey => ?_)
    have hkind := h.object k s key hs hkey
    have hs' := h.next hs hkey
    cases hobject : key.1 with
    | collection m =>
      rw [hobject] at hkind
      simp [hkind.mp ⟨m,rfl⟩]
    | scalar _ | nan _ =>
      rw [hobject] at hkind
      have htag : (s.graph k).tag.isCollection = false := by simpa [OfKind] using hkind
      simp only [htag,true_and]
      rw [fails_bind,h.fails v _ hs']
      exact or_congr_right (after_congr_of_ok fun value hvalue => ih (h.next hs' hvalue) _)

theorem uniqueEntries_trips (hs : Told s) (entries : List (ν × ν))
    (result : List (Object ν κ × Object ν κ)) :
    Fails Untaken (uniqueEntries scalars construct result entries s) ↔
      UniqueTrip construct trips result entries s := by
  induction entries generalizing result s with
  | nil => simp [uniqueEntries,UniqueTrip]
  | cons entry entries ih =>
    obtain ⟨k,v⟩ := entry
    rw [uniqueEntries,fails_bind,h.fails k s hs,UniqueTrip]
    refine or_congr_right (after_congr_of_ok fun key hkey => ?_)
    have hkind := h.object k s key hs hkey
    have hs' := h.next hs hkey
    cases hobject : key.1 with
    | collection m =>
      rw [hobject] at hkind
      simp [hkind.mp ⟨m,rfl⟩]
    | scalar _ | nan _ =>
      rw [hobject] at hkind
      have htag : (s.graph k).tag.isCollection = false := by simpa [OfKind] using hkind
      simp only [htag,Bool.false_eq_true,false_or]
      split_ifs with hmem
      · simp [hmem]
      · rw [fails_bind,h.fails v _ hs']
        simp only [hmem,not_false_eq_true,true_and]
        exact or_congr_right (after_congr_of_ok fun value hvalue => ih (h.next hs' hvalue) _)

omit [DecidableEq κ] h in
theorem told_flatten {limit : ℕ} {n : ν} {g : NodeGraph ν} (hs : Told s)
    (hg : (flatten limit n s.graph : Except (YamlFailure PyError) _) = .ok g) :
    Told {s with graph := g} := (kinds_respected.flatten hg).told hs

theorem constructUniqueMapping_trips (hs : Told s) (limit : ℕ) (n : ν) :
    Fails Untaken (constructUniqueMapping scalars construct limit n s) ↔
      MappingTrips construct trips limit n s := by
  cases hnode : s.graph n with
  | scalar t value =>
    simp only [constructUniqueMapping,MappingTrips,hnode]
    split_ifs <;> simp
  | sequence t items =>
    simp only [constructUniqueMapping,MappingTrips,hnode]
    split_ifs with hempty <;> simp [hempty]
  | mapping t entries =>
    simp only [constructUniqueMapping,MappingTrips,hnode]
    rw [fails_bind,fails_own (flatten_own limit n s.graph)]
    refine or_congr_right (after_congr_of_ok fun g hg => ?_)
    exact uniqueEntries_trips h (told_flatten hs hg) _ _

theorem resumeItems_trips (hs : Told s) (limit : ℕ) (n : ν) :
    Fails Untaken (resume construct limit n s .sequence) ↔
      ResumeTrips construct trips limit n s .sequence := by
  cases hnode : s.graph n with
  | scalar t value => simp [resume,ResumeTrips,hnode]
  | mapping t entries => simp [resume,ResumeTrips,hnode]
  | sequence t items =>
    simp only [resume,ResumeTrips,hnode]
    rw [fails_bind,constructItems_trips h hs]
    simp

theorem resumePairs_trips (hs : Told s) (limit : ℕ) (n : ν) :
    Fails Untaken (resume construct limit n s .pairs) ↔
      ResumeTrips construct trips limit n s .pairs := by
  cases hnode : s.graph n with
  | scalar t value => simp [resume,ResumeTrips,hnode]
  | mapping t entries => simp [resume,ResumeTrips,hnode]
  | sequence t items =>
    simp only [resume,ResumeTrips,hnode]
    rw [fails_bind,constructPairs_trips h hs]
    simp

theorem resumeSet_trips (hs : Told s) (limit : ℕ) (n : ν) :
    Fails Untaken (resume construct limit n s .set) ↔
      ResumeTrips construct trips limit n s .set := by
  cases hnode : s.graph n with
  | scalar t value => simp [resume,ResumeTrips,hnode]
  | sequence t items => simp [resume,ResumeTrips,hnode]
  | mapping t entries =>
    simp only [resume,ResumeTrips,hnode]
    rw [fails_bind,fails_own (flatten_own limit n s.graph)]
    refine or_congr_right (after_congr_of_ok fun g hg => ?_)
    rw [fails_bind,constructEntries_trips h (told_flatten hs hg)]
    simp

theorem resume_trips (hs : Told s) (limit : ℕ) (n : ν) (d : Deferred) :
    Fails Untaken (resume construct limit n s d) ↔ ResumeTrips construct trips limit n s d := by
  cases d with
  | sequence => exact resumeItems_trips h hs limit n
  | pairs => exact resumePairs_trips h hs limit n
  | set => exact resumeSet_trips h hs limit n

end Loops

omit [DecidableEq ν] [DecidableEq κ] in
theorem scalar_trips (limit : ℕ) (n : ν) (s : Loading ν κ) :
    Fails Untaken (do
      let text ← constructScalar s.graph limit n
      let datum ← (scalars.construct (s.graph n).kind (s.graph n).tag text).mapError .raised
      .ok (datum.object n,s)) ↔ ScalarTrips scalars limit n s.graph := by
  rw [fails_bind,fails_own (constructScalar_own limit n s.graph),ScalarTrips]
  refine or_congr_right (after_congr fun text => ?_)
  rw [fails_bind]
  cases scalars.construct (s.graph n).kind (s.graph n).tag text with
  | error e => simp [Except.mapError,After,Untaken,yamlFailure]
  | ok datum => simp [Except.mapError]

theorem dispatch_trips {construct : Construct ν κ PyError} {trips : ν → Loading ν κ → Prop}
    (h : Foretold construct trips) {s : Loading ν κ} (hs : Told s) (limit : ℕ) (n : ν) :
    Fails Untaken (dispatch (constructUniqueMapping scalars) scalars construct limit n s) ↔
      (s.graph n).tag.deferred = none ∧
        (((s.graph n).tag = .map ∧ MappingTrips construct trips limit n s) ∨
        ((s.graph n).tag.isScalar = true ∧ ScalarTrips scalars limit n s.graph)) := by
  simp only [dispatch]
  split
  · rename_i d hd
    simp [hd]
  · rename_i hd
    split_ifs with hmap hscalar
    · have hno : (Tag.map).isScalar = false := rfl
      rw [hmap] at hd
      rw [fails_bind,constructUniqueMapping_trips h hs]
      simp [hmap,hd,hno]
    · rw [scalar_trips]
      simp [hmap,hd,hscalar]
    · simp [hmap,hscalar]

theorem foretold_of_fails {limit : ℕ} {trips : ν → Loading ν κ → Prop}
    (h : ∀ n s, Told s → (Fails Untaken
      (constructObject (constructUniqueMapping scalars) scalars limit n s) ↔ trips n s)) :
    Foretold (constructObject (constructUniqueMapping scalars) scalars limit) trips := by
  have hkinds : Relates Kinds
      (constructObject (constructUniqueMapping scalars) scalars limit : Construct ν κ PyError) :=
    constructObject_relates kinds_respected (constructUniqueMapping_relates kinds_respected) limit
  refine ⟨h,hkinds,?_⟩
  intro n s found hs hfound
  have hkind := hkinds n s found hfound
  exact (ofKind_congr hkind.shape).mp (hkind.told hs n _ (constructObject_cached hfound))

/-- A node fails to be constructed, in a way that is no bad input, where it trips. -/
theorem constructObject_trips (limit : ℕ) :
    Foretold (constructObject (constructUniqueMapping scalars) scalars limit)
      (NodeTrips (ν := ν) scalars limit) := by
  induction limit with
  | zero => exact foretold_of_fails fun n s _ => by simp [constructObject,NodeTrips]
  | succ limit ih =>
    apply foretold_of_fails
    intro n s hs
    rw [constructObject,NodeTrips]
    split
    · rename_i o ho
      simp [ho]
    · rename_i hnone
      have hentered : Told (s.enter n) := hs
      split_ifs with hmem
      · simp [hmem]
      · rw [fails_bind,dispatch_trips ih hentered]
        simp [hnone,hmem,Loading.enter]

theorem drain_trips [Fintype ν] {limit rounds : ℕ} {s : Loading ν κ} (hs : Told s)
    (hdrainable : Drainable s rounds) :
    Fails Untaken (drain (constructUniqueMapping scalars) scalars limit rounds s) ↔
      DrainTrips scalars limit rounds s := by
  induction rounds generalizing s with
  | zero =>
    cases hjobs : s.generators with
    | nil => simp [drain_nil hjobs,DrainTrips]
    | cons job generators => exact absurd (hdrainable.rounds_pos hjobs) (lt_irrefl 0)
  | succ rounds ih =>
    cases hjobs : s.generators with
    | nil => simp [drain_nil hjobs,DrainTrips,hjobs]
    | cons job generators =>
      have htaken : Told {s with generators := generators} := hs
      rw [drain_cons hjobs,fails_bind,resume_trips (constructObject_trips limit) htaken]
      simp only [DrainTrips,hjobs]
      refine or_congr_right (after_congr_of_ok fun s' hresume => ?_)
      have hkinds := resume_relates kinds_respected
        (constructUniqueMapping_relates kinds_respected) hresume
      have hqueues := resume_relates queues_respected
        (constructUniqueMapping_relates queues_respected) hresume
      exact ih (hkinds.told htaken) (hdrainable.next hjobs hqueues)

theorem constructDocument_trips (limit : ℕ) (d : Document) :
    Fails Untaken (constructDocument (constructUniqueMapping scalars) scalars limit d.size d.graph
      d.root) ↔ d.Trips scalars limit := by
  have hstart : Told (⟨d.graph,fun _ => none,fun _ => none,[],[]⟩ : Loading (Fin d.size) κ) := by
    intro n o hn
    cases hn
  have hroot : Foretold _ (NodeTrips (ν := Fin d.size) scalars limit) := constructObject_trips limit
  rw [constructDocument,fails_bind,hroot.fails _ _ hstart,Document.Trips]
  refine or_congr_right (after_congr_of_ok fun found hfound => ?_)
  have hqueues := constructObject_relates queues_respected
    (constructUniqueMapping_relates queues_respected) limit _ _ _ hfound
  have hdrain := drainable_start hqueues
  rw [Fintype.card_fin] at hdrain
  rw [fails_bind,drain_trips (hroot.next hstart hfound) hdrain]
  simp

end Failing

end LocusMesh
