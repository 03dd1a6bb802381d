import Mathlib
import LocusMesh.Construction

/-! A relation between states that every step of the constructor respects holds between the
first and the last state of a run. -/
namespace PyYaml

open Fallible

variable {ν κ ε : Type} [DecidableEq ν]

/-- The tag of a node says whether the object is a collection. -/
def OfKind (node : Node ν) (o : Object ν κ) : Prop :=
  (∃ m, o = .collection m) ↔ node.tag.isCollection = true

/-- The relation holds over each step of a construction, and over their compositions. A node
that is not cached is constructed between `enter` and `leave`. -/
structure Respected (ε : Type) (R : Loading ν κ → Loading ν κ → Prop) : Prop where
  refl : ∀ s, R s s
  trans : ∀ {s s' s''}, R s s' → R s' s'' → R s s''
  fill : ∀ s n contents, R s (s.fill n contents)
  flatten : ∀ {limit n s g}, (flatten limit n s.graph : Except (YamlFailure ε) _) = .ok g →
    R s {s with graph := g}
  leave : ∀ {n s s' o}, s.constructed n = none → R (s.enter n) s' → OfKind (s.graph n) o →
    R s (s'.leave n o)
  queue : ∀ {n s d}, s.constructed n = none → (s.graph n).tag.deferred = some d →
    R s (({(s.enter n).fill n d.empty with generators := s.generators ++ [(n,d)]} :
      Loading ν κ).leave n (.collection n))

variable {R : Loading ν κ → Loading ν κ → Prop} (hR : Respected ε R)

variable (R) in
/-- Every construction takes a state to a related one. -/
def Relates (construct : Construct ν κ ε) : Prop :=
  ∀ n s found, construct n s = .ok found → R s found.2

variable (R) in
/-- A constructor of dicts takes a state to a related one, where the constructions do that it
makes. -/
def RelatesWith (mapping : MappingConstructor ν κ ε) : Prop :=
  ∀ construct limit n s found, Relates R construct →
    mapping construct limit n s = .ok found → R s found.2

section Loops

variable {construct : Construct ν κ ε} (hconstruct : Relates R construct)

include hR hconstruct

theorem constructItems_relates {items : List ν} {s : Loading ν κ}
    {found : List (Object ν κ) × Loading ν κ} (h : constructItems construct items s = .ok found) :
    R s found.2 := by
  induction items generalizing s found with
  | nil =>
    cases h
    exact hR.refl s
  | cons item items ih =>
    obtain ⟨first,hfirst,h⟩ := bind_ok.mp h
    obtain ⟨rest,hrest,h⟩ := bind_ok.mp h
    have hitems := ih hrest
    cases h
    exact hR.trans (hconstruct item s first hfirst) hitems

theorem constructPairs_relates {items : List ν} {s : Loading ν κ}
    {found : List (Object ν κ × Object ν κ) × Loading ν κ}
    (h : constructPairs construct items s = .ok found) : R s found.2 := by
  induction items generalizing s found with
  | nil =>
    cases h
    exact hR.refl s
  | cons item items ih =>
    rw [constructPairs] at h
    split at h
    · obtain ⟨key,hkey,h⟩ := bind_ok.mp h
      obtain ⟨value,hvalue,h⟩ := bind_ok.mp h
      obtain ⟨rest,hrest,h⟩ := bind_ok.mp h
      have hitems := ih hrest
      cases h
      exact hR.trans (hR.trans (hconstruct _ _ key hkey) (hconstruct _ _ value hvalue)) hitems
    · cases h

theorem constructEntries_relates [DecidableEq κ] {entries : List (ν × ν)}
    {result : List (Object ν κ × Object ν κ)} {s : Loading ν κ}
    {found : List (Object ν κ × Object ν κ) × Loading ν κ}
    (h : constructEntries construct result entries s = .ok found) : R s found.2 := by
  induction entries generalizing result s found with
  | nil =>
    cases h
    exact hR.refl s
  | cons entry entries ih =>
    obtain ⟨k,v⟩ := entry
    obtain ⟨key,hkey,h⟩ := bind_ok.mp h
    split at h
    · cases h
    · obtain ⟨value,hvalue,h⟩ := bind_ok.mp h
      have hkeyed := hconstruct k s key hkey
      exact hR.trans (hR.trans hkeyed (hconstruct v _ value hvalue)) (ih h)

end Loops

section Run

variable {mapping : MappingConstructor ν κ ε} {scalars : Scalars κ ε} {s s' : Loading ν κ}

theorem constructObject_cached {limit : ℕ} {n : ν} {found : Object ν κ × Loading ν κ}
    (h : constructObject mapping scalars limit n s = .ok found) :
    found.2.constructed n = some found.1 := by
  cases limit with
  | zero => cases h
  | succ limit =>
    rw [constructObject] at h
    split at h
    · rename_i o ho
      cases h
      exact ho
    · split_ifs at h
      obtain ⟨made,_,h⟩ := bind_ok.mp h
      cases h
      exact made.2.leave_self n made.1

variable (hmapping : RelatesWith R mapping)

include hR hmapping

theorem constructObject_relates (limit : ℕ) : Relates R (constructObject mapping scalars limit) := by
  induction limit with
  | zero =>
    intro n s found h
    cases h
  | succ limit ih =>
    intro n s found h
    rw [constructObject] at h
    split at h
    · cases h
      exact hR.refl s
    · rename_i hnone
      split_ifs at h with hmem
      obtain ⟨made,hmade,h⟩ := bind_ok.mp h
      cases h
      simp only [dispatch] at hmade
      split at hmade
      · rename_i d hd
        cases hmade
        exact hR.queue hnone hd
      · rename_i hd
        have htag : (s.graph n).tag.deferred = none := hd
        split_ifs at hmade with hmap hscalar
        · obtain ⟨entries,hentries,hmade⟩ := bind_ok.mp hmade
          cases hmade
          have hmap : (s.graph n).tag = .map := hmap
          have hdict := hmapping _ limit n _ entries ih hentries
          refine hR.leave hnone (hR.trans hdict (hR.fill _ n _)) ?_
          simp [OfKind,hmap,Tag.isCollection]
        · obtain ⟨text,_,hmade⟩ := bind_ok.mp hmade
          obtain ⟨datum,_,hmade⟩ := bind_ok.mp hmade
          cases hmade
          refine hR.leave hnone (hR.refl _) ?_
          have hscalar : (s.graph n).tag.isScalar = true := hscalar
          rw [OfKind,isCollection_of_isScalar hscalar]
          cases datum <;> simp [Datum.object]

theorem resume_relates [DecidableEq κ] {limit : ℕ} {n : ν} {d : Deferred}
    (h : resume (constructObject mapping scalars limit) limit n s d = .ok s') : R s s' := by
  have hconstruct : Relates R (constructObject mapping scalars limit) :=
    constructObject_relates hR hmapping limit
  cases d with
  | sequence =>
    simp only [resume] at h
    split at h
    · obtain ⟨found,hfound,h⟩ := bind_ok.mp h
      cases h
      exact hR.trans (constructItems_relates hR hconstruct hfound) (hR.fill _ n _)
    · cases h
  | pairs =>
    simp only [resume] at h
    split at h
    · obtain ⟨found,hfound,h⟩ := bind_ok.mp h
      cases h
      exact hR.trans (constructPairs_relates hR hconstruct hfound) (hR.fill _ n _)
    · cases h
  | set =>
    simp only [resume] at h
    split at h
    · obtain ⟨g,hg,h⟩ := bind_ok.mp h
      obtain ⟨found,hfound,h⟩ := bind_ok.mp h
      cases h
      have hentries := constructEntries_relates hR hconstruct hfound
      exact hR.trans (hR.trans (hR.flatten hg) hentries) (hR.fill _ n _)
    · cases h

end Run

/-- The tags tell which of the cached objects are collections. -/
def Told (s : Loading ν κ) : Prop := ∀ n o, s.constructed n = some o → OfKind (s.graph n) o

/-- The shapes stay, and the tags keep telling the kinds. -/
structure Kinds (s s' : Loading ν κ) : Prop where
  shape : s'.graph.shape = s.graph.shape
  told : Told s → Told s'

omit [DecidableEq ν] in
theorem ofKind_congr {g g' : NodeGraph ν} (h : g.shape = g'.shape) {n : ν} {o : Object ν κ} :
    OfKind (g n) o ↔ OfKind (g' n) o := by
  rw [OfKind,OfKind,← isCollection_settled,settled_congr h n,isCollection_settled]

theorem Kinds.leave {n : ν} {s s' : Loading ν κ} {o : Object ν κ} (h : Kinds (s.enter n) s')
    (ho : OfKind (s.graph n) o) : Kinds s (s'.leave n o) := by
  refine ⟨h.shape,?_⟩
  intro htold m p hm
  by_cases hmn : m = n
  · subst hmn
    rw [Loading.leave_self] at hm
    cases hm
    exact (ofKind_congr h.shape).mpr ho
  · rw [Loading.leave_of_ne hmn] at hm
    exact h.told htold m p hm

theorem kinds_respected : Respected ε (Kinds (ν := ν) (κ := κ)) where
  refl s := ⟨rfl,id⟩
  trans h h' := ⟨h'.shape.trans h.shape,h'.told ∘ h.told⟩
  fill s n contents := ⟨rfl,id⟩
  flatten := by
    intro limit n s g h
    have hshape := (flatten_flattening (flattening_refl s.graph) h).shape
    exact ⟨hshape,fun htold m o hm => (ofKind_congr hshape).mpr (htold m o hm)⟩
  leave := fun _ h ho => h.leave ho
  queue := by
    intro n s d _ hd
    have hqueued : Kinds (s.enter n)
      {(s.enter n).fill n d.empty with generators := s.generators ++ [(n,d)]} := ⟨rfl,id⟩
    exact hqueued.leave (by simp [OfKind,Tag.isCollection,hd])

end PyYaml
