import Mathlib
import LocusMesh.Yaml

/-! What merge keys mean, where no mapping merges itself, and that `flatten_mapping` computes
it in place, in whatever order the mappings of a graph are flattened. -/
namespace PyYaml

variable {ν ε : Type}

def Tag.settled : Tag → Tag
  | .value => .str
  | t => t

def Node.shape : Node ν → Node ν
  | .scalar t value => .scalar t.settled value
  | .sequence t items => .sequence t.settled items
  | .mapping t _ => .mapping t.settled []

def NodeGraph.shape (g : NodeGraph ν) : NodeGraph ν := fun n => (g n).shape

/-- The mappings that a merge key with the value `v` brings in, the last one first. -/
def Node.targets (v : ν) : Node ν → List ν
  | .scalar _ _ => []
  | .sequence _ items => items.reverse
  | .mapping _ _ => [v]

@[simp] theorem settled_eq_merge {t : Tag} : t.settled = .merge ↔ t = .merge := by
  cases t <;> simp [Tag.settled]

@[simp] theorem settled_eq_map {t : Tag} : t.settled = .map ↔ t = .map := by
  cases t <;> simp [Tag.settled]

@[simp] theorem deferred_settled (t : Tag) : t.settled.deferred = t.deferred := by
  cases t <;> rfl

theorem settled_of_isScalar {t : Tag} (h : t.isScalar = true) : t.settled = t := by
  cases t <;> simp_all [Tag.isScalar,Tag.settled]

@[simp] theorem tag_shape (n : Node ν) : n.shape.tag = n.tag.settled := by
  cases n <;> rfl

@[simp] theorem targets_shape (v : ν) (n : Node ν) : n.shape.targets v = n.targets v := by
  cases n <;> rfl

@[simp] theorem shape_setEntries_node (n : Node ν) (es : List (ν × ν)) :
    (n.setEntries es).shape = n.shape := by
  cases n <;> rfl

theorem entries_setEntries_node {m n : Node ν} (hshape : m.shape = n.shape) (hn : n.entries ≠ [])
    (es : List (ν × ν)) : (m.setEntries es).entries = es := by
  cases n with
  | mapping t entries =>
    cases m with
    | mapping t' entries' => rfl
    | scalar t' value => cases hshape
    | sequence t' items => cases hshape
  | scalar t value => exact absurd rfl hn
  | sequence t items => exact absurd rfl hn

theorem items_of_shape {t t' : Tag} {items items' : List ν}
    (hshape : (Node.sequence t items).shape = (Node.sequence t' items').shape) :
    items = items' := by
  simp only [Node.shape,Node.sequence.injEq] at hshape
  exact hshape.2

theorem sequence_of_shape {node : Node ν} {t : Tag} {items : List ν}
    (h : node.shape = (Node.sequence t items).shape) :
    ∃ t', node = .sequence t' items ∧ t'.settled = t.settled := by
  cases node with
  | scalar t' value => cases h
  | mapping t' entries => cases h
  | sequence t' items' =>
    simp only [Node.shape,Node.sequence.injEq] at h
    exact ⟨t',by rw [h.2],h.1⟩

theorem mapping_of_shape {node : Node ν} {t : Tag} {entries : List (ν × ν)}
    (h : node.shape = (Node.mapping t entries).shape) :
    ∃ t' entries', node = .mapping t' entries' ∧ t'.settled = t.settled := by
  cases node with
  | scalar t' value => cases h
  | sequence t' items => cases h
  | mapping t' entries' =>
    simp only [Node.shape,Node.mapping.injEq,and_true] at h
    exact ⟨t',entries',rfl,h⟩

theorem shape_setTag_node {n : Node ν} (h : n.tag = .value) : (n.setTag .str).shape = n.shape := by
  cases n <;> simp_all [Node.tag,Node.setTag,Node.shape,Tag.settled]

@[simp] theorem entries_setTag_node (n : Node ν) (t : Tag) : (n.setTag t).entries = n.entries := by
  cases n <;> rfl

namespace NodeGraph

variable (g : NodeGraph ν)

def mergeKey (entry : ν × ν) : Bool := (g entry.1).tag == .merge

/-- The mappings that the merge keys among the entries bring in. -/
def brought (entries : List (ν × ν)) : List ν :=
  (entries.filter g.mergeKey).flatMap fun entry => (g entry.2).targets entry.2

def unmerged (entries : List (ν × ν)) : List (ν × ν) :=
  entries.filter fun entry => !g.mergeKey entry

def sources (c : ν) : List ν := g.brought (g c).entries

def plain (c : ν) : List (ν × ν) := g.unmerged (g c).entries

/-- The merges of `c` nest less than `depth` times. -/
def MergesWithin : ℕ → ν → Prop
  | 0, _ => False
  | depth + 1, c => ∀ s ∈ g.sources c, MergesWithin depth s

/-- The entries of `c` behind those of all mappings that it merges. -/
def flattened : ℕ → ν → List (ν × ν)
  | 0, _ => []
  | depth + 1, c => (g.sources c).flatMap (flattened depth) ++ g.plain c

theorem mergesWithin_succ {g : NodeGraph ν} {depth : ℕ} {c : ν} (h : g.MergesWithin depth c) :
    g.MergesWithin (depth + 1) c := by
  induction depth generalizing c with
  | zero => exact h.elim
  | succ depth ih =>
    intro s hs
    exact ih (h s hs)

theorem flattened_succ {g : NodeGraph ν} {depth : ℕ} {c : ν} (h : g.MergesWithin depth c) :
    g.flattened (depth + 1) c = g.flattened depth c := by
  induction depth generalizing c with
  | zero => exact h.elim
  | succ depth ih =>
    rw [flattened,flattened]
    congr 1
    apply List.flatMap_congr
    intro s hs
    exact ih (h s hs)

theorem mergesWithin_le {g : NodeGraph ν} {depth more : ℕ} {c : ν} (h : g.MergesWithin depth c)
    (hle : depth ≤ more) : g.MergesWithin more c ∧ g.flattened more c = g.flattened depth c := by
  induction more, hle using Nat.le_induction with
  | base => exact ⟨h,rfl⟩
  | succ more hle ih => exact ⟨mergesWithin_succ ih.1,(flattened_succ ih.1).trans ih.2⟩

/-- The flattened entries do not depend on the bound of the depth. -/
theorem flattened_unique {g : NodeGraph ν} {m n : ℕ} {c : ν} (hm : g.MergesWithin m c)
    (hn : g.MergesWithin n c) : g.flattened m c = g.flattened n c := by
  rcases le_total m n with hle | hle
  · exact (mergesWithin_le hm hle).2.symm
  · exact (mergesWithin_le hn hle).2

theorem unmerged_of_free {entries : List (ν × ν)}
    (h : ∀ entry ∈ entries, g.mergeKey entry = false) :
    g.brought entries = [] ∧ g.unmerged entries = entries := by
  constructor
  · rw [brought,List.filter_eq_nil_iff.mpr fun entry hentry => by simp [h entry hentry]]
    rfl
  · exact List.filter_eq_self.mpr fun entry hentry => by simp [h entry hentry]

theorem mergeKey_flattened {g : NodeGraph ν} {depth : ℕ} {c : ν} {entry : ν × ν}
    (h : entry ∈ g.flattened depth c) : g.mergeKey entry = false := by
  induction depth generalizing c with
  | zero => cases h
  | succ depth ih =>
    rcases List.mem_append.mp h with h | h
    · obtain ⟨s,_,hs⟩ := List.mem_flatMap.mp h
      exact ih hs
    · simpa using (List.mem_filter.mp h).2

end NodeGraph

open NodeGraph Fallible

variable {g₀ g g' : NodeGraph ν}

theorem settled_congr (h : g.shape = g'.shape) (n : ν) :
    (g n).tag.settled = (g' n).tag.settled := by
  rw [← tag_shape,← tag_shape]
  exact congrArg Node.tag (congrFun h n)

theorem mergeKey_congr (h : g.shape = g'.shape) : g.mergeKey = g'.mergeKey := by
  funext entry
  rw [mergeKey,mergeKey,Bool.eq_iff_iff,beq_iff_eq,beq_iff_eq,← settled_eq_merge,
    settled_congr h,settled_eq_merge]

theorem targets_congr (h : g.shape = g'.shape) (v : ν) : (g v).targets v = (g' v).targets v := by
  rw [← targets_shape,← targets_shape v (g' v)]
  exact congrArg (Node.targets v) (congrFun h v)

/-- Tags may have settled, and the entries of the nodes in `D` may have changed. -/
structure Passes (D : ν → Prop) (g g' : NodeGraph ν) : Prop where
  shape : g'.shape = g.shape
  frame : ∀ n, ¬D n → (g' n).entries = (g n).entries

theorem Passes.refl (D : ν → Prop) (g : NodeGraph ν) : Passes D g g := ⟨rfl,fun _ _ => rfl⟩

theorem Passes.trans {D : ν → Prop} {g g' g'' : NodeGraph ν} (h : Passes D g g')
    (h' : Passes D g' g'') : Passes D g g'' :=
  ⟨h'.shape.trans h.shape,fun n hn => (h'.frame n hn).trans (h.frame n hn)⟩

theorem Passes.mono {D E : ν → Prop} (h : Passes D g g') (hle : ∀ n, D n → E n) : Passes E g g' :=
  ⟨h.shape,fun n hn => h.frame n (fun hd => hn (hle n hd))⟩

variable (g₀)

/-- A graph that came from `g₀`, each mapping of which is as written, or flattened. -/
structure Partly (depth : ℕ) (g : NodeGraph ν) : Prop where
  shape : g.shape = g₀.shape
  entries : ∀ n, g₀.MergesWithin depth n →
    (g n).entries = (g₀ n).entries ∨ (g n).entries = g₀.flattened depth n

/-- What `flatten_mapping` does to the mappings whose merges nest less than `depth` times. -/
def FlattensWithin (depth : ℕ) (flatten : Flattener ν ε) : Prop :=
  ∀ c g g', g₀.MergesWithin depth c → Partly g₀ depth g → flatten c g = .ok g' →
    Passes (g₀.MergesWithin depth) g g' ∧ Partly g₀ depth g' ∧
      (g' c).entries = g₀.flattened depth c

variable {g₀}

theorem Partly.lower {depth : ℕ} (hg : Partly g₀ (depth + 1) g) : Partly g₀ depth g := by
  refine ⟨hg.shape,?_⟩
  intro n hn
  rw [← flattened_succ hn]
  exact hg.entries n (mergesWithin_succ hn)

/-- Flattening `c` and what lies deeper leaves a graph partly flattened. -/
theorem Partly.raise {depth : ℕ} {c : ν} (hg : Partly g₀ (depth + 1) g)
    (hpass : Passes (fun n => g₀.MergesWithin depth n ∨ n = c) g g') (hlow : Partly g₀ depth g')
    (hc : (g' c).entries = g₀.flattened (depth + 1) c) : Partly g₀ (depth + 1) g' := by
  refine ⟨hlow.shape,?_⟩
  intro n hn
  by_cases hdeep : g₀.MergesWithin depth n
  · rw [flattened_succ hdeep]
    exact hlow.entries n hdeep
  · by_cases hnc : n = c
    · subst hnc
      exact .inr hc
    · rw [hpass.frame n (not_or.mpr ⟨hdeep,hnc⟩)]
      exact hg.entries n hn

/-- A graph stays partly flattened where no mapping of the depth changes. -/
theorem Partly.passes {depth : ℕ} {D : ν → Prop} (hg : Partly g₀ depth g) (h : Passes D g g')
    (hfree : ∀ n, g₀.MergesWithin depth n → ¬D n) : Partly g₀ depth g' := by
  refine ⟨h.shape.trans hg.shape,?_⟩
  intro n hn
  rw [h.frame n (hfree n hn)]
  exact hg.entries n hn

variable (g₀) in
def Flattening (g : NodeGraph ν) : Prop := ∀ depth, Partly g₀ depth g

theorem flattening_refl (g : NodeGraph ν) : Flattening g g :=
  fun _ => ⟨rfl,fun _ _ => .inl rfl⟩

theorem Flattening.shape (hg : Flattening g₀ g) : g.shape = g₀.shape := (hg 0).shape

theorem Flattening.passes {D : ν → Prop} (hg : Flattening g₀ g) (h : Passes D g g')
    (hfree : ∀ depth n, g₀.MergesWithin depth n → ¬D n) : Flattening g₀ g' :=
  fun depth => (hg depth).passes h (hfree depth)

theorem Flattening.items {n : ν} {t t' : Tag} {items items' : List ν} (hg : Flattening g₀ g)
    (hn : g₀ n = .sequence t items) (hn' : g n = .sequence t' items') : items = items' := by
  apply @items_of_shape ν t t'
  rw [← hn,← hn']
  exact (congrFun hg.shape n).symm

theorem Flattening.entries_of_free {depth : ℕ} {n : ν} (hg : Flattening g₀ g)
    (hn : g₀.MergesWithin depth n) (hfree : ∀ entry ∈ (g n).entries, g₀.mergeKey entry = false) :
    g₀.flattened depth n = (g n).entries := by
  rcases (hg depth).entries n hn with hentries | hentries
  · cases depth with
    | zero => exact hn.elim
    | succ depth =>
      rw [hentries] at hfree ⊢
      obtain ⟨hbrought,hunmerged⟩ := unmerged_of_free g₀ hfree
      rw [flattened,sources,plain,hbrought,hunmerged]
      rfl
  · exact hentries.symm

/-- What the loop is given where `c` is as written, and where it was flattened before. -/
theorem Partly.pending {depth : ℕ} {c : ν} (hg : Partly g₀ (depth + 1) g)
    (hc : g₀.MergesWithin (depth + 1) c) :
    (∀ s ∈ g₀.brought (g c).entries, g₀.MergesWithin depth s) ∧
      (g₀.brought (g c).entries).flatMap (g₀.flattened depth) ++ g₀.unmerged (g c).entries =
        g₀.flattened (depth + 1) c := by
  rcases hg.entries c hc with hentries | hentries
  · rw [hentries]
    exact ⟨hc,rfl⟩
  · have hfree : ∀ entry ∈ g₀.flattened (depth + 1) c, g₀.mergeKey entry = false :=
      fun _ hentry => mergeKey_flattened hentry
    obtain ⟨hbrought,hunmerged⟩ := unmerged_of_free g₀ hfree
    rw [hentries,hbrought,hunmerged]
    exact ⟨by simp,rfl⟩

section Loop

variable {depth : ℕ} {flatten : Flattener ν ε}

theorem flattenItems_within (hflatten : FlattensWithin g₀ depth flatten) {items : List ν}
    {found : List (List (ν × ν)) × NodeGraph ν} (hitems : ∀ s ∈ items, g₀.MergesWithin depth s)
    (hg : Partly g₀ depth g) (h : flattenItems flatten items g = .ok found) :
    found.1 = items.map (g₀.flattened depth) ∧ Passes (g₀.MergesWithin depth) g found.2 ∧
      Partly g₀ depth found.2 := by
  induction items generalizing g found with
  | nil =>
    rw [flattenItems,Except.ok.injEq] at h
    subst h
    exact ⟨rfl,.refl _ g,hg⟩
  | cons item items ih =>
    rw [flattenItems] at h
    split at h
    · obtain ⟨g',hitem,h⟩ := bind_ok.mp h
      obtain ⟨rest,hrest,h⟩ := bind_ok.mp h
      cases h
      obtain ⟨hpass,hg',hentries⟩ := hflatten item g g' (hitems item List.mem_cons_self) hg hitem
      obtain ⟨hfound,hpass',hgoal⟩ :=
        ih (fun s hs => hitems s (List.mem_cons_of_mem item hs)) hg' hrest
      exact ⟨by rw [hfound,hentries,List.map_cons],hpass.trans hpass',hgoal⟩
    · cases h

theorem mergedEntries_within (hflatten : FlattensWithin g₀ depth flatten) {v : ν}
    {found : List (ν × ν) × NodeGraph ν}
    (hv : ∀ s ∈ (g v).targets v, g₀.MergesWithin depth s) (hg : Partly g₀ depth g)
    (h : mergedEntries flatten v g = .ok found) :
    found.1 = ((g v).targets v).flatMap (g₀.flattened depth) ∧
      Passes (g₀.MergesWithin depth) g found.2 ∧ Partly g₀ depth found.2 := by
  unfold mergedEntries at h
  split at h
  · rename_i t entries hnode
    rw [hnode,Node.targets] at hv ⊢
    obtain ⟨g',hmapping,h⟩ := bind_ok.mp h
    cases h
    obtain ⟨hpass,hg',hentries⟩ := hflatten v g g' (hv v List.mem_cons_self) hg hmapping
    exact ⟨by simp [hentries],hpass,hg'⟩
  · rename_i t items hnode
    rw [hnode,Node.targets] at hv ⊢
    obtain ⟨lists,hitems,h⟩ := bind_ok.mp h
    cases h
    obtain ⟨hfound,hpass,hg'⟩ :=
      flattenItems_within hflatten (fun s hs => hv s (List.mem_reverse.mpr hs)) hg hitems
    exact ⟨by simp [hfound,List.flatMap_def],hpass,hg'⟩
  · cases h

end Loop

variable [DecidableEq ν]

theorem passes_setEntries (g : NodeGraph ν) (c : ν) (es : List (ν × ν)) :
    Passes (· = c) g (g.setEntries c es) := by
  constructor
  · funext n
    by_cases hn : n = c
    · subst hn
      simp [NodeGraph.shape,NodeGraph.setEntries]
    · simp [NodeGraph.shape,NodeGraph.setEntries,hn]
  · intro n hn
    rw [NodeGraph.setEntries,Function.update_of_ne hn]

theorem entries_setEntries {c : ν} (hshape : g.shape = g'.shape) (h : (g' c).entries ≠ [])
    (es : List (ν × ν)) : (g.setEntries c es c).entries = es := by
  rw [NodeGraph.setEntries,Function.update_self]
  exact entries_setEntries_node (congrFun hshape c) h es

theorem passes_settleKey (g : NodeGraph ν) (k : ν) : Passes (fun _ => False) g (settleKey g k) := by
  unfold settleKey
  split_ifs with hk
  · constructor
    · funext n
      by_cases hn : n = k
      · subst hn
        simp [NodeGraph.shape,NodeGraph.setTag,shape_setTag_node hk]
      · simp [NodeGraph.shape,NodeGraph.setTag,hn]
    · intro n _
      by_cases hn : n = k
      · subst hn
        simp [NodeGraph.setTag]
      · simp [NodeGraph.setTag,hn]
  · exact .refl _ g

theorem passes_prepend (g : NodeGraph ν) (c : ν) (merge : List (ν × ν)) :
    Passes (· = c) g (g.prepend c merge) := by
  unfold NodeGraph.prepend
  split_ifs
  · exact .refl _ g
  · exact passes_setEntries g c _

theorem entries_prepend {c : ν} {merge : List (ν × ν)} (hshape : g.shape = g'.shape)
    (h : merge ≠ [] → (g' c).entries ≠ []) :
    (g.prepend c merge c).entries = merge ++ (g c).entries := by
  unfold NodeGraph.prepend
  split_ifs with hmerge
  · rw [hmerge,List.nil_append]
  · exact entries_setEntries hshape (h hmerge) _

/-- The loop gathers what the merge keys bring in, and keeps the other entries. -/
theorem flattenEntries_within {depth : ℕ} {flatten : Flattener ν ε}
    (hflatten : FlattensWithin g₀ depth flatten) {c : ν}
    (hc : ¬g₀.MergesWithin depth c) {kept rest merge : List (ν × ν)}
    {found : List (ν × ν) × NodeGraph ν} (hentries : (g c).entries = kept ++ rest)
    (hrest : ∀ s ∈ g₀.brought rest, g₀.MergesWithin depth s) (hg : Partly g₀ depth g)
    (h : flattenEntries flatten c kept rest merge g = .ok found) :
    found.1 = merge ++ (g₀.brought rest).flatMap (g₀.flattened depth) ∧
      (found.2 c).entries = kept ++ g₀.unmerged rest ∧
      Passes (fun n => g₀.MergesWithin depth n ∨ n = c) g found.2 ∧ Partly g₀ depth found.2 := by
  induction rest generalizing kept merge g with
  | nil =>
    rw [flattenEntries,Except.ok.injEq] at h
    subst h
    exact ⟨(List.append_nil merge).symm,hentries,.refl _ g,hg⟩
  | cons entry rest ih =>
    obtain ⟨k,v⟩ := entry
    have hkey : g₀.mergeKey (k,v) = decide ((g k).tag = .merge) := by
      rw [← mergeKey_congr hg.shape]
      rfl
    rw [flattenEntries] at h
    by_cases hk : (g k).tag = .merge
    · rw [if_pos hk] at h
      have hbrought : g₀.brought ((k,v) :: rest) = (g₀ v).targets v ++ g₀.brought rest := by
        simp [brought,hkey,hk]
      obtain ⟨mid,hmid,h⟩ := bind_ok.mp h
      rw [hbrought] at hrest ⊢
      have hset := passes_setEntries g c (kept ++ rest)
      have hg₁ : Partly g₀ depth (g.setEntries c (kept ++ rest)) :=
        hg.passes hset fun n hn hnc => hc (hnc ▸ hn)
      have htargets := targets_congr hg₁.shape v
      obtain ⟨hfound,hpass,hmid⟩ := mergedEntries_within hflatten
        (fun s hs => hrest s (List.mem_append_left _ (htargets ▸ hs))) hg₁ hmid
      have hleft : (mid.2 c).entries = kept ++ rest := by
        rw [hpass.frame c hc]
        apply entries_setEntries rfl
        simp [hentries]
      rw [if_pos hleft] at h
      obtain ⟨hlist,hkept,hpass',hgoal⟩ :=
        ih hleft (fun s hs => hrest s (List.mem_append_right _ hs)) hmid h
      refine ⟨?_,?_,?_,hgoal⟩
      · rw [hlist,hfound,htargets,List.flatMap_append,List.append_assoc]
      · rw [hkept]
        simp [unmerged,hkey,hk]
      · exact ((hset.mono fun n hn => .inr hn).trans (hpass.mono fun n hn => .inl hn)).trans hpass'
    · rw [if_neg hk] at h
      have hsettle := passes_settleKey g k
      have hbrought : g₀.brought ((k,v) :: rest) = g₀.brought rest := by
        simp [brought,hkey,hk]
      rw [hbrought] at hrest ⊢
      have hentries' : (settleKey g k c).entries = (kept ++ [(k,v)]) ++ rest := by
        rw [hsettle.frame c not_false,hentries,List.append_assoc,List.singleton_append]
      obtain ⟨hlist,hkept,hpass,hgoal⟩ :=
        ih hentries' hrest (hg.passes hsettle fun _ _ => not_false) h
      refine ⟨hlist,?_,(hsettle.mono fun _ => False.elim).trans hpass,hgoal⟩
      rw [hkept,List.append_assoc]
      simp [unmerged,hkey,hk]

/-- `flatten_mapping` leaves a mapping that does not merge itself with its flattened entries. -/
theorem flatten_within (depth limit : ℕ) :
    FlattensWithin g₀ depth (flatten limit : Flattener ν ε) := by
  induction depth generalizing limit with
  | zero =>
    intro c g g' hc
    exact hc.elim
  | succ depth ih =>
    intro c g g' hc hg h
    by_cases hdeep : g₀.MergesWithin depth c
    · obtain ⟨hpass,hlow,hentries⟩ := ih limit c g g' hdeep hg.lower h
      rw [← flattened_succ hdeep] at hentries
      exact ⟨hpass.mono fun n => mergesWithin_succ,
        hg.raise (hpass.mono fun n => Or.inl) hlow hentries,hentries⟩
    · cases limit with
      | zero => cases h
      | succ limit =>
        rw [flatten] at h
        obtain ⟨found,hloop,h⟩ := bind_ok.mp h
        obtain ⟨hbrought,hflat⟩ := hg.pending hc
        obtain ⟨hmerge,hkept,hpass,hlow⟩ :=
          flattenEntries_within (ih limit) hdeep rfl hbrought hg.lower hloop
        rw [List.nil_append] at hmerge hkept
        have hsome : found.1 ≠ [] → (g c).entries ≠ [] := by
          intro hfound hnil
          rw [hmerge,hnil] at hfound
          exact hfound rfl
        have hentries : (g' c).entries = g₀.flattened (depth + 1) c := by
          cases h
          rw [entries_prepend hpass.shape hsome,hmerge,hkept,hflat]
        have hlast : Passes (· = c) found.2 g' := by
          cases h
          exact passes_prepend found.2 c found.1
        have hall := hpass.trans (hlast.mono fun n => Or.inr)
        have hlow' : Partly g₀ depth g' := hlow.passes hlast fun n hn hnc => hdeep (hnc ▸ hn)
        refine ⟨hall.mono ?_,hg.raise hall hlow' hentries,hentries⟩
        rintro n (hn | rfl)
        · exact mergesWithin_succ hn
        · exact hc

section Preserves

variable {P : NodeGraph ν → Prop}
  {flatten : Flattener ν ε}
  (hflatten : ∀ n g g', P g → flatten n g = .ok g' → P g')

include hflatten

omit [DecidableEq ν] in
theorem flattenItems_preserves {items : List ν} {found : List (List (ν × ν)) × NodeGraph ν}
    (hg : P g) (h : flattenItems flatten items g = .ok found) : P found.2 := by
  induction items generalizing g found with
  | nil =>
    cases h
    exact hg
  | cons item items ih =>
    rw [flattenItems] at h
    split at h
    · obtain ⟨g',hitem,h⟩ := bind_ok.mp h
      obtain ⟨rest,hrest,h⟩ := bind_ok.mp h
      cases h
      have hP : P rest.2 := ih (hflatten item g g' hg hitem) hrest
      exact hP
    · cases h

omit [DecidableEq ν] in
theorem mergedEntries_preserves {v : ν} {found : List (ν × ν) × NodeGraph ν} (hg : P g)
    (h : mergedEntries flatten v g = .ok found) : P found.2 := by
  unfold mergedEntries at h
  split at h
  · obtain ⟨g',hmapping,h⟩ := bind_ok.mp h
    cases h
    exact hflatten v g g' hg hmapping
  · obtain ⟨lists,hitems,h⟩ := bind_ok.mp h
    cases h
    exact flattenItems_preserves hflatten hg hitems
  · cases h

theorem flattenEntries_preserves {c : ν} (hset : ∀ g es, P g → P (g.setEntries c es))
    (hsettle : ∀ g k, P g → P (settleKey g k)) {kept rest merge : List (ν × ν)}
    {found : List (ν × ν) × NodeGraph ν} (hg : P g)
    (h : flattenEntries flatten c kept rest merge g = .ok found) : P found.2 := by
  induction rest generalizing kept merge g with
  | nil =>
    cases h
    exact hg
  | cons entry rest ih =>
    rw [flattenEntries] at h
    split_ifs at h with hk
    · obtain ⟨mid,hmid,h⟩ := bind_ok.mp h
      have hP := mergedEntries_preserves hflatten (hset g _ hg) hmid
      split_ifs at h
      · exact ih hP h
      · cases h
        exact hP
    · exact ih (hsettle g entry.1 hg) h

end Preserves

/-- Whatever is flattened, the mappings that do not merge themselves are as written or
flattened. -/
theorem flatten_flattening {limit : ℕ} {c : ν} (hg : Flattening g₀ g)
    (h : (flatten limit : Flattener ν ε) c g = .ok g') : Flattening g₀ g' := by
  induction limit generalizing c g g' with
  | zero => cases h
  | succ limit ih =>
    by_cases hc : ∃ depth, g₀.MergesWithin depth c
    · obtain ⟨depth,hc⟩ := hc
      obtain ⟨hpass,hlow,_⟩ := flatten_within depth (limit + 1) c g g' hc (hg depth) h
      intro more
      refine ⟨hlow.shape,?_⟩
      intro n hn
      by_cases hdeep : g₀.MergesWithin depth n
      · rw [flattened_unique hn hdeep]
        exact hlow.entries n hdeep
      · rw [hpass.frame n hdeep]
        exact (hg more).entries n hn
    · have hfree : ∀ depth n, g₀.MergesWithin depth n → ¬n = c :=
        fun depth n hn hnc => hc ⟨depth,hnc ▸ hn⟩
      rw [flatten] at h
      obtain ⟨found,hloop,h⟩ := bind_ok.mp h
      cases h
      have hfound : Flattening g₀ found.2 := flattenEntries_preserves
        (fun n g g' => ih) (fun g es hg => hg.passes (passes_setEntries g c es) hfree)
        (fun g k hg => hg.passes (passes_settleKey g k) fun _ _ _ => not_false) hg hloop
      exact hfound.passes (passes_prepend found.2 c found.1) hfree

theorem flatten_entries {limit depth : ℕ} {c : ν} (hg : Flattening g₀ g)
    (hc : g₀.MergesWithin depth c) (h : (flatten limit : Flattener ν ε) c g = .ok g') :
    (g' c).entries = g₀.flattened depth c :=
  (flatten_within depth limit c g g' hc (hg depth) h).2.2

theorem flattenEntries_free (flatten : Flattener ν ε) (c : ν) (kept : List (ν × ν))
    {rest : List (ν × ν)} (hfree : ∀ entry ∈ rest, g.mergeKey entry = false) :
    ∃ g', flattenEntries flatten c kept rest [] g = .ok ([],g') ∧
      Passes (fun _ => False) g g' := by
  induction rest generalizing kept g with
  | nil => exact ⟨g,rfl,.refl _ g⟩
  | cons entry rest ih =>
    obtain ⟨k,v⟩ := entry
    have hk : (g k).tag ≠ .merge := beq_eq_false_iff_ne.mp (hfree (k,v) List.mem_cons_self)
    have hsettle := passes_settleKey g k
    have hrest : ∀ entry ∈ rest, (settleKey g k).mergeKey entry = false := by
      rw [mergeKey_congr hsettle.shape]
      exact fun entry hentry => hfree entry (List.mem_cons_of_mem _ hentry)
    obtain ⟨g',hloop,hpass⟩ := ih (kept ++ [(k,v)]) hrest
    refine ⟨g',?_,hsettle.trans hpass⟩
    rw [flattenEntries,if_neg hk,hloop]

theorem flatten_free (limit : ℕ) {c : ν} (hfree : ∀ entry ∈ (g c).entries, g.mergeKey entry = false) :
    ∃ g', (flatten (limit + 1) c g : Except (YamlFailure ε) _) = .ok g' ∧
      Passes (fun _ => False) g g' := by
  obtain ⟨g',hloop,hpass⟩ := flattenEntries_free (flatten limit) c [] hfree
  refine ⟨g',?_,hpass⟩
  rw [flatten,hloop]
  rfl

end PyYaml
