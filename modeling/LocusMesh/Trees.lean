import Mathlib
import LocusMesh.Yaml

/-! What a plain document means: a tree of scalars, lists and dicts, in which a node that is
shared by aliases stands for one subtree at each of its places. -/
namespace PyYaml

variable {ν κ ε : Type}

inductive Tree (κ : Type)
  | scalar (key : κ)
  | list (items : List (Tree κ))
  | dict (entries : List (κ × Tree κ))

mutual
def Tree.depth : Tree κ → ℕ
  | .scalar _ => 1
  | .list items => depthItems items + 1
  | .dict entries => depthEntries entries + 1
def Tree.depthItems : List (Tree κ) → ℕ
  | [] => 0
  | t :: ts => max t.depth (depthItems ts)
def Tree.depthEntries : List (κ × Tree κ) → ℕ
  | [] => 0
  | (_,t) :: es => max t.depth (depthEntries es)
end

theorem Tree.depth_pos (t : Tree κ) : 0 < t.depth := by
  cases t <;> simp [Tree.depth]

section Meaning

variable (scalars : Scalars κ ε) (g : NodeGraph ν)

/-- The node is a scalar that is constructed to the key. -/
def MeansKey (key : κ) (n : ν) : Prop :=
  ∃ tag text, g n = .scalar tag text ∧ tag.isScalar = true ∧
    scalars.construct .scalar tag text = .ok (.key key)

mutual
/-- The node means the tree: plain sequences and mappings, and no key twice. -/
def Means : Tree κ → ν → Prop
  | .scalar key, n => MeansKey scalars g key n
  | .list items, n => ∃ nodes, g n = .sequence .seq nodes ∧ MeansItems items nodes
  | .dict entries, n => ∃ nodes, g n = .mapping .map nodes ∧ (entries.map Prod.fst).Nodup ∧
      MeansEntries entries nodes
def MeansItems : List (Tree κ) → List ν → Prop
  | [], nodes => nodes = []
  | t :: ts, nodes => ∃ n rest, nodes = n :: rest ∧ Means t n ∧ MeansItems ts rest
def MeansEntries : List (κ × Tree κ) → List (ν × ν) → Prop
  | [], nodes => nodes = []
  | (key,t) :: es, nodes => ∃ k v rest, nodes = (k,v) :: rest ∧ MeansKey scalars g key k ∧
      Means t v ∧ MeansEntries es rest
end

variable {scalars g}

theorem MeansKey.unique {key key' : κ} {n : ν} (h : MeansKey scalars g key n)
    (h' : MeansKey scalars g key' n) : key = key' := by
  obtain ⟨tag,text,hn,_,hkey⟩ := h
  obtain ⟨tag',text',hn',_,hkey'⟩ := h'
  rw [hn,Node.scalar.injEq] at hn'
  obtain ⟨rfl,rfl⟩ := hn'
  rw [hkey,Except.ok.injEq,Datum.key.injEq] at hkey'
  exact hkey'

mutual
/-- A node means one tree at most. -/
theorem means_unique : ∀ {t t' : Tree κ} {n : ν}, Means scalars g t n → Means scalars g t' n →
    t = t'
  | .scalar _, t', _, h, h' => by
    cases t' with
    | scalar key' => exact congrArg Tree.scalar (MeansKey.unique h h')
    | list items' =>
      obtain ⟨_,_,hn,_⟩ := h
      obtain ⟨_,hn',_⟩ := h'
      cases hn.symm.trans hn'
    | dict entries' =>
      obtain ⟨_,_,hn,_⟩ := h
      obtain ⟨_,hn',_⟩ := h'
      cases hn.symm.trans hn'
  | .list items, t', _, ⟨nodes,hn,h⟩, h' => by
    cases t' with
    | scalar key' =>
      obtain ⟨_,_,hn',_⟩ := h'
      cases hn.symm.trans hn'
    | list items' =>
      obtain ⟨nodes',hn',h'⟩ := h'
      rw [hn,Node.sequence.injEq] at hn'
      obtain ⟨_,rfl⟩ := hn'
      exact congrArg Tree.list (meansItems_unique h h')
    | dict entries' =>
      obtain ⟨_,hn',_⟩ := h'
      cases hn.symm.trans hn'
  | .dict entries, t', _, ⟨nodes,hn,_,h⟩, h' => by
    cases t' with
    | scalar key' =>
      obtain ⟨_,_,hn',_⟩ := h'
      cases hn.symm.trans hn'
    | list items' =>
      obtain ⟨_,hn',_⟩ := h'
      cases hn.symm.trans hn'
    | dict entries' =>
      obtain ⟨nodes',hn',_,h'⟩ := h'
      rw [hn,Node.mapping.injEq] at hn'
      obtain ⟨_,rfl⟩ := hn'
      exact congrArg Tree.dict (meansEntries_unique h h')
theorem meansItems_unique : ∀ {ts ts' : List (Tree κ)} {nodes : List ν},
    MeansItems scalars g ts nodes → MeansItems scalars g ts' nodes → ts = ts'
  | [], ts', nodes, h, h' => by
    have h : nodes = [] := h
    cases ts' with
    | nil => rfl
    | cons t' ts' =>
      obtain ⟨_,_,hcons,_⟩ := h'
      cases h.symm.trans hcons
  | t :: ts, ts', nodes, ⟨n,rest,hcons,ht,hts⟩, h' => by
    cases ts' with
    | nil =>
      have h' : nodes = [] := h'
      cases h'.symm.trans hcons
    | cons t' ts' =>
      obtain ⟨n',rest',hcons',ht',hts'⟩ := h'
      rw [hcons,List.cons.injEq] at hcons'
      obtain ⟨rfl,rfl⟩ := hcons'
      rw [means_unique ht ht',meansItems_unique hts hts']
theorem meansEntries_unique : ∀ {es es' : List (κ × Tree κ)} {nodes : List (ν × ν)},
    MeansEntries scalars g es nodes → MeansEntries scalars g es' nodes → es = es'
  | [], es', nodes, h, h' => by
    have h : nodes = [] := h
    cases es' with
    | nil => rfl
    | cons e' es' =>
      obtain ⟨_,_,_,hcons,_⟩ := h'
      cases h.symm.trans hcons
  | (key,t) :: es, es', nodes, ⟨k,v,rest,hcons,hk,ht,hes⟩, h' => by
    cases es' with
    | nil =>
      have h' : nodes = [] := h'
      cases h'.symm.trans hcons
    | cons e' es' =>
      obtain ⟨k',v',rest',hcons',hk',ht',hes'⟩ := h'
      rw [hcons,List.cons.injEq,Prod.mk.injEq] at hcons'
      obtain ⟨⟨rfl,rfl⟩,rfl⟩ := hcons'
      rw [MeansKey.unique hk hk',means_unique ht ht',meansEntries_unique hes hes']
end

theorem meansItems_deepest {items : List (Tree κ)} {nodes : List ν}
    (h : MeansItems scalars g items nodes) (hpos : 0 < Tree.depthItems items) :
    ∃ t n, Means scalars g t n ∧ t.depth = Tree.depthItems items := by
  induction items generalizing nodes with
  | nil => exact absurd hpos (lt_irrefl 0)
  | cons t ts ih =>
    obtain ⟨n,rest,rfl,ht,hts⟩ := h
    rw [Tree.depthItems] at hpos ⊢
    rcases le_total (Tree.depthItems ts) t.depth with hle | hle
    · exact ⟨t,n,ht,(max_eq_left hle).symm⟩
    · rw [max_eq_right hle] at hpos ⊢
      exact ih hts hpos

theorem meansEntries_deepest {entries : List (κ × Tree κ)} {nodes : List (ν × ν)}
    (h : MeansEntries scalars g entries nodes) (hpos : 0 < Tree.depthEntries entries) :
    ∃ t n, Means scalars g t n ∧ t.depth = Tree.depthEntries entries := by
  induction entries generalizing nodes with
  | nil => exact absurd hpos (lt_irrefl 0)
  | cons e es ih =>
    obtain ⟨k,v,rest,rfl,_,ht,hes⟩ := h
    rw [Tree.depthEntries] at hpos ⊢
    rcases le_total (Tree.depthEntries es) e.2.depth with hle | hle
    · exact ⟨e.2,v,ht,(max_eq_left hle).symm⟩
    · rw [max_eq_right hle] at hpos ⊢
      exact ih hes hpos

theorem means_below {t : Tree κ} {n : ν} {d : ℕ} (h : Means scalars g t n)
    (hd : t.depth = d + 1) (hpos : 0 < d) : ∃ t' n', Means scalars g t' n' ∧ t'.depth = d := by
  cases t with
  | scalar key =>
    rw [Tree.depth] at hd
    omega
  | list items =>
    rw [Tree.depth,Nat.add_right_cancel_iff] at hd
    obtain ⟨nodes,_,hitems⟩ := h
    rw [← hd] at hpos ⊢
    exact meansItems_deepest hitems hpos
  | dict entries =>
    rw [Tree.depth,Nat.add_right_cancel_iff] at hd
    obtain ⟨nodes,_,_,hentries⟩ := h
    rw [← hd] at hpos ⊢
    exact meansEntries_deepest hentries hpos

/-- Each level of a tree takes a node of its own, so that no tree is deeper than the document
has nodes. -/
theorem means_depth_le [Fintype ν] [DecidableEq ν] {t : Tree κ} {n : ν} (h : Means scalars g t n) :
    t.depth ≤ Fintype.card ν := by
  have hused : ∀ d t n (used : Finset ν), Means scalars g t n → t.depth = d →
      (∀ m ∈ used, ∀ t', Means scalars g t' m → d < t'.depth) →
      d + used.card ≤ Fintype.card ν := by
    intro d
    induction d with
    | zero =>
      intro t n used _ hd _
      exact absurd hd t.depth_pos.ne'
    | succ d ih =>
      intro t n used ht hd hdeeper
      have hn : n ∉ used := fun hn => absurd (hdeeper n hn t ht) (by omega)
      have hcard := Finset.card_insert_of_notMem hn
      rcases Nat.eq_zero_or_pos d with rfl | hpos
      · have hle := (insert n used).card_le_univ
        omega
      · obtain ⟨t',n',ht',hd'⟩ := means_below ht hd hpos
        have hle := ih t' n' (insert n used) ht' hd' (by
          intro m hm t'' ht''
          rcases Finset.mem_insert.mp hm with rfl | hm
          · rw [← means_unique ht ht'',hd]
            exact Nat.lt_succ_self d
          · exact Nat.lt_of_succ_lt (hdeeper m hm t'' ht''))
        omega
  have hle := hused t.depth t n ∅ h rfl (by simp)
  rwa [Finset.card_empty,Nat.add_zero] at hle

end Meaning

section Composing

def Node.map {μ : Type} (f : ν → μ) : Node ν → Node μ
  | .scalar tag text => .scalar tag text
  | .sequence tag items => .sequence tag (items.map f)
  | .mapping tag entries => .mapping tag (entries.map fun entry => (f entry.1,f entry.2))

variable (write : κ → Tag × String)

mutual
/-- The nodes of a tree without aliases, numbered from the one of its root on. -/
def Tree.compose : Tree κ → ℕ → List (Node ℕ)
  | .scalar key, _ => [.scalar (write key).1 (write key).2]
  | .list items, i =>
    .sequence .seq (composeItems items (i + 1)).1 :: (composeItems items (i + 1)).2
  | .dict entries, i =>
    .mapping .map (composeEntries entries (i + 1)).1 :: (composeEntries entries (i + 1)).2
def Tree.composeItems : List (Tree κ) → ℕ → List ℕ × List (Node ℕ)
  | [], _ => ([],[])
  | t :: ts, i =>
    let nodes := t.compose i
    let rest := composeItems ts (i + nodes.length)
    (i :: rest.1,nodes ++ rest.2)
def Tree.composeEntries : List (κ × Tree κ) → ℕ → List (ℕ × ℕ) × List (Node ℕ)
  | [], _ => ([],[])
  | (key,t) :: es, i =>
    let nodes := t.compose (i + 1)
    let rest := composeEntries es (i + 1 + nodes.length)
    ((i,i + 1) :: rest.1,.scalar (write key).1 (write key).2 :: nodes ++ rest.2)
end

variable (scalars : Scalars κ ε)

/-- The text of the key is read as the key. -/
def WritesKey (key : κ) : Prop :=
  (write key).1.isScalar = true ∧ scalars.construct .scalar (write key).1 (write key).2 = .ok (.key key)

mutual
/-- All scalars of the tree can be written, and no dict has a key twice. -/
def Writes : Tree κ → Prop
  | .scalar key => WritesKey write scalars key
  | .list items => WritesItems items
  | .dict entries => (entries.map Prod.fst).Nodup ∧ WritesEntries entries
def WritesItems : List (Tree κ) → Prop
  | [] => True
  | t :: ts => Writes t ∧ WritesItems ts
def WritesEntries : List (κ × Tree κ) → Prop
  | [] => True
  | (key,t) :: es => WritesKey write scalars key ∧ Writes t ∧ WritesEntries es
end

variable {write scalars} {g : NodeGraph ν} {place : ℕ → ν}

def Places (g : NodeGraph ν) (place : ℕ → ν) (i : ℕ) (nodes : List (Node ℕ)) : Prop :=
  ∀ j node, nodes[j]? = some node → g (place (i + j)) = node.map place

theorem Places.head {i : ℕ} {node : Node ℕ} {nodes : List (Node ℕ)}
    (h : Places g place i (node :: nodes)) : g (place i) = node.map place :=
  h 0 node rfl

theorem Places.tail {i : ℕ} {node : Node ℕ} {nodes : List (Node ℕ)}
    (h : Places g place i (node :: nodes)) : Places g place (i + 1) nodes := by
  intro j next hj
  have hnext := h (j + 1) next (by simpa using hj)
  rwa [← Nat.add_assoc,Nat.add_right_comm] at hnext

theorem Places.left {i : ℕ} {front back : List (Node ℕ)} (h : Places g place i (front ++ back)) :
    Places g place i front := by
  intro j node hj
  exact h j node (by rw [List.getElem?_append_left (List.getElem?_eq_some_iff.mp hj).1,hj])

theorem Places.right {i : ℕ} {front back : List (Node ℕ)} (h : Places g place i (front ++ back)) :
    Places g place (i + front.length) back := by
  intro j node hj
  rw [Nat.add_assoc]
  exact h (front.length + j) node (by simpa [List.getElem?_append_right] using hj)

theorem WritesKey.means {key : κ} (h : WritesKey write scalars key) {i : ℕ}
    (hplace : g (place i) = (Node.scalar (write key).1 (write key).2).map place) :
    MeansKey scalars g key (place i) :=
  ⟨_,_,hplace,h.1,h.2⟩

mutual
/-- The nodes of a tree mean the tree, wherever a graph has them. -/
theorem compose_means : ∀ (t : Tree κ) {i : ℕ}, Writes write scalars t →
    Places g place i (t.compose write i) → Means scalars g t (place i)
  | .scalar _, _, h, hplaces => h.means hplaces.head
  | .list items, i, h, hplaces => by
    rw [Tree.compose] at hplaces
    exact ⟨_,hplaces.head,composeItems_means items h hplaces.tail⟩
  | .dict entries, i, ⟨hkeys,h⟩, hplaces => by
    rw [Tree.compose] at hplaces
    exact ⟨_,hplaces.head,hkeys,composeEntries_means entries h hplaces.tail⟩
theorem composeItems_means : ∀ (ts : List (Tree κ)) {i : ℕ}, WritesItems write scalars ts →
    Places g place i (Tree.composeItems write ts i).2 →
    MeansItems scalars g ts ((Tree.composeItems write ts i).1.map place)
  | [], _, _, _ => rfl
  | t :: ts, i, ⟨ht,hts⟩, hplaces => by
    rw [Tree.composeItems] at hplaces ⊢
    exact ⟨place i,_,rfl,compose_means t ht hplaces.left,composeItems_means ts hts hplaces.right⟩
theorem composeEntries_means : ∀ (es : List (κ × Tree κ)) {i : ℕ},
    WritesEntries write scalars es → Places g place i (Tree.composeEntries write es i).2 →
    MeansEntries scalars g es
      ((Tree.composeEntries write es i).1.map fun entry => (place entry.1,place entry.2))
  | [], _, _, _ => rfl
  | (key,t) :: es, i, ⟨hkey,ht,hes⟩, hplaces => by
    rw [Tree.composeEntries] at hplaces ⊢
    exact ⟨place i,place (i + 1),_,rfl,hkey.means hplaces.head,
      compose_means t ht hplaces.tail.left,composeEntries_means es hes hplaces.tail.right⟩
end

end Composing

end PyYaml
