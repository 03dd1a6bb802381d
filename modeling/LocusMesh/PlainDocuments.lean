import Mathlib
import LocusMesh.ReadBack
import LocusMesh.Unclassified
import LocusMesh.Unfolding

/-! Plain documents as `load_yaml_model` loads them: the data that the model is handed stands for
what the document means, and every JSON value is meant by a document. -/
namespace PyYaml

open Fallible

variable {ν κ ε : Type} [DecidableEq ν]

theorem flattenEntries_plain {flatten : Flattener ν ε} {c : ν} {g : NodeGraph ν}
    {kept rest : List (ν × ν)} (h : ∀ entry ∈ rest, (g entry.1).tag.isScalar = true) :
    flattenEntries flatten c kept rest [] g = .ok ([],g) := by
  induction rest generalizing kept with
  | nil => rfl
  | cons entry rest ih =>
    obtain ⟨hentry,hrest⟩ := List.forall_mem_cons.mp h
    have hmerge : (g entry.1).tag ≠ .merge := by
      intro htag
      rw [htag] at hentry
      cases hentry
    have hvalue : (g entry.1).tag ≠ .value := by
      intro htag
      rw [htag] at hentry
      cases hentry
    rw [flattenEntries,if_neg hmerge,settleKey,if_neg hvalue]
    exact ih hrest

theorem flatten_plain {limit : ℕ} {c : ν} {g : NodeGraph ν}
    (h : ∀ entry ∈ (g c).entries, (g entry.1).tag.isScalar = true) :
    (flatten (limit + 1) : Flattener ν ε) c g = .ok g := by
  rw [flatten,flattenEntries_plain h]
  rfl

theorem compose_pos (write : κ → Tag × String) (t : Tree κ) (i : ℕ) :
    0 < (t.compose write i).length := by
  cases t <;> simp [Tree.compose]

end PyYaml

namespace LocusMesh

open CanonicalJson PyText PyJson PyYaml Fallible

section Documents

variable {ν κ : Type} [DecidableEq ν] [DecidableEq κ] {scalars : Scalars κ PyError}

omit [DecidableEq ν] in
theorem uniqueEntries_keyed [DecidableEq ν] {construct : Construct ν κ PyError}
    {result : List (Object ν κ × Object ν κ)} {nodes : List (ν × ν)} {s : Loading ν κ}
    {found : List (Object ν κ × Object ν κ) × Loading ν κ}
    (h : constructKeyed construct nodes s = .ok found)
    (hnodup : ((result ++ found.1).map Prod.fst).Nodup)
    (hscalar : ∀ entry ∈ found.1, ∃ key, entry.1 = .scalar key) :
    uniqueEntries scalars construct result nodes s = .ok (result ++ found.1,found.2) := by
  induction nodes generalizing result s found with
  | nil =>
    cases h
    rw [uniqueEntries,List.append_nil]
  | cons entry nodes ih =>
    obtain ⟨key,hkey,h⟩ := bind_ok.mp h
    obtain ⟨value,hvalue,h⟩ := bind_ok.mp h
    obtain ⟨rest,hrest,h⟩ := bind_ok.mp h
    cases h
    obtain ⟨⟨k,hk⟩,hscalars⟩ := List.forall_mem_cons.mp hscalar
    have hnew : key.1 ∉ result.map Prod.fst := by
      rw [List.map_append,List.map_cons,List.nodup_append] at hnodup
      intro hmem
      exact hnodup.2.2 _ hmem _ List.mem_cons_self rfl
    have hnodup' : (((result ++ [(key.1,value.1)]) ++ rest.1).map Prod.fst).Nodup := by
      rwa [List.append_assoc,List.singleton_append]
    have hnext := ih hrest hnodup' hscalars
    rw [uniqueEntries,hkey]
    simp only [bind,Except.bind]
    rw [hk] at hnew hnext ⊢
    simp only [if_neg hnew,hvalue,hnext,List.append_assoc,List.singleton_append]

theorem constructUniqueMapping_builds :
    Builds (constructUniqueMapping scalars : MappingConstructor ν κ PyError) := by
  intro construct limit n s nodes found hn hkeys hkeyed hnodup hscalar
  have hflat : (flatten (limit + 1) : Flattener ν PyError) n s.graph = .ok s.graph := by
    refine flatten_plain fun entry hentry => hkeys entry ?_
    rwa [hn] at hentry
  have hentries : uniqueEntries scalars construct [] nodes s = .ok ([] ++ found.1,found.2) :=
    uniqueEntries_keyed hkeyed hnodup hscalar
  simp only [constructUniqueMapping,hn]
  rw [hflat]
  simp only [bind,Except.bind,hn,Node.entries]
  exact hentries

def YamlData.tree (data : YamlData κ) : Option (PyYaml.Tree κ) :=
  unfoldTree data.contents data.document.size data.root

/-- A file is loaded to data that stands for what its document means. -/
theorem loadYamlData_means {compose : Text → Except PyError (Option Document)} {limit : ℕ}
    {file : File} {text : Text} {d : Document} {t : PyYaml.Tree κ}
    (htext : readBounded file = .ok text) (hcompose : compose text = .ok (some d))
    (ht : Means scalars d.graph t d.root) (hlimit : t.depth < limit) :
    ∃ data, loadYamlData compose scalars limit file = .ok (some data) ∧ data.tree = some t := by
  have hbuilds : Builds
      (constructUniqueMapping scalars : MappingConstructor (Fin d.size) κ PyError) :=
    constructUniqueMapping_builds
  obtain ⟨found,hfound,htree⟩ := constructDocument_means hbuilds
    (constructUniqueMapping_relates queues_respected) ht hlimit
  rw [Fintype.card_fin] at hfound htree
  refine ⟨⟨d,found.1,found.2.contents⟩,?_,htree⟩
  rw [loadYamlData,htext]
  simp only [bind,Except.bind,hcompose,hfound,Except.mapError]

def treeDocument (write : κ → Tag × String) (t : PyYaml.Tree κ) : Document where
  size := (t.compose write 0).length
  graph n := (t.compose write 0)[n].map fun i =>
    ⟨i % (t.compose write 0).length,Nat.mod_lt i (compose_pos write t 0)⟩
  root := ⟨0,compose_pos write t 0⟩

omit [DecidableEq κ] in
theorem treeDocument_means {write : κ → Tag × String} {t : PyYaml.Tree κ}
    (h : Writes write scalars t) :
    Means scalars (treeDocument write t).graph t (treeDocument write t).root := by
  have hpos := compose_pos write t 0
  have hplaces : Places (treeDocument write t).graph
      (fun i => ⟨i % (t.compose write 0).length,Nat.mod_lt i hpos⟩) 0 (t.compose write 0) := by
    intro j node hj
    obtain ⟨hlt,rfl⟩ := List.getElem?_eq_some_iff.mp hj
    simp only [treeDocument,Nat.zero_add,Fin.getElem_fin,Nat.mod_eq_of_lt hlt]
  have hmeans := compose_means t h hplaces
  simp only [Nat.zero_mod] at hmeans
  exact hmeans

end Documents

section Trees

variable {κ : Type} (leaf : κ → Option Leaf)

def keyText (key : κ) : Option Str :=
  match leaf key with
  | some (.str s) => some s
  | _ => none

mutual
/-- The parsed value that a tree stands for, where its scalars are some that JSON has. -/
def treeValue : PyYaml.Tree κ → Option Value
  | .scalar key => (leaf key).map .leaf
  | .list items => (treeItems items).map .list
  | .dict entries => (treeEntries entries).map .dict
def treeItems : List (PyYaml.Tree κ) → Option (List Value)
  | [] => some []
  | t :: ts => do
    let v ← treeValue t
    let vs ← treeItems ts
    some (v :: vs)
def treeEntries : List (κ × PyYaml.Tree κ) → Option (List (Str × Value))
  | [] => some []
  | (key,t) :: es => do
    let name ← keyText leaf key
    let v ← treeValue t
    let fields ← treeEntries es
    some ((name,v) :: fields)
end

end Trees

section Written

/-- A scalar by its tag and its text. -/
def writtenScalars : Scalars (Tag × String) PyError where
  construct _ tag text := .ok (.key (tag,text))
  text := Prod.snd

/-- The scalars that JSON has, in its own spelling. -/
def writtenLeaf : Tag × String → Option Leaf
  | (.null,_) => some .null
  | (.bool,text) => some (.bool (text == "true"))
  | (.int,text) => some (.number text.toList)
  | (.str,text) => some (.str (str text))
  | _ => none

mutual
def jsonTree : Json → PyYaml.Tree (Tag × String)
  | .null => .scalar (.null,"null")
  | .bool b => .scalar (.bool,if b then "true" else "false")
  | .int i => .scalar (.int,String.ofList (intText i))
  | .str s => .scalar (.str,s)
  | .arr vs => .list (jsonItems vs)
  | .obj es => .dict (jsonEntries es)
def jsonItems : List Json → List (PyYaml.Tree (Tag × String))
  | [] => []
  | v :: vs => jsonTree v :: jsonItems vs
def jsonEntries : List (String × Json) → List ((Tag × String) × PyYaml.Tree (Tag × String))
  | [] => []
  | (name,v) :: es => ((.str,name),jsonTree v) :: jsonEntries es
end

mutual
theorem jsonTree_value : ∀ v, treeValue writtenLeaf (jsonTree v) = some (parsedValue v)
  | .null => rfl
  | .bool b => by cases b <;> rfl
  | .int i => by
    simp only [jsonTree,treeValue,writtenLeaf,String.toList_ofList,Option.map_some,parsedValue]
  | .str s => rfl
  | .arr vs => by
    simp only [jsonTree,treeValue,jsonItems_value vs,Option.map_some,parsedValue]
  | .obj es => by
    simp only [jsonTree,treeValue,jsonEntries_value es,Option.map_some,parsedValue]
theorem jsonItems_value : ∀ vs, treeItems writtenLeaf (jsonItems vs) = some (parsedItems vs)
  | [] => rfl
  | v :: vs => by
    simp only [jsonItems,treeItems,jsonTree_value v,jsonItems_value vs,parsedItems]
    rfl
theorem jsonEntries_value : ∀ es, treeEntries writtenLeaf (jsonEntries es) = some (parsedEntries es)
  | [] => rfl
  | (name,v) :: es => by
    simp only [jsonEntries,treeEntries,jsonTree_value v,jsonEntries_value es,parsedEntries]
    rfl
end

theorem jsonEntries_keys (es : List (String × Json)) :
    (jsonEntries es).map Prod.fst = es.map fun e => (Tag.str,e.1) := by
  induction es with
  | nil => rfl
  | cons e es ih => rw [jsonEntries,List.map_cons,ih,List.map_cons]

mutual
theorem jsonTree_writes : ∀ v, Distinct v → Writes id writtenScalars (jsonTree v)
  | .null, _ | .bool _, _ | .int _, _ | .str _, _ => ⟨rfl,rfl⟩
  | .arr vs, h => jsonItems_writes vs h
  | .obj es, h => by
    refine ⟨?_,jsonEntries_writes es h.2⟩
    have hkeys := h.1.map (f := Prod.mk Tag.str) fun a b hab => (Prod.mk.inj hab).2
    rw [jsonEntries_keys]
    rwa [List.map_map] at hkeys
theorem jsonItems_writes : ∀ vs, DistinctItems vs → WritesItems id writtenScalars (jsonItems vs)
  | [], _ => trivial
  | v :: vs, h => ⟨jsonTree_writes v h.1,jsonItems_writes vs h.2⟩
theorem jsonEntries_writes : ∀ es, DistinctEntries es →
    WritesEntries id writtenScalars (jsonEntries es)
  | [], _ => trivial
  | (_,v) :: es, h => ⟨⟨rfl,rfl⟩,jsonTree_writes v h.1,jsonEntries_writes es h.2⟩
end

mutual
theorem jsonTree_depth : ∀ v, (jsonTree v).depth ≤ nesting v + 1
  | .null | .bool _ | .int _ | .str _ => Nat.le_refl 1
  | .arr vs => Nat.succ_le_succ (jsonItems_depth vs)
  | .obj es => Nat.succ_le_succ (jsonEntries_depth es)
theorem jsonItems_depth : ∀ vs, PyYaml.Tree.depthItems (jsonItems vs) ≤ nestingItems vs + 1
  | [] => Nat.zero_le 1
  | v :: vs => by
    have hv := jsonTree_depth v
    have hvs := jsonItems_depth vs
    rw [jsonItems,PyYaml.Tree.depthItems,nestingItems]
    omega
theorem jsonEntries_depth : ∀ es, PyYaml.Tree.depthEntries (jsonEntries es) ≤ nestingEntries es + 1
  | [] => Nat.zero_le 1
  | (name,v) :: es => by
    have hv := jsonTree_depth v
    have hes := jsonEntries_depth es
    rw [jsonEntries,PyYaml.Tree.depthEntries,nestingEntries]
    omega
end

end Written

end LocusMesh
