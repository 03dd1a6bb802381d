import Mathlib
import LocusMesh.Fallible

/-! The safe loader of PyYAML, from a composed document on: a graph of tagged nodes, in which
an alias is the node of its anchor. Merging rewrites the graph in place; the constructor of
the plain mapping tag is a parameter. -/
namespace PyYaml

/-- The tags that the safe loader tells apart. -/
inductive Tag
  | null | bool | int | float | binary | timestamp | str
  | seq | omap | pairs | map | set | merge | value
  | other (name : String)
  deriving DecidableEq

/-- The tags whose constructors read a scalar. -/
def Tag.isScalar : Tag → Bool
  | .null | .bool | .int | .float | .binary | .timestamp | .str => true
  | _ => false

inductive Node (ν : Type)
  | scalar (tag : Tag) (value : String)
  | sequence (tag : Tag) (items : List ν)
  | mapping (tag : Tag) (entries : List (ν × ν))
  deriving DecidableEq

inductive NodeKind
  | scalar | sequence | mapping
  deriving DecidableEq

namespace Node

variable {ν : Type}

def kind : Node ν → NodeKind
  | .scalar _ _ => .scalar
  | .sequence _ _ => .sequence
  | .mapping _ _ => .mapping

def tag : Node ν → Tag
  | .scalar tag _ => tag
  | .sequence tag _ => tag
  | .mapping tag _ => tag

def entries : Node ν → List (ν × ν)
  | .mapping _ entries => entries
  | _ => []

def setTag (tag : Tag) : Node ν → Node ν
  | .scalar _ value => .scalar tag value
  | .sequence _ items => .sequence tag items
  | .mapping _ entries => .mapping tag entries

def setEntries (entries : List (ν × ν)) : Node ν → Node ν
  | .mapping tag _ => .mapping tag entries
  | node => node

end Node

abbrev NodeGraph (ν : Type) := ν → Node ν

/-- What loading a document raises: `ConstructorError`, `RecursionError`, or an exception of
the constructors that are parameters. -/
inductive YamlFailure (ε : Type)
  | unconstructable (problem : String)
  | recursion
  | raised (e : ε)
  deriving DecidableEq

variable {ν κ ε : Type} [DecidableEq ν]

def NodeGraph.setTag (g : NodeGraph ν) (n : ν) (tag : Tag) : NodeGraph ν :=
  Function.update g n ((g n).setTag tag)

def NodeGraph.setEntries (g : NodeGraph ν) (n : ν) (entries : List (ν × ν)) : NodeGraph ν :=
  Function.update g n ((g n).setEntries entries)

/-- A key that merges nothing is a plain string where it is `=`. -/
def settleKey (g : NodeGraph ν) (k : ν) : NodeGraph ν :=
  if (g k).tag = .value then g.setTag k .str else g

def NodeGraph.prepend (g : NodeGraph ν) (c : ν) (merge : List (ν × ν)) : NodeGraph ν :=
  if merge = [] then g else g.setEntries c (merge ++ (g c).entries)

abbrev Flattener (ν ε : Type) := ν → NodeGraph ν → Except (YamlFailure ε) (NodeGraph ν)

section Flattening

variable (flatten : Flattener ν ε)

/-- The mappings of a merged sequence, each with the entries it is flattened to. -/
def flattenItems : List ν → NodeGraph ν → Except (YamlFailure ε) (List (List (ν × ν)) × NodeGraph ν)
  | [], g => .ok ([],g)
  | item :: items, g =>
    match g item with
    | .mapping _ _ => do
      let g ← flatten item g
      let found ← flattenItems items g
      .ok ((g item).entries :: found.1,found.2)
    | _ => .error (.unconstructable "expected a mapping for merging")

/-- The entries that the value of a merge key stands for. -/
def mergedEntries (v : ν) (g : NodeGraph ν) : Except (YamlFailure ε) (List (ν × ν) × NodeGraph ν) :=
  match g v with
  | .mapping _ _ => do
    let g ← flatten v g
    .ok ((g v).entries,g)
  | .sequence _ items => do
    let found ← flattenItems flatten items g
    .ok (found.1.reverse.flatten,found.2)
  | .scalar _ _ => .error (.unconstructable "expected a mapping or list of mappings for merging")

/-- The loop of `flatten_mapping` over the entries of `c`, those before `rest` being kept.
Where `c` merges itself, it comes back flattened, and the loop finds nothing more to do. -/
def flattenEntries (c : ν) : (kept rest merge : List (ν × ν)) → NodeGraph ν →
    Except (YamlFailure ε) (List (ν × ν) × NodeGraph ν)
  | _, [], merge, g => .ok (merge,g)
  | kept, (k,v) :: rest, merge, g =>
    if (g k).tag = .merge then do
      let found ← mergedEntries flatten v (g.setEntries c (kept ++ rest))
      if (found.2 c).entries = kept ++ rest then
        flattenEntries c kept rest (merge ++ found.1) found.2
      else .ok (merge ++ found.1,found.2)
    else
      flattenEntries c (kept ++ [(k,v)]) rest merge (settleKey g k)

end Flattening

/-- `flatten_mapping`, with the number of nested calls that are left. -/
def flatten : ℕ → Flattener ν ε
  | 0, _, _ => .error .recursion
  | limit + 1, c, g => do
    let found ← flattenEntries (flatten limit) c [] (g c).entries [] g
    .ok (found.2.prepend c found.1)

/-- `construct_scalar`: a mapping stands for the value of its first `=` key. -/
def constructScalar (g : NodeGraph ν) : ℕ → ν → Except (YamlFailure ε) String
  | 0, _ => .error .recursion
  | limit + 1, n =>
    match g n with
    | .scalar _ value => .ok value
    | .sequence _ _ => .error (.unconstructable "expected a scalar node, but found sequence")
    | .mapping _ entries =>
      match entries.find? fun entry => (g entry.1).tag == .value with
      | some (_,v) => constructScalar g limit v
      | none => .error (.unconstructable "expected a scalar node, but found mapping")

/-- A scalar up to the equality of dict keys. A NaN that a constructor makes anew equals only
itself. -/
inductive Datum (κ : Type)
  | key (key : κ)
  | nan
  deriving DecidableEq

/-- The constructors of scalars, and the text of a key. A constructor may tell a mapping that
is read through `=` from a scalar with the same text, as that of timestamps does. -/
structure Scalars (κ ε : Type) where
  construct : NodeKind → Tag → String → Except ε (Datum κ)
  text : κ → String

/-- What a node is constructed to. Lists, dicts and sets are not hashable. -/
inductive Object (ν κ : Type)
  | scalar (key : κ)
  | nan (node : ν)
  | collection (node : ν)
  deriving DecidableEq

def Datum.object (n : ν) : Datum κ → Object ν κ
  | .key k => .scalar k
  | .nan => .nan n

/-- What a collection holds; the items of an ordered map are pairs. -/
inductive Contents (ν κ : Type)
  | list (items : List (Object ν κ))
  | pairs (items : List (Object ν κ × Object ν κ))
  | set (items : List (Object ν κ))
  | dict (entries : List (Object ν κ × Object ν κ))
  deriving DecidableEq

/-- The constructors that yield an empty collection and fill it later. -/
inductive Deferred
  | sequence | pairs | set
  deriving DecidableEq

def Tag.deferred : Tag → Option Deferred
  | .seq => some .sequence
  | .omap | .pairs => some .pairs
  | .set => some .set
  | _ => none

def Deferred.empty : Deferred → Contents ν κ
  | .sequence => .list []
  | .pairs => .pairs []
  | .set => .set []

/-- The state of the constructor, with what the collections hold so far. -/
structure Loading (ν κ : Type) where
  graph : NodeGraph ν
  constructed : ν → Option (Object ν κ)
  contents : ν → Option (Contents ν κ)
  recursive : List ν
  generators : List (ν × Deferred)

def Loading.fill (s : Loading ν κ) (n : ν) (contents : Contents ν κ) : Loading ν κ :=
  {s with contents := Function.update s.contents n (some contents)}

/-- A node goes under construction. -/
def Loading.enter (s : Loading ν κ) (n : ν) : Loading ν κ := {s with recursive := n :: s.recursive}

/-- The construction of a node is through. -/
def Loading.leave (s : Loading ν κ) (n : ν) (o : Object ν κ) : Loading ν κ :=
  {s with
    constructed := Function.update s.constructed n (some o)
    recursive := s.recursive.erase n}

abbrev Construct (ν κ ε : Type) :=
  ν → Loading ν κ → Except (YamlFailure ε) (Object ν κ × Loading ν κ)

/-- A constructor of dicts: it may construct other nodes, and has some nested calls left. -/
abbrev MappingConstructor (ν κ ε : Type) := Construct ν κ ε → ℕ → ν → Loading ν κ →
  Except (YamlFailure ε) (List (Object ν κ × Object ν κ) × Loading ν κ)

def assign [DecidableEq κ] (key value : Object ν κ) :
    List (Object ν κ × Object ν κ) → List (Object ν κ × Object ν κ)
  | [] => [(key,value)]
  | entry :: entries =>
    if entry.1 = key then (key,value) :: entries else entry :: assign key value entries

section Generators

variable (construct : Construct ν κ ε)

def constructItems : List ν → Loading ν κ →
    Except (YamlFailure ε) (List (Object ν κ) × Loading ν κ)
  | [], s => .ok ([],s)
  | item :: items, s => do
    let found ← construct item s
    let rest ← constructItems items found.2
    .ok (found.1 :: rest.1,rest.2)

/-- The entries of the stock `construct_mapping`: a key that comes again replaces its value. -/
def constructEntries [DecidableEq κ] (result : List (Object ν κ × Object ν κ)) :
    List (ν × ν) → Loading ν κ →
    Except (YamlFailure ε) (List (Object ν κ × Object ν κ) × Loading ν κ)
  | [], s => .ok (result,s)
  | (k,v) :: entries, s => do
    let key ← construct k s
    match key.1 with
    | .collection _ => .error (.unconstructable "found unhashable key")
    | _ => do
      let value ← construct v key.2
      constructEntries (assign key.1 value.1 result) entries value.2

/-- The items of an ordered map: mappings of one entry. -/
def constructPairs : List ν → Loading ν κ →
    Except (YamlFailure ε) (List (Object ν κ × Object ν κ) × Loading ν κ)
  | [], s => .ok ([],s)
  | item :: items, s =>
    match s.graph item with
    | .mapping _ [(k,v)] => do
      let key ← construct k s
      let value ← construct v key.2
      let rest ← constructPairs items value.2
      .ok ((key.1,value.1) :: rest.1,rest.2)
    | _ => .error (.unconstructable "expected a single mapping item")

/-- The rest of a generator. -/
def resume [DecidableEq κ] (limit : ℕ) (n : ν) (s : Loading ν κ) :
    Deferred → Except (YamlFailure ε) (Loading ν κ)
  | .sequence =>
    match s.graph n with
    | .sequence _ items => do
      let found ← constructItems construct items s
      .ok (found.2.fill n (.list found.1))
    | _ => .error (.unconstructable "expected a sequence node")
  | .pairs =>
    match s.graph n with
    | .sequence _ items => do
      let found ← constructPairs construct items s
      .ok (found.2.fill n (.pairs found.1))
    | _ => .error (.unconstructable "expected a sequence")
  | .set =>
    match s.graph n with
    | .mapping _ _ => do
      let g ← flatten limit n s.graph
      let found ← constructEntries construct [] (g n).entries {s with graph := g}
      .ok (found.2.fill n (.set (found.1.map Prod.fst)))
    | _ => .error (.unconstructable "expected a mapping node")

end Generators

section Documents

variable (mapping : MappingConstructor ν κ ε) (scalars : Scalars κ ε)

/-- The constructor that the tag of a node selects. -/
def dispatch (construct : Construct ν κ ε) (limit : ℕ) : Construct ν κ ε := fun n s =>
  let tag := (s.graph n).tag
  match tag.deferred with
  | some d =>
    .ok (.collection n,{s.fill n d.empty with generators := s.generators ++ [(n,d)]})
  | none =>
    if tag = .map then do
      let found ← mapping construct limit n s
      .ok (.collection n,found.2.fill n (.dict found.1))
    else if tag.isScalar then do
      let text ← constructScalar s.graph limit n
      let datum ← (scalars.construct (s.graph n).kind tag text).mapError .raised
      .ok (datum.object n,s)
    else .error (.unconstructable "could not determine a constructor for the tag")

/-- `construct_object`, with the number of constructions that may still be nested in this one. -/
def constructObject : ℕ → Construct ν κ ε
  | 0, _, _ => .error .recursion
  | limit + 1, n, s =>
    match s.constructed n with
    | some o => .ok (o,s)
    | none =>
      if n ∈ s.recursive then .error (.unconstructable "found unconstructable recursive node")
      else do
        let found ← dispatch mapping scalars (constructObject limit) limit n (s.enter n)
        .ok (found.1,found.2.leave n found.1)

/-- The generators in their order, until none is left. Every node has one at most, so that
there are no more of them than nodes. -/
def drain [DecidableEq κ] (limit : ℕ) : ℕ → Loading ν κ → Except (YamlFailure ε) (Loading ν κ)
  | rounds, s =>
    match s.generators with
    | [] => .ok s
    | (n,d) :: generators =>
      match rounds with
      | 0 => .error .recursion
      | rounds + 1 => do
        let s ← resume (constructObject mapping scalars limit) limit n
          {s with generators := generators} d
        drain limit rounds s

/-- `construct_document`. A unit of the limit is one construction, `flatten_mapping` or step of
`construct_scalar` within another, not a frame of the interpreter, which takes two for a mapping
within a mapping. -/
def constructDocument [DecidableEq κ] (limit nodes : ℕ) (g : NodeGraph ν) (root : ν) :
    Except (YamlFailure ε) (Object ν κ × Loading ν κ) := do
  let found ← constructObject mapping scalars limit root ⟨g,fun _ => none,fun _ => none,[],[]⟩
  let s ← drain mapping scalars limit nodes found.2
  .ok (found.1,s)

end Documents

end PyYaml
