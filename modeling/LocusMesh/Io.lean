import Mathlib
import LocusMesh.StatusObserver
import LocusMesh.Yaml

/-! `io.py`: bounded and strict parsing of the files that a command names. The scanner and
composer of PyYAML, its scalar constructors and the validation of models are parameters. -/
namespace LocusMesh

open PyText PyJson PyYaml

/-- What a path has behind it: the size that `stat` reports, and the bytes that reading
yields. -/
structure File where
  stat : Except PyError ℕ
  read : Except PyError (List UInt8)

def maxInputBytes : ℕ := 1048576

/-- Text mode: every line ends in a line feed. -/
def universalNewlines : Text → Text
  | '\r' :: '\n' :: text => '\n' :: universalNewlines text
  | '\r' :: text => '\n' :: universalNewlines text
  | c :: text => c :: universalNewlines text
  | [] => []

/-- Reading as `_read_bounded` and the fixture provider do it: the size is asked for first, then
all bytes are read. -/
def boundedText (tooLarge : String) (path : File) : Except PyError Text := do
  let size ← path.stat
  if maxInputBytes < size then .error (.valueError tooLarge)
  else do
    let raw ← path.read
    match decodeUtf8 raw with
    | none => .error (.valueError "invalid UTF-8")
    | some text => .ok (universalNewlines text)

def readBounded : File → Except PyError Text := boundedText "input exceeds 1048576 bytes"

/-- The data that `load_json_model` hands to the model. -/
def loadJsonData (limit : ℕ) (file : File) : Except PyError Value := do
  let text ← readBounded file
  parseJson "duplicate key: " limit text

def loadJsonModel {α : Type} (validate : Value → Except PyError α) (limit : ℕ) (file : File) :
    Except PyError α := do
  let data ← loadJsonData limit file
  validate data

section Mapping

variable {ν κ : Type} [DecidableEq ν] [DecidableEq κ] (scalars : Scalars κ PyError)

/-- A key as a message shows it. -/
def Object.text : Object ν κ → String
  | .scalar key => scalars.text key
  | _ => "nan"

/-- The loop of `_construct_unique_mapping`: a key that comes again is an error, and so is one
that a dict cannot look up. -/
def uniqueEntries (construct : Construct ν κ PyError) (result : List (Object ν κ × Object ν κ)) :
    List (ν × ν) → Loading ν κ →
    Except (YamlFailure PyError) (List (Object ν κ × Object ν κ) × Loading ν κ)
  | [], s => .ok (result,s)
  | (k,v) :: entries, s => do
    let key ← construct k s
    match key.1 with
    | .collection _ => .error (.raised (.typeError "unhashable type"))
    | _ =>
      if key.1 ∈ result.map Prod.fst then
        .error (.raised (.valueError ("duplicate key: " ++ Object.text scalars key.1)))
      else do
        let value ← construct v key.2
        uniqueEntries construct (result ++ [(key.1,value.1)]) entries value.2

/-- `_construct_unique_mapping`. The plain mapping tag may stand on any node: the text of a
scalar and the items of a sequence are no pairs, unless there are none. -/
def constructUniqueMapping : MappingConstructor ν κ PyError := fun construct limit n s =>
  match s.graph n with
  | .scalar _ value =>
    if value = "" then .ok ([],s)
    else .error (.raised (.valueError "not enough values to unpack (expected 2, got 1)"))
  | .sequence _ items =>
    if items = [] then .ok ([],s)
    else .error (.raised (.typeError "cannot unpack non-iterable object"))
  | .mapping _ _ => do
    let g ← flatten limit n s.graph
    uniqueEntries scalars construct [] (g n).entries {s with graph := g}

end Mapping

structure Document where
  size : ℕ
  graph : NodeGraph (Fin size)
  root : Fin size

/-- What a document was constructed to: its root, and what its collections hold. -/
structure YamlData (κ : Type) where
  document : Document
  root : Object (Fin document.size) κ
  contents : Fin document.size → Option (Contents (Fin document.size) κ)

def yamlFailure : YamlFailure PyError → PyError
  | .unconstructable problem => .external ⟨[.yamlError],problem,[],by simp [PyClass.base]⟩
  | .recursion => .recursionError
  | .raised e => e

section Yaml

variable {κ : Type} [DecidableEq κ] (compose : Text → Except PyError (Option Document))
  (scalars : Scalars κ PyError)

def loadYamlData (limit : ℕ) (file : File) : Except PyError (Option (YamlData κ)) := do
  let text ← readBounded file
  let composed ← compose text
  match composed with
  | none => .ok none
  | some document => do
    let found ← (constructDocument (constructUniqueMapping scalars) scalars limit document.size
      document.graph document.root).mapError yamlFailure
    .ok (some ⟨document,found.1,found.2.contents⟩)

def loadYamlModel {α : Type} (validate : Option (YamlData κ) → Except PyError α) (limit : ℕ)
    (file : File) : Except PyError α := do
  let data ← loadYamlData compose scalars limit file
  validate data

end Yaml

end LocusMesh
