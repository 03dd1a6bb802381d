import Mathlib
import LocusMesh.Models
import LocusMesh.Fallible

/-! Python exceptions as `except` clauses see them: the classes an exception is an instance
of, its text, and the error list of a validation. -/
namespace LocusMesh

open Fallible

/-- The classes that a clause names, and those between them and `Exception`. -/
inductive PyClass
  | valueError | validationError | unicodeError | jsonDecodeError
  | osError | urlError | httpError | timeoutError
  | yamlError | sqliteError | httpException
  | runtimeError | fabricObservationError | recursionError
  | lookupError | keyError | indexError | typeError
  deriving DecidableEq

def PyClass.base : PyClass → Option PyClass
  | .validationError => some .valueError
  | .unicodeError => some .valueError
  | .jsonDecodeError => some .valueError
  | .urlError => some .osError
  | .httpError => some .urlError
  | .timeoutError => some .osError
  | .fabricObservationError => some .runtimeError
  | .recursionError => some .runtimeError
  | .keyError => some .lookupError
  | .indexError => some .lookupError
  | _ => none

/-- One entry of `ValidationError.errors()`. -/
structure ErrorDetail where
  location : List String
  message : String
  type : String
  deriving DecidableEq

/-- An exception of any class, with the listed classes among its ancestors. -/
structure PyException where
  classes : List PyClass
  text : String
  details : List ErrorDetail
  closed : ∀ c ∈ classes, ∀ b ∈ c.base, b ∈ classes
  deriving DecidableEq

/-- The exceptions the core and its adapters raise themselves, and any they let through. -/
inductive PyError
  | valueError (message : String)
  | typeError (message : String)
  | keyError (key : String)
  | indexError
  | recursionError
  | validationError (error : ContractError)
  | fabricObservationError (message : String)
  | osError (message : String)
  | sqliteError
  | external (exception : PyException)
  deriving DecidableEq

namespace PyError

def classes : PyError → List PyClass
  | .valueError _ => [.valueError]
  | .typeError _ => [.typeError]
  | .keyError _ => [.keyError,.lookupError]
  | .indexError => [.indexError,.lookupError]
  | .recursionError => [.recursionError,.runtimeError]
  | .validationError _ => [.validationError,.valueError]
  | .fabricObservationError _ => [.fabricObservationError,.runtimeError]
  | .osError _ => [.osError]
  | .sqliteError => [.sqliteError]
  | .external exception => exception.classes

def isInstance (e : PyError) (c : PyClass) : Bool := decide (c ∈ e.classes)

def text : PyError → String
  | .valueError message => message
  | .typeError message => message
  | .keyError key => "'" ++ (key ++ "'")
  | .validationError error => error.message
  | .fabricObservationError message => message
  | .osError message => message
  | .external exception => exception.text
  | _ => ""

def details : PyError → List ErrorDetail
  | .validationError error =>
    [⟨if error.location = "" then [] else [error.location],error.message,"value_error"⟩]
  | .external exception => exception.details
  | _ => []

theorem classes_closed (e : PyError) : ∀ c ∈ e.classes, ∀ b ∈ c.base, b ∈ e.classes := by
  cases e with
  | external exception => exact exception.closed
  | _ => simp [classes,PyClass.base]

theorem isInstance_base {e : PyError} {c b : PyClass} (hb : c.base = some b)
    (h : e.isInstance c = true) : e.isInstance b = true :=
  decide_eq_true (e.classes_closed c (of_decide_eq_true h) b hb)

end PyError

/-- Building a contract model runs its validators. -/
def Validated.construct {α : Type} [Contract α] (a : α) : Except PyError (Validated α) :=
  match h : Contract.check a with
  | .ok () => .ok ⟨a,h⟩
  | .error e => .error (.validationError e)

section Blocks

variable {α : Type}

/-- `except classes as exc: raise replacement from exc`. -/
def catching (classes : List PyClass) (replacement : PyError) : Except PyError α → Except PyError α
  | .ok a => .ok a
  | .error e => if classes.any e.isInstance then .error replacement else .error e

/-- The end of a `with` block: an exception of `__exit__` takes the place of its outcome. -/
def withExit (exit : Option PyError) (block : Except PyError α) : Except PyError α :=
  match exit with
  | none => block
  | some e => .error e

theorem withExit_ok {exit : Option PyError} {block : Except PyError α} {a : α}
    (h : withExit exit block = .ok a) : block = .ok a := by
  cases exit with
  | none => exact h
  | some e => cases h

@[simp] theorem catching_ok {classes : List PyClass} {replacement : PyError}
    {x : Except PyError α} {a : α} : catching classes replacement x = .ok a ↔ x = .ok a := by
  cases x with
  | ok b => rfl
  | error e =>
    rw [catching]
    split_ifs <;> simp

theorem construct_val [Contract α] {a : α} {v : Validated α} (h : Validated.construct a = .ok v) :
    v.val = a := by
  unfold Validated.construct at h
  split at h
  · cases h
    rfl
  · cases h

end Blocks

section Raises

variable {α : Type}

theorem raises_construct [Contract α] {P : PyError → Prop}
    (h : ∀ error, P (.validationError error)) (a : α) : Raises P (Validated.construct a) := by
  unfold Validated.construct
  split
  · exact raises_ok _
  · exact raises_error (h _)

theorem raises_catching {classes : List PyClass} {replacement : PyError} {P : PyError → Prop}
    {x : Except PyError α} (hx : Raises (fun e => classes.any e.isInstance = true) x)
    (h : P replacement) : Raises P (catching classes replacement x) := by
  cases x with
  | ok a => exact raises_ok a
  | error e =>
    rw [catching,if_pos (hx e rfl)]
    exact raises_error h

end Raises

end LocusMesh
