import Mathlib
import LocusMesh.Endpoint
import LocusMesh.Envelopes
import LocusMesh.Harmless

/-! Policy files on the command line: for which documents `admit` ends in an internal error. -/
namespace LocusMesh

open AwareClock CanonicalJson PyText PyYaml Fallible

def InputInvalid (e : PyError) : Prop := (classify e).code = "INPUT_INVALID"

theorem inputInvalid_of_validation {e : PyError} (h : e.isInstance .validationError = true) :
    InputInvalid e := by
  rw [InputInvalid,classify,if_pos h]

theorem InputInvalid.exitCode {e : PyError} (h : InputInvalid e) : (classify e).exitCode = 2 := by
  unfold InputInvalid classify at h
  unfold classify
  split_ifs at h ⊢ <;> simp_all

theorem raises_inputInvalid {α : Type} {x : Except PyError α} :
    Raises InputInvalid x ↔ ¬Fails Unclassified x := by
  simp [Raises,Fails,InputInvalid,Unclassified]

section Policies

variable {τ σ κ : Type} [DatetimeArithmetic τ] [DecidableEq κ] (b : Backend τ σ)
  (compose : Text → Except PyError (Option Document)) (scalars : Scalars κ PyError)
  (validate : Option (YamlData κ) → Except PyError (Validated (AdmissionPolicy τ))) (limit : ℕ)
  (files : Path → File)

/-- The policies of the command line are YAML files. -/
def Backend.readingPolicies : Backend τ σ :=
  {b with loadPolicy := fun path => loadYamlModel compose scalars validate limit (files path)}

variable {compose scalars limit}

theorem loadYamlData_trips {file : File} {text : Text} {d : Document}
    (htext : readBounded file = .ok text) (hcompose : compose text = .ok (some d)) :
    Fails Unclassified (loadYamlData compose scalars limit file) ↔ d.Trips scalars limit := by
  rw [← constructDocument_trips,loadYamlData,htext]
  simp only [bind,Except.bind,hcompose]
  cases constructDocument (constructUniqueMapping scalars) scalars limit d.size d.graph d.root with
  | error f => simp [Except.mapError,Untaken]
  | ok found => simp [Except.mapError]

section Admit

variable {b}

/-- A plan that can be read is admitted or denied under any policy that can be. -/
theorem main_admit {policy plan : Path} {p : Validated (AdmissionPolicy τ)}
    {q : Validated (RoutePlan τ)} (hpolicy : b.loadPolicy policy = .ok p)
    (hplan : b.loadPlan plan = .ok q) : (main b true (.admitPlan policy plan)).exitCode ∈ [0,3] := by
  have hrun : run b (.admitPlan policy plan) =
      .ok (decisionResult b 3 (planDecision b.plat q.val p.val b.now)) := by
    simp only [run,admitDecision,hpolicy,hplan,bind,Except.bind,admitPlan_eq]
  rw [main,hrun]
  simp only [report,if_true,decisionResult]
  split_ifs <;> simp

theorem main_admit_error {policy plan : Path} {e : PyError} (h : b.loadPolicy policy = .error e) :
    (main b true (.admitPlan policy plan)).exitCode = (classify e).exitCode := by
  have hrun : run b (.admitPlan policy plan) = .error e := by
    simp only [run,admitDecision,h,bind,Except.bind]
  rw [main,hrun]
  rfl

end Admit

variable (compose scalars limit)

/-- With a policy file that composes to a document, and a valid plan, the command ends in an
admission, a denial or an input error, if and only if the construction does not trip. -/
theorem admit_yaml_iff (policy plan : Path) {text : Text} {d : Document}
    (htext : readBounded (files policy) = .ok text) (hcompose : compose text = .ok (some d))
    (hvalidate : ∀ data, Raises (fun e => e.isInstance .validationError = true) (validate data))
    (hplan : ∃ q, b.loadPlan plan = .ok q) :
    ((main (b.readingPolicies compose scalars validate limit files) true
        (.admitPlan policy plan)).exitCode ∈ [0,2,3] ∧
      Raises InputInvalid (loadYamlData compose scalars limit (files policy))) ↔
      ¬d.Trips scalars limit := by
  rw [raises_inputInvalid,loadYamlData_trips htext hcompose,and_iff_right_iff_imp]
  intro htrips
  have hraises : Raises InputInvalid (loadYamlData compose scalars limit (files policy)) := by
    rw [raises_inputInvalid,loadYamlData_trips htext hcompose]
    exact htrips
  obtain ⟨q,hq⟩ := hplan
  have hload : Raises InputInvalid
      ((b.readingPolicies compose scalars validate limit files).loadPolicy policy) :=
    raises_bind hraises fun data e he => inputInvalid_of_validation (hvalidate data e he)
  cases hpolicy : (b.readingPolicies compose scalars validate limit files).loadPolicy policy with
  | error e =>
    rw [main_admit_error hpolicy,(hload e hpolicy).exitCode]
    decide
  | ok p =>
    have hexit := main_admit hpolicy hq
    simp only [List.mem_cons,List.not_mem_nil,or_false] at hexit ⊢
    exact hexit.imp_right .inr

end Policies

namespace Demo

def rejecting {α κ : Type} (_ : Option (YamlData κ)) : Except PyError α :=
  .error (.validationError ⟨"schema_version","Field required"⟩)

def policyLine (text : String) (d : Document) : Backend FixedTime Unit :=
  (observing (.refused (.osError "refused"))).readingPolicies (composing text d) plainScalars
    rejecting 100 fun _ => textFile text

theorem rejecting_raises {α κ : Type} (data : Option (YamlData κ)) :
    Raises (fun e => e.isInstance .validationError = true)
      (rejecting data : Except PyError α) := raises_error rfl

theorem plainScalars_raises (t : Tag) (value : String) :
    Raises (fun e => ¬Unclassified e) (plainScalars.construct .scalar t value) := by
  unfold plainScalars
  dsimp only
  split_ifs
  · exact raises_ok _
  · exact raises_error fun h => h rfl

theorem pairDocument_harmless : Harmless pairDocument.graph := by
  refine ⟨by decide,?_,?_⟩
  · intro n items
    fin_cases n <;> simp [pairDocument]
  · intro n t entries h
    fin_cases n <;> cases h
    rfl

def listKeyText : String := "\x7b[a]: 1\x7d"

def listKeyDocument : Document where
  size := 4
  graph := ![.mapping .map [(1,3)],.sequence .seq [2],.scalar .str "a",.scalar .int "1"]
  root := 0

theorem composing_textFile (text : String) (d : Document)
    (hlines : universalNewlines text.toList = text.toList) :
    composing text d (universalNewlines text.toList) = .ok (some d) := by
  rw [hlines,composing,if_pos rfl]

theorem listKeyDocument_raises :
    constructDocument (constructUniqueMapping plainScalars) plainScalars 100 listKeyDocument.size
      listKeyDocument.graph listKeyDocument.root = .error (.raised (.typeError "unhashable type")) :=
  rfl

theorem loadYamlData_listKey :
    loadYamlData (composing listKeyText listKeyDocument) plainScalars 100 (textFile listKeyText) =
      .error (.typeError "unhashable type") := by
  rw [loadYamlData,readBounded_textFile (by decide)]
  simp only [bind,Except.bind,composing_textFile listKeyText listKeyDocument (by decide),
    listKeyDocument_raises]
  rfl

end Demo

theorem admit_yaml_demo :
    (main (Demo.policyLine Demo.pairText Demo.pairDocument) true
      (.admitPlan "policy.yaml" "plan.json")).exitCode ∈ [0,2,3] ∧
    Raises InputInvalid (loadYamlData (Demo.composing Demo.pairText Demo.pairDocument)
      Demo.plainScalars 100 (Demo.textFile Demo.pairText)) := by
  have hsize : (encodeUtf8 Demo.pairText).length ≤ maxInputBytes := by decide
  have hiff := admit_yaml_iff (Demo.observing (.refused (.osError "refused")))
    (Demo.composing Demo.pairText Demo.pairDocument) Demo.plainScalars Demo.rejecting 100
    (fun _ => Demo.textFile Demo.pairText) "policy.yaml" "plan.json"
    (Demo.readBounded_textFile hsize)
    (Demo.composing_textFile Demo.pairText Demo.pairDocument (by decide))
    Demo.rejecting_raises ⟨_,rfl⟩
  exact hiff.mpr (Demo.pairDocument_harmless.not_trips (by decide) Demo.plainScalars_raises)

/-- A list as a key is an internal error. -/
theorem admit_listKey_demo :
    (main (Demo.policyLine Demo.listKeyText Demo.listKeyDocument) true
      (.admitPlan "policy.yaml" "plan.json")).exitCode = 1 ∧
    loadYamlData (Demo.composing Demo.listKeyText Demo.listKeyDocument) Demo.plainScalars 100
      (Demo.textFile Demo.listKeyText) = .error (.typeError "unhashable type") := by
  refine ⟨?_,Demo.loadYamlData_listKey⟩
  have hpolicy : (Demo.policyLine Demo.listKeyText Demo.listKeyDocument).loadPolicy "policy.yaml" =
      .error (.typeError "unhashable type") := by
    show loadYamlData _ _ _ _ >>= _ = _
    rw [Demo.loadYamlData_listKey]
    rfl
  rw [main_admit_error hpolicy]
  rfl

end LocusMesh
