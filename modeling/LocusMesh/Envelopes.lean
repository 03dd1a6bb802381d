import Mathlib
import LocusMesh.Cli

/-! What an envelope and an exit code say: no error and no denial is presented as success. -/
namespace LocusMesh

open CanonicalJson AwareClock PyText PyUrl MeshLlmStatusObserver Fallible

theorem classify_exitCode (e : PyError) :
    (classify e).exitCode = 1 ∨ (classify e).exitCode = 2 := by
  unfold classify
  split_ifs
  · exact .inr rfl
  · exact .inr rfl
  · exact .inr rfl
  · exact .inr rfl
  · exact .inr rfl
  · exact .inl rfl

/-- The classes whose text or details the output shows. -/
def Shown (e : PyError) : Prop :=
  e.isInstance .validationError = true ∨ e.isInstance .osError = true ∨
    e.isInstance .valueError = true

theorem isInstance_congr {e e' : PyError} (h : e.classes = e'.classes) (c : PyClass) :
    e.isInstance c = e'.isInstance c := by
  rw [PyError.isInstance,PyError.isInstance,h]

theorem classify_congr {e e' : PyError} (h : e.classes = e'.classes) (hshown : ¬Shown e) :
    classify e = classify e' := by
  have hvalidation : e.isInstance .validationError = false := by
    by_contra hne
    exact hshown (.inl (Bool.not_eq_false _ ▸ hne))
  have hos : e.isInstance .osError = false := by
    by_contra hne
    exact hshown (.inr (.inl (Bool.not_eq_false _ ▸ hne)))
  have hvalue : e.isInstance .valueError = false := by
    by_contra hne
    exact hshown (.inr (.inr (Bool.not_eq_false _ ▸ hne)))
  have hsame := isInstance_congr h
  simp only [classify,← hsame,hvalidation,hos,hvalue,Bool.or_self,Bool.false_eq_true,if_false]

section Truthful

variable {τ σ : Type} [DatetimeArithmetic τ] (b : Backend τ σ)

theorem observation_requested {managementUrl : Text} {maxScope : ExecutionIntent}
    {timeoutSeconds : Option ℚ} {ttlSeconds : ℤ} {v : Validated (FabricObservation τ)}
    (h : observation b managementUrl maxScope timeoutSeconds ttlSeconds = .ok v) :
    v.val.requestedMaxScope = maxScope := by
  obtain ⟨observer,hcreate,hobserve⟩ := bind_ok.mp h
  rw [observe_requested observer b.plat hobserve,create_requested hcreate]

/-- An envelope and exit code tell the outcome of a decision: success is an admission, and a
denial comes with its own code and with the decision as data. -/
structure Decided (outcome : Except PyError (AdmissionDecision τ)) (denied : ℕ)
    (envelope : Envelope) (exitCode : ℕ) : Prop where
  ok : envelope.ok = true ↔ ∃ d, outcome = .ok d ∧ d.admitted = true
  denial : ∀ d, outcome = .ok d → d.admitted = false →
    exitCode = denied ∧ envelope.error = none ∧ envelope.data = d.dump b.plat

/-- What an envelope and exit code say about a command. -/
structure Truthful (command : Command) (envelope : Envelope) (exitCode : ℕ) : Prop where
  name : envelope.command = command.name
  ok : exitCode = 0 ↔ envelope.ok = true
  returned : ∀ result, run b command = .ok result →
    envelope.error = none ∧ envelope.data = result.data
  raised : ∀ e, run b command = .error e → envelope.ok = false ∧ envelope.data = .null ∧
    envelope.error ≠ none ∧ (exitCode = 1 ∨ exitCode = 2)
  admission : ∀ policy plan, command = .admitPlan policy plan →
    Decided b (admitDecision b policy plan) 3 envelope exitCode
  verify : ∀ policy attestation nonceStore, command = .verify policy attestation nonceStore →
    Decided b (verifyDecision b policy attestation nonceStore) 4 envelope exitCode
  observe : exitCode = 5 ↔ ∃ managementUrl maxScope timeoutSeconds ttlSeconds o,
    command = .observeMeshLlm managementUrl maxScope timeoutSeconds ttlSeconds ∧
    observation b managementUrl maxScope timeoutSeconds ttlSeconds = .ok o ∧
    Models.executionScopeRank maxScope < Models.executionScopeRank o.val.observedScope.val

variable {b}

/-- A command returns success with code 0, and anything else with another code; only an
observation has code 5. -/
theorem run_exitCode {command : Command} {result : Result} (h : run b command = .ok result) :
    (result.exitCode = 0 ↔ result.ok = true) ∧ (result.exitCode = 5 →
      ∃ managementUrl maxScope timeoutSeconds ttlSeconds,
        command = .observeMeshLlm managementUrl maxScope timeoutSeconds ttlSeconds) := by
  have hdecision : ∀ denied ∈ [3,4], ∀ d : AdmissionDecision τ,
      ((decisionResult b denied d).exitCode = 0 ↔ (decisionResult b denied d).ok = true) ∧
        (decisionResult b denied d).exitCode ≠ 5 := by
    intro denied hdenied d
    simp only [List.mem_cons,List.not_mem_nil,or_false] at hdenied
    unfold decisionResult
    cases d.admitted <;> rcases hdenied with rfl | rfl <;> simp
  cases command with
  | doctor =>
    obtain ⟨packages,_,hok⟩ := bind_ok.mp h
    cases hok
    simp
  | probe topology =>
    obtain ⟨snapshot,_,hok⟩ := bind_ok.mp h
    cases hok
    simp
  | observeMeshLlm managementUrl maxScope timeoutSeconds ttlSeconds =>
    obtain ⟨o,_,hok⟩ := bind_ok.mp h
    cases hok
    refine ⟨?_,fun _ => ⟨_,_,_,_,rfl⟩⟩
    unfold observationResult
    cases o.val.withinRequestedScope <;> simp
  | admitPlan policy plan =>
    obtain ⟨d,_,hok⟩ := bind_ok.mp h
    cases hok
    have hd := hdecision 3 (by simp) d
    exact ⟨hd.1,fun h5 => absurd h5 hd.2⟩
  | verify policy attestation nonceStore =>
    obtain ⟨d,_,hok⟩ := bind_ok.mp h
    cases hok
    have hd := hdecision 4 (by simp) d
    exact ⟨hd.1,fun h5 => absurd h5 hd.2⟩
  | demo =>
    obtain ⟨scenarios,_,hok⟩ := bind_ok.mp h
    cases hok
    simp
  | schemaExport out =>
    obtain ⟨files,_,hok⟩ := bind_ok.mp h
    obtain ⟨outputDir,_,hok⟩ := bind_ok.mp hok
    cases hok
    simp

theorem decided_error {e : PyError} {denied code : ℕ} {envelope : Envelope}
    (hok : envelope.ok = false) :
    Decided b (.error e) denied envelope code := by
  constructor
  · simp [hok]
  · intro d hd
    cases hd

theorem decided_ok (d : AdmissionDecision τ) (denied : ℕ) (name : String) :
    Decided b (.ok d) denied (resultEnvelope name (decisionResult b denied d))
      (decisionResult b denied d).exitCode := by
  constructor
  · constructor
    · intro hadmitted
      exact ⟨d,rfl,hadmitted⟩
    · rintro ⟨d',hd,hadmitted⟩
      cases hd
      exact hadmitted
  · intro d' hd hdenied
    cases hd
    exact ⟨by simp [decisionResult,hdenied],rfl,rfl⟩

theorem observed_exceeds {managementUrl : Text} {maxScope : ExecutionIntent}
    {timeoutSeconds : Option ℚ} {ttlSeconds : ℤ} {o : Validated (FabricObservation τ)}
    (h : observation b managementUrl maxScope timeoutSeconds ttlSeconds = .ok o) :
    (observationResult b o).exitCode = 5 ↔
      Models.executionScopeRank maxScope < Models.executionScopeRank o.val.observedScope.val := by
  have hwithin := o.within
  rw [observation_requested b h] at hwithin
  rw [← not_le,← hwithin]
  unfold observationResult
  cases o.val.withinRequestedScope <;> simp

def outcomeEnvelope (command : String) : Except PyError Result → Envelope
  | .error e => errorEnvelope command (classify e).code (classify e).message
  | .ok result => resultEnvelope command result

theorem report_json (command : String) (outcome : Except PyError Result) :
    (report true command outcome).stdout = [jsonLine (outcomeEnvelope command outcome).json] := by
  cases outcome <;> rfl

theorem main_of_ok {command : Command} {result : Result} (h : run b command = .ok result) :
    outcomeEnvelope command.name (run b command) = resultEnvelope command.name result ∧
      (main b true command).exitCode = result.exitCode := by
  rw [main,h]
  exact ⟨rfl,rfl⟩

theorem main_of_error {command : Command} {e : PyError} (h : run b command = .error e) :
    outcomeEnvelope command.name (run b command) =
      errorEnvelope command.name (classify e).code (classify e).message ∧
      (main b true command).exitCode = (classify e).exitCode := by
  rw [main,h]
  exact ⟨rfl,rfl⟩

theorem outcome_of_error {command : Command} {e : PyError} (h : run b command = .error e) :
    (outcomeEnvelope command.name (run b command)).ok = false := by
  rw [(main_of_error h).1]
  rfl

theorem decided {command : Command} {outcome : Except PyError (AdmissionDecision τ)} {denied : ℕ}
    (hrun : run b command = do let d ← outcome; .ok (decisionResult b denied d)) :
    Decided b outcome denied (outcomeEnvelope command.name (run b command))
      (main b true command).exitCode := by
  cases outcome with
  | error e => exact decided_error (outcome_of_error hrun)
  | ok d =>
    rw [(main_of_ok hrun).1,(main_of_ok hrun).2]
    exact decided_ok d denied command.name

theorem outcome_ok_iff (b : Backend τ σ) (command : Command) :
    (main b true command).exitCode = 0 ↔
      (outcomeEnvelope command.name (run b command)).ok = true := by
  cases h : run b command with
  | error e =>
    have hcode := classify_exitCode e
    rw [← h,(main_of_error h).1,(main_of_error h).2]
    simp only [errorEnvelope,Bool.false_eq_true,iff_false]
    omega
  | ok result =>
    rw [← h,(main_of_ok h).1,(main_of_ok h).2]
    exact (run_exitCode h).1

theorem outcome_exceeds_iff (b : Backend τ σ) (command : Command) :
    (main b true command).exitCode = 5 ↔ ∃ managementUrl maxScope timeoutSeconds ttlSeconds o,
      command = .observeMeshLlm managementUrl maxScope timeoutSeconds ttlSeconds ∧
      observation b managementUrl maxScope timeoutSeconds ttlSeconds = .ok o ∧
      Models.executionScopeRank maxScope < Models.executionScopeRank o.val.observedScope.val := by
  constructor
  · intro h5
    cases h : run b command with
    | error e =>
      have hcode := classify_exitCode e
      rw [(main_of_error h).2] at h5
      omega
    | ok result =>
      rw [(main_of_ok h).2] at h5
      obtain ⟨managementUrl,maxScope,timeoutSeconds,ttlSeconds,rfl⟩ := (run_exitCode h).2 h5
      obtain ⟨o,ho,hok⟩ := bind_ok.mp h
      cases hok
      exact ⟨_,_,_,_,o,rfl,ho,(observed_exceeds ho).mp h5⟩
  · rintro ⟨managementUrl,maxScope,timeoutSeconds,ttlSeconds,o,rfl,ho,hexceeds⟩
    have hrun : run b (.observeMeshLlm managementUrl maxScope timeoutSeconds ttlSeconds) =
        .ok (observationResult b o) := bind_ok.mpr ⟨o,ho,rfl⟩
    rw [(main_of_ok hrun).2]
    exact (observed_exceeds ho).mpr hexceeds

theorem outcome_truthful (b : Backend τ σ) (command : Command) :
    Truthful b command (outcomeEnvelope command.name (run b command))
      (main b true command).exitCode := by
  constructor
  · cases run b command <;> rfl
  · exact outcome_ok_iff b command
  · intro result h
    rw [(main_of_ok h).1]
    exact ⟨rfl,rfl⟩
  · intro e h
    rw [(main_of_error h).1,(main_of_error h).2]
    exact ⟨rfl,rfl,Option.some_ne_none _,classify_exitCode e⟩
  · rintro policy plan rfl
    exact decided rfl
  · rintro policy attestation nonceStore rfl
    exact decided rfl
  · exact outcome_exceeds_iff b command

/-- In JSON mode every run of the program prints one envelope that tells, with the exit code,
what the command has come to; and of an exception no more than the class is shown, save for
validation errors, value errors and errors of the operating system. -/
theorem main_tells_outcome (b : Backend τ σ) (command : Command) :
    (∃ envelope, (main b true command).stdout = [jsonLine envelope.json] ∧
      Truthful b command envelope (main b true command).exitCode) ∧
    ∀ (b' : Backend τ σ) (e e' : PyError), run b command = .error e → run b' command = .error e' →
      e.classes = e'.classes → ¬Shown e → main b true command = main b' true command := by
  refine ⟨⟨outcomeEnvelope command.name (run b command),report_json _ _,outcome_truthful b command⟩,
    ?_⟩
  intro b' e e' h h' hclasses hshown
  rw [main,main,h,h',report,report,classify_congr hclasses hshown]

end Truthful

end LocusMesh
