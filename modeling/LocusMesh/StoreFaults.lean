import Mathlib
import LocusMesh.Building
import LocusMesh.Endpoint
import LocusMesh.Replay

/-! A replay store one of whose steps fails, in the middle of a verification that has passed
every other check. -/
namespace LocusMesh

open CanonicalJson PyCollections AwareClock

/-- The steps of the first use of a store. -/
inductive StoreStep
  | makeParent | openDatabase | journalModeWal | createTable | insertOrIgnore
  deriving DecidableEq

def StoreStep.family : StoreStep → PyClass
  | .makeParent => .osError
  | _ => .sqliteError

def StoreStep.classes : StoreStep → List PyClass
  | .makeParent => [.osError,.timeoutError,.urlError,.httpError]
  | _ => [.sqliteError]

/-- A step that fails, with an exception of its documented family. -/
structure Fault where
  step : StoreStep
  error : PyError
  family : error.isInstance step.family = true
  only : ∀ c ∈ error.classes, c ∈ step.classes

def connectSteps (path : String) : List (StoreStep × Statement) :=
  (if path ≠ ":memory:" then [(.makeParent,makeParent)] else []) ++
    [(.openDatabase,openDatabase),(.journalModeWal,journalModeWal),(.createTable,createTable)]

theorem connectSteps_statements (path : String) :
    (connectSteps path).map Prod.snd = SQLiteReplayStore.connectStatements path := by
  unfold connectSteps SQLiteReplayStore.connectStatements
  split_ifs <;> rfl

namespace Fault

variable (fault : Fault)

def statement (step : StoreStep × Statement) : Statement :=
  if step.1 = fault.step then fun _ => .error fault.error else step.2

def connect (store : SQLiteReplayStore) (disk : Disk) :
    Except PyError Unit × (SQLiteReplayStore × Disk) :=
  if store.connection then (.ok (),(store,disk))
  else
    match SQLiteReplayStore.runStatements ((connectSteps store.path).map fault.statement) disk with
    | (.error e,disk') => (.error e,(store,disk'))
    | (.ok _,disk') => (.ok (),({store with connection := true},disk'))

def insert (row : NonceRow) (disk : Disk) : Except PyError (ℕ × Disk) :=
  if fault.step = .insertOrIgnore then .error fault.error else insertOrIgnore row disk

def recordIfNew (nonce requestCommitment attestationDigest : String)
    (s : SQLiteReplayStore × Disk) : Except PyError Bool × (SQLiteReplayStore × Disk) :=
  match fault.connect s.1 s.2 with
  | (.error e,s') => (.error e,s')
  | (.ok _,(store,disk)) =>
    match fault.insert ⟨nonce,requestCommitment,attestationDigest⟩ disk with
    | .error e => (.error e,(store,disk))
    | .ok (rowcount,disk') => (.ok (rowcount == 1),(store,disk'))

/-- A store over a disk, with the fault, as a `with` statement has it. -/
def session (path : String) (disk : Disk) : StoreSession (SQLiteReplayStore × Disk) :=
  ⟨⟨fault.recordIfNew⟩,(SQLiteReplayStore.create path,disk),
    fun s => (none,(s.1.close,s.2))⟩

end Fault

theorem runStatements_fault (fault : Fault) {path : String} (hpath : path ≠ ":memory:")
    (hstep : fault.step ≠ .insertOrIgnore) (disk : Disk) :
    ∃ disk', SQLiteReplayStore.runStatements ((connectSteps path).map fault.statement) disk =
      (.error fault.error,disk') ∧ disk'.rows = disk.rows := by
  obtain ⟨parent,database⟩ := disk
  cases h : fault.step with
  | insertOrIgnore => exact absurd h hstep
  | makeParent =>
    refine ⟨⟨parent,database⟩,?_,rfl⟩
    simp [connectSteps,hpath,Fault.statement,h,SQLiteReplayStore.runStatements]
  | openDatabase =>
    refine ⟨⟨true,database⟩,?_,rfl⟩
    simp [connectSteps,hpath,Fault.statement,h,SQLiteReplayStore.runStatements,makeParent]
  | journalModeWal =>
    refine ⟨⟨true,some (database.getD ⟨false,none⟩)⟩,?_,?_⟩
    · simp [connectSteps,hpath,Fault.statement,h,SQLiteReplayStore.runStatements,makeParent,
        openDatabase]
    · cases database <;> rfl
  | createTable =>
    refine ⟨⟨true,some {database.getD ⟨false,none⟩ with wal := true}⟩,?_,?_⟩
    · simp [connectSteps,hpath,Fault.statement,h,SQLiteReplayStore.runStatements,makeParent,
        openDatabase,journalModeWal]
    · cases database <;> rfl

theorem connect_insertFault {fault : Fault} (hstep : fault.step = .insertOrIgnore)
    (store : SQLiteReplayStore) (disk : Disk) :
    fault.connect store disk = store.connect disk := by
  have hsame : (connectSteps store.path).map fault.statement =
      SQLiteReplayStore.connectStatements store.path := by
    rw [← connectSteps_statements]
    apply List.map_congr_left
    intro step hmem
    have hother : step.1 ≠ .insertOrIgnore := by
      have hall : ∀ step ∈ connectSteps store.path, step.1 ≠ .insertOrIgnore := by
        unfold connectSteps
        split_ifs <;> simp
      exact hall step hmem
    rw [Fault.statement,hstep,if_neg hother]
  rw [Fault.connect,hsame]
  rfl

theorem recordIfNew_fault (fault : Fault) {path : String} (hpath : path ≠ ":memory:")
    (disk : Disk) (nonce requestCommitment attestationDigest : String) :
    ∃ store disk', fault.recordIfNew nonce requestCommitment attestationDigest
      (SQLiteReplayStore.create path,disk) = (.error fault.error,(store,disk')) ∧
        disk'.rows = disk.rows := by
  by_cases hstep : fault.step = .insertOrIgnore
  · obtain ⟨disk',hrun,hrows,_⟩ := runStatements_connect hpath disk
    refine ⟨⟨path,true⟩,disk',?_,hrows⟩
    have hconnect : fault.connect (SQLiteReplayStore.create path) disk =
        (.ok (),(⟨path,true⟩,disk')) := by
      rw [connect_insertFault hstep]
      simp only [SQLiteReplayStore.connect,SQLiteReplayStore.create,hrun,Bool.false_eq_true,if_false]
    simp only [Fault.recordIfNew,hconnect,Fault.insert,if_pos hstep]
  · obtain ⟨disk',hrun,hrows⟩ := runStatements_fault fault hpath hstep disk
    refine ⟨SQLiteReplayStore.create path,disk',?_,hrows⟩
    have hconnect : fault.connect (SQLiteReplayStore.create path) disk =
        (.error fault.error,(SQLiteReplayStore.create path,disk')) := by
      simp only [Fault.connect,SQLiteReplayStore.create,hrun,Bool.false_eq_true,if_false]
    simp only [Fault.recordIfNew,hconnect]

def stateMessage : String := "configured state store is unavailable"

section CommandLine

variable {τ : Type} [DatetimeArithmetic τ] (b : Backend τ (SQLiteReplayStore × Disk))
  {policyFile attestationFile file : Path} {policy : Validated (AdmissionPolicy τ)}
  {attestation : Validated (RouteAttestation τ)}

def storeAfter (session : StoreSession (SQLiteReplayStore × Disk))
    (policy : Validated (AdmissionPolicy τ)) (attestation : Validated (RouteAttestation τ)) :
    SQLiteReplayStore × Disk :=
  (withStore session fun store s =>
    verifyAttestation b.plat policy.val b.now attestation.val (some store) s).2

/-- Exit 2 with a redacted `STATE_UNAVAILABLE`; the store is closed and no row was added. -/
structure FailsClosed (output : Output) (disk : Disk) (after : SQLiteReplayStore × Disk) :
    Prop where
  exitCode : output.exitCode = 2
  stdout : output.stdout =
    [jsonLine (errorEnvelope "verify" "STATE_UNAVAILABLE" stateMessage).json]
  rows : after.2.rows = disk.rows
  connection : after.1.connection = false

variable {b}

theorem verifyDecision_fault {verified : Verified τ} (fault : Fault) (disk : Disk)
    (hpolicy : b.loadPolicy policyFile = .ok policy)
    (hattestation : b.loadAttestation attestationFile = .ok attestation)
    (hchecks : checkAttestation b.plat policy.val b.now attestation.val = .ok (.inr verified))
    (hfile : file ≠ ":memory:") (hreplay : b.replay file = fault.session file disk) :
    verifyDecision b policyFile attestationFile (some file) = .error fault.error ∧
      (storeAfter b (b.replay file) policy attestation).2.rows = disk.rows ∧
      (storeAfter b (b.replay file) policy attestation).1.connection = false := by
  obtain ⟨store,disk',hrecord,hrows⟩ := recordIfNew_fault fault hfile disk
    attestation.val.plan.nonce.val attestation.val.plan.requestCommitment.val
    verified.attestationHash.val
  have hverify : verifyAttestation b.plat policy.val b.now attestation.val
      (some ⟨fault.recordIfNew⟩) (SQLiteReplayStore.create file,disk) =
        (.error fault.error,(store,disk')) := by
    simp only [verifyAttestation,hchecks,recordFresh,hrecord]
  have hwith : (withStore (b.replay file) fun store s =>
      verifyAttestation b.plat policy.val b.now attestation.val (some store) s) =
        (.error fault.error,(store.close,disk')) := by
    rw [hreplay,withStore,Fault.session]
    simp only [hverify]
    rfl
  refine ⟨?_,?_,?_⟩
  · rw [verifyDecision,hpolicy,hattestation]
    show (withStore (b.replay file) fun store s =>
      verifyAttestation b.plat policy.val b.now attestation.val (some store) s).1 = _
    rw [hwith]
  · rw [storeAfter,hwith]
    exact hrows
  · rw [storeAfter,hwith]
    rfl

theorem main_fault {verified : Verified τ} (fault : Fault) (disk : Disk)
    (hpolicy : b.loadPolicy policyFile = .ok policy)
    (hattestation : b.loadAttestation attestationFile = .ok attestation)
    (hchecks : checkAttestation b.plat policy.val b.now attestation.val = .ok (.inr verified))
    (hfile : file ≠ ":memory:") (hreplay : b.replay file = fault.session file disk) :
    main b true (.verify policyFile attestationFile (some file)) =
      report true "verify" (.error fault.error) := by
  rw [main,run,(verifyDecision_fault fault disk hpolicy hattestation hchecks hfile hreplay).1]
  rfl

end CommandLine

theorem not_instance {fault : Fault} {c : PyClass} (hc : c ∉ fault.step.classes) :
    fault.error.isInstance c = false := by
  rw [PyError.isInstance,decide_eq_false_iff_not]
  exact fun hmem => hc (fault.only c hmem)

theorem classify_directory {fault : Fault} (hstep : fault.step = .makeParent) :
    classify fault.error = ⟨"INPUT_INVALID",fault.error.text,2⟩ := by
  have hos : fault.error.isInstance .osError = true := by
    have hfamily := fault.family
    rwa [hstep] at hfamily
  have hnot : ∀ c ∉ StoreStep.makeParent.classes, fault.error.isInstance c = false := by
    intro c hc
    exact not_instance (by rwa [hstep])
  simp [classify,hos,hnot .validationError (by decide),hnot .yamlError (by decide),
    hnot .sqliteError (by decide),hnot .fabricObservationError (by decide)]

theorem classify_database {fault : Fault} (hstep : fault.step ≠ .makeParent) :
    classify fault.error = ⟨"STATE_UNAVAILABLE",stateMessage,2⟩ := by
  have hclasses : fault.step.classes = [.sqliteError] ∧ fault.step.family = .sqliteError := by
    cases h : fault.step with
    | makeParent => exact absurd h hstep
    | openDatabase => exact ⟨rfl,rfl⟩
    | journalModeWal => exact ⟨rfl,rfl⟩
    | createTable => exact ⟨rfl,rfl⟩
    | insertOrIgnore => exact ⟨rfl,rfl⟩
  have hsqlite : fault.error.isInstance .sqliteError = true := hclasses.2 ▸ fault.family
  have hvalidation : fault.error.isInstance .validationError = false :=
    not_instance (by rw [hclasses.1]; decide)
  have hyaml : fault.error.isInstance .yamlError = false :=
    not_instance (by rw [hclasses.1]; decide)
  simp only [classify,hsqlite,hvalidation,hyaml,Bool.false_eq_true,if_false,if_true]
  rfl

theorem sortKeys_errorEnvelope (command code message : String) :
    sortKeys (errorEnvelope command code message).json = .obj
      [("command",.str command),("data",.null),
       ("error",.obj [("code",.str code),("message",.str message)]),("ok",.bool false),
       ("schema_version",.str "locusmesh.cli-output.v1")] := by
  simp [errorEnvelope,Envelope.json,optional,sortKeys,sortEntries,sortedBy,List.orderedInsert]

theorem errorLine_ne {command message message' : String} :
    jsonLine (errorEnvelope command "INPUT_INVALID" message).json ≠
      jsonLine (errorEnvelope command "STATE_UNAVAILABLE" message').json := by
  intro h
  have hlayout := String.ofList_injective h
  rw [sortKeys_errorEnvelope,sortKeys_errorEnvelope] at hlayout
  simp [layout,layoutEntries,newline,separator,asciiQuote,asciiEscape] at hlayout

/-- A file-backed store that fails on its first use fails closed and redacted, with nothing
recorded, exactly when the step that fails is not the creation of its directory. -/
theorem store_fails_closed_iff {τ : Type} [DatetimeArithmetic τ]
    (b : Backend τ (SQLiteReplayStore × Disk)) {policyFile attestationFile file : Path}
    {policy : Validated (AdmissionPolicy τ)} {attestation : Validated (RouteAttestation τ)}
    {verified : Verified τ} (fault : Fault) (disk : Disk)
    (hpolicy : b.loadPolicy policyFile = .ok policy)
    (hattestation : b.loadAttestation attestationFile = .ok attestation)
    (hchecks : checkAttestation b.plat policy.val b.now attestation.val = .ok (.inr verified))
    (hfile : file ≠ ":memory:") (hreplay : b.replay file = fault.session file disk) :
    FailsClosed (main b true (.verify policyFile attestationFile (some file))) disk
        (storeAfter b (b.replay file) policy attestation) ↔ fault.step ≠ .makeParent := by
  obtain ⟨_,hrows,hconnection⟩ :=
    verifyDecision_fault fault disk hpolicy hattestation hchecks hfile hreplay
  rw [main_fault fault disk hpolicy hattestation hchecks hfile hreplay]
  constructor
  · intro h hstep
    have hline := h.stdout
    rw [report,classify_directory hstep] at hline
    exact errorLine_ne (List.cons.inj hline).1
  · intro hstep
    have hreport : report true "verify" (.error fault.error) =
        ⟨[jsonLine (errorEnvelope "verify" "STATE_UNAVAILABLE" stateMessage).json],
          ["locusmesh: " ++ "STATE_UNAVAILABLE" ++ ": " ++ stateMessage],2⟩ := by
      rw [report,classify_database hstep]
      rfl
    rw [hreport]
    exact ⟨rfl,rfl,hrows,hconnection⟩

namespace Demo

def failing (fault : Fault) : Backend FixedTime (SQLiteReplayStore × Disk) :=
  backend (fun _ => .refused (.osError "refused")) (.ok attestation₀) fun path =>
    fault.session path ⟨false,none⟩

def permissionDenied : Fault where
  step := .makeParent
  error := .osError "[Errno 13] Permission denied: '/srv/state'"
  family := rfl
  only := by decide

def databaseLocked : Fault where
  step := .insertOrIgnore
  error := .sqliteError
  family := rfl
  only := by decide

end Demo

theorem store_fails_closed_demo :
    FailsClosed (main (Demo.failing Demo.databaseLocked) true
        (.verify "policy.yaml" "attestation.json" (some "/srv/state/replay.sqlite3"))) ⟨false,none⟩
      (storeAfter (Demo.failing Demo.databaseLocked)
        ((Demo.failing Demo.databaseLocked).replay "/srv/state/replay.sqlite3") Demo.policy₀
        Demo.attestation₀) :=
  (store_fails_closed_iff (Demo.failing Demo.databaseLocked) Demo.databaseLocked ⟨false,none⟩ rfl
    rfl (Demo.attestation_passes (by decide) Demo.contain_noon) (by decide) rfl).mpr (by decide)

/-- A directory that cannot be created is reported as invalid input, with its path. -/
theorem store_directory_demo :
    (main (Demo.failing Demo.permissionDenied) true
        (.verify "policy.yaml" "attestation.json" (some "/srv/state/replay.sqlite3"))).stdout =
      [jsonLine (errorEnvelope "verify" "INPUT_INVALID"
        "[Errno 13] Permission denied: '/srv/state'").json] ∧
    ¬FailsClosed (main (Demo.failing Demo.permissionDenied) true
        (.verify "policy.yaml" "attestation.json" (some "/srv/state/replay.sqlite3"))) ⟨false,none⟩
      (storeAfter (Demo.failing Demo.permissionDenied)
        ((Demo.failing Demo.permissionDenied).replay "/srv/state/replay.sqlite3") Demo.policy₀
        Demo.attestation₀) := by
  have hmain : (main (Demo.failing Demo.permissionDenied) true
      (.verify "policy.yaml" "attestation.json" (some "/srv/state/replay.sqlite3"))).stdout =
        [jsonLine (errorEnvelope "verify" "INPUT_INVALID"
          "[Errno 13] Permission denied: '/srv/state'").json] := by
    rw [main_fault (b:=Demo.failing Demo.permissionDenied) Demo.permissionDenied
      ⟨false,none⟩ rfl rfl (Demo.attestation_passes (by decide) Demo.contain_noon)
      (by decide) rfl,report,classify_directory rfl]
    rfl
  refine ⟨hmain,fun h => ?_⟩
  have hline := h.stdout
  rw [hmain] at hline
  exact errorLine_ne (List.cons.inj hline).1

end LocusMesh
