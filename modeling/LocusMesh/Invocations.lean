import Mathlib
import LocusMesh.Sharing
import LocusMesh.StoreFaults

/-! The runs of `verify --nonce-store` that follow each other on one database, whatever each of
them is given, whichever of its steps fail and wherever it is killed. -/
namespace LocusMesh

open CanonicalJson PyCollections AwareClock

/-- A row is kept unless its nonce is there. -/
def remember (rows : List NonceRow) (row : NonceRow) : List NonceRow :=
  if row.nonce ∈ rows.map NonceRow.nonce then rows else rows ++ [row]

theorem mem_remember {rows : List NonceRow} {row : NonceRow} {nonce : String} :
    nonce ∈ (remember rows row).map NonceRow.nonce ↔
      nonce ∈ rows.map NonceRow.nonce ∨ row.nonce = nonce := by
  by_cases hmem : row.nonce ∈ rows.map NonceRow.nonce
  · rw [remember,if_pos hmem]
    constructor
    · exact .inl
    · rintro (hold | rfl)
      · exact hold
      · exact hmem
  · rw [remember,if_neg hmem,List.map_append,List.mem_append,List.map_singleton,
      List.mem_singleton]
    exact or_congr Iff.rfl eq_comm

theorem mem_foldl_remember (l : List NonceRow) {rows : List NonceRow} {nonce : String} :
    nonce ∈ (l.foldl remember rows).map NonceRow.nonce ↔
      nonce ∈ rows.map NonceRow.nonce ∨ ∃ row ∈ l, row.nonce = nonce := by
  induction l generalizing rows with
  | nil => simp
  | cons row l ih =>
    rw [List.foldl_cons,ih,mem_remember,or_assoc]
    refine or_congr Iff.rfl ?_
    simp only [List.mem_cons,or_and_right,exists_or,exists_eq_left]

/-- What may go wrong with a run: a step of its store fails, its connection does not close, or it
is killed once some statements have been executed. -/
inductive Disturbance
  | fault (fault : Fault) (closing : Option PyError)
  | closing (e : PyError)
  | killed (statements : ℕ)

/-- One run of `verify --nonce-store`. -/
structure Attempt (τ : Type) [DatetimeArithmetic τ] where
  backend : Backend τ (SQLiteReplayStore × Disk)
  json : Bool
  policyFile : Path
  attestationFile : Path
  disturbance : Option Disturbance

def closeStore (closing : Option PyError) (s : SQLiteReplayStore × Disk) :
    Option PyError × (SQLiteReplayStore × Disk) :=
  if s.1.connection then
    match closing with
    | none => (none,(s.1.close,s.2))
    | some e => (some e,s)
  else (none,s)

namespace Attempt

variable {τ : Type} [DatetimeArithmetic τ] (a : Attempt τ) (file : Path) (disk : Disk)

def store : ReplayStore (SQLiteReplayStore × Disk) :=
  match a.disturbance with
  | some (.fault fault _) => ⟨fault.recordIfNew⟩
  | _ => SQLiteReplayStore.port

def closing : Option PyError :=
  match a.disturbance with
  | some (.fault _ closing) => closing
  | some (.closing e) => some e
  | _ => none

def session : StoreSession (SQLiteReplayStore × Disk) :=
  ⟨a.store,(SQLiteReplayStore.create file,disk),closeStore a.closing⟩

def Killed : Prop := ∃ statements, a.disturbance = some (.killed statements)

def onDisk : Backend τ (SQLiteReplayStore × Disk) :=
  {a.backend with replay := fun _ => a.session file disk}

def exitCode : Option ℕ :=
  match a.disturbance with
  | some (.killed _) => none
  | _ => some (main (a.onDisk file disk) a.json
      (.verify a.policyFile a.attestationFile (some file))).exitCode

/-- The row of an attestation that passes everything but the replay check. -/
def row : Option NonceRow :=
  match a.backend.loadPolicy a.policyFile, a.backend.loadAttestation a.attestationFile with
  | .ok policy, .ok attestation =>
    match checkAttestation a.backend.plat policy.val a.backend.now attestation.val with
    | .ok (.inr verified) =>
      some ⟨attestation.val.plan.nonce.val,attestation.val.plan.requestCommitment.val,
        verified.attestationHash.val⟩
    | _ => none
  | _, _ => none

/-- The disk when the store has executed some of its statements. -/
def interrupted (row : NonceRow) (statements : ℕ) : Disk :=
  if statements ≤ (SQLiteReplayStore.connectStatements file).length then
    (SQLiteReplayStore.runStatements
      ((SQLiteReplayStore.connectStatements file).take statements) disk).2
  else
    (SQLiteReplayStore.recordIfNew row.nonce row.requestCommitment row.attestationDigest
      (SQLiteReplayStore.create file,disk)).2.2

def after : Disk :=
  match a.disturbance with
  | some (.killed statements) =>
    match a.row with
    | none => disk
    | some row => interrupted file disk row statements
  | _ =>
    match a.backend.loadPolicy a.policyFile, a.backend.loadAttestation a.attestationFile with
    | .ok policy, .ok attestation =>
      (storeAfter a.backend (a.session file disk) policy attestation).2
    | _, _ => disk

/-- The row that a run inserts unless its nonce is there: its store did not fail, and it was not
killed before. -/
def recorded : Option NonceRow :=
  match a.disturbance with
  | some (.fault _ _) => none
  | some (.killed statements) =>
    if statements ≤ (SQLiteReplayStore.connectStatements file).length then none else a.row
  | _ => a.row

end Attempt

section Store

variable {file : Path}

theorem recordIfNew_create (hfile : file ≠ ":memory:") (disk : Disk) (row : NonceRow) :
    ∃ store disk',
    SQLiteReplayStore.recordIfNew row.nonce row.requestCommitment row.attestationDigest
        (SQLiteReplayStore.create file,disk) =
      (.ok (decide (row.nonce ∉ disk.rows.map NonceRow.nonce)),(store,disk')) ∧
    store.connection = true ∧ disk'.rows = remember disk.rows row := by
  obtain ⟨opened,hrun,hrows,htable⟩ := runStatements_connect hfile disk
  have hconnect : (SQLiteReplayStore.create file).connect disk = (.ok (),(⟨file,true⟩,opened)) := by
    simp only [SQLiteReplayStore.connect,SQLiteReplayStore.create,hrun,Bool.false_eq_true,if_false]
  rw [remember,← hrows]
  rcases insertOrIgnore_cases row htable with ⟨hold,hinsert⟩ | ⟨hnew,disk',hinsert,hrows',_⟩
  · refine ⟨⟨file,true⟩,opened,?_,rfl,by rw [if_pos hold]⟩
    simp only [SQLiteReplayStore.recordIfNew,hconnect,hinsert,hold,not_true_eq_false,decide_false]
    rfl
  · refine ⟨⟨file,true⟩,disk',?_,rfl,by rw [if_neg hnew,hrows']⟩
    simp only [SQLiteReplayStore.recordIfNew,hconnect,hinsert,hnew,not_false_eq_true,decide_true]
    rfl

/-- The statements of `_connect` keep the rows, however many of them are executed. -/
theorem runStatements_rows (disk : Disk) {l : List Statement}
    (hl : ∀ statement ∈ l, statement ∈ SQLiteReplayStore.connectStatements file) :
    (SQLiteReplayStore.runStatements l disk).2.rows = disk.rows := by
  induction l generalizing disk with
  | nil => rfl
  | cons statement l ih =>
    rw [SQLiteReplayStore.runStatements]
    cases hok : statement disk with
    | error e => rfl
    | ok disk' =>
      have hrows := (connectStatement_table (hl statement List.mem_cons_self) hok).1
      exact (ih disk' fun s hs => hl s (List.mem_cons_of_mem _ hs)).trans hrows

theorem interrupted_rows (hfile : file ≠ ":memory:") (disk : Disk) (row : NonceRow)
    (statements : ℕ) :
    (Attempt.interrupted file disk row statements).rows =
      if statements ≤ (SQLiteReplayStore.connectStatements file).length then disk.rows
      else remember disk.rows row := by
  rw [Attempt.interrupted]
  split_ifs
  · exact runStatements_rows disk fun s hs => List.mem_of_mem_take hs
  · obtain ⟨store,disk',hrecord,_,hrows⟩ := recordIfNew_create hfile disk row
    rw [hrecord]
    exact hrows

end Store

section Runs

variable {τ : Type} [DatetimeArithmetic τ] (a : Attempt τ) {file : Path}
  {policy : Validated (AdmissionPolicy τ)} {attestation : Validated (RouteAttestation τ)}

theorem PendingCall.asked {plat : Platform} (call : PendingCall τ plat) {σ : Type}
    {store : ReplayStore σ} {s s' : σ} {answer : Except PyError Bool}
    (hanswer : store.recordIfNew call.row.nonce call.row.requestCommitment
      call.row.attestationDigest s = (answer,s')) :
    verifyAttestation plat call.policy.val call.now call.attestation.val (some store) s =
      (answer.bind fun fresh => conclude call.attestation.val call.verified fresh,s') := by
  rw [PendingCall.row] at hanswer
  rw [verifyAttestation,call.passed]
  simp only [recordFresh,hanswer]
  cases answer <;> rfl

variable {a}

theorem Attempt.row_of_passed (hpolicy : a.backend.loadPolicy a.policyFile = .ok policy)
    (hattestation : a.backend.loadAttestation a.attestationFile = .ok attestation)
    {verified : Verified τ} (hcheck : checkAttestation a.backend.plat policy.val a.backend.now
      attestation.val = .ok (.inr verified)) :
    a.row = some ⟨attestation.val.plan.nonce.val,attestation.val.plan.requestCommitment.val,
      verified.attestationHash.val⟩ := by
  simp only [Attempt.row,hpolicy,hattestation,hcheck]

/-- Either the attestation is denied whatever the store, or its row is asked for. -/
theorem Attempt.row_cases (hpolicy : a.backend.loadPolicy a.policyFile = .ok policy)
    (hattestation : a.backend.loadAttestation a.attestationFile = .ok attestation) :
    (a.row = none ∧ ∃ d, d.admitted = false ∧ checkAttestation a.backend.plat policy.val
      a.backend.now attestation.val = .ok (.inl d)) ∨
    ∃ call : PendingCall τ a.backend.plat, a.row = some call.row ∧ call.policy = policy ∧
      call.attestation = attestation ∧ call.now = a.backend.now := by
  have hdenied : ∀ {d : AdmissionDecision τ}, checkAttestation a.backend.plat policy.val
      a.backend.now attestation.val = .ok (.inl d) → a.row = none := by
    intro d hcheck
    simp only [Attempt.row,hpolicy,hattestation,hcheck]
  rcases checkAttestation_cases a.backend.plat attestation policy a.backend.now with
    ⟨_,hcheck⟩ | ⟨_,_,_,⟨_,hcheck⟩ | ⟨_,hcheck⟩⟩
  · exact .inl ⟨hdenied hcheck,_,(refused_of_check hcheck).1,hcheck⟩
  · exact .inl ⟨hdenied hcheck,_,(refused_of_check hcheck).1,hcheck⟩
  · exact .inr ⟨⟨attestation,policy,a.backend.now,_,hcheck⟩,
      Attempt.row_of_passed hpolicy hattestation hcheck,rfl,rfl,rfl⟩

/-- What the `with` statement of a run comes to. -/
structure Attempt.Visit (a : Attempt τ) (file : Path) (disk : Disk)
    (result : Except PyError (AdmissionDecision τ) × (SQLiteReplayStore × Disk)) : Prop where
  rows : result.2.2.rows = (a.recorded file).elim disk.rows (remember disk.rows)
  admitted : (∃ d, result.1 = .ok d ∧ d.admitted = true) ↔
    a.disturbance = none ∧ ∃ row, a.row = some row ∧ row.nonce ∉ disk.rows.map NonceRow.nonce

/-- What the block of a `with` statement returns is concluded from, when its store closes. -/
theorem withStore_eq {σ α : Type} {session : StoreSession σ}
    {block : ReplayStore σ → σ → Except PyError α × σ} {outcome : Except PyError α} {s s' : σ}
    {exit : Option PyError} (hblock : block session.store session.opened = (outcome,s))
    (hclose : session.close s = (exit,s')) :
    withStore session block = (withExit exit outcome,s') := by
  rw [withStore,hblock]
  simp only [hclose]

theorem closeStore_closed (closing : Option PyError) {store : SQLiteReplayStore} {disk : Disk}
    (h : store.connection = false) : closeStore closing (store,disk) = (none,(store,disk)) := by
  simp [closeStore,h]

theorem closeStore_disk (closing : Option PyError) (s : SQLiteReplayStore × Disk) :
    (closeStore closing s).2.2 = s.2 := by
  unfold closeStore
  split_ifs
  · cases closing <;> rfl
  · rfl

theorem Attempt.recorded_none (file : Path) (h : a.row = none) : a.recorded file = none := by
  unfold recorded
  rw [h]
  split
  · rfl
  · split_ifs <;> rfl
  · rfl

theorem Attempt.visit_denied {d : AdmissionDecision τ} (disk : Disk) (hrow : a.row = none)
    (hdenied : d.admitted = false)
    (hcheck : checkAttestation a.backend.plat policy.val a.backend.now attestation.val =
      .ok (.inl d)) :
    Attempt.Visit a file disk (withStore (a.session file disk) fun store s =>
      verifyAttestation a.backend.plat policy.val a.backend.now attestation.val (some store) s) := by
  have hwith : (withStore (a.session file disk) fun store s =>
      verifyAttestation a.backend.plat policy.val a.backend.now attestation.val (some store) s) =
        (.ok d,(SQLiteReplayStore.create file,disk)) := by
    have hclose : (a.session file disk).close (SQLiteReplayStore.create file,disk) =
        (none,(SQLiteReplayStore.create file,disk)) := by
      show closeStore a.closing (SQLiteReplayStore.create file,disk) = _
      exact closeStore_closed a.closing rfl
    have hblock : verifyAttestation a.backend.plat policy.val a.backend.now attestation.val
        (some (a.session file disk).store) (a.session file disk).opened =
          (.ok d,(SQLiteReplayStore.create file,disk)) := by
      simp only [verifyAttestation,hcheck,session]
    exact withStore_eq hblock hclose
  rw [hwith]
  constructor
  · rw [recorded_none file hrow]
    rfl
  · refine iff_of_false ?_ ?_
    · rintro ⟨d',hd,hadmitted⟩
      cases hd
      rw [hdenied] at hadmitted
      cases hadmitted
    · rintro ⟨_,row,hsome,_⟩
      rw [hrow] at hsome
      cases hsome

/-- A store that answers decides the run, unless its connection does not close. -/
theorem Attempt.visit_answered (hfile : file ≠ ":memory:") (disk : Disk)
    (call : PendingCall τ a.backend.plat) (hrow : a.row = some call.row)
    (hstore : a.store = SQLiteReplayStore.port) (hrecorded : a.recorded file = a.row)
    (hclosing : a.closing = none ↔ a.disturbance = none) :
    Attempt.Visit a file disk (withStore (a.session file disk) fun store s =>
      verifyAttestation a.backend.plat call.policy.val call.now call.attestation.val (some store)
        s) := by
  obtain ⟨store,disk',hrecord,hopen,hrows⟩ := recordIfNew_create hfile disk call.row
  have hasked : a.store.recordIfNew call.row.nonce call.row.requestCommitment
      call.row.attestationDigest (SQLiteReplayStore.create file,disk) =
        (.ok (decide (call.row.nonce ∉ disk.rows.map NonceRow.nonce)),(store,disk')) := by
    rw [hstore]
    exact hrecord
  have hblock := call.asked hasked
  constructor
  · have hdisk : (withStore (a.session file disk) fun store s =>
        verifyAttestation a.backend.plat call.policy.val call.now call.attestation.val (some store)
          s).2.2 = disk' := by
      rw [withStore_eq hblock rfl]
      exact closeStore_disk _ _
    rw [hdisk,hrows,hrecorded,hrow]
    rfl
  · cases hexit : a.closing with
    | none =>
      have hclose : (a.session file disk).close (store,disk') = (none,(store.close,disk')) := by
        simp [session,closeStore,hopen,hexit]
      rw [withStore_eq hblock hclose,hclosing.mp hexit,hrow]
      by_cases hmem : call.row.nonce ∈ disk.rows.map NonceRow.nonce
      · obtain ⟨d,hd,hdenied,_⟩ := call.conclude_replayed
        have hold : decide (call.row.nonce ∉ disk.rows.map NonceRow.nonce) = false := by
          simpa using hmem
        simp only [hold,withExit,Except.bind,hd]
        refine iff_of_false ?_ ?_
        · rintro ⟨d',hd',hadmitted⟩
          rw [← Except.ok.inj hd',hdenied] at hadmitted
          cases hadmitted
        · rintro ⟨_,row,hsome,hnew⟩
          rw [← Option.some.inj hsome] at hnew
          exact hnew hmem
      · obtain ⟨d,hd,hadmitted,_⟩ := call.conclude_fresh
        have hnew : decide (call.row.nonce ∉ disk.rows.map NonceRow.nonce) = true := by
          simpa using hmem
        simp only [hnew,withExit,Except.bind,hd]
        exact iff_of_true ⟨d,rfl,hadmitted⟩ ⟨trivial,call.row,rfl,hmem⟩
    | some e =>
      have hclose : (a.session file disk).close (store,disk') = (some e,(store,disk')) := by
        simp [session,closeStore,hopen,hexit]
      rw [withStore_eq hblock hclose]
      refine iff_of_false ?_ ?_
      · rintro ⟨d,hd,_⟩
        cases hd
      · rintro ⟨hnone,_⟩
        rw [hclosing.mpr hnone] at hexit
        cases hexit

theorem Attempt.visit_faulty (hfile : file ≠ ":memory:") (disk : Disk)
    (call : PendingCall τ a.backend.plat) {fault : Fault} {closing : Option PyError}
    (hdisturbance : a.disturbance = some (.fault fault closing)) :
    Attempt.Visit a file disk (withStore (a.session file disk) fun store s =>
      verifyAttestation a.backend.plat call.policy.val call.now call.attestation.val (some store)
        s) := by
  obtain ⟨store,disk',hrecord,hrows⟩ := recordIfNew_fault fault hfile disk call.row.nonce
    call.row.requestCommitment call.row.attestationDigest
  have hstore : a.store = ⟨fault.recordIfNew⟩ := by rw [Attempt.store,hdisturbance]
  have hasked : a.store.recordIfNew call.row.nonce call.row.requestCommitment
      call.row.attestationDigest (SQLiteReplayStore.create file,disk) =
        (.error fault.error,(store,disk')) := by
    rw [hstore]
    exact hrecord
  have hblock := call.asked hasked
  rw [withStore_eq hblock rfl]
  constructor
  · have hrecorded : a.recorded file = none := by rw [recorded,hdisturbance]
    rw [hrecorded]
    exact (congrArg Disk.rows (closeStore_disk _ _)).trans hrows
  · refine iff_of_false ?_ ?_
    · rintro ⟨d,hd,_⟩
      have hok := withExit_ok hd
      cases hok
    · rintro ⟨hnone,_⟩
      rw [hdisturbance] at hnone
      cases hnone

theorem Attempt.visit (hfile : file ≠ ":memory:") (disk : Disk) (halive : ¬a.Killed)
    (hpolicy : a.backend.loadPolicy a.policyFile = .ok policy)
    (hattestation : a.backend.loadAttestation a.attestationFile = .ok attestation) :
    Attempt.Visit a file disk (withStore (a.session file disk) fun store s =>
      verifyAttestation a.backend.plat policy.val a.backend.now attestation.val (some store) s) := by
  rcases a.row_cases hpolicy hattestation with ⟨hrow,d,hdenied,hcheck⟩ | ⟨call,hrow,rfl,rfl,hnow⟩
  · exact visit_denied disk hrow hdenied hcheck
  · rw [← hnow]
    rcases hdisturbance : a.disturbance with _ | ⟨fault,closing⟩ | e | statements
    · apply visit_answered hfile disk call hrow
      · rw [Attempt.store,hdisturbance]
      · rw [recorded,hdisturbance]
      · rw [Attempt.closing,hdisturbance]
        exact iff_of_true rfl rfl
    · exact visit_faulty hfile disk call hdisturbance
    · apply visit_answered hfile disk call hrow
      · rw [Attempt.store,hdisturbance]
      · rw [recorded,hdisturbance]
      · rw [Attempt.closing,hdisturbance]
        exact iff_of_false nofun nofun
    · exact absurd ⟨statements,hdisturbance⟩ halive

theorem main_exitCode {σ : Type} (b : Backend τ σ) (json : Bool) (command : Command) :
    (main b json command).exitCode = (main b true command).exitCode := by
  rw [main,main]
  cases run b command <;> cases json <;> rfl

/-- A verification exits with 0 exactly when it admits. -/
theorem main_verify_zero {σ : Type} (b : Backend τ σ) (json : Bool)
    (policyFile attestationFile : Path) (nonceStore : Option Path) :
    (main b json (.verify policyFile attestationFile nonceStore)).exitCode = 0 ↔
      ∃ d, verifyDecision b policyFile attestationFile nonceStore = .ok d ∧ d.admitted = true := by
  rw [main_exitCode,outcome_ok_iff]
  have hrun : run b (.verify policyFile attestationFile nonceStore) =
      (verifyDecision b policyFile attestationFile nonceStore).bind fun d =>
        .ok (decisionResult b 4 d) := rfl
  exact (decided hrun).ok

/-- A run exits with 0 exactly when nothing disturbs it and it passes every check, with a nonce
that is not in the table. -/
theorem Attempt.exitCode_zero (hfile : file ≠ ":memory:") (disk : Disk) :
    a.exitCode file disk = some 0 ↔ a.disturbance = none ∧
      ∃ row, a.row = some row ∧ row.nonce ∉ disk.rows.map NonceRow.nonce := by
  by_cases hkilled : a.Killed
  · obtain ⟨statements,hdisturbance⟩ := hkilled
    rw [exitCode,hdisturbance]
    exact iff_of_false nofun nofun
  · have hcode : a.exitCode file disk = some (main (a.onDisk file disk) a.json
        (.verify a.policyFile a.attestationFile (some file))).exitCode := by
      unfold exitCode
      split
      · rename_i statements hdisturbance
        exact absurd ⟨statements,hdisturbance⟩ hkilled
      · rfl
    rw [hcode,Option.some.injEq,main_verify_zero]
    cases hpolicy : a.backend.loadPolicy a.policyFile with
    | error e =>
      refine iff_of_false ?_ ?_
      · rintro ⟨d,hd,_⟩
        simp only [verifyDecision,onDisk,hpolicy] at hd
        cases hd
      · rintro ⟨_,row,hrow,_⟩
        simp only [Attempt.row,hpolicy] at hrow
        cases hrow
    | ok policy =>
      cases hattestation : a.backend.loadAttestation a.attestationFile with
      | error e =>
        refine iff_of_false ?_ ?_
        · rintro ⟨d,hd,_⟩
          simp only [verifyDecision,onDisk,hpolicy,hattestation] at hd
          cases hd
        · rintro ⟨_,row,hrow,_⟩
          simp only [Attempt.row,hpolicy,hattestation] at hrow
          cases hrow
      | ok attestation =>
        have hdecision : verifyDecision (a.onDisk file disk) a.policyFile a.attestationFile
            (some file) = (withStore (a.session file disk) fun store s =>
              verifyAttestation a.backend.plat policy.val a.backend.now attestation.val
                (some store) s).1 := by
          simp only [verifyDecision,onDisk,hpolicy,hattestation]
          rfl
        rw [hdecision]
        exact (a.visit hfile disk hkilled hpolicy hattestation).admitted

theorem Attempt.after_rows (hfile : file ≠ ":memory:") (disk : Disk) :
    (a.after file disk).rows = (a.recorded file).elim disk.rows (remember disk.rows) := by
  by_cases hkilled : a.Killed
  · obtain ⟨statements,hdisturbance⟩ := hkilled
    rw [after,recorded,hdisturbance]
    cases hrow : a.row with
    | none => simp
    | some row =>
      refine (interrupted_rows hfile disk row statements).trans ?_
      by_cases hbefore : statements ≤ (SQLiteReplayStore.connectStatements file).length
      · simp [hbefore]
      · simp [hbefore]
  · have hafter : a.after file disk =
        match a.backend.loadPolicy a.policyFile, a.backend.loadAttestation a.attestationFile with
        | .ok policy, .ok attestation =>
          (storeAfter a.backend (a.session file disk) policy attestation).2
        | _, _ => disk := by
      unfold after
      split
      · rename_i statements hdisturbance
        exact absurd ⟨statements,hdisturbance⟩ hkilled
      · rfl
    rw [hafter]
    split
    · rename_i policy attestation hpolicy hattestation
      exact (a.visit hfile disk hkilled hpolicy hattestation).rows
    · rename_i hloads
      have hrow : a.row = none := by
        unfold row
        split
        · rename_i policy attestation hpolicy hattestation
          exact absurd hattestation (hloads policy attestation hpolicy)
        · rfl
      rw [recorded_none file hrow]
      rfl

end Runs

section Sequence

variable {τ : Type} [DatetimeArithmetic τ] (file : Path)

def afterAll (disk : Disk) (attempts : List (Attempt τ)) : Disk :=
  attempts.foldl (fun disk a => a.after file disk) disk

def admittedBy : Disk → List (Attempt τ) → List NonceRow
  | _, [] => []
  | disk, a :: attempts =>
    (if a.exitCode file disk = some 0 then a.row.toList else []) ++
      admittedBy (a.after file disk) attempts

variable {file}

theorem afterAll_rows (hfile : file ≠ ":memory:") (disk : Disk) (attempts : List (Attempt τ)) :
    (afterAll file disk attempts).rows =
      (attempts.filterMap fun a => a.recorded file).foldl remember disk.rows := by
  induction attempts generalizing disk with
  | nil => rfl
  | cons a attempts ih =>
    refine (ih (a.after file disk)).trans ?_
    rw [a.after_rows hfile,List.filterMap_cons]
    cases a.recorded file <;> rfl

/-- A run appends its row if it is new, and it is if the run exits with 0. -/
theorem Attempt.appends (a : Attempt τ) (hfile : file ≠ ":memory:") (disk : Disk) :
    (a.after file disk).rows = disk.rows ∧ a.exitCode file disk ≠ some 0 ∨
    ∃ row, a.row = some row ∧ row.nonce ∉ disk.rows.map NonceRow.nonce ∧
      (a.after file disk).rows = disk.rows ++ [row] := by
  rw [Ne,a.exitCode_zero hfile,a.after_rows hfile]
  have hrecorded : ∀ row, a.recorded file = some row → a.row = some row := by
    intro row h
    unfold recorded at h
    split at h
    · cases h
    · split_ifs at h
      exact h
    · exact h
  have hundisturbed : a.disturbance = none → a.recorded file = a.row := by
    intro h
    rw [recorded,h]
  cases h : a.recorded file with
  | none =>
    refine .inl ⟨rfl,?_⟩
    rintro ⟨hnone,row,hrow,_⟩
    rw [← hundisturbed hnone,h] at hrow
    cases hrow
  | some row =>
    by_cases hmem : row.nonce ∈ disk.rows.map NonceRow.nonce
    · refine .inl ⟨if_pos hmem,?_⟩
      rintro ⟨_,row',hrow',hnew⟩
      rw [hrecorded row h,Option.some.injEq] at hrow'
      rw [← hrow'] at hnew
      exact hnew hmem
    · exact .inr ⟨row,hrecorded row h,hmem,if_neg hmem⟩

/-- The runs append rows with new nonces, among them those of the admitted ones. -/
theorem admittedBy_sublist (hfile : file ≠ ":memory:") (disk : Disk)
    (attempts : List (Attempt τ)) : ∃ added,
      (afterAll file disk attempts).rows = disk.rows ++ added ∧
      (added.map NonceRow.nonce).Nodup ∧
      (∀ row ∈ added, row.nonce ∉ disk.rows.map NonceRow.nonce) ∧
      (admittedBy file disk attempts).Sublist added := by
  induction attempts generalizing disk with
  | nil => exact ⟨[],(List.append_nil _).symm,List.nodup_nil,nofun,List.nil_sublist _⟩
  | cons a attempts ih =>
    obtain ⟨added,hrows,hnodup,hnew,hsublist⟩ := ih (a.after file disk)
    rcases a.appends hfile disk with ⟨hsame,hcode⟩ | ⟨row,hrow,hfresh,happended⟩
    · rw [hsame] at hrows hnew
      refine ⟨added,hrows,hnodup,hnew,?_⟩
      rw [admittedBy,if_neg hcode]
      exact hsublist
    · rw [happended,List.append_assoc] at hrows
      rw [happended,List.map_append] at hnew
      refine ⟨row :: added,hrows,?_,?_,?_⟩
      · rw [List.map_cons,List.nodup_cons]
        refine ⟨fun hmem => ?_,hnodup⟩
        obtain ⟨row',hrow',hsame⟩ := List.mem_map.mp hmem
        exact hnew row' hrow' (List.mem_append_right _ (by simp [hsame]))
      · intro row' hrow'
        rcases List.mem_cons.mp hrow' with rfl | hrow'
        · exact hfresh
        · exact fun hmem => hnew row' hrow' (List.mem_append_left _ hmem)
      · rw [admittedBy,hrow]
        split_ifs
        · exact hsublist.cons_cons row
        · exact hsublist.cons row

end Sequence

/-- Whatever the runs are given, whichever of them fail and wherever they are killed: the table
is extended by new nonces only, each admission among them; and the next run is admitted exactly
when nothing disturbs it, it passes every other check and no run before has recorded its nonce. -/
theorem nonces_survive {τ : Type} [DatetimeArithmetic τ] {file : Path} (hfile : file ≠ ":memory:")
    (disk : Disk) (attempts : List (Attempt τ)) :
    (∃ added, (afterAll file disk attempts).rows = disk.rows ++ added ∧
      (added.map NonceRow.nonce).Nodup ∧
      (∀ row ∈ added, row.nonce ∉ disk.rows.map NonceRow.nonce) ∧
      (admittedBy file disk attempts).Sublist added) ∧
    ∀ next : Attempt τ, next.exitCode file (afterAll file disk attempts) = some 0 ↔
      next.disturbance = none ∧ ∃ row, next.row = some row ∧
        row.nonce ∉ disk.rows.map NonceRow.nonce ∧
        ∀ a ∈ attempts, ∀ other, a.recorded file = some other → other.nonce ≠ row.nonce := by
  refine ⟨admittedBy_sublist hfile disk attempts,fun next => ?_⟩
  have hseen : ∀ nonce : String,
      nonce ∈ (afterAll file disk attempts).rows.map NonceRow.nonce ↔
        nonce ∈ disk.rows.map NonceRow.nonce ∨
          ∃ a ∈ attempts, ∃ other, a.recorded file = some other ∧ other.nonce = nonce := by
    intro nonce
    rw [afterAll_rows hfile,mem_foldl_remember]
    refine or_congr Iff.rfl ?_
    simp only [List.mem_filterMap]
    constructor
    · rintro ⟨other,⟨a,ha,hother⟩,hsame⟩
      exact ⟨a,ha,other,hother,hsame⟩
    · rintro ⟨a,ha,other,hother,hsame⟩
      exact ⟨other,⟨a,ha,hother⟩,hsame⟩
  rw [next.exitCode_zero hfile]
  refine and_congr Iff.rfl (exists_congr fun row => and_congr Iff.rfl ?_)
  rw [hseen,not_or]
  refine and_congr Iff.rfl ?_
  constructor
  · intro h a ha other hother hsame
    exact h ⟨a,ha,other,hother,hsame⟩
  · rintro h ⟨a,ha,other,hother,hsame⟩
    exact h a ha other hother hsame

namespace Demo

def attempt (disturbance : Option Disturbance) : Attempt FixedTime :=
  ⟨failing databaseLocked,true,"policy.yaml","attestation.json",disturbance⟩

def row₀ : NonceRow :=
  ⟨attestation₀.val.plan.nonce.val,attestation₀.val.plan.requestCommitment.val,
    (attestation₀.val.digest platform).val⟩

theorem attempt_row (disturbance : Option Disturbance) :
    (attempt disturbance).row = some row₀ := by
  have hpolicy : (attempt disturbance).backend.loadPolicy (attempt disturbance).policyFile =
      .ok policy₀ := rfl
  have hnoon : le (minutes 0) (minutes 0) = true := by decide
  have hpassed := attestation_passes hnoon contain_noon
  exact Attempt.row_of_passed hpolicy rfl hpassed

theorem killed_recorded : (attempt (some (.killed 5))).recorded "replay.sqlite3" = some row₀ := by
  have hafter : ¬5 ≤ (SQLiteReplayStore.connectStatements "replay.sqlite3").length := by decide
  show (if 5 ≤ (SQLiteReplayStore.connectStatements "replay.sqlite3").length then none
    else (attempt (some (.killed 5))).row) = some row₀
  rw [if_neg hafter,attempt_row]

end Demo

/-- A nonce may be used again after a run that found the database locked, and may not after one
that was killed when it had written the nonce. -/
theorem nonces_survive_demo :
    (Demo.attempt none).exitCode "replay.sqlite3" (afterAll "replay.sqlite3" ⟨false,none⟩
      [Demo.attempt (some (.fault Demo.databaseLocked none))]) = some 0 ∧
    (Demo.attempt none).exitCode "replay.sqlite3" (afterAll "replay.sqlite3" ⟨false,none⟩
      [Demo.attempt (some (.killed 5))]) ≠ some 0 := by
  have hfile : "replay.sqlite3" ≠ ":memory:" := by decide
  constructor
  · have hadmitted := ((nonces_survive hfile ⟨false,none⟩
      [Demo.attempt (some (.fault Demo.databaseLocked none))]).2 (Demo.attempt none)).mpr
    refine hadmitted ⟨rfl,Demo.row₀,Demo.attempt_row none,List.not_mem_nil,?_⟩
    intro a ha other hother
    rw [List.mem_singleton.mp ha] at hother
    cases hother
  · intro hcode
    obtain ⟨_,row,hrow,_,hnew⟩ := ((nonces_survive hfile ⟨false,none⟩
      [Demo.attempt (some (.killed 5))]).2 (Demo.attempt none)).mp hcode
    rw [Demo.attempt_row,Option.some.injEq] at hrow
    refine hnew _ (List.mem_singleton.mpr rfl) Demo.row₀ Demo.killed_recorded ?_
    rw [hrow]

end LocusMesh
