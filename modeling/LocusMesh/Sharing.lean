import Mathlib
import LocusMesh.Building
import LocusMesh.Evidence
import LocusMesh.Replay
import LocusMesh.Transition

/-! Verifier processes that share one replay database. Each process owns a store object;
the statements of their calls interleave, and any statement may raise. -/
namespace LocusMesh

open CanonicalJson PyCollections AwareClock HashChain Transition

section Processes

variable (τ : Type) [AwareDatetime τ] (plat : Platform)

/-- A call of `verify_attestation` that has passed every check and turns to its store. -/
structure PendingCall where
  attestation : Validated (RouteAttestation τ)
  policy : Validated (AdmissionPolicy τ)
  now : τ
  verified : Verified τ
  passed : checkAttestation plat policy.val now attestation.val = .ok (.inr verified)

/-- Where a process stands in its current call. -/
inductive Phase
  | idle
  | opening (call : PendingCall τ plat) (rest : List Statement)
  | recording (call : PendingCall τ plat)
  | recorded (call : PendingCall τ plat) (fresh : Bool)

structure Process where
  store : SQLiteReplayStore
  phase : Phase τ plat

structure Outcome where
  attestation : Validated (RouteAttestation τ)
  decision : AdmissionDecision τ

structure Shared (ι : Type) where
  disk : Disk
  processes : ι → Process τ plat
  returned : List (Outcome τ)

end Processes

section Interleaving

variable {τ : Type} [AwareDatetime τ] {plat : Platform} {ι : Type} [DecidableEq ι]

/-- The row that `record_if_new` is asked to insert. -/
def PendingCall.row (call : PendingCall τ plat) : NonceRow :=
  ⟨call.attestation.val.plan.nonce.val,call.attestation.val.plan.requestCommitment.val,
    call.verified.attestationHash.val⟩

def Outcome.row (o : Outcome τ) : NonceRow :=
  ⟨o.attestation.val.plan.nonce.val,o.attestation.val.plan.requestCommitment.val,
    (o.decision.attestationDigest.map Subtype.val).getD ""⟩

def Shared.move (s : Shared τ plat ι) (i : ι) (store : SQLiteReplayStore) (phase : Phase τ plat)
    (disk : Disk) : Shared τ plat ι :=
  {s with disk := disk, processes := Function.update s.processes i ⟨store,phase⟩}

inductive Step (s : Shared τ plat ι) : Shared τ plat ι → Prop
  /-- A call that is denied before the store is consulted. -/
  | refuse (i : ι) (attestation : Validated (RouteAttestation τ))
      (policy : Validated (AdmissionPolicy τ)) (now : τ) (d : AdmissionDecision τ)
      (hidle : (s.processes i).phase = .idle)
      (hcheck : checkAttestation plat policy.val now attestation.val = .ok (.inl d)) :
      Step s {s with returned := s.returned ++ [⟨attestation,d⟩]}
  | start (i : ι) (call : PendingCall τ plat) (hidle : (s.processes i).phase = .idle)
      (hclosed : (s.processes i).store.connection = false) :
      Step s (s.move i (s.processes i).store (.opening call
        (SQLiteReplayStore.connectStatements (s.processes i).store.path)) s.disk)
  | startOpen (i : ι) (call : PendingCall τ plat) (hidle : (s.processes i).phase = .idle)
      (hopen : (s.processes i).store.connection = true) :
      Step s (s.move i (s.processes i).store (.recording call) s.disk)
  | statement (i : ι) (call : PendingCall τ plat) (statement : Statement) (rest : List Statement)
      (disk : Disk) (hphase : (s.processes i).phase = .opening call (statement :: rest))
      (hok : statement s.disk = .ok disk) :
      Step s (s.move i (s.processes i).store (.opening call rest) disk)
  | connected (i : ι) (call : PendingCall τ plat)
      (hphase : (s.processes i).phase = .opening call []) :
      Step s (s.move i {(s.processes i).store with connection := true} (.recording call) s.disk)
  | insert (i : ι) (call : PendingCall τ plat) (rowcount : ℕ) (disk : Disk)
      (hphase : (s.processes i).phase = .recording call)
      (hok : insertOrIgnore call.row s.disk = .ok (rowcount,disk)) :
      Step s (s.move i (s.processes i).store (.recorded call (rowcount == 1)) disk)
  /-- A statement raises, and so does the call. -/
  | raise (i : ι) (call : PendingCall τ plat)
      (hphase : (∃ rest, (s.processes i).phase = .opening call rest) ∨
        (s.processes i).phase = .recording call) :
      Step s (s.move i (s.processes i).store .idle s.disk)
  | respond (i : ι) (call : PendingCall τ plat) (fresh : Bool) (d : AdmissionDecision τ)
      (hphase : (s.processes i).phase = .recorded call fresh)
      (hok : conclude call.attestation.val call.verified fresh = .ok d) :
      Step s {s.move i (s.processes i).store .idle s.disk with
        returned := s.returned ++ [⟨call.attestation,d⟩]}
  | close (i : ι) (hidle : (s.processes i).phase = .idle) :
      Step s (s.move i (s.processes i).store.close .idle s.disk)

/-- A path behind which connections share a database: every connection to `:memory:` has a
database of its own. -/
structure DatabaseFile where
  path : String
  shared : path ≠ ":memory:"

/-- The processes share one database file; no database is there yet. -/
def sharedSystem (τ : Type) [AwareDatetime τ] (plat : Platform) (ι : Type) [DecidableEq ι]
    (file : DatabaseFile) : System (Shared τ plat ι) where
  Initial s := s.disk.database = none ∧ s.returned = [] ∧
    ∀ i, s.processes i = ⟨SQLiteReplayStore.create file.path,.idle⟩
  Step := Step

theorem PendingCall.verified_eq (call : PendingCall τ plat) :
    call.verified.base = baseDecision plat call.attestation call.policy call.now ∧
      call.verified.base.admitted = true ∧
      ∃ weakest, minBy Attestation.evidenceRank call.verified.effectiveReceiptEvidence =
        some weakest := by
  have hpassed := call.passed
  rcases checkAttestation_cases plat call.attestation call.policy call.now with
    ⟨_,hcheck⟩ | ⟨_,hadmitted,_,⟨_,hcheck⟩ | ⟨hsilent,hcheck⟩⟩
  · rw [hcheck] at hpassed
    cases hpassed
  · rw [hcheck] at hpassed
    cases hpassed
  · rw [hcheck,Except.ok.injEq,Sum.inr.injEq] at hpassed
    rw [← hpassed]
    exact ⟨rfl,hadmitted,weakest_of_silent plat _ _ _ hsilent⟩

/-- Nothing fails after a fresh insert: the call returns an admitted decision. -/
theorem PendingCall.conclude_fresh (call : PendingCall τ plat) :
    ∃ d, conclude call.attestation.val call.verified true = .ok d ∧ d.admitted = true ∧
      Outcome.row ⟨call.attestation,d⟩ = call.row := by
  obtain ⟨_,hadmitted,weakest,hweakest⟩ := call.verified_eq
  refine ⟨{call.verified.base with
    decisionKind := .attestationVerification
    attestationDigest := some call.verified.attestationHash
    effectiveEvidence := some weakest},?_,hadmitted,rfl⟩
  rw [conclude,if_pos rfl,admission,hweakest]

theorem PendingCall.conclude_replayed (call : PendingCall τ plat) :
    ∃ d, conclude call.attestation.val call.verified false = .ok d ∧ d.admitted = false ∧
      d.reasonCodes = ["REPLAY_DETECTED"] :=
  ⟨_,rfl,rfl,rfl⟩

def Process.pending (p : Process τ plat) : List (Outcome τ) :=
  match p.phase with
  | .recorded call fresh =>
    match conclude call.attestation.val call.verified fresh with
    | .ok d => [⟨call.attestation,d⟩]
    | .error _ => []
  | _ => []

/-- The rows that admitted decisions call for. -/
def admittedRows (outcomes : List (Outcome τ)) : Multiset NonceRow :=
  ↑((outcomes.filter fun o => o.decision.admitted).map Outcome.row)

theorem admittedRows_append (l m : List (Outcome τ)) :
    admittedRows (l ++ m) = admittedRows l + admittedRows m := by
  simp [admittedRows]

theorem admittedRows_singleton {o : Outcome τ} :
    admittedRows [o] = if o.decision.admitted then {o.row} else 0 := by
  cases h : o.decision.admitted <;> simp [admittedRows,h]

theorem pending_of_conclude {store : SQLiteReplayStore} {call : PendingCall τ plat} {fresh : Bool}
    {d : AdmissionDecision τ}
    (h : conclude call.attestation.val call.verified fresh = .ok d) :
    Process.pending ⟨store,.recorded call fresh⟩ = [⟨call.attestation,d⟩] := by
  simp only [Process.pending,h]

theorem pending_recorded (store : SQLiteReplayStore) (call : PendingCall τ plat) (fresh : Bool) :
    admittedRows (Process.pending ⟨store,.recorded call fresh⟩) =
      if fresh then {call.row} else 0 := by
  cases fresh with
  | true =>
    obtain ⟨d,hd,hadmitted,hrow⟩ := call.conclude_fresh
    rw [pending_of_conclude hd,admittedRows_singleton,hrow]
    simp [hadmitted]
  | false =>
    obtain ⟨d,hd,hadmitted,_⟩ := call.conclude_replayed
    rw [pending_of_conclude hd,admittedRows_singleton]
    simp [hadmitted]

variable [Fintype ι]

/-- What is left of `_connect`; when nothing is, the table is there. -/
def Remaining (path : String) (rest : List Statement) (disk : Disk) : Prop :=
  (∃ run, run ++ rest = SQLiteReplayStore.connectStatements path) ∧
    (rest = [] → disk.table.isSome = true)

omit [DecidableEq ι] [Fintype ι] in
/-- Whoever may insert finds the table. -/
structure Ready (s : Shared τ plat ι) : Prop where
  opened : ∀ i, (s.processes i).store.connection = true → s.disk.table.isSome = true
  opening : ∀ i call rest, (s.processes i).phase = .opening call rest →
    Remaining (s.processes i).store.path rest s.disk

/-- The rows are those of the admitted decisions, returned or about to be, and no two have
one nonce. -/
structure Consistent (s : Shared τ plat ι) : Prop extends Ready s where
  rows : (s.disk.rows : Multiset NonceRow) =
    admittedRows s.returned + ∑ i, admittedRows (s.processes i).pending
  nonces : (s.disk.rows.map NonceRow.nonce).Nodup

omit [Fintype ι] in
theorem Ready.move {s : Shared τ plat ι} (h : Ready s) {i : ι} {store : SQLiteReplayStore}
    {phase : Phase τ plat} {disk : Disk}
    (htable : s.disk.table.isSome = true → disk.table.isSome = true)
    (hopened : store.connection = true → disk.table.isSome = true)
    (hopening : ∀ call rest, phase = .opening call rest → Remaining store.path rest disk) :
    Ready (s.move i store phase disk) where
  opened j hj := by
    show disk.table.isSome = true
    simp only [Shared.move] at hj
    by_cases hij : j = i
    · rw [hij,Function.update_self] at hj
      exact hopened hj
    · rw [Function.update_of_ne hij] at hj
      exact htable (h.opened j hj)
  opening j call rest hj := by
    simp only [Shared.move] at hj ⊢
    by_cases hij : j = i
    · rw [hij,Function.update_self] at hj ⊢
      exact hopening call rest hj
    · rw [Function.update_of_ne hij] at hj ⊢
      obtain ⟨hrun,hnil⟩ := h.opening j call rest hj
      exact ⟨hrun,fun hrest => htable (hnil hrest)⟩

theorem Consistent.move {s : Shared τ plat ι} (h : Consistent s) {i : ι}
    {store : SQLiteReplayStore} {phase : Phase τ plat} {disk : Disk}
    (hpending : admittedRows (Process.pending ⟨store,phase⟩) =
      admittedRows (s.processes i).pending)
    (hrows : disk.rows = s.disk.rows) (hready : Ready (s.move i store phase disk)) :
    Consistent (s.move i store phase disk) where
  toReady := hready
  rows := by
    show (disk.rows : Multiset NonceRow) = admittedRows s.returned +
      ∑ j, admittedRows (Function.update s.processes i ⟨store,phase⟩ j).pending
    rw [hrows,h.rows,sum_update_same (f:=fun p => admittedRows (Process.pending p)) hpending]
  nonces := by
    show (disk.rows.map NonceRow.nonce).Nodup
    rw [hrows]
    exact h.nonces

omit [DecidableEq ι] [Fintype ι] in
theorem pending_eq_nil {p : Process τ plat} (h : ∀ call fresh, p.phase ≠ .recorded call fresh) :
    admittedRows p.pending = 0 := by
  obtain ⟨store,phase⟩ := p
  cases phase with
  | recorded call fresh => exact absurd rfl (h call fresh)
  | _ => rfl

omit [DecidableEq ι] [Fintype ι] in
/-- Each statement of `_connect` leaves the rows and brings the table closer. -/
theorem Remaining.next {path : String} {statement : Statement} {rest : List Statement}
    {disk disk' : Disk} (h : Remaining path (statement :: rest) disk)
    (hok : statement disk = .ok disk') :
    disk'.rows = disk.rows ∧ (disk.table.isSome = true → disk'.table.isSome = true) ∧
      Remaining path rest disk' := by
  obtain ⟨⟨run,hrun⟩,_⟩ := h
  have hmem : statement ∈ SQLiteReplayStore.connectStatements path := by simp [← hrun]
  obtain ⟨hrows,htable⟩ := connectStatement_table hmem hok
  refine ⟨hrows,htable,⟨run ++ [statement],by simpa using hrun⟩,fun hnil => ?_⟩
  have hlast := congrArg List.getLast? hrun
  have hstatement : statement = createTable := by
    rw [hnil] at hlast
    simpa [SQLiteReplayStore.connectStatements] using hlast
  rw [hstatement] at hok
  unfold createTable at hok
  split at hok
  · cases hok
  · cases hok
    simp [Disk.table]

theorem Consistent.insert {s : Shared τ plat ι} (h : Consistent s) {i : ι}
    {call : PendingCall τ plat} (hphase : (s.processes i).phase = .recording call)
    {rowcount : ℕ} {disk : Disk} (hok : insertOrIgnore call.row s.disk = .ok (rowcount,disk)) :
    Consistent (s.move i (s.processes i).store (.recorded call (rowcount == 1)) disk) := by
  have hbefore : admittedRows (s.processes i).pending = 0 :=
    pending_eq_nil (by simp [hphase])
  rcases insertOrIgnore_cases call.row (insertOrIgnore_table hok) with
    ⟨_,hignored⟩ | ⟨hnew,disk',hinserted,hrows,htable⟩
  · obtain ⟨rfl,rfl⟩ : 0 = rowcount ∧ s.disk = disk := by simpa using hignored.symm.trans hok
    refine h.move ?_ rfl (h.toReady.move id (h.opened i) (by simp))
    rw [pending_recorded,hbefore]
    rfl
  · obtain ⟨rfl,rfl⟩ : 1 = rowcount ∧ disk' = disk := by simpa using hinserted.symm.trans hok
    refine ⟨h.toReady.move (fun _ => htable) (fun _ => htable) (by simp),?_,?_⟩
    · have hsum := sum_update (fun p : Process τ plat => admittedRows p.pending) s.processes i
        ⟨(s.processes i).store,.recorded call true⟩
      simp only [hbefore,add_zero,pending_recorded,if_true] at hsum
      show (disk'.rows : Multiset NonceRow) = admittedRows s.returned + ∑ j, admittedRows
        (Function.update s.processes i ⟨(s.processes i).store,.recorded call true⟩ j).pending
      rw [hsum,hrows,← add_assoc,← h.rows]
      rfl
    · show (disk'.rows.map NonceRow.nonce).Nodup
      rw [hrows,List.map_append,List.nodup_append]
      refine ⟨h.nonces,List.nodup_singleton _,?_⟩
      intro a ha b hb hab
      rw [List.map_singleton,List.mem_singleton] at hb
      exact hnew (hb ▸ hab ▸ ha)

theorem Consistent.respond {s : Shared τ plat ι} (h : Consistent s) {i : ι}
    {call : PendingCall τ plat} {fresh : Bool} {d : AdmissionDecision τ}
    (hphase : (s.processes i).phase = .recorded call fresh)
    (hok : conclude call.attestation.val call.verified fresh = .ok d) :
    Consistent {s.move i (s.processes i).store .idle s.disk with
      returned := s.returned ++ [⟨call.attestation,d⟩]} := by
  have hbefore : (s.processes i).pending = [⟨call.attestation,d⟩] := by
    cases hp : s.processes i with
    | mk store phase =>
      rw [hp] at hphase
      simp only at hphase
      rw [hphase]
      exact pending_of_conclude hok
  have hready : Ready (s.move i (s.processes i).store .idle s.disk) :=
    h.toReady.move id (h.opened i) (by simp)
  refine ⟨⟨hready.opened,hready.opening⟩,?_,h.nonces⟩
  have hsum := sum_update (fun p : Process τ plat => admittedRows p.pending) s.processes i
    ⟨(s.processes i).store,.idle⟩
  have hidle : admittedRows (Process.pending (⟨(s.processes i).store,.idle⟩ : Process τ plat)) =
    0 := rfl
  simp only [hbefore,hidle,add_zero] at hsum
  show (s.disk.rows : Multiset NonceRow) = admittedRows (s.returned ++ [⟨call.attestation,d⟩]) +
    ∑ j, admittedRows (Function.update s.processes i ⟨(s.processes i).store,.idle⟩ j).pending
  rw [h.rows,admittedRows_append,← hsum]
  abel

omit [DecidableEq ι] [Fintype ι] in
/-- A decision that is returned without consulting the store is a denial, and not of a
replay. -/
theorem refused_of_check {attestation : Validated (RouteAttestation τ)}
    {policy : Validated (AdmissionPolicy τ)} {now : τ} {d : AdmissionDecision τ}
    (h : checkAttestation plat policy.val now attestation.val = .ok (.inl d)) :
    d.admitted = false ∧ d.reasonCodes ≠ ["REPLAY_DETECTED"] := by
  rcases checkAttestation_cases plat attestation policy now with
    ⟨hdenied,hcheck⟩ | ⟨_,_,_,⟨_,hcheck⟩ | ⟨_,hcheck⟩⟩
  · rw [hcheck,Except.ok.injEq,Sum.inl.injEq] at h
    rw [← h]
    exact ⟨hdenied,baseDecision_reasonCodes hdenied⟩
  · rw [hcheck,Except.ok.injEq,Sum.inl.injEq] at h
    rw [← h]
    exact ⟨rfl,deny_reasonCodes⟩
  · rw [hcheck] at h
    cases h

/-- One step, of whatever process, keeps the invariant. -/
theorem Consistent.step {s t : Shared τ plat ι} (h : Consistent s) (hstep : Step s t) :
    Consistent t := by
  cases hstep with
  | refuse i attestation policy now d hidle hcheck =>
    refine ⟨⟨h.opened,h.opening⟩,?_,h.nonces⟩
    show (s.disk.rows : Multiset NonceRow) = admittedRows (s.returned ++ [⟨attestation,d⟩]) + _
    rw [h.rows,admittedRows_append,admittedRows_singleton,(refused_of_check hcheck).1]
    simp
  | start i call hidle hclosed =>
    refine h.move ?_ rfl (h.toReady.move id (h.opened i) ?_)
    · rw [pending_eq_nil (by simp),pending_eq_nil (by simp [hidle])]
    · intro other rest hrest
      cases hrest
      exact ⟨⟨[],rfl⟩,by simp [SQLiteReplayStore.connectStatements]⟩
  | startOpen i call hidle hopen =>
    refine h.move ?_ rfl (h.toReady.move id (h.opened i) (by simp))
    rw [pending_eq_nil (by simp),pending_eq_nil (by simp [hidle])]
  | statement i call statement rest disk hphase hok =>
    obtain ⟨hrows,htable,hremaining⟩ := (h.opening i call _ hphase).next hok
    refine h.move ?_ hrows (h.toReady.move htable (fun hc => htable (h.opened i hc)) ?_)
    · rw [pending_eq_nil (by simp),pending_eq_nil (by simp [hphase])]
    · intro other rest' hrest
      cases hrest
      exact hremaining
  | connected i call hphase =>
    have htable := (h.opening i call _ hphase).2 rfl
    refine h.move ?_ rfl (h.toReady.move id (fun _ => htable) (by simp))
    rw [pending_eq_nil (by simp),pending_eq_nil (by simp [hphase])]
  | insert i call rowcount disk hphase hok => exact h.insert hphase hok
  | raise i call hphase =>
    refine h.move ?_ rfl (h.toReady.move id (h.opened i) (by simp))
    rw [pending_eq_nil (by simp)]
    refine (pending_eq_nil fun other fresh hrecorded => ?_).symm
    rcases hphase with ⟨rest,hphase⟩ | hphase <;> simp [hphase] at hrecorded
  | respond i call fresh d hphase hok => exact h.respond hphase hok
  | close i hidle =>
    refine h.move ?_ rfl (h.toReady.move id (by simp [SQLiteReplayStore.close]) (by simp))
    rw [pending_eq_nil (by simp),pending_eq_nil (by simp [hidle])]

theorem reachable_consistent {file : DatabaseFile} {s : Shared τ plat ι}
    (h : (sharedSystem τ plat ι file).Reachable s) : Consistent s := by
  refine h.invariant ?_ (fun _ _ hs hstep => hs.step hstep)
  rintro s ⟨hdisk,hreturned,hprocesses⟩
  refine ⟨⟨?_,?_⟩,?_,?_⟩
  · intro i hi
    rw [hprocesses] at hi
    cases hi
  · intro i call rest hi
    rw [hprocesses] at hi
    cases hi
  · simp [Disk.rows,Disk.table,hdisk,hreturned,hprocesses,Process.pending,admittedRows]
  · simp [Disk.rows,Disk.table,hdisk]

end Interleaving

section Uninterrupted

variable {τ : Type} [AwareDatetime τ] {plat : Platform} {ι : Type} [DecidableEq ι]

@[simp] theorem Shared.move_process (s : Shared τ plat ι) (i : ι) (store : SQLiteReplayStore)
    (phase : Phase τ plat) (disk : Disk) :
    (s.move i store phase disk).processes i = ⟨store,phase⟩ := by
  simp [move]

@[simp] theorem Shared.move_disk (s : Shared τ plat ι) (i : ι) (store : SQLiteReplayStore)
    (phase : Phase τ plat) (disk : Disk) : (s.move i store phase disk).disk = disk := rfl

@[simp] theorem Shared.move_move (s : Shared τ plat ι) (i : ι) (store store' : SQLiteReplayStore)
    (phase phase' : Phase τ plat) (disk disk' : Disk) :
    (s.move i store phase disk).move i store' phase' disk' = s.move i store' phase' disk' := by
  simp [move]

theorem Shared.move_self {s : Shared τ plat ι} {i : ι} {phase : Phase τ plat}
    (h : (s.processes i).phase = phase) :
    s.move i (s.processes i).store phase s.disk = s := by
  rw [move,← h]
  show ({s with processes := Function.update s.processes i (s.processes i)} : Shared τ plat ι) = s
  rw [Function.update_eq_self]

def answers (attestation : Validated (RouteAttestation τ)) :
    Except PyError (AdmissionDecision τ) → List (Outcome τ)
  | .ok d => [⟨attestation,d⟩]
  | .error _ => []

def Shared.after (s : Shared τ plat ι) (i : ι) (attestation : Validated (RouteAttestation τ))
    (result : Except PyError (AdmissionDecision τ) × (SQLiteReplayStore × Disk)) :
    Shared τ plat ι :=
  {s.move i result.2.1 .idle result.2.2 with
    returned := s.returned ++ answers attestation result.1}

open Relation

theorem opening_runs (i : ι) (call : PendingCall τ plat) (rest : List Statement)
    (s : Shared τ plat ι) (hphase : (s.processes i).phase = .opening call rest) :
    match SQLiteReplayStore.runStatements rest s.disk with
    | (.ok _,disk) =>
      ReflTransGen Step s (s.move i (s.processes i).store (.opening call []) disk)
    | (.error _,disk) => ReflTransGen Step s (s.move i (s.processes i).store .idle disk) := by
  induction rest generalizing s with
  | nil =>
    show ReflTransGen Step s (s.move i (s.processes i).store (.opening call []) s.disk)
    rw [Shared.move_self hphase]
  | cons statement rest ih =>
    rw [SQLiteReplayStore.runStatements]
    cases hok : statement s.disk with
    | error e => exact .single (.raise i call (.inl ⟨_,hphase⟩))
    | ok disk =>
      have hstep := Step.statement i call statement rest disk hphase hok
      have hrest := ih (s.move i (s.processes i).store (.opening call rest) disk) (by simp)
      simp only [Shared.move_disk,Shared.move_move,Shared.move_process] at hrest ⊢
      split at hrest
      · exact .head hstep hrest
      · exact .head hstep hrest

/-- The insert of a call and what the verifier makes of it. -/
def PendingCall.afterInsert (call : PendingCall τ plat) (store : SQLiteReplayStore) (disk : Disk) :
    Except PyError (AdmissionDecision τ) × (SQLiteReplayStore × Disk) :=
  match insertOrIgnore call.row disk with
  | .error e => (.error e,(store,disk))
  | .ok (rowcount,disk') =>
    (conclude call.attestation.val call.verified (rowcount == 1),(store,disk'))

theorem verifyAttestation_connected (call : PendingCall τ plat)
    {store store' : SQLiteReplayStore} {disk disk' : Disk}
    (h : SQLiteReplayStore.connect store disk = (.ok (),(store',disk'))) :
    verifyAttestation plat call.policy.val call.now call.attestation.val
      (some SQLiteReplayStore.port) (store,disk) = call.afterInsert store' disk' := by
  rw [verifyAttestation,call.passed,PendingCall.afterInsert]
  simp only [recordFresh,SQLiteReplayStore.port,SQLiteReplayStore.recordIfNew,h,PendingCall.row]
  cases insertOrIgnore _ disk' <;> rfl

theorem verifyAttestation_unconnected (call : PendingCall τ plat)
    {store store' : SQLiteReplayStore} {disk disk' : Disk} {e : PyError}
    (h : SQLiteReplayStore.connect store disk = (.error e,(store',disk'))) :
    verifyAttestation plat call.policy.val call.now call.attestation.val
      (some SQLiteReplayStore.port) (store,disk) = (.error e,(store',disk')) := by
  rw [verifyAttestation,call.passed]
  simp only [recordFresh,SQLiteReplayStore.port,SQLiteReplayStore.recordIfNew,h]

theorem recording_runs (s : Shared τ plat ι) (i : ι) (call : PendingCall τ plat)
    (hphase : (s.processes i).phase = .recording call) :
    ReflTransGen Step s
      (s.after i call.attestation (call.afterInsert (s.processes i).store s.disk)) := by
  rw [PendingCall.afterInsert]
  cases hok : insertOrIgnore call.row s.disk with
  | error e =>
    have hstep := Step.raise i call (.inr hphase)
    simp only [Shared.after,answers,List.append_nil]
    exact .single hstep
  | ok result =>
    obtain ⟨rowcount,disk⟩ := result
    have hinsert := Step.insert i call rowcount disk hphase hok
    obtain ⟨d,hd⟩ : ∃ d, conclude call.attestation.val call.verified (rowcount == 1) = .ok d := by
      cases rowcount == 1
      · obtain ⟨d,hd,_⟩ := call.conclude_replayed
        exact ⟨d,hd⟩
      · obtain ⟨d,hd,_⟩ := call.conclude_fresh
        exact ⟨d,hd⟩
    have hrespond := Step.respond (s:=s.move i (s.processes i).store
      (.recorded call (rowcount == 1)) disk) i call (rowcount == 1) d (by simp) hd
    simp only [Shared.move_disk,Shared.move_move,Shared.move_process] at hrespond
    simp only [Shared.after,hd,answers]
    exact .head hinsert (.single hrespond)

theorem pending_runs (s : Shared τ plat ι) (i : ι) (hidle : (s.processes i).phase = .idle)
    (call : PendingCall τ plat) :
    ReflTransGen Step s (s.after i call.attestation (verifyAttestation plat call.policy.val
      call.now call.attestation.val (some SQLiteReplayStore.port)
      ((s.processes i).store,s.disk))) := by
  cases hconnection : (s.processes i).store.connection with
  | true =>
    have hstart := Step.startOpen i call hidle hconnection
    have hrun := recording_runs (s.move i (s.processes i).store (.recording call) s.disk) i call
      (by simp)
    have hconnect : SQLiteReplayStore.connect (s.processes i).store s.disk =
        (.ok (),((s.processes i).store,s.disk)) := by
      rw [SQLiteReplayStore.connect,if_pos hconnection]
    rw [verifyAttestation_connected call hconnect]
    simp only [Shared.after,Shared.move_disk,Shared.move_move,Shared.move_process] at hrun
    exact .head hstart hrun
  | false =>
    have hstart := Step.start i call hidle hconnection
    have hopening := opening_runs i call
      (SQLiteReplayStore.connectStatements (s.processes i).store.path)
      (s.move i (s.processes i).store (.opening call
        (SQLiteReplayStore.connectStatements (s.processes i).store.path)) s.disk) (by simp)
    simp only [Shared.move_disk,Shared.move_move,Shared.move_process] at hopening
    split at hopening
    · rename_i disk heq
      have hconnect : SQLiteReplayStore.connect (s.processes i).store s.disk =
          (.ok (),({(s.processes i).store with connection := true},disk)) := by
        simp only [SQLiteReplayStore.connect,hconnection,heq]
        rfl
      have hconnected := Step.connected (s:=s.move i (s.processes i).store (.opening call [])
        disk) i call (by simp)
      have hrun := recording_runs (s.move i {(s.processes i).store with connection := true}
        (.recording call) disk) i call (by simp)
      rw [verifyAttestation_connected call hconnect]
      simp only [Shared.after,Shared.move_disk,Shared.move_move,Shared.move_process]
        at hrun hconnected
      exact .head hstart (hopening.trans (.head hconnected hrun))
    · rename_i e disk heq
      have hconnect : SQLiteReplayStore.connect (s.processes i).store s.disk =
          (.error e,((s.processes i).store,disk)) := by
        simp only [SQLiteReplayStore.connect,hconnection,heq]
        rfl
      rw [verifyAttestation_unconnected call hconnect]
      simp only [Shared.after,answers,List.append_nil]
      exact .head hstart hopening

/-- An uninterrupted call takes the system where `verify_attestation` takes its store. -/
theorem call_runs (s : Shared τ plat ι) (i : ι) (hidle : (s.processes i).phase = .idle)
    (attestation : Validated (RouteAttestation τ)) (policy : Validated (AdmissionPolicy τ))
    (now : τ) :
    ReflTransGen Step s (s.after i attestation (verifyAttestation plat policy.val now
      attestation.val (some SQLiteReplayStore.port) ((s.processes i).store,s.disk))) := by
  have hrefused : ∀ d, checkAttestation plat policy.val now attestation.val = .ok (.inl d) →
      ReflTransGen Step s (s.after i attestation (verifyAttestation plat policy.val now
        attestation.val (some SQLiteReplayStore.port) ((s.processes i).store,s.disk))) := by
    intro d hcheck
    have hstep := Step.refuse i attestation policy now d hidle hcheck
    rw [verifyAttestation,hcheck,Shared.after,Shared.move_self hidle]
    exact .single hstep
  rcases checkAttestation_cases plat attestation policy now with
    ⟨_,hcheck⟩ | ⟨_,_,_,⟨_,hcheck⟩ | ⟨_,hcheck⟩⟩
  · exact hrefused _ hcheck
  · exact hrefused _ hcheck
  · exact pending_runs s i hidle ⟨attestation,policy,now,_,hcheck⟩

end Uninterrupted

section Safety

variable {τ : Type} [AwareDatetime τ] {plat : Platform} {ι : Type} [DecidableEq ι]

theorem mem_admittedRows {row : NonceRow} {outcomes : List (Outcome τ)} :
    row ∈ admittedRows outcomes ↔ ∃ o ∈ outcomes, o.decision.admitted = true ∧ o.row = row := by
  simp [admittedRows,and_assoc]

theorem denied_untouched {σ : Type} {store : Option (ReplayStore σ)} {x x' : σ}
    {attestation : Validated (RouteAttestation τ)} {policy : Validated (AdmissionPolicy τ)}
    {now : τ} {d : AdmissionDecision τ}
    (hverify : verifyAttestation plat policy.val now attestation.val store x = (.ok d,x'))
    (hdenied : d.admitted = false) (hcodes : d.reasonCodes ≠ ["REPLAY_DETECTED"]) : x' = x := by
  cases hcheck : checkAttestation plat policy.val now attestation.val with
  | error e => simp [verifyAttestation,hcheck] at hverify
  | ok result =>
    cases result with
    | inl denied =>
      rw [verifyAttestation,hcheck] at hverify
      exact (Prod.ext_iff.mp hverify).2.symm
    | inr verified =>
      let call : PendingCall τ plat := ⟨attestation,policy,now,verified,hcheck⟩
      rw [verifyAttestation,hcheck] at hverify
      cases hrecord : recordFresh store attestation.val.plan verified.attestationHash x with
      | mk answer y =>
        simp only [hrecord] at hverify
        cases answer with
        | error e => simp at hverify
        | ok fresh =>
          have hd := (Prod.ext_iff.mp hverify).1
          cases fresh with
          | true =>
            obtain ⟨d',hd',hadmitted,_⟩ := call.conclude_fresh
            rw [show d = d' from Except.ok.inj (hd.symm.trans hd'),hadmitted] at hdenied
            cases hdenied
          | false =>
            obtain ⟨d',hd',_,hreplay⟩ := call.conclude_replayed
            rw [show d = d' from Except.ok.inj (hd.symm.trans hd')] at hcodes
            exact absurd hreplay hcodes

/-- A step that returns a denial other than of a replay is a whole call of an idle process. -/
theorem refusal_untouched {s t : Shared τ plat ι} (hstep : Step s t) {o : Outcome τ}
    (hreturned : t.returned = s.returned ++ [o]) (hdenied : o.decision.admitted = false)
    (hcodes : o.decision.reasonCodes ≠ ["REPLAY_DETECTED"]) :
    t.disk = s.disk ∧ t.processes = s.processes := by
  cases hstep with
  | refuse => exact ⟨rfl,rfl⟩
  | respond i call fresh d hphase hok =>
    obtain rfl : ⟨call.attestation,d⟩ = o := by simpa using hreturned
    cases fresh with
    | true =>
      obtain ⟨d',hd',hadmitted,_⟩ := call.conclude_fresh
      rw [← Except.ok.inj (hok.symm.trans hd')] at hadmitted
      exact absurd (hdenied.symm.trans hadmitted) Bool.false_ne_true
    | false =>
      obtain ⟨d',hd',_,hreplay⟩ := call.conclude_replayed
      rw [← Except.ok.inj (hok.symm.trans hd')] at hreplay
      exact absurd hreplay hcodes
  | _ => simp [Shared.move] at hreturned

theorem reachable_path {file : DatabaseFile} {s : Shared τ plat ι}
    (h : (sharedSystem τ plat ι file).Reachable s) : ∀ i, (s.processes i).store.path = file.path := by
  have hmove : ∀ (s : Shared τ plat ι) (i : ι) (store : SQLiteReplayStore)
      (phase : Phase τ plat) (disk : Disk), (∀ j, (s.processes j).store.path = file.path) →
      store.path = file.path → ∀ j, ((s.move i store phase disk).processes j).store.path = file.path := by
    intro s i store phase disk hs hstore j
    by_cases hij : j = i
    · rw [hij,Shared.move_process]
      exact hstore
    · simp only [Shared.move,Function.update_of_ne hij]
      exact hs j
  refine h.invariant (P:=fun s => ∀ i, (s.processes i).store.path = file.path) ?_ ?_
  · rintro s ⟨_,_,hprocesses⟩ i
    rw [hprocesses]
    rfl
  · intro s t hs hstep
    cases hstep with
    | refuse => exact hs
    | respond i => exact hmove s i _ .idle s.disk hs (hs i)
    | _ => exact hmove s _ _ _ _ hs (hs _)

/-- A call that has passed every check passes its store exactly when no row has its nonce. -/
theorem pending_call_answered [Fintype ι] {file : DatabaseFile} {s : Shared τ plat ι}
    (h : (sharedSystem τ plat ι file).Reachable s) (i : ι) (call : PendingCall τ plat) :
    ∃ d, (verifyAttestation plat call.policy.val call.now call.attestation.val
        (some SQLiteReplayStore.port) ((s.processes i).store,s.disk)).1 = .ok d ∧
      (d.admitted = true ↔ call.row.nonce ∉ s.disk.rows.map NonceRow.nonce) := by
  have hconsistent := reachable_consistent h
  obtain ⟨store,disk,hconnect,hrows,htable⟩ : ∃ store disk,
      SQLiteReplayStore.connect (s.processes i).store s.disk = (.ok (),(store,disk)) ∧
      disk.rows = s.disk.rows ∧ disk.table.isSome = true := by
    cases hconnection : (s.processes i).store.connection with
    | true =>
      refine ⟨_,_,by rw [SQLiteReplayStore.connect,if_pos hconnection],rfl,?_⟩
      exact hconsistent.opened i hconnection
    | false =>
      obtain ⟨disk,hrun,hrows,htable⟩ := runStatements_connect file.shared s.disk
      rw [← reachable_path h i] at hrun
      refine ⟨{(s.processes i).store with connection := true},disk,?_,hrows,htable⟩
      simp only [SQLiteReplayStore.connect,hconnection,hrun]
      rfl
  rw [verifyAttestation_connected call hconnect,PendingCall.afterInsert,← hrows]
  rcases insertOrIgnore_cases call.row htable with ⟨hold,hignored⟩ | ⟨hnew,disk',hinserted,_⟩
  · obtain ⟨d,hd,hdenied,_⟩ := call.conclude_replayed
    rw [hignored]
    exact ⟨d,hd,iff_of_false (by simp [hdenied]) (not_not.mpr hold)⟩
  · obtain ⟨d,hd,hadmitted,_⟩ := call.conclude_fresh
    rw [hinserted]
    exact ⟨d,hd,iff_of_true hadmitted hnew⟩

theorem pending_call_runs [Fintype ι] {file : DatabaseFile} {s : Shared τ plat ι}
    (h : (sharedSystem τ plat ι file).Reachable s) (i : ι) (hidle : (s.processes i).phase = .idle)
    (call : PendingCall τ plat) :
    ∃ d t, (verifyAttestation plat call.policy.val call.now call.attestation.val
        (some SQLiteReplayStore.port) ((s.processes i).store,s.disk)).1 = .ok d ∧
      (d.admitted = true ↔ call.row.nonce ∉ s.disk.rows.map NonceRow.nonce) ∧
      Relation.ReflTransGen Step s t ∧ t.returned = s.returned ++ [⟨call.attestation,d⟩] ∧
      ∀ j ≠ i, t.processes j = s.processes j := by
  obtain ⟨d,hd,hadmitted⟩ := pending_call_answered h i call
  refine ⟨d,_,hd,hadmitted,pending_runs s i hidle call,?_,fun j hj => ?_⟩
  · simp only [Shared.after,hd,answers]
  · simp only [Shared.after,Shared.move,Function.update_of_ne hj]

omit [DecidableEq ι] in
theorem Consistent.nonce_recorded [Fintype ι] {s : Shared τ plat ι} (h : Consistent s)
    {o : Outcome τ} (ho : o ∈ s.returned) (hadmitted : o.decision.admitted = true) :
    o.row.nonce ∈ s.disk.rows.map NonceRow.nonce := by
  have hrow : o.row ∈ (s.disk.rows : Multiset NonceRow) := by
    rw [h.rows]
    exact Multiset.mem_add.mpr (.inl (mem_admittedRows.mpr ⟨o,ho,hadmitted,rfl⟩))
  exact List.mem_map_of_mem hrow

omit [DecidableEq ι] in
/-- No nonce is admitted twice, by whichever processes. -/
theorem Consistent.admitted_nonces [Fintype ι] {s : Shared τ plat ι} (h : Consistent s) :
    ((s.returned.filter fun o => o.decision.admitted).map
      fun o => o.attestation.val.plan.nonce).Nodup := by
  have hnonces : (Multiset.map NonceRow.nonce (s.disk.rows : Multiset NonceRow)).Nodup := by
    rw [Multiset.map_coe,Multiset.coe_nodup]
    exact h.nonces
  rw [h.rows,Multiset.map_add] at hnonces
  have hreturned := Multiset.nodup_of_le (Multiset.le_add_right _ _) hnonces
  rw [admittedRows,Multiset.map_coe,Multiset.coe_nodup,List.map_map] at hreturned
  refine List.Nodup.of_map Subtype.val ?_
  rw [List.map_map]
  exact hreturned

omit [DecidableEq ι] in
theorem Consistent.nonce_new [Fintype ι] {s : Shared τ plat ι} (h : Consistent s)
    {call : PendingCall τ plat}
    (hreturned : ∀ o ∈ s.returned,
      o.attestation.val.plan.nonce = call.attestation.val.plan.nonce →
      o.decision.admitted = false)
    (hpending : ∀ j, ∀ o ∈ (s.processes j).pending,
      o.attestation.val.plan.nonce = call.attestation.val.plan.nonce →
      o.decision.admitted = false) :
    call.row.nonce ∉ s.disk.rows.map NonceRow.nonce := by
  intro hmem
  obtain ⟨row,hrow,hnonce⟩ := List.mem_map.mp hmem
  rw [← Multiset.mem_coe,h.rows,Multiset.mem_add,Multiset.mem_sum] at hrow
  have hsame : ∀ o : Outcome τ, o.row = row →
      o.attestation.val.plan.nonce = call.attestation.val.plan.nonce := by
    intro o ho
    rw [← ho] at hnonce
    exact Subtype.ext hnonce
  rcases hrow with hrow | ⟨j,_,hrow⟩
  · obtain ⟨o,ho,hadmitted,horow⟩ := mem_admittedRows.mp hrow
    exact absurd ((hreturned o ho (hsame o horow)).symm.trans hadmitted) Bool.false_ne_true
  · obtain ⟨o,ho,hadmitted,horow⟩ := mem_admittedRows.mp hrow
    exact absurd ((hpending j o ho (hsame o horow)).symm.trans hadmitted) Bool.false_ne_true

end Safety

/-- Replay safety, over every run of any number of processes that share one database file. -/
theorem replay_safety {τ : Type} [AwareDatetime τ] (plat : Platform) {ι : Type} [DecidableEq ι]
    [Fintype ι] (file : DatabaseFile) (s : Shared τ plat ι)
    (hs : (sharedSystem τ plat ι file).Reachable s) :
    (s.disk.rows : Multiset NonceRow) =
        admittedRows s.returned + ∑ i, admittedRows (s.processes i).pending ∧
    ((s.returned.filter fun o => o.decision.admitted).map
      fun o => o.attestation.val.plan.nonce).Nodup ∧
    (∀ t o, Step s t → t.returned = s.returned ++ [o] → o.decision.admitted = false →
      o.decision.reasonCodes ≠ ["REPLAY_DETECTED"] →
      t.disk = s.disk ∧ t.processes = s.processes) ∧
    (∀ i (attestation : Validated (RouteAttestation τ)) (policy : Validated (AdmissionPolicy τ))
      (now : τ) d x, verifyAttestation plat policy.val now attestation.val
        (some SQLiteReplayStore.port) ((s.processes i).store,s.disk) = (.ok d,x) →
      d.admitted = false → d.reasonCodes ≠ ["REPLAY_DETECTED"] →
      x = ((s.processes i).store,s.disk)) ∧
    (∀ i (call : PendingCall τ plat), (s.processes i).phase = .idle →
      (∀ o ∈ s.returned, o.attestation.val.plan.nonce = call.attestation.val.plan.nonce →
        o.decision.admitted = false) →
      (∀ j, ∀ o ∈ (s.processes j).pending,
        o.attestation.val.plan.nonce = call.attestation.val.plan.nonce →
        o.decision.admitted = false) →
      ∃ d t, (verifyAttestation plat call.policy.val call.now call.attestation.val
          (some SQLiteReplayStore.port) ((s.processes i).store,s.disk)).1 = .ok d ∧
        d.admitted = true ∧ Relation.ReflTransGen Step s t ∧
        t.returned = s.returned ++ [⟨call.attestation,d⟩]) := by
  have hconsistent := reachable_consistent hs
  refine ⟨hconsistent.rows,?_,?_,?_,?_⟩
  · exact hconsistent.admitted_nonces
  · intro t o hstep
    exact refusal_untouched hstep
  · intro i attestation policy now d x hverify
    exact denied_untouched hverify
  · intro i call hidle hreturned hpending
    have hnew := hconsistent.nonce_new hreturned hpending
    obtain ⟨d,t,hd,hadmitted,hrun,hanswer,_⟩ := pending_call_runs hs i hidle call
    exact ⟨d,t,hd,hadmitted.mpr hnew,hrun,hanswer⟩

def Shared.fresh (τ : Type) [AwareDatetime τ] (plat : Platform) (ι : Type) (file : DatabaseFile) :
    Shared τ plat ι :=
  ⟨⟨true,none⟩,fun _ => ⟨SQLiteReplayStore.create file.path,.idle⟩,[]⟩

theorem fresh_reachable (τ : Type) [AwareDatetime τ] (plat : Platform) (ι : Type)
    [DecidableEq ι] (file : DatabaseFile) :
    (sharedSystem τ plat ι file).Reachable (Shared.fresh τ plat ι file) :=
  .initial ⟨rfl,rfl,fun _ => rfl⟩

/-- The first call of all is admitted, and when another process repeats it, it is denied. -/
theorem repeated_call_denied {τ : Type} [AwareDatetime τ] {plat : Platform} {ι : Type}
    [DecidableEq ι] [Fintype ι] (file : DatabaseFile) {i j : ι} (hij : j ≠ i)
    (call : PendingCall τ plat) : ∃ s, (sharedSystem τ plat ι file).Reachable s ∧
      s.returned.map (fun o => o.decision.admitted) = [true,false] := by
  have hstart := fresh_reachable τ plat ι file
  obtain ⟨d,s,_,hadmitted,hrun,hanswer,hothers⟩ := pending_call_runs hstart i rfl call
  have hfirst : d.admitted = true :=
    hadmitted.mpr (by simp [Shared.fresh,Disk.rows,Disk.table])
  have hs := hstart.trans hrun
  have hidle : (s.processes j).phase = .idle := by rw [hothers j hij]; rfl
  obtain ⟨d',t,_,hadmitted',hrun',hanswer',_⟩ := pending_call_runs hs j hidle call
  have hrecorded := (reachable_consistent hs).nonce_recorded (o:=⟨call.attestation,d⟩)
    (by rw [hanswer]; exact List.mem_append_right _ (List.mem_singleton_self _)) hfirst
  have hsecond : d'.admitted = false := by
    rw [← Bool.not_eq_true,hadmitted']
    exact not_not.mpr hrecorded
  refine ⟨t,hs.trans hrun',?_⟩
  rw [hanswer',hanswer,List.map_append,List.map_append,List.map_singleton,List.map_singleton,
    hfirst,hsecond]
  rfl

def Demo.replayFile : DatabaseFile := ⟨"replay.sqlite3",by simp⟩

theorem replay_safety_demo : ∃ s : Shared FixedTime Demo.platform (Fin 2),
    s.returned.map (fun o => o.decision.admitted) = [true,false] ∧
    (s.disk.rows : Multiset NonceRow) =
      admittedRows s.returned + ∑ i, admittedRows (s.processes i).pending ∧
    ((s.returned.filter fun o => o.decision.admitted).map
      fun o => o.attestation.val.plan.nonce).Nodup := by
  have hpassed := Demo.attestation_passes (by decide) Demo.contain_noon
  have hne : (1 : Fin 2) ≠ 0 := by decide
  obtain ⟨s,hreachable,hreturned⟩ := repeated_call_denied Demo.replayFile hne
    ⟨Demo.attestation₀,Demo.policy₀,Demo.minutes 0,_,hpassed⟩
  obtain ⟨hrows,hnonces,_⟩ := replay_safety Demo.platform Demo.replayFile s hreachable
  exact ⟨s,hreturned,hrows,hnonces⟩

end LocusMesh
