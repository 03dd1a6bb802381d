import Mathlib
import LocusMesh.Linearization
import LocusMesh.Sharing

/-! The processes that share a replay database behave as one verifier that takes their calls one
after the other, each between its first statement and its answer. -/
namespace LocusMesh

open CanonicalJson PyCollections AwareClock HashChain Transition Linearization

/-- What the port of a replay store is for: it remembers a nonce, and tells whether it was new. -/
def nonceRegistry : ReplayStore (List NonceRow) where
  recordIfNew nonce requestCommitment attestationDigest rows :=
    if nonce ∈ rows.map NonceRow.nonce then (.ok false,rows)
    else (.ok true,rows ++ [⟨nonce,requestCommitment,attestationDigest⟩])

structure VerifyCall (τ : Type) [AwareDatetime τ] where
  attestation : Validated (RouteAttestation τ)
  policy : Validated (AdmissionPolicy τ)
  now : τ

section Calls

variable {τ : Type} [AwareDatetime τ]

def VerifyCall.nonce (call : VerifyCall τ) : String := call.attestation.val.plan.nonce.val

abbrev Answer (τ : Type) := Except PyError (AdmissionDecision τ)

variable (plat : Platform)

/-- `verify_attestation` over the registry. -/
def verifier (τ : Type) [AwareDatetime τ] :
    AtomicObject (List NonceRow) (VerifyCall τ) (Answer τ) where
  start := []
  apply call rows := verifyAttestation plat call.policy.val call.now call.attestation.val
    (some nonceRegistry) rows

/-- Everything but the replay check passes. -/
def VerifyCall.Passes (call : VerifyCall τ) : Prop :=
  ∃ verified, checkAttestation plat call.policy.val call.now call.attestation.val =
    .ok (.inr verified)

variable {plat}

def PendingCall.request (call : PendingCall τ plat) : VerifyCall τ :=
  ⟨call.attestation,call.policy,call.now⟩

theorem PendingCall.passes (call : PendingCall τ plat) : call.request.Passes plat :=
  ⟨call.verified,call.passed⟩

theorem verifier_pending (call : PendingCall τ plat) (rows : List NonceRow) :
    (verifier plat τ).apply call.request rows =
      if call.row.nonce ∈ rows.map NonceRow.nonce then
        (conclude call.attestation.val call.verified false,rows)
      else (conclude call.attestation.val call.verified true,rows ++ [call.row]) := by
  show verifyAttestation plat call.policy.val call.now call.attestation.val (some nonceRegistry) rows =
    _
  rw [verifyAttestation,call.passed]
  by_cases hmem : call.row.nonce ∈ rows.map NonceRow.nonce
  · rw [if_pos hmem]
    rw [PendingCall.row] at hmem
    simp only [recordFresh,nonceRegistry,if_pos hmem]
  · rw [if_neg hmem]
    rw [PendingCall.row] at hmem
    simp only [recordFresh,nonceRegistry,if_neg hmem]
    rfl

theorem verifier_refused (call : VerifyCall τ) {d : AdmissionDecision τ}
    (hcheck : checkAttestation plat call.policy.val call.now call.attestation.val = .ok (.inl d))
    (rows : List NonceRow) : (verifier plat τ).apply call rows = (.ok d,rows) := by
  show verifyAttestation plat call.policy.val call.now call.attestation.val (some nonceRegistry) rows =
    _
  rw [verifyAttestation,hcheck]

variable (plat) in
/-- Either the checks are not passed, and the call is denied, or it is answered as its nonce is
old or new. -/
theorem verifier_cases (call : VerifyCall τ) :
    (¬call.Passes plat ∧ ∃ d, d.admitted = false ∧
      ∀ rows, (verifier plat τ).apply call rows = (.ok d,rows)) ∨
    ∃ pending : PendingCall τ plat, pending.request = call := by
  rcases checkAttestation_cases plat call.attestation call.policy call.now with
    ⟨hdenied,hcheck⟩ | ⟨_,_,_,⟨_,hcheck⟩ | ⟨_,hcheck⟩⟩
  · refine .inl ⟨?_,_,(refused_of_check hcheck).1,verifier_refused call hcheck⟩
    rintro ⟨verified,hpassed⟩
    rw [hcheck] at hpassed
    cases hpassed
  · refine .inl ⟨?_,_,(refused_of_check hcheck).1,verifier_refused call hcheck⟩
    rintro ⟨verified,hpassed⟩
    rw [hcheck] at hpassed
    cases hpassed
  · exact .inr ⟨⟨call.attestation,call.policy,call.now,_,hcheck⟩,rfl⟩

/-- The nonces remembered are those of the calls that passed everything else. -/
theorem legal_nonces {past : List (VerifyCall τ × Answer τ)} {rows : List NonceRow}
    (h : Legal (verifier plat τ) past rows) (nonce : String) :
    nonce ∈ rows.map NonceRow.nonce ↔
      ∃ earlier ∈ past, earlier.1.Passes plat ∧ earlier.1.nonce = nonce := by
  induction h with
  | start => simp [verifier]
  | perform h happly ih =>
    rename_i past rows rows' call answer
    simp only [List.mem_append,List.mem_singleton,or_and_right,exists_or,exists_eq_left]
    rw [← ih]
    rcases verifier_cases plat call with ⟨hnot,d,_,hrefused⟩ | ⟨pending,rfl⟩
    · obtain rfl : rows = rows' := (Prod.ext_iff.mp ((hrefused rows).symm.trans happly)).2
      simp [hnot]
    · have hpasses := pending.passes
      rw [verifier_pending] at happly
      split_ifs at happly with hmem
      · obtain rfl : rows = rows' := (Prod.ext_iff.mp happly).2
        constructor
        · exact .inl
        · rintro (hold | ⟨_,rfl⟩)
          · exact hold
          · exact hmem
      · obtain rfl : rows ++ [pending.row] = rows' := (Prod.ext_iff.mp happly).2
        rw [List.map_append,List.mem_append,List.map_singleton,List.mem_singleton]
        exact or_congr Iff.rfl ⟨fun hsame => ⟨hpasses,hsame.symm⟩,fun hsame => hsame.2.symm⟩

/-- Of the calls that pass everything else, the first with its nonce is admitted, and no other. -/
theorem legal_admits {past : List (VerifyCall τ × Answer τ)} {rows : List NonceRow}
    (h : Legal (verifier plat τ) past rows) {before after : List (VerifyCall τ × Answer τ)}
    {call : VerifyCall τ} {answer : Answer τ} (hpast : past = before ++ (call,answer) :: after) :
    ∃ d, answer = .ok d ∧ (d.admitted = true ↔ call.Passes plat ∧
      ∀ earlier ∈ before, earlier.1.Passes plat → earlier.1.nonce ≠ call.nonce) := by
  induction h generalizing after with
  | start => simp at hpast
  | perform h happly ih =>
    rename_i earlierCalls rows rows' last answered
    rcases List.eq_nil_or_concat' after with rfl | ⟨init,e,rfl⟩
    · obtain ⟨rfl,hlast⟩ := List.append_inj' hpast rfl
      obtain ⟨rfl,rfl⟩ : last = call ∧ answered = answer := by simpa using hlast
      have hnonces := legal_nonces h last.nonce
      rcases verifier_cases plat last with ⟨hnot,d,hdenied,hrefused⟩ | ⟨pending,rfl⟩
      · refine ⟨d,(Prod.ext_iff.mp ((hrefused rows).symm.trans happly)).1.symm,?_⟩
        simp [hdenied,hnot]
      · rw [verifier_pending] at happly
        split_ifs at happly with hmem
        · obtain ⟨d,hd,hdenied,_⟩ := pending.conclude_replayed
          obtain ⟨earlier,hearlier,hpasses,hsame⟩ := hnonces.mp hmem
          refine ⟨d,(Prod.ext_iff.mp happly).1.symm.trans hd,?_⟩
          rw [hdenied]
          refine iff_of_false Bool.false_ne_true ?_
          rintro ⟨_,hnew⟩
          exact hnew earlier hearlier hpasses hsame
        · obtain ⟨d,hd,hadmitted,_⟩ := pending.conclude_fresh
          refine ⟨d,(Prod.ext_iff.mp happly).1.symm.trans hd,?_⟩
          rw [hadmitted]
          refine iff_of_true rfl ⟨pending.passes,fun earlier hearlier hpasses hsame => ?_⟩
          exact hmem (hnonces.mpr ⟨earlier,hearlier,hpasses,hsame⟩)
    · rw [← List.cons_append,← List.append_assoc] at hpast
      exact ih (List.append_inj' hpast rfl).1

end Calls

section Processes

variable {τ : Type} [AwareDatetime τ] {plat : Platform} {ι : Type} [DecidableEq ι]

/-- Where a process stands, seen from outside its store. -/
def Phase.status : Phase τ plat → Status (VerifyCall τ) (Answer τ)
  | .idle => .idle
  | .opening call _ => .pending call.request
  | .recording call => .pending call.request
  | .recorded call fresh =>
    .done call.request (conclude call.attestation.val call.verified fresh)

def Shared.view (s : Shared τ plat ι) : List NonceRow × (ι → Status (VerifyCall τ) (Answer τ)) :=
  (s.disk.rows,fun i => (s.processes i).phase.status)

def returnedBy (answered : VerifyCall τ × Answer τ) : List (Outcome τ) :=
  answers answered.1.attestation answered.2

theorem Shared.view_move (s : Shared τ plat ι) (i : ι) (store : SQLiteReplayStore)
    (phase : Phase τ plat) (disk : Disk) :
    (s.move i store phase disk).view = (disk.rows,Function.update s.view.2 i phase.status) := by
  refine Prod.ext rfl (funext fun j => ?_)
  show ((s.move i store phase disk).processes j).phase.status =
    Function.update s.view.2 i phase.status j
  by_cases hij : j = i
  · rw [hij,Function.update_self,move_process]
  · rw [Function.update_of_ne hij]
    simp only [view,move,Function.update_of_ne hij]

/-- What a step of a process shows. -/
abbrev StepObserved (file : DatabaseFile) (s : Shared τ plat ι)
    (events : List (Event ι (VerifyCall τ) (Answer τ))) (t : Shared τ plat ι) : Prop :=
  Observed (sharedSystem τ plat ι file) (verifier plat τ) Shared.view Shared.returned returnedBy s
    events t

theorem observed_move {file : DatabaseFile} {s : Shared τ plat ι} {i : ι} {store : SQLiteReplayStore}
    {phase : Phase τ plat} {disk : Disk} {events : List (Event ι (VerifyCall τ) (Answer τ))}
    (hstep : Step s (s.move i store phase disk))
    (hmove : Move (verifier plat τ) s.view events
      (disk.rows,Function.update s.view.2 i phase.status))
    (hsilent : events.filterMap Event.responded = []) :
    StepObserved file s events (s.move i store phase disk) :=
  ⟨hstep,s.view_move i store phase disk ▸ hmove,by rw [hsilent]; exact (List.append_nil _).symm⟩

theorem observed_still {file : DatabaseFile} {s : Shared τ plat ι} {i : ι} {store : SQLiteReplayStore}
    {phase : Phase τ plat} {disk : Disk} (hstep : Step s (s.move i store phase disk))
    (hrows : disk.rows = s.disk.rows) (hstatus : (s.processes i).phase.status = phase.status) :
    StepObserved file s [] (s.move i store phase disk) := by
  refine observed_move hstep ?_ rfl
  rw [hrows,← hstatus]
  have hsame : Function.update s.view.2 i (s.processes i).phase.status = s.view.2 :=
    Function.update_eq_self i s.view.2
  rw [hsame]
  exact .still

theorem observed_respond {file : DatabaseFile} {s : Shared τ plat ι} {i : ι} {call : PendingCall τ plat}
    {fresh : Bool} {d : AdmissionDecision τ} (hphase : (s.processes i).phase = .recorded call fresh)
    (hok : conclude call.attestation.val call.verified fresh = .ok d) :
    StepObserved file s [.respond i call.request (.ok d)]
      {s.move i (s.processes i).store .idle s.disk with
        returned := s.returned ++ [⟨call.attestation,d⟩]} := by
  have hstatus : s.view.2 i = .done call.request (.ok d) := by
    simp [Shared.view,hphase,Phase.status,hok]
  have hmove := Move.respond (O:=verifier plat τ) i call.request (.ok d) hstatus
  have hview := s.view_move i (s.processes i).store .idle s.disk
  exact ⟨.respond i call fresh d hphase hok,hview ▸ hmove,rfl⟩

/-- Every step shows something of the calls, or nothing. -/
theorem step_observed (file : DatabaseFile) {s t : Shared τ plat ι} (h : Ready s) (hstep : Step s t) :
    ∃ events, StepObserved file s events t := by
  have hkept := hstep
  cases hstep with
  | refuse i attestation policy now d hidle hcheck =>
    have hstatus : s.view.2 i = .idle := by simp [Shared.view,hidle,Phase.status]
    have happly := verifier_refused ⟨attestation,policy,now⟩ hcheck s.view.1
    exact ⟨_,hkept,Move.whole (O:=verifier plat τ) i ⟨attestation,policy,now⟩ (.ok d) s.view.1
      hstatus happly,rfl⟩
  | start i call hidle hclosed =>
    have hstatus : s.view.2 i = .idle := by simp [Shared.view,hidle,Phase.status]
    exact ⟨_,observed_move hkept (.invoke i call.request hstatus) rfl⟩
  | startOpen i call hidle hopen =>
    have hstatus : s.view.2 i = .idle := by simp [Shared.view,hidle,Phase.status]
    exact ⟨_,observed_move hkept (.invoke i call.request hstatus) rfl⟩
  | statement i call statement rest disk hphase hok =>
    obtain ⟨hrows,_,_⟩ := (h.opening i call _ hphase).next hok
    exact ⟨_,observed_still hkept hrows (by rw [hphase]; rfl)⟩
  | connected i call hphase => exact ⟨_,observed_still hkept rfl (by rw [hphase]; rfl)⟩
  | insert i call rowcount disk hphase hok =>
    have hstatus : s.view.2 i = .pending call.request := by simp [Shared.view,hphase,Phase.status]
    have happly := verifier_pending call s.disk.rows
    rcases insertOrIgnore_cases call.row (insertOrIgnore_table hok) with
      ⟨hold,hignored⟩ | ⟨hnew,disk',hinserted,hrows,_⟩
    · obtain ⟨rfl,rfl⟩ : 0 = rowcount ∧ s.disk = disk := by simpa using hignored.symm.trans hok
      rw [if_pos hold] at happly
      exact ⟨_,observed_move hkept (Move.perform (O:=verifier plat τ) i call.request _ _ hstatus
        happly) rfl⟩
    · obtain ⟨rfl,rfl⟩ : 1 = rowcount ∧ disk' = disk := by simpa using hinserted.symm.trans hok
      rw [if_neg hnew,← hrows] at happly
      exact ⟨_,observed_move hkept (Move.perform (O:=verifier plat τ) i call.request _ _ hstatus
        happly) rfl⟩
  | raise i call hphase =>
    have hstatus : s.view.2 i = .pending call.request := by
      rcases hphase with ⟨rest,hphase⟩ | hphase <;> simp [Shared.view,hphase,Phase.status]
    exact ⟨_,observed_move hkept (.abort i call.request hstatus) rfl⟩
  | respond i call fresh d hphase hok =>
    exact ⟨_,observed_respond hphase hok⟩
  | close i hidle => exact ⟨_,observed_still hkept rfl (by rw [hidle])⟩

/-- The events of the processes that share a database file. -/
abbrev VerifierHistory (file : DatabaseFile) (past : List (Event ι (VerifyCall τ) (Answer τ)))
    (s : Shared τ plat ι) : Prop :=
  History (sharedSystem τ plat ι file) (verifier plat τ) Shared.view Shared.returned returnedBy past s

theorem view_initial {file : DatabaseFile} {s : Shared τ plat ι}
    (h : (sharedSystem τ plat ι file).Initial s) :
    s.view = ((verifier plat τ).start,fun _ => .idle) := by
  obtain ⟨hdisk,_,hprocesses⟩ := h
  refine Prod.ext ?_ (funext fun i => ?_)
  · simp [Shared.view,Disk.rows,Disk.table,hdisk,verifier]
  · simp [Shared.view,hprocesses,Phase.status]

theorem history_extends [Fintype ι] {file : DatabaseFile}
    {past : List (Event ι (VerifyCall τ) (Answer τ))} {s t : Shared τ plat ι}
    (h : VerifierHistory file past s) (hstep : Step s t) :
    ∃ events, VerifierHistory file (past ++ events) t := by
  obtain ⟨events,hevents⟩ := step_observed file (reachable_consistent h.reachable).toReady hstep
  exact ⟨events,h.step hevents⟩

theorem VerifierHistory.still {file : DatabaseFile} {past : List (Event ι (VerifyCall τ) (Answer τ))}
    {s : Shared τ plat ι} (h : VerifierHistory file past s) {i : ι} {store : SQLiteReplayStore}
    {phase : Phase τ plat} {disk : Disk} (hstep : Step s (s.move i store phase disk))
    (hrows : disk.rows = s.disk.rows) (hstatus : (s.processes i).phase.status = phase.status) :
    VerifierHistory file past (s.move i store phase disk) := by
  have hnext := History.step h (observed_still hstep hrows hstatus)
  rwa [List.append_nil] at hnext

theorem opening_history {file : DatabaseFile} {past : List (Event ι (VerifyCall τ) (Answer τ))}
    (i : ι) (call : PendingCall τ plat) (rest : List Statement)
    (hrest : ∀ statement ∈ rest, statement ∈ SQLiteReplayStore.connectStatements file.path)
    (s : Shared τ plat ι) (h : VerifierHistory file past s)
    (hphase : (s.processes i).phase = .opening call rest) {disk : Disk}
    (hrun : SQLiteReplayStore.runStatements rest s.disk = (.ok (),disk)) :
    VerifierHistory file past (s.move i (s.processes i).store (.opening call []) disk) := by
  induction rest generalizing s with
  | nil =>
    obtain rfl : s.disk = disk := (Prod.ext_iff.mp hrun).2
    rw [Shared.move_self hphase]
    exact h
  | cons statement rest ih =>
    rw [SQLiteReplayStore.runStatements] at hrun
    cases hok : statement s.disk with
    | error e => simp [hok] at hrun
    | ok next =>
      simp only [hok] at hrun
      have hstep := Step.statement i call statement rest next hphase hok
      have hrows := (connectStatement_table (hrest statement List.mem_cons_self) hok).1
      have hnext := h.still hstep hrows (by rw [hphase]; rfl)
      have hopened := ih (fun st hst => hrest st (List.mem_cons_of_mem _ hst)) _ hnext (by simp) hrun
      simpa only [Shared.move_disk,Shared.move_move,Shared.move_process] using hopened

theorem recording_history {file : DatabaseFile} {past : List (Event ι (VerifyCall τ) (Answer τ))}
    {s : Shared τ plat ι} (h : VerifierHistory file past s) (i : ι) (call : PendingCall τ plat)
    (hphase : (s.processes i).phase = .recording call) (htable : s.disk.table.isSome = true) :
    ∃ (t : Shared τ plat ι) (answer : Answer τ), VerifierHistory file
      (past ++ [.perform i call.request answer,.respond i call.request answer]) t ∧
      (answer,t.disk.rows) = (verifier plat τ).apply call.request s.disk.rows ∧
      ∀ j ≠ i, t.processes j = s.processes j := by
  obtain ⟨fresh,disk,hinsert,happly⟩ : ∃ (fresh : Bool) (disk : Disk),
      (∃ rowcount, insertOrIgnore call.row s.disk = .ok (rowcount,disk) ∧ (rowcount == 1) = fresh) ∧
      (verifier plat τ).apply call.request s.disk.rows =
        (conclude call.attestation.val call.verified fresh,disk.rows) := by
    have happly := verifier_pending call s.disk.rows
    rcases insertOrIgnore_cases call.row htable with ⟨hold,hok⟩ | ⟨hnew,disk,hok,hrows,_⟩
    · rw [if_pos hold] at happly
      exact ⟨false,s.disk,⟨0,hok,rfl⟩,happly⟩
    · rw [if_neg hnew,← hrows] at happly
      exact ⟨true,disk,⟨1,hok,rfl⟩,happly⟩
  obtain ⟨rowcount,hok,hrowcount⟩ := hinsert
  obtain ⟨d,hd⟩ : ∃ d, conclude call.attestation.val call.verified fresh = .ok d := by
    cases fresh
    · obtain ⟨d,hd,_⟩ := call.conclude_replayed
      exact ⟨d,hd⟩
    · obtain ⟨d,hd,_⟩ := call.conclude_fresh
      exact ⟨d,hd⟩
  have hstatus : s.view.2 i = .pending call.request := by simp [Shared.view,hphase,Phase.status]
  have hrecorded := Step.insert i call rowcount disk hphase hok
  rw [hrowcount] at hrecorded
  have hperformed := History.step h (observed_move hrecorded (Move.perform (O:=verifier plat τ) i
    call.request _ _ hstatus happly) rfl)
  have hphase' : ((s.move i (s.processes i).store (.recorded call fresh) disk).processes i).phase =
      .recorded call fresh := by rw [Shared.move_process]
  have hresponded := History.step hperformed (observed_respond hphase' hd)
  rw [List.append_assoc,hd] at hresponded
  refine ⟨_,.ok d,hresponded,?_,fun j hj => ?_⟩
  · rw [happly,hd]
    rfl
  · simp only [Shared.move,Function.update_of_ne hj]

/-- The events of a call that no other comes between. -/
def wholeCall (i : ι) (call : VerifyCall τ) (answer : Answer τ) :
    List (Event ι (VerifyCall τ) (Answer τ)) :=
  [.invoke i call,.perform i call answer,.respond i call answer]

/-- A call of a process that has not opened its store yet is invoked, has its effect and is
answered. -/
theorem pending_history {file : DatabaseFile}
    {past : List (Event ι (VerifyCall τ) (Answer τ))} {s : Shared τ plat ι}
    (h : VerifierHistory file past s) (i : ι)
    (hprocess : s.processes i = ⟨SQLiteReplayStore.create file.path,.idle⟩) (call : PendingCall τ plat) :
    ∃ (t : Shared τ plat ι) (answer : Answer τ), VerifierHistory file
      (past ++ wholeCall i call.request answer) t ∧
      (answer,t.disk.rows) = (verifier plat τ).apply call.request s.disk.rows ∧
      ∀ j ≠ i, t.processes j = s.processes j := by
  obtain ⟨disk,hrun,hrows,htable⟩ := runStatements_connect file.shared s.disk
  have hidle : (s.processes i).phase = .idle := by rw [hprocess]
  have hstatus : s.view.2 i = .idle := by simp [Shared.view,hidle,Phase.status]
  have hstart := Step.start i call hidle (by rw [hprocess]; rfl)
  have hinvoked := History.step h (observed_move hstart (.invoke i call.request hstatus) rfl)
  have hopened := opening_history i call (SQLiteReplayStore.connectStatements file.path)
    (fun _ hstatement => hstatement) _ hinvoked (by simp [hprocess,SQLiteReplayStore.create]) hrun
  have hconnected := hopened.still (Step.connected i call (by simp)) rfl (by simp [Phase.status])
  obtain ⟨t,answer,hhistory,hanswer,hothers⟩ := recording_history hconnected i call (by simp)
    htable
  rw [List.append_assoc] at hhistory
  refine ⟨t,answer,hhistory,?_,fun j hj => ?_⟩
  · rw [hanswer]
    show (verifier plat τ).apply call.request disk.rows = _
    rw [hrows]
  · rw [hothers j hj]
    simp only [Shared.move,Function.update_of_ne hj]

theorem two_calls_history (file : DatabaseFile) {i j : ι} (hij : j ≠ i)
    (call call' : PendingCall τ plat) :
    ∃ (t : Shared τ plat ι) (answer answer' : Answer τ), VerifierHistory file
      (wholeCall i call.request answer ++ wholeCall j call'.request answer') t ∧
      answer = ((verifier plat τ).apply call.request []).1 ∧
      answer' = ((verifier plat τ).apply call'.request
        ((verifier plat τ).apply call.request []).2).1 := by
  have hstart : VerifierHistory file [] (Shared.fresh τ plat ι file) := .initial ⟨rfl,rfl,fun _ => rfl⟩
  obtain ⟨s,answer,hhistory,hanswer,hothers⟩ := pending_history hstart i rfl call
  obtain ⟨t,answer',hhistory',hanswer',_⟩ := pending_history hhistory j (hothers j hij) call'
  refine ⟨t,answer,answer',hhistory',(Prod.ext_iff.mp hanswer).1,?_⟩
  have hrows : s.disk.rows = ((verifier plat τ).apply call.request []).2 :=
    (Prod.ext_iff.mp hanswer).2
  rw [← hrows,← hanswer']

end Processes

/-- However the statements of its callers interleave, every call of `verify_attestation` on a
shared database takes effect once, between its invocation and its answer, as if the calls were
made one after the other on a registry of nonces; so in that order the first call with its nonce
that passes everything else is admitted, and no later one. -/
theorem verifications_linearizable {τ : Type} [AwareDatetime τ] (plat : Platform) {ι : Type}
    [DecidableEq ι] [Fintype ι] (file : DatabaseFile) :
    (∀ s, (sharedSystem τ plat ι file).Reachable s → ∃ past, VerifierHistory file past s) ∧
    ∀ past (s : Shared τ plat ι), VerifierHistory file past s →
      (∀ t, Step s t → ∃ events, VerifierHistory file (past ++ events) t) ∧
      Linearized (verifier plat τ) past s.disk.rows (fun i => (s.processes i).phase.status) ∧
      s.returned = (past.filterMap Event.responded).flatMap returnedBy ∧
      ∀ before call answer after,
        past.filterMap Event.performed = before ++ (call,answer) :: after →
        ∃ d, answer = .ok d ∧ (d.admitted = true ↔ call.Passes plat ∧
          ∀ earlier ∈ before, earlier.1.Passes plat → earlier.1.nonce ≠ call.nonce) := by
  refine ⟨fun s hs => ?_,fun past s h => ?_⟩
  · refine reachable_history (fun s t hs hstep => ?_) hs
    exact step_observed file (reachable_consistent hs).toReady hstep
  · have hlinearized := h.linearized fun _ => view_initial
    have hquiet : ∀ s : Shared τ plat ι, (sharedSystem τ plat ι file).Initial s → s.returned = [] :=
      fun s hs => hs.2.1
    refine ⟨fun t hstep => history_extends h hstep,hlinearized,h.output_eq hquiet,?_⟩
    intro before call answer after hperformed
    exact legal_admits hlinearized.legal hperformed

theorem verifications_linearizable_demo : ∃ (s : Shared FixedTime Demo.platform (Fin 2))
    (past : List (Event (Fin 2) (VerifyCall FixedTime) (Answer FixedTime))),
    (past.filterMap Event.performed).map Prod.fst = List.replicate 2
      ⟨Demo.attestation₀,Demo.policy₀,Demo.minutes 0⟩ ∧
    s.returned.map (fun o => o.decision.admitted) = [true,false] ∧
    Linearized (verifier Demo.platform FixedTime) past s.disk.rows
      (fun i => (s.processes i).phase.status) := by
  have hpassed := Demo.attestation_passes (by decide) Demo.contain_noon
  have hne : (1 : Fin 2) ≠ 0 := by decide
  obtain ⟨call,hcall⟩ : ∃ call : PendingCall FixedTime Demo.platform,
      call.request = ⟨Demo.attestation₀,Demo.policy₀,Demo.minutes 0⟩ :=
    ⟨⟨Demo.attestation₀,Demo.policy₀,Demo.minutes 0,_,hpassed⟩,rfl⟩
  obtain ⟨s,answer,answer',hhistory,_⟩ := two_calls_history Demo.replayFile hne call call
  obtain ⟨_,hlinearizable⟩ := verifications_linearizable (τ:=FixedTime) (ι:=Fin 2) Demo.platform
    Demo.replayFile
  obtain ⟨_,hlinearized,hreturned,hadmits⟩ := hlinearizable _ s hhistory
  obtain ⟨d,rfl,hd⟩ := hadmits [] call.request answer [(call.request,answer')] rfl
  obtain ⟨d',rfl,hd'⟩ := hadmits [(call.request,.ok d)] call.request answer' [] rfl
  have hfirst : d.admitted = true :=
    hd.mpr ⟨call.passes,fun _ hearlier => absurd hearlier List.not_mem_nil⟩
  have hsecond : d'.admitted = false := by
    rw [← Bool.not_eq_true,hd']
    rintro ⟨_,hfresh⟩
    exact hfresh _ (List.mem_singleton_self _) call.passes rfl
  refine ⟨s,_,by rw [← hcall]; rfl,?_,hlinearized⟩
  rw [hreturned]
  show [d.admitted,d'.admitted] = [true,false]
  rw [hfirst,hsecond]

end LocusMesh
