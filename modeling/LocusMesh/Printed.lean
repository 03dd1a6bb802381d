import Mathlib
import LocusMesh.Loading

/-! What the command line prints, as a strict consumer reads it. -/
namespace LocusMesh

open AwareClock CanonicalJson PyCollections PyText PyJson Fallible

section Texts

variable {limit : ℕ} {v : Json}

theorem loads_console (htame : Tame limit v) (indent : Bool) :
    loads strict limit (layout indent 0 (sortKeys v)) = .ok (readValue v) := by
  rw [← write_console,loads_style (console indent) htame.distinct htame.ints,readBack,
    if_pos htame.nesting]
  rfl

theorem loads_jsonLine (htame : Tame limit v) :
    loads strict limit (jsonLine v).toList = .ok (readValue v) := by
  rw [jsonLine,String.toList_ofList]
  exact loads_console htame false

theorem loads_jsonBlock (htame : Tame limit v) :
    loads strict limit (jsonBlock v).toList = .ok (readValue v) := by
  rw [jsonBlock,String.toList_ofList]
  exact loads_console htame true

end Texts

def Envelope.errorJson (envelope : Envelope) : Json :=
  optional (fun error => .obj [("code",.str error.1),("message",.str error.2)]) envelope.error

def Envelope.fields (envelope : Envelope) : List (String × Json) :=
  [("schema_version",.str "locusmesh.cli-output.v1"),
   ("command",.str envelope.command),
   ("ok",.bool envelope.ok),
   ("data",envelope.data),
   ("error",envelope.errorJson)]

theorem Envelope.keys_nodup (envelope : Envelope) : (envelope.fields.map Prod.fst).Nodup := by
  show ["schema_version","command","ok","data","error"].Nodup
  decide

theorem Envelope.json_tame {depth : ℕ} {envelope : Envelope} (h : Tame (depth + 1) envelope.data) :
    Tame (depth + 2) envelope.json := by
  have herror : Tame (depth + 1) envelope.errorJson :=
    .optional (fun error => .obj ["code","message"] rfl (by decide) (by simp))
      envelope.error
  have hfields : ∀ e ∈ envelope.fields, Tame (depth + 1) e.2 := by
    simp only [fields,List.forall_mem_cons]
    exact ⟨.str _,.str _,.bool _,h,herror,by simp⟩
  exact .obj _ rfl envelope.keys_nodup hfields

/-- What a strict consumer reads of a line, field by field. -/
structure Tells (limit : ℕ) (line : String) (envelope : Envelope) (fields : List (Str × Value)) :
    Prop where
  loads : loads strict limit line.toList = .ok (.dict fields)
  version : (item fields "schema_version").bind asText = some "locusmesh.cli-output.v1"
  command : (item fields "command").bind asText = some envelope.command
  ok : item fields "ok" = some (.leaf (.bool envelope.ok))
  data : item fields "data" = some (readValue envelope.data)
  error : item fields "error" = some (readValue envelope.errorJson)

theorem envelope_tells (depth : ℕ) {limit : ℕ} {envelope : Envelope} (h : Tame (depth + 1) envelope.data)
    (hlimit : depth + 2 ≤ limit) :
    Tells limit (jsonLine envelope.json) envelope (record envelope.fields) := by
  have hitems : ∀ e ∈ envelope.fields, item (record envelope.fields) e.1 = some (readValue e.2) :=
    fun e he => item_record envelope.keys_nodup he
  rw [Envelope.fields] at hitems
  simp only [List.forall_mem_cons] at hitems
  obtain ⟨hversion,hcommand,hok,hdata,herror,_⟩ := hitems
  refine ⟨loads_jsonLine ((Envelope.json_tame h).mono hlimit),?_,?_,hok,hdata,herror⟩
  · rw [Envelope.fields,hversion,Option.bind_some,asText_str]
  · rw [Envelope.fields,hcommand,Option.bind_some,asText_str]

section Decisions

variable {σ : Type} (b : Backend FixedTime σ)

def Decides (d : AdmissionDecision FixedTime) : Command → Prop
  | .admitPlan policy plan => admitDecision b policy plan = .ok d
  | .verify policy attestation nonceStore => verifyDecision b policy attestation nonceStore = .ok d
  | _ => False

def deniedCode : Command → ℕ
  | .admitPlan _ _ => 3
  | _ => 4

variable {b} {command : Command} {d : AdmissionDecision FixedTime}

theorem run_of_decides (h : Decides b d command) :
    run b command = .ok (decisionResult b (deniedCode command) d) := by
  cases command with
  | admitPlan policy plan => exact bind_ok.mpr ⟨d,h,rfl⟩
  | verify policy attestation nonceStore => exact bind_ok.mpr ⟨d,h,rfl⟩
  | _ => exact absurd h id

theorem admitPlan_facts {plat : Platform} {plan : Validated (RoutePlan FixedTime)}
    {policy : Validated (AdmissionPolicy FixedTime)} {now : FixedTime}
    (h : admitPlan plat plan.val policy.val now = .ok d) : d.evaluatedAt = now ∧ d.checkedHops ≤ 64 := by
  rw [admitPlan_eq,Except.ok.injEq] at h
  rw [← h]
  exact ⟨rfl,plan.hops_length_le⟩

theorem verifyAttestation_facts {plat : Platform} {a : Validated (RouteAttestation FixedTime)}
    {policy : Validated (AdmissionPolicy FixedTime)} {now : FixedTime} {τ : Type}
    {store : Option (ReplayStore τ)} {s : τ}
    (h : (verifyAttestation plat policy.val now a.val store s).1 = .ok d) :
    d.evaluatedAt = now ∧ d.checkedHops ≤ 64 := by
  have hreceipts : a.val.receipts.length ≤ 64 := (RouteAttestation.check_ok.mp a.accepted).2.2.2.1
  have hhops := a.plan.hops_length_le
  have hexit := verifyAttestation_exit plat a policy now store s
  rw [h] at hexit
  cases hexit with
  | planDenied => exact ⟨rfl,hhops⟩
  | receiptsDenied => exact ⟨rfl,(min_le_left _ _).trans hreceipts⟩
  | replayed => exact ⟨rfl,hreceipts⟩
  | admitted => exact ⟨rfl,hhops⟩

theorem decides_facts (h : Decides b d command) : d.evaluatedAt = b.now ∧ d.checkedHops ≤ 64 := by
  cases command with
  | admitPlan policy plan =>
    obtain ⟨_,_,hrest⟩ := bind_ok.mp h
    obtain ⟨_,_,hrest⟩ := bind_ok.mp hrest
    exact admitPlan_facts hrest
  | verify policy attestation nonceStore =>
    obtain ⟨_,_,hrest⟩ := bind_ok.mp h
    obtain ⟨_,_,hrest⟩ := bind_ok.mp hrest
    cases nonceStore with
    | none => exact verifyAttestation_facts hrest
    | some path => exact verifyAttestation_facts (withExit_ok hrest)
  | _ => exact absurd h id

end Decisions

section Results

variable {plat : Platform}

theorem FabricCandidateObservation.dump_tame (c : FabricCandidateObservation) : Tame 2 c.dump := by
  have hmodels : Tame 1 (.arr (c.servingModels.map text)) :=
    .arr (List.forall_mem_map.mpr fun model _ => .text model)
  have hcodes : Tame 1 (.arr (c.reasonCodes.map text)) :=
    .arr (List.forall_mem_map.mpr fun code _ => .text code)
  exact .obj ["schema_version","provider","candidate_id","local_node","state","serving_models",
    "provider_claimed_owner_verified","observed_scope","evidence_level","admission_authority",
    "reason_codes"] rfl (by decide) (by simp [hmodels,hcodes])

theorem FabricObservation.dump_tame (o : FabricObservation FixedTime) : Tame 4 (o.dump plat) := by
  have hcandidates : Tame 3 (.arr (o.candidates.map FabricCandidateObservation.dump)) :=
    .arr (List.forall_mem_map.mpr fun c _ => FabricCandidateObservation.dump_tame c)
  have hcodes : Tame 3 (.arr (o.reasonCodes.map text)) :=
    .arr (List.forall_mem_map.mpr fun code _ => .text code)
  exact .obj ["schema_version","provider","provider_version","provider_contract",
    "source_endpoint","projection_digest","observed_at","expires_at","requested_max_scope",
    "observed_scope","within_requested_scope","admission_authority","candidates",
    "reason_codes"] rfl (by decide) (by simp [hcandidates,hcodes])

variable {σ : Type} {b : Backend FixedTime σ} {result : Result}

theorem doctor_tame (h : doctor b = .ok result) : Tame 2 result.data := by
  obtain ⟨packages,hpackages,hresult⟩ := bind_ok.mp h
  obtain ⟨cryptography,pydantic,yaml,rfl⟩ : ∃ cryptography pydantic yaml, packages =
      [("cryptography",Json.str cryptography),("pydantic",.str pydantic),("PyYAML",.str yaml)] := by
    simp only [List.mapM_cons,List.mapM_nil,bind_ok,pure,Except.pure,Except.ok.injEq]
      at hpackages
    obtain ⟨_,⟨cryptography,_,rfl⟩,_,⟨_,⟨pydantic,_,rfl⟩,_,⟨_,⟨yaml,_,rfl⟩,_,rfl,rfl⟩,rfl⟩,rfl⟩ :=
      hpackages
    exact ⟨cryptography,pydantic,yaml,rfl⟩
  have hdependencies : Tame 1 (.obj [("cryptography",Json.str cryptography),
      ("pydantic",.str pydantic),("PyYAML",.str yaml)]) :=
    .obj ["cryptography","pydantic","PyYAML"] rfl (by decide) (by simp)
  rw [← Except.ok.inj hresult]
  exact .obj ["version","python","admission_offline","observation_network_required",
    "secret_required","dependencies"] rfl (by decide) (by simp [hdependencies])

theorem probe_tame {topology : Path} (h : probe b topology = .ok result) : Tame 3 result.data := by
  obtain ⟨topology,_,hresult⟩ := bind_ok.mp h
  obtain ⟨_,_,hpeers,hedges,_⟩ := TopologySnapshot.check_ok.mp topology.accepted
  have hpeerCount : Tame 2 (.int topology.val.peers.length) := .count (hpeers.trans (by decide))
  have hedgeCount : Tame 2 (.int topology.val.edges.length) := .count hedges
  have hshown : Tame 2 (.arr (topology.val.peers.map fun peer => .obj
      [("peer_id",text peer.peerId),
       ("execution_scope",.str peer.executionScope.value),
       ("evidence_level",.str peer.evidenceLevel.value),
       ("key_id",text peer.keyId)])) :=
    .arr (List.forall_mem_map.mpr fun peer _ =>
      .obj ["peer_id","execution_scope","evidence_level","key_id"] rfl (by decide) (by simp))
  rw [← Except.ok.inj hresult]
  exact .obj ["snapshot_id","local_peer_id","peer_count","edge_count","valid_now",
    "topology_digest","peers"] rfl (by decide) (by simp [hpeerCount,hedgeCount,hshown])

theorem run_tame (hdemo : ∀ scenarios, b.runDemo = .ok scenarios → Tame 4 scenarios)
    {command : Command} (h : run b command = .ok result) : Tame 5 result.data := by
  have hdecided : ∀ {d : AdmissionDecision FixedTime} {code : ℕ}, Decides b d command →
      Tame 5 (decisionResult b code d).data := fun hd =>
    (AdmissionDecision.dump_tame (decides_facts hd).2).mono (by decide)
  cases command with
  | doctor => exact (doctor_tame h).mono (by decide)
  | probe topology => exact (probe_tame h).mono (by decide)
  | observeMeshLlm managementUrl maxScope timeoutSeconds ttlSeconds =>
    obtain ⟨o,_,hresult⟩ := bind_ok.mp h
    rw [← Except.ok.inj hresult]
    exact (FabricObservation.dump_tame o.val).mono (by decide)
  | admitPlan policy plan =>
    obtain ⟨d,hd,hresult⟩ := bind_ok.mp h
    rw [← Except.ok.inj hresult]
    exact hdecided hd
  | verify policy attestation nonceStore =>
    obtain ⟨d,hd,hresult⟩ := bind_ok.mp h
    rw [← Except.ok.inj hresult]
    exact hdecided hd
  | demo =>
    obtain ⟨scenarios,hscenarios,hresult⟩ := bind_ok.mp h
    rw [← Except.ok.inj hresult]
    exact .obj ["scenarios"] rfl (by decide) (by simp [hdemo scenarios hscenarios])
  | schemaExport out =>
    obtain ⟨files,_,hrest⟩ := bind_ok.mp h
    obtain ⟨directory,_,hresult⟩ := bind_ok.mp hrest
    have hfiles : Tame 4 (.arr (files.map .str)) :=
      .arr (List.forall_mem_map.mpr fun file _ => .str file)
    rw [← Except.ok.inj hresult]
    exact .obj ["output_dir","files"] rfl (by decide) (by simp [hfiles])

end Results

/-- Whatever a run comes to, a strict consumer reads it off the one line of JSON mode: of an
exception its code and message and no data; of a decision that decision, which the block of
text mode shows as well; and of every result its data. -/
theorem printed_reads_back {σ : Type} (b : Backend FixedTime σ) (p : Pydantic)
    (hcounts : p.ReadsCounts) (hnow : p.ReadsTime b.plat b.now) {limit : ℕ} (hlimit : 3 ≤ limit)
    (command : Command) :
    (∀ e, run b command = .error e → ∃ line fields,
      (main b true command).stdout = [line] ∧
      Tells limit line (errorEnvelope command.name (classify e).code (classify e).message) fields) ∧
    (∀ d, Decides b d command →
      (∃ line fields, (main b true command).stdout = [line] ∧
        Tells limit line (resultEnvelope command.name (decisionResult b (deniedCode command) d))
          fields ∧
        (item fields "data").bind (AdmissionDecision.parse p) = some d) ∧
      ∃ block data, (main b false command).stdout = [block] ∧
        loads strict limit block.toList = .ok data ∧ AdmissionDecision.parse p data = some d) ∧
    (6 ≤ limit → (∀ scenarios, b.runDemo = .ok scenarios → Tame 4 scenarios) →
      ∀ result, run b command = .ok result →
        (∃ line fields, (main b true command).stdout = [line] ∧
          Tells limit line (resultEnvelope command.name result) fields) ∧
        ∃ block, (main b false command).stdout = [block] ∧
          loads strict limit block.toList = .ok (readValue result.data)) := by
  refine ⟨fun e he => ?_,fun d hd => ?_,fun hlimit hdemo result hresult => ?_⟩
  · refine ⟨_,_,?_,envelope_tells 0 .null (by omega)⟩
    rw [main,he]
    rfl
  · obtain ⟨htime,hhops⟩ := decides_facts hd
    have hrun := run_of_decides hd
    have htame : Tame 2 (d.dump b.plat) := AdmissionDecision.dump_tame hhops
    have hparse : AdmissionDecision.parse p (readValue (d.dump b.plat)) = some d :=
      AdmissionDecision.parse_shows hcounts hhops (htime ▸ hnow) (shows_read htame.distinct)
    let envelope := resultEnvelope command.name (decisionResult b (deniedCode command) d)
    have htells : Tells limit (jsonLine envelope.json) envelope (record envelope.fields) :=
      envelope_tells 1 htame hlimit
    refine ⟨⟨_,_,?_,htells,?_⟩,_,_,?_,loads_jsonBlock (htame.mono (by omega)),hparse⟩
    · rw [main,hrun]
      rfl
    · rw [htells.data,Option.bind_some]
      exact hparse
    · rw [main,hrun]
      rfl
  · have htame := run_tame hdemo hresult
    refine ⟨⟨_,_,?_,envelope_tells 4 htame hlimit⟩,_,?_,loads_jsonBlock (htame.mono (by omega))⟩
    · rw [main,hresult]
      rfl
    · rw [main,hresult]
      rfl

theorem printed_reads_back_demo : ∃ (line : String) (fields : List (Str × Value))
    (d : AdmissionDecision FixedTime),
    (main (Demo.offline.reading Demo.pydantic Demo.attestationFiles) true
      (.verify "policy.yaml" "attestation.json" none)).stdout = [line] ∧
    loads strict 3 line.toList = .ok (.dict fields) ∧
    (item fields "data").bind (AdmissionDecision.parse Demo.pydantic) = some d ∧
    d.admitted = true := by
  obtain ⟨d,hd,hadmitted⟩ := Demo.attestation_read
  have hnow : Demo.pydantic.ReadsTime Demo.platform (Demo.minutes 0) :=
    (Demo.pydantic_legible (by simp)).reads
  obtain ⟨⟨line,fields,hstdout,htells,hdata⟩,_⟩ := (printed_reads_back
    (Demo.offline.reading Demo.pydantic Demo.attestationFiles) Demo.pydantic Demo.pydantic_counts hnow
    (le_refl 3) (.verify "policy.yaml" "attestation.json" none)).2.1 d hd
  exact ⟨line,fields,d,hstdout,htells.loads,hdata,hadmitted⟩

end LocusMesh
