import Mathlib
import LocusMesh.Console
import LocusMesh.StatusObserver
import LocusMesh.Attestation

/-! The command line: seven commands over the effects they need, and `main`, which turns
what a command returns or raises into an envelope and an exit code. -/
namespace LocusMesh

open CanonicalJson AwareClock PyText PyOpener

abbrev Path := String

/-- A parsed command line; a timeout that is not finite is `none`. -/
inductive Command
  | doctor
  | probe (topology : Path)
  | observeMeshLlm (managementUrl : Text) (maxScope : ExecutionIntent)
    (timeoutSeconds : Option ℚ) (ttlSeconds : ℤ)
  | admitPlan (policy plan : Path)
  | verify (policy attestation : Path) (nonceStore : Option Path)
  | demo
  | schemaExport (out : Path)

def Command.name : Command → String
  | .doctor => "doctor"
  | .probe _ => "probe"
  | .observeMeshLlm _ _ _ _ => "observe mesh-llm"
  | .admitPlan _ _ => "admit"
  | .verify _ _ _ => "verify"
  | .demo => "demo"
  | .schemaExport _ => "schema export"

/-- A replay store that a `with` statement opens and closes. -/
structure StoreSession (σ : Type) where
  store : ReplayStore σ
  opened : σ
  close : σ → Option PyError × σ

def withStore {σ α : Type} (session : StoreSession σ)
    (block : ReplayStore σ → σ → Except PyError α × σ) : Except PyError α × σ :=
  let (outcome,s) := block session.store session.opened
  let (exit,s) := session.close s
  (withExit exit outcome,s)

/-- Everything outside the core that a command relies on; each effect may raise anything. -/
structure Backend (τ σ : Type) [DatetimeArithmetic τ] where
  plat : Platform
  unicode : Unicode
  nestingLimit : ℕ
  version : String
  python : String
  packageVersion : String → Except PyError String
  now : τ
  snapshot : Path → Except PyError (Validated (TopologySnapshot τ))
  loadPolicy : Path → Except PyError (Validated (AdmissionPolicy τ))
  loadPlan : Path → Except PyError (Validated (RoutePlan τ))
  loadAttestation : Path → Except PyError (Validated (RouteAttestation τ))
  endpoint : Request → Exchange
  replay : Path → StoreSession σ
  runDemo : Except PyError Json
  exportSchemas : Path → Except PyError (List String)
  resolve : Path → Except PyError String

structure Result where
  ok : Bool
  data : Json
  exitCode : ℕ

section Run

variable {τ σ : Type} [DatetimeArithmetic τ] (b : Backend τ σ)

/-- A decision as a result, with the exit code of a denial. -/
def decisionResult (denied : ℕ) (d : AdmissionDecision τ) : Result :=
  ⟨d.admitted,d.dump b.plat,if d.admitted then 0 else denied⟩

def doctor : Except PyError Result := do
  let packages ← ["cryptography","pydantic","PyYAML"].mapM fun name => do
    let version ← b.packageVersion name
    .ok (name,Json.str version)
  .ok ⟨true,.obj
    [("version",.str b.version),
     ("python",.str b.python),
     ("admission_offline",.bool true),
     ("observation_network_required",.bool true),
     ("secret_required",.bool false),
     ("dependencies",.obj packages)],0⟩

def probe (topology : Path) : Except PyError Result := do
  let topology ← b.snapshot topology
  let topology := topology.val
  .ok ⟨true,.obj
    [("snapshot_id",text topology.snapshotId),
     ("local_peer_id",text topology.localPeerId),
     ("peer_count",.int topology.peers.length),
     ("edge_count",.int topology.edges.length),
     ("valid_now",.bool (inWindow topology.capturedAt topology.expiresAt b.now)),
     ("topology_digest",text (topologyDigest b.plat topology)),
     ("peers",.arr (topology.peers.map fun peer => .obj
       [("peer_id",text peer.peerId),
        ("execution_scope",.str peer.executionScope.value),
        ("evidence_level",.str peer.evidenceLevel.value),
        ("key_id",text peer.keyId)]))],0⟩

def observation (managementUrl : Text) (maxScope : ExecutionIntent) (timeoutSeconds : Option ℚ)
    (ttlSeconds : ℤ) : Except PyError (Validated (FabricObservation τ)) := do
  let observer ← MeshLlmStatusObserver.create b.unicode managementUrl maxScope timeoutSeconds
    ttlSeconds
  observer.observe b.plat b.nestingLimit b.endpoint b.now

def observationResult (o : Validated (FabricObservation τ)) : Result :=
  ⟨o.val.withinRequestedScope,o.val.dump b.plat,if o.val.withinRequestedScope then 0 else 5⟩

def admitDecision (policy plan : Path) : Except PyError (AdmissionDecision τ) := do
  let policy ← b.loadPolicy policy
  let plan ← b.loadPlan plan
  admitPlan b.plat plan.val policy.val b.now

def verifyDecision (policy attestation : Path) (nonceStore : Option Path) :
    Except PyError (AdmissionDecision τ) := do
  let policy ← b.loadPolicy policy
  let attestation ← b.loadAttestation attestation
  match nonceStore with
  | none => verify b.plat policy.val b.now attestation.val
  | some path =>
    (withStore (b.replay path) fun store s =>
      verifyAttestation b.plat policy.val b.now attestation.val (some store) s).1

def run : Command → Except PyError Result
  | .doctor => doctor b
  | .probe topology => probe b topology
  | .observeMeshLlm managementUrl maxScope timeoutSeconds ttlSeconds => do
    let o ← observation b managementUrl maxScope timeoutSeconds ttlSeconds
    .ok (observationResult b o)
  | .admitPlan policy plan => do
    let d ← admitDecision b policy plan
    .ok (decisionResult b 3 d)
  | .verify policy attestation nonceStore => do
    let d ← verifyDecision b policy attestation nonceStore
    .ok (decisionResult b 4 d)
  | .demo => do
    let scenarios ← b.runDemo
    .ok ⟨true,.obj [("scenarios",scenarios)],0⟩
  | .schemaExport out => do
    let files ← b.exportSchemas out
    let outputDir ← b.resolve out
    .ok ⟨true,.obj [("output_dir",.str outputDir),("files",.arr (files.map .str))],0⟩

end Run

structure Envelope where
  command : String
  ok : Bool
  data : Json
  error : Option (String × String)

def Envelope.json (envelope : Envelope) : Json := .obj
  [("schema_version",.str "locusmesh.cli-output.v1"),
   ("command",.str envelope.command),
   ("ok",.bool envelope.ok),
   ("data",envelope.data),
   ("error",optional (fun error => .obj [("code",.str error.1),("message",.str error.2)])
     envelope.error)]

def resultEnvelope (command : String) (result : Result) : Envelope :=
  ⟨command,result.ok,result.data,none⟩

def errorEnvelope (command code message : String) : Envelope :=
  ⟨command,false,.null,some (code,message)⟩

def ErrorDetail.json (detail : ErrorDetail) : Json := .obj
  [("location",.arr (detail.location.map .str)),
   ("message",.str detail.message),
   ("type",.str detail.type)]

structure Failure where
  code : String
  message : String
  exitCode : ℕ

/-- The `except` clauses of `main`, in their order. -/
def classify (e : PyError) : Failure :=
  if e.isInstance .validationError then
    ⟨"INPUT_INVALID",jsonLine (.arr (e.details.map ErrorDetail.json)),2⟩
  else if e.isInstance .yamlError then ⟨"INPUT_INVALID","invalid YAML input",2⟩
  else if e.isInstance .sqliteError then
    ⟨"STATE_UNAVAILABLE","configured state store is unavailable",2⟩
  else if e.isInstance .fabricObservationError then
    ⟨"OBSERVATION_UNAVAILABLE","provider observation was unavailable or incompatible",2⟩
  else if e.isInstance .osError || e.isInstance .valueError then ⟨"INPUT_INVALID",e.text,2⟩
  else ⟨"INTERNAL_ERROR","unexpected internal failure; no admission granted",1⟩

structure Output where
  stdout : List String
  stderr : List String
  exitCode : ℕ
  deriving DecidableEq

def report (json : Bool) (command : String) : Except PyError Result → Output
  | .error e =>
    let failure := classify e
    ⟨if json then [jsonLine (errorEnvelope command failure.code failure.message).json] else [],
      ["locusmesh: " ++ failure.code ++ ": " ++ failure.message],failure.exitCode⟩
  | .ok result =>
    if json then ⟨[jsonLine (resultEnvelope command result).json],[],result.exitCode⟩
    else ⟨[jsonBlock result.data],
      if result.ok then [] else ["locusmesh: operation did not satisfy its boundary"],
      result.exitCode⟩

def main {τ σ : Type} [DatetimeArithmetic τ] (b : Backend τ σ) (json : Bool) (command : Command) :
    Output :=
  report json command.name (run b command)

end LocusMesh
