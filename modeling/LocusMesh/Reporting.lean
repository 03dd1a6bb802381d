import Mathlib
import LocusMesh.Demo
import LocusMesh.ManagementUrl
import LocusMesh.StatusReport

/-! Which payloads the observer turns into an observation, and what the observation then says:
the checks of the adapter and the validators of the contract against each other. -/
namespace LocusMesh

open CanonicalJson AwareClock PyText PyJson MeshLlm Fallible

def FabricCandidateObservation.report (c : FabricCandidateObservation) : NodeReport :=
  ⟨c.candidateId.val.toList,c.state.val,c.servingModels.map fun m => m.val.toList,
    c.providerClaimedOwnerVerified⟩

namespace MeshLlm

theorem constrained_ok {p : String → Prop} [DecidablePred p] {location type : String}
    {s : Option Text} {a : {s : String // p s}} :
    constrained location type s = .ok a ↔ s = some a.val.toList := by
  unfold constrained
  split
  · simp
  · rename_i t
    have htext : t = a.val.toList ↔ String.ofList t = a.val :=
      ⟨fun h => by rw [h,String.ofList_toList],fun h => by rw [← h,String.toList_ofList]⟩
    rw [Option.some.injEq,htext]
    split_ifs with h
    · rw [Except.ok.injEq,Subtype.ext_iff]
    · simp only [false_iff]
      intro hs
      exact h (hs ▸ a.property)

end MeshLlm

theorem construct_ok {α : Type} [Contract α] {a : α} {v : Validated α} :
    Validated.construct a = .ok v ↔ v.val = a := by
  refine ⟨construct_val,?_⟩
  rintro rfl
  unfold Validated.construct
  split
  · rfl
  · rename_i e herror
    rw [v.accepted] at herror
    cases herror

theorem construct_error {α : Type} [Contract α] {a : α} {e : ContractError}
    (h : Contract.check a = .error e) : Validated.construct a = .error (.validationError e) := by
  unfold Validated.construct
  split
  · rename_i hok
    rw [h] at hok
    cases hok
  · rename_i e' herror
    rw [h] at herror
    rw [Except.error.inj herror]

namespace MeshLlm

theorem forall₂_eq_map {α β : Type} {f : β → α} {l : List α} {m : List β} :
    List.Forall₂ (fun a b => a = f b) l m ↔ l = m.map f := by
  rw [← List.forall₂_map_right_iff,List.forall₂_eq_eq_eq]

def observedNode (candidateId : PeerId) (state : StateLabel) (servingModels : List ModelId)
    (verified localNode : Bool) (scope : ObservedScope) : FabricCandidateObservation where
  provider := provider
  candidateId := candidateId
  localNode := localNode
  state := state
  servingModels := servingModels
  providerClaimedOwnerVerified := verified
  observedScope := scope

/-- A candidate is built from the projection of its own report, and of nothing else. -/
theorem candidate_ok {projected : ProjectedNode} {localNode : Bool} {scope : ObservedScope}
    {c : Validated FabricCandidateObservation} :
    candidate projected localNode scope = .ok c ↔ projected = c.val.report.projected ∧
      c.val = observedNode c.val.candidateId c.val.state c.val.servingModels
        c.val.providerClaimedOwnerVerified localNode scope := by
  obtain ⟨candidateId,label,servingModels,verified⟩ := projected
  simp only [candidate,bind_ok,mapM_ok,constrained_ok,construct_ok,encodable_eq_some,
    forall₂_eq_map,Option.some.injEq,String.toList_inj,FabricCandidateObservation.report,
    NodeReport.projected,ProjectedNode.mk.injEq,List.map_map]
  constructor
  · rintro ⟨id,rfl,state,rfl,models,rfl,hc⟩
    rw [hc]
    exact ⟨⟨rfl,rfl,rfl,rfl⟩,rfl⟩
  · rintro ⟨⟨hid,hstate,hmodels,hverified⟩,hc⟩
    refine ⟨_,hid,_,hstate,_,hmodels,?_⟩
    rw [hverified]
    exact hc

/-- What a node's part of a supported payload is bounded by. -/
structure NodeBounds (r : NodeReport) : Prop where
  id : peerIdPattern (String.ofList r.id) = true
  supported : r.state ∈ nodeStates
  modelCount : r.models.length ≤ 256
  modelNames : ∀ t ∈ r.models, t ≠ [] ∧ t.length ≤ 512
  modelsDistinct : r.models.Nodup

theorem boundaryReasons_nodup : boundaryReasons.Nodup := by decide

theorem nodeStates_pattern : ∀ label ∈ nodeStates, stateLabelPattern label = true := by decide

/-- Every bounded report is the report of a candidate that the contract accepts. -/
theorem candidate_exists {r : NodeReport} (h : NodeBounds r) (localNode : Bool)
    (scope : ObservedScope) :
    ∃ c, candidate r.projected localNode scope = .ok c ∧ c.val.report = r := by
  have hbounds : ∀ t ∈ r.models, 1 ≤ (String.ofList t).toList.length ∧
      (String.ofList t).toList.length ≤ 512 := by
    intro t ht
    rw [String.toList_ofList]
    exact ⟨List.length_pos_of_ne_nil (h.modelNames t ht).1,(h.modelNames t ht).2⟩
  obtain ⟨names,hnames⟩ : ∃ names : List ModelId, names.map (fun m => m.val.toList) = r.models :=
    ⟨r.models.pmap (fun t ht => ⟨String.ofList t,ht⟩) hbounds,by
      simp [List.map_pmap,List.pmap_eq_map]⟩
  obtain ⟨c,hc⟩ : ∃ c, c = observedNode ⟨String.ofList r.id,h.id⟩
      ⟨r.state,nodeStates_pattern _ h.supported⟩ names r.verified localNode scope := ⟨_,rfl⟩
  have hreport : c.report = r := by
    rw [hc]
    simp [FabricCandidateObservation.report,observedNode,hnames]
  have hnodup : names.Nodup := by
    refine List.Nodup.of_map (fun m : ModelId => m.val.toList) ?_
    rw [hnames]
    exact h.modelsDistinct
  have hcount : names.length ≤ 256 := by
    rw [← List.length_map (fun m : ModelId => m.val.toList),hnames]
    exact h.modelCount
  have hcheck : c.check = .ok () := by
    rw [hc,FabricCandidateObservation.check_ok]
    exact ⟨rfl,hcount,hnodup,boundaryReasons_nodup,fun reason hr => hr⟩
  refine ⟨⟨c,hcheck⟩,candidate_ok.mpr ⟨by rw [hreport],?_⟩,hreport⟩
  subst hc
  rfl

theorem candidates_ok {projected : List ProjectedNode} {scope : ObservedScope}
    {cs : List (Validated FabricCandidateObservation)}
    (h : projected.mapM (fun peer => candidate peer false scope) = .ok cs) :
    projected = cs.map (fun c => c.val.report.projected) ∧
      ∀ c ∈ cs, c.val.localNode = false ∧ c.val.observedScope = scope ∧
        c.val.provider = provider := by
  rw [mapM_ok] at h
  induction h with
  | nil => exact ⟨rfl,nofun⟩
  | cons hc _ ih =>
    obtain ⟨hp,hnode⟩ := candidate_ok.mp hc
    refine ⟨by rw [hp,ih.1,List.map_cons],List.forall_mem_cons.mpr ⟨?_,ih.2⟩⟩
    rw [hnode]
    exact ⟨rfl,rfl,rfl⟩

theorem candidates_exist {peers : List NodeReport} (h : ∀ n ∈ peers, NodeBounds n)
    (scope : ObservedScope) :
    ∃ cs, (peers.map NodeReport.projected).mapM (fun peer => candidate peer false scope) = .ok cs ∧
      cs.map (fun c => c.val.report) = peers := by
  induction peers with
  | nil => exact ⟨[],rfl,rfl⟩
  | cons n peers ih =>
    rw [List.forall_mem_cons] at h
    obtain ⟨c,hc,hreport⟩ := candidate_exists h.1 false scope
    obtain ⟨cs,hcs,hreports⟩ := ih h.2
    refine ⟨c :: cs,?_,by rw [List.map_cons,hreport,hreports]⟩
    rw [mapM_ok] at hcs ⊢
    exact List.Forall₂.cons hc hcs

theorem strJson_eq_some {s : Str} {j : Json} :
    strJson s = some j ↔ ∃ t, s = plain t ∧ j = .str (String.ofList t) := by
  rw [strJson,Option.map_eq_some_iff]
  constructor
  · rintro ⟨t,ht,rfl⟩
    exact ⟨t,encodable_eq_some.mp ht,rfl⟩
  · rintro ⟨t,ht,rfl⟩
    exact ⟨t,encodable_eq_some.mpr ht,rfl⟩

theorem strJson_plain (t : Text) : strJson (plain t) = some (.str (String.ofList t)) :=
  strJson_eq_some.mpr ⟨t,rfl,rfl⟩

theorem discovery_plain {d : Discovery} {j : Json} (h : d.json = some j) :
    ∃ mode scope source publication, d.meshDiscoveryMode = plain mode ∧
      d.discoveryScope = plain scope ∧ d.discoverySource = plain source ∧
        d.publicationState = plain publication := by
  simp only [Discovery.json,Option.bind_eq_bind,Option.bind_eq_some_iff,strJson_eq_some] at h
  obtain ⟨_,⟨mode,hmode,_⟩,_,⟨scope,hscope,_⟩,_,⟨source,hsource,_⟩,_,⟨publication,hpublication,_⟩,
    _⟩ := h
  exact ⟨mode,scope,source,publication,hmode,hscope,hsource,hpublication⟩

theorem projectionDigest_discovery {plat : Platform} {p : Projection} {digest : Digest}
    (h : projectionDigest plat p = .ok digest) : ∃ j, p.discovery.json = some j := by
  unfold projectionDigest at h
  split at h
  · rename_i v hv
    simp only [Projection.json,Option.bind_eq_bind,Option.bind_eq_some_iff] at hv
    obtain ⟨_,_,_,_,_,_,j,hj,_⟩ := hv
    exact ⟨j,hj⟩
  · cases h

def NodeReport.json (r : NodeReport) : Json := .obj
  [("candidate_id",.str (String.ofList r.id)),
   ("state",.str r.state),
   ("serving_models",.arr (r.models.map fun t => .str (String.ofList t))),
   ("provider_claimed_owner_verified",.bool r.verified)]

def StatusReport.json (r : StatusReport) : Json := .obj
  [("provider",text provider),
   ("provider_version",.str (String.ofList r.version)),
   ("local",r.localNode.json),
   ("peers",.arr (r.peers.map NodeReport.json)),
   ("discovery",.obj
     [("mesh_discovery_mode",.str (String.ofList r.meshDiscoveryMode)),
      ("discovery_scope",.str (String.ofList r.discoveryScope)),
      ("discovery_source",.str (String.ofList r.discoverySource)),
      ("nostr_discovery",.bool r.nostrDiscovery),
      ("publication_state",.str (String.ofList r.publicationState))])]

theorem mapM_of_forall {α β γ : Type} {f : β → Option γ} {g : α → β} {h : α → γ} {l : List α}
    (hf : ∀ a ∈ l, f (g a) = some (h a)) : (l.map g).mapM f = some (l.map h) := by
  induction l with
  | nil => rfl
  | cons a l ih =>
    rw [List.forall_mem_cons] at hf
    rw [List.map_cons,List.mapM_cons,hf.1,ih hf.2]
    rfl

theorem NodeReport.projected_json (r : NodeReport) : r.projected.json = some r.json := by
  have hmodels : (r.models.map plain).mapM strJson =
      some (r.models.map fun t => Json.str (String.ofList t)) :=
    mapM_of_forall fun t _ => strJson_plain t
  simp only [ProjectedNode.json,NodeReport.projected,strJson_plain,hmodels]
  rfl

theorem StatusReport.projection_json (r : StatusReport) : r.projection.json = some r.json := by
  have hpeers : (r.peers.map NodeReport.projected).mapM ProjectedNode.json =
      some (r.peers.map NodeReport.json) :=
    mapM_of_forall fun n _ => n.projected_json
  simp only [Projection.json,StatusReport.projection,Discovery.json,strJson_plain,
    NodeReport.projected_json,hpeers]
  rfl

theorem projectionDigest_report (plat : Platform) (r : StatusReport) :
    projectionDigest plat r.projection = .ok (sha256Digest plat r.json) := by
  rw [projectionDigest,r.projection_json]

end MeshLlm

theorem andThen_of_ok {ε α : Type} {x : Except ε Unit} {k : Except ε α} (h : x = .ok ()) :
    (do x; k) = k := by
  rw [h]
  rfl

/-- Up to the comparison of ids nothing is wrong with the observation. -/
theorem FabricObservation.check_repeated {τ : Type} [DatetimeArithmetic τ]
    {a : FabricObservation τ} (hversion : a.schemaVersion = "locusmesh.fabric-observation.v1")
    (hmin : 1 ≤ a.candidates.length) (hmax : a.candidates.length ≤ 256)
    (hchecked : ∀ c ∈ a.candidates, c.check = .ok ()) (hlt : lt a.observedAt a.expiresAt = true)
    (hlifetime : DatetimeArithmetic.sub a.expiresAt a.observedAt ≤ maxLifetime)
    (h : ¬a.candidateIds.Nodup) :
    a.check = .error ⟨"","candidates must contain unique candidate_id values"⟩ := by
  have hordered : (!ge a.observedAt a.expiresAt) = true := by
    rw [ge_eq_not_lt,Bool.not_not]
    exact hlt
  have hshort : (!decide (maxLifetime < DatetimeArithmetic.sub a.expiresAt a.observedAt)) = true := by
    rw [Bool.not_eq_true',decide_eq_false_iff_not,not_lt]
    exact hlifetime
  rw [FabricObservation.check,checkSchemaVersion,
    andThen_of_ok (require_ok.mpr (decide_eq_true hversion)),
    andThen_of_ok (require_ok.mpr (decide_eq_true hmin)),
    andThen_of_ok (require_ok.mpr (decide_eq_true hmax)),
    andThen_of_ok (checkEach_ok.mpr hchecked),andThen_of_ok (require_ok.mpr hordered),
    andThen_of_ok (require_ok.mpr hshort),decide_eq_false h]
  rfl

namespace MeshLlmStatusObserver

variable {u : Unicode} {τ : Type} [DatetimeArithmetic τ]

structure Shows (plat : Platform) (o : MeshLlmStatusObserver u) (now : τ) (r : StatusReport)
    (v : FabricObservation τ) : Prop where
  version : v.providerVersion.val.toList = r.version
  endpoint : v.sourceEndpoint.val.toList = o.sourceEndpoint
  digest : v.projectionDigest = sha256Digest plat r.json
  lifetime : v.observedAt = now ∧ v.expiresAt = DatetimeArithmetic.add now (o.ttlSeconds * 1000000)
  requested : v.requestedMaxScope = o.requestedMaxScope
  nodes : v.candidates.map FabricCandidateObservation.report = r.nodes
  localFirst : v.candidates.map FabricCandidateObservation.localNode =
    true :: r.peers.map fun _ => false
  scopes : ∀ c ∈ v.candidates, c.observedScope = v.observedScope
  privateMesh : v.observedScope.val = .privateMesh ↔ r.Private
  publicMesh : v.observedScope.val = .publicMesh ↔ ¬r.Private
  within : v.withinRequestedScope = true ↔
    scopeRank v.observedScope.val ≤ scopeRank o.requestedMaxScope

theorem observedScope_private (r : StatusReport) :
    (observedScope r.projection.discovery).val = .privateMesh ↔ r.Private := by
  have hplain : ∀ (t : Text) (s : String), plain t = str s ↔ t = s.toList := fun t s =>
    plain_injective.eq_iff (a := t) (b := s.toList)
  unfold observedScope
  simp only [StatusReport.projection,List.mem_cons,List.not_mem_nil,or_false,hplain]
  unfold StatusReport.Private
  simp only [List.mem_cons,List.not_mem_nil,or_false]
  split_ifs with h
  · exact iff_of_true rfl h
  · exact iff_of_false (by decide) h

theorem contract_length : 1 ≤ "mesh-llm.api-status.unversioned".toList.length ∧
    "mesh-llm.api-status.unversioned".toList.length ≤ 128 := by decide

def observed (o : MeshLlmStatusObserver u) (version : BoundedString 64)
    (endpoint : BoundedString 512) (digest : Digest) (scope : ObservedScope)
    (candidates : List FabricCandidateObservation) (now : τ) : FabricObservation τ where
  provider := provider
  providerVersion := version
  providerContract := ⟨"mesh-llm.api-status.unversioned",contract_length⟩
  sourceEndpoint := endpoint
  projectionDigest := digest
  observedAt := now
  expiresAt := DatetimeArithmetic.add now (o.ttlSeconds * 1000000)
  requestedMaxScope := o.requestedMaxScope
  observedScope := scope
  withinRequestedScope := decide (scopeRank scope.val ≤ scopeRank o.requestedMaxScope)
  candidates := candidates
  reasonCodes := [.observationOnly,.unversionedProviderSchema,
    if scope.val = .privateMesh then .privateLanStatusSignal else .publicOrAmbiguousStatusSignal,
    if decide (scopeRank scope.val ≤ scopeRank o.requestedMaxScope) then .scopeSignalWithinMaximum
    else .scopeSignalExceedsMaximum]

variable (plat : Platform) (o : MeshLlmStatusObserver u)

theorem reported_ids {candidates : List FabricCandidateObservation} {nodes : List NodeReport}
    (h : candidates.map FabricCandidateObservation.report = nodes) :
    (candidates.map FabricCandidateObservation.candidateId).Nodup ↔
      (nodes.map NodeReport.id).Nodup := by
  have hids : nodes.map NodeReport.id =
      (candidates.map FabricCandidateObservation.candidateId).map fun id => id.val.toList := by
    rw [← h,List.map_map,List.map_map]
    rfl
  have hinj : Function.Injective fun id : PeerId => id.val.toList := fun a b h =>
    Subtype.ext (String.toList_inj.mp h)
  rw [hids,List.nodup_map_iff hinj]

theorem observed_shows {r : StatusReport} {version : BoundedString 64}
    {endpoint : BoundedString 512} {candidates : List FabricCandidateObservation} {now : τ}
    (hversion : version.val.toList = r.version) (hendpoint : endpoint.val.toList = o.sourceEndpoint)
    (hnodes : candidates.map FabricCandidateObservation.report = r.nodes)
    (hfirst : candidates.map FabricCandidateObservation.localNode =
      true :: r.peers.map fun _ => false)
    (hscopes : ∀ c ∈ candidates, c.observedScope = observedScope r.projection.discovery) :
    Shows plat o now r (o.observed version endpoint (sha256Digest plat r.json)
      (observedScope r.projection.discovery) candidates now) where
  version := hversion
  endpoint := hendpoint
  digest := rfl
  lifetime := ⟨rfl,rfl⟩
  requested := rfl
  nodes := hnodes
  localFirst := hfirst
  scopes := hscopes
  privateMesh := observedScope_private r
  publicMesh := by
    rw [publicMesh_iff]
    exact (observedScope_private r).not
  within := decide_eq_true_iff

/-- An observation comes from a report with admissible ids, and shows it. -/
theorem project_report {payload : Mapping} {now : τ} {v : Validated (FabricObservation τ)}
    (h : o.project plat payload now = .ok v) :
    ∃ r, Reports u payload r ∧ r.Admissible ∧ o.sourceEndpoint.length ≤ 512 ∧
      Shows plat o now r v.val := by
  obtain ⟨_,_,_,_,_,_,hdistinct,_⟩ := FabricObservation.check_ok.mp v.accepted
  simp only [project,bind_ok,constrained_ok,construct_ok,Option.some.injEq] at h
  obtain ⟨p,hp,c,hc,cs,hcs,digest,hdigest,version,hversion,endpoint,hendpoint,hv⟩ := h
  obtain ⟨j,hj⟩ := projectionDigest_discovery hdigest
  obtain ⟨mode,scope,source,publication,hmode,hscope,hsource,hpublication⟩ := discovery_plain hj
  obtain ⟨hlocal,hnode⟩ := candidate_ok.mp hc
  obtain ⟨hpeers,hcandidates⟩ := candidates_ok hcs
  have hlocalNode : c.val.localNode = true ∧ c.val.observedScope = observedScope p.discovery := by
    rw [hnode]
    exact ⟨rfl,rfl⟩
  rw [encodable_eq_some] at hversion
  obtain ⟨r,hr⟩ : ∃ r : StatusReport, r = ⟨version.val.toList,c.val.report,
    cs.map fun c => c.val.report,mode,scope,source,p.discovery.nostrDiscovery,publication⟩ := ⟨_,rfl⟩
  have hprojection : p = r.projection := by
    obtain ⟨_,_,_,⟨_,_,_,nostr,_⟩⟩ := p
    simp only at hversion hlocal hpeers hmode hscope hsource hpublication
    rw [hr,hversion,hlocal,hpeers,hmode,hscope,hsource,hpublication]
    simp [StatusReport.projection]
  have hnodes : ((c :: cs).map Validated.val).map FabricCandidateObservation.report = r.nodes := by
    rw [hr]
    simp [StatusReport.nodes]
  have hfirst : ((c :: cs).map Validated.val).map FabricCandidateObservation.localNode =
      true :: r.peers.map fun _ => false := by
    have hfalse : cs.map (fun c => c.val.localNode) = cs.map fun _ => false :=
      List.map_congr_left fun c hc => (hcandidates c hc).1
    rw [hr]
    simp only [List.map_cons,List.map_map,hlocalNode.1]
    exact congrArg _ hfalse
  have hscopes : ∀ x ∈ (c :: cs).map Validated.val, x.observedScope = observedScope p.discovery := by
    simp only [List.map_cons,List.forall_mem_cons,List.forall_mem_map]
    exact ⟨hlocalNode.2,fun c hc => (hcandidates c hc).2.1⟩
  have hobserved : v.val = o.observed version endpoint digest (observedScope p.discovery)
    ((c :: cs).map Validated.val) now := hv
  rw [hobserved] at hdistinct ⊢
  rw [hprojection] at hp hdigest hscopes ⊢
  rw [projectionDigest_report,Except.ok.injEq] at hdigest
  refine ⟨r,projection_reports.mp hp,⟨?_,(reported_ids hnodes).mp hdistinct⟩,?_,?_⟩
  · intro n hn
    rw [← hnodes,List.mem_map] at hn
    obtain ⟨x,_,rfl⟩ := hn
    simp only [FabricCandidateObservation.report,String.ofList_toList]
    exact x.candidateId.property
  · rw [hendpoint]
    exact endpoint.property.2
  · rw [← hdigest]
    exact observed_shows plat o (by rw [hr]) hendpoint.symm hnodes hfirst hscopes

theorem nodeBounds {idKey stateKey : String} {node : Value} {n : NodeReport}
    (h : ReportsNode u idKey stateKey node n) (hid : peerIdPattern (String.ofList n.id) = true) :
    NodeBounds n :=
  ⟨hid,h.supported,h.modelCount,h.modelNames,h.modelsDistinct⟩

theorem peers_bounds {values : List Value} {peers : List NodeReport}
    (h : List.Forall₂ (ReportsNode u "id" "state") values peers)
    (hids : ∀ n ∈ peers, peerIdPattern (String.ofList n.id) = true) :
    ∀ n ∈ peers, NodeBounds n := by
  induction h with
  | nil => exact nofun
  | cons hn _ ih =>
    rw [List.forall_mem_cons] at hids ⊢
    exact ⟨nodeBounds hn hids.1,ih hids.2⟩

theorem observed_lifetime (now : τ) :
    lt now (DatetimeArithmetic.add now (o.ttlSeconds * 1000000)) = true ∧
      DatetimeArithmetic.sub (DatetimeArithmetic.add now (o.ttlSeconds * 1000000)) now ≤
        maxLifetime := by
  have hbounds := o.ttl_bounds
  constructor
  · have hpos : (0 : ℤ) < o.ttlSeconds * 1000000 := by omega
    rw [lt,DatetimeArithmetic.cmp_add,compare_lt_iff_lt.mpr hpos]
    rfl
  · rw [DatetimeArithmetic.sub_add,maxLifetime]
    omega

theorem scopeRank_eq (scope : ExecutionIntent) :
    scopeRank scope = Models.executionScopeRank scope := by
  cases scope <;> rfl

/-- Of what the observer builds the contract can refuse no more than repeated ids. -/
theorem observed_check {version : BoundedString 64} {endpoint : BoundedString 512}
    {digest : Digest} {scope : ObservedScope} {candidates : List FabricCandidateObservation}
    {now : τ} (hmin : 1 ≤ candidates.length) (hmax : candidates.length ≤ 256)
    (hchecked : ∀ c ∈ candidates, c.check = .ok () ∧ c.provider = provider ∧
      c.observedScope = scope) :
    (o.observed version endpoint digest scope candidates now).check =
      if (candidates.map FabricCandidateObservation.candidateId).Nodup then .ok ()
      else .error ⟨"","candidates must contain unique candidate_id values"⟩ := by
  obtain ⟨hlt,hlifetime⟩ := o.observed_lifetime now
  split_ifs with hnodup
  · rw [FabricObservation.check_ok]
    refine ⟨rfl,hmin,hmax,fun c hc => (hchecked c hc).1,hlt,hlifetime,hnodup,
      fun c hc => (hchecked c hc).2.1,fun c hc => (hchecked c hc).2.2,?_,?_,?_,?_,?_⟩
    · simp only [observed]
      split_ifs <;> decide
    · simp [observed,ReasonCode.scopeSignal]
    · simp [observed,ReasonCode.statusSignal]
    · simp only [observed,decide_eq_true_eq,scopeRank_eq]
    · exact List.mem_cons_self
  · exact FabricObservation.check_repeated rfl hmin hmax (fun c hc => (hchecked c hc).1) hlt
      hlifetime hnodup

theorem sourceEndpoint_ne_nil : o.sourceEndpoint ≠ [] := by
  obtain ⟨value,hvalue⟩ := o.origin
  obtain ⟨p,hparse,_⟩ := statusUrl_parsed hvalue
  rw [(statusUrl_ok hparse hvalue).2.1]
  simp

/-- What becomes of a report: the endpoint and the ids are all that may still be refused. -/
theorem report_project {payload : Mapping} {r : StatusReport} (h : Reports u payload r)
    (hids : ∀ n ∈ r.nodes, peerIdPattern (String.ofList n.id) = true)
    (hendpoint : o.sourceEndpoint.length ≤ 512) (now : τ) :
    ∃ a : FabricObservation τ, o.project plat payload now = Validated.construct a ∧
      a.check = if (r.nodes.map NodeReport.id).Nodup then .ok ()
        else .error ⟨"","candidates must contain unique candidate_id values"⟩ := by
  have hp := projection_reports.mpr h
  obtain ⟨values,_,hcount,hpeers⟩ := h.peers
  rw [StatusReport.nodes,List.forall_mem_cons] at hids
  obtain ⟨c,hc,hreport⟩ := candidate_exists (nodeBounds h.localNode hids.1) true
    (observedScope r.projection.discovery)
  obtain ⟨cs,hcs,hreports⟩ := candidates_exist (peers_bounds hpeers hids.2)
    (observedScope r.projection.discovery)
  have hlength : cs.length = r.peers.length := by rw [← hreports,List.length_map]
  have hbounds : ∀ {maximum : ℕ} {t : Text}, t ≠ [] → t.length ≤ maximum →
      1 ≤ (String.ofList t).toList.length ∧ (String.ofList t).toList.length ≤ maximum := by
    intro maximum t hne hle
    rw [String.toList_ofList]
    exact ⟨List.length_pos_of_ne_nil hne,hle⟩
  obtain ⟨version,hversion⟩ : ∃ version : BoundedString 64, version.val = String.ofList r.version :=
    ⟨⟨_,hbounds h.version.nonempty h.version.bounded⟩,rfl⟩
  obtain ⟨endpoint,hendpoint'⟩ : ∃ endpoint : BoundedString 512,
      endpoint.val = String.ofList o.sourceEndpoint :=
    ⟨⟨_,hbounds o.sourceEndpoint_ne_nil hendpoint⟩,rfl⟩
  have hversioned : constrained "provider_version" "string_too_long"
      r.projection.providerVersion.encodable = .ok version := by
    rw [constrained_ok,encodable_eq_some,hversion,String.toList_ofList]
    rfl
  have hlocated : constrained "source_endpoint" "string_too_long" (some o.sourceEndpoint) =
      .ok endpoint := by
    rw [constrained_ok,hendpoint',String.toList_ofList]
  refine ⟨o.observed version endpoint (sha256Digest plat r.json)
    (observedScope r.projection.discovery) ((c :: cs).map Validated.val) now,?_,?_⟩
  · have hc' : candidate r.projection.localNode true (observedScope r.projection.discovery) =
        .ok c := hc
    have hcs' : r.projection.peers.mapM (fun peer => candidate peer false
        (observedScope r.projection.discovery)) = .ok cs := hcs
    simp only [project,hp,bind,Except.bind,hc',hcs',projectionDigest_report,hversioned,hlocated]
    rfl
  · have hnodes : ((c :: cs).map Validated.val).map FabricCandidateObservation.report =
        r.nodes := by
      simp [StatusReport.nodes,hreport,← hreports]
    have hmax : ((c :: cs).map Validated.val).length ≤ 256 := by
      rw [List.length_map,List.length_cons,hlength,← hpeers.length_eq]
      omega
    have hchecked : ∀ x ∈ (c :: cs).map Validated.val, x.check = .ok () ∧ x.provider = provider ∧
        x.observedScope = observedScope r.projection.discovery := by
      rw [List.map_cons,List.forall_mem_cons,List.forall_mem_map]
      refine ⟨⟨c.accepted,?_⟩,fun x hx => ⟨x.accepted,?_⟩⟩
      · rw [(candidate_ok.mp hc).2]
        exact ⟨rfl,rfl⟩
      · exact ⟨((candidates_ok hcs).2 x hx).2.2,((candidates_ok hcs).2 x hx).2.1⟩
    rw [observed_check o (by simp) hmax hchecked]
    simp only [reported_ids hnodes]

theorem report_observed {payload : Mapping} {r : StatusReport} (h : Reports u payload r)
    (hadmissible : r.Admissible) (hendpoint : o.sourceEndpoint.length ≤ 512) (now : τ) :
    ∃ v, o.project plat payload now = .ok v := by
  obtain ⟨a,ha,hcheck⟩ := o.report_project plat h hadmissible.ids hendpoint now
  rw [if_pos hadmissible.distinct] at hcheck
  exact ⟨⟨a,hcheck⟩,by rw [ha,construct_ok]⟩

/-- The observer yields an observation exactly of the supported payloads, provided that its
own endpoint fits the contract. The observation shows what was reported, and the validators
across the contract's fields refuse repeated ids and nothing else. -/
theorem projection_complete (payload : Mapping) (now : τ) :
    ((∃ v, o.project plat payload now = .ok v) ↔
      Supported u payload ∧ o.sourceEndpoint.length ≤ 512) ∧
    (∀ v, o.project plat payload now = .ok v →
      ∃ r, Reports u payload r ∧ Shows plat o now r v.val) ∧
    ∀ r, Reports u payload r → (∀ n ∈ r.nodes, peerIdPattern (String.ofList n.id) = true) →
      o.sourceEndpoint.length ≤ 512 → ¬(r.nodes.map NodeReport.id).Nodup →
        o.project plat payload now =
          .error (.validationError ⟨"","candidates must contain unique candidate_id values"⟩) := by
  refine ⟨⟨?_,?_⟩,?_,?_⟩
  · rintro ⟨v,hv⟩
    obtain ⟨r,hreports,hadmissible,hendpoint,_⟩ := o.project_report plat hv
    exact ⟨⟨r,hreports,hadmissible⟩,hendpoint⟩
  · rintro ⟨⟨r,hreports,hadmissible⟩,hendpoint⟩
    exact o.report_observed plat hreports hadmissible hendpoint now
  · intro v hv
    obtain ⟨r,hreports,_,_,hshows⟩ := o.project_report plat hv
    exact ⟨r,hreports,hshows⟩
  · intro r hreports hids hendpoint hrepeated
    obtain ⟨a,ha,hcheck⟩ := o.report_project plat hreports hids hendpoint now
    rw [if_neg hrepeated] at hcheck
    rw [ha,construct_error hcheck]

end MeshLlmStatusObserver

namespace Demo

open MeshLlmStatusObserver

def statusOf (state : String) (others : Mapping) : Mapping :=
  [(str "version",textValue "1".toList),(str "node_id",textValue "node".toList),
   (str "node_state",textValue state.toList),(str "serving_models",.list []),
   (str "owner",.dict [(str "verified",.leaf (.bool true))]),
   (str "mesh_discovery_mode",textValue "mdns".toList),
   (str "discovery_scope",textValue "lan".toList),
   (str "discovery_source",textValue "mdns".toList),
   (str "nostr_discovery",.leaf (.bool false)),
   (str "publication_state",textValue "private".toList),(str "peers",.list [])] ++ others

def statusPayload : Mapping := statusOf "Serving" []

def statusReport : StatusReport where
  version := "1".toList
  localNode := ⟨"node".toList,"serving",[],true⟩
  peers := []
  meshDiscoveryMode := "mdns".toList
  discoveryScope := "lan".toList
  discoverySource := "mdns".toList
  nostrDiscovery := false
  publicationState := "private".toList

theorem status_reported : Reports ascii statusPayload statusReport :=
  projection_reports.mp (by rfl)

theorem status_admissible : statusReport.Admissible := by
  refine ⟨?_,by decide⟩
  intro n hn
  rw [List.mem_singleton.mp hn]
  decide

/-- A loopback origin, its port with leading zeros up to one character more than the contract
has room for. -/
def paddedUrl : Text := "http://127.0.0.1:".toList ++ (List.replicate 492 '0' ++ "3131".toList)

theorem padded_length (n : ℕ) : ("http://127.0.0.1:".toList ++
    (List.replicate n '0' ++ "3131".toList)).length = 21 + n := by
  rw [List.length_append,List.length_append,List.length_replicate]
  show 17 + (n + 4) = 21 + n
  omega

theorem paddedUrl_length : paddedUrl.length = 513 := padded_length 492

set_option maxRecDepth 4000 in
theorem padded_accepted : LocusMesh.statusUrl ascii paddedUrl =
    .ok (paddedUrl,paddedUrl ++ "/api/status".toList) := by rfl

theorem padded_timeout : minTimeout ≤ 2 ∧ (2 : ℚ) ≤ 30 := by norm_num [minTimeout]

theorem padded_ttl : (1 : ℤ) ≤ 5 ∧ (5 : ℤ) ≤ 60 := by norm_num

def paddedObserver : MeshLlmStatusObserver ascii where
  sourceEndpoint := paddedUrl
  statusUrl := paddedUrl ++ "/api/status".toList
  requestedMaxScope := .privateMesh
  timeoutSeconds := 2
  ttlSeconds := 5
  timeout_bounds := padded_timeout
  ttl_bounds := padded_ttl
  origin := ⟨paddedUrl,padded_accepted⟩

end Demo

/-- An observer whose origin is longer than the contract allows observes nothing. -/
theorem projection_overlong_demo : Supported Demo.ascii Demo.statusPayload ∧
    ¬∃ v, Demo.paddedObserver.project Demo.platform Demo.statusPayload (Demo.minutes 0) = .ok v := by
  refine ⟨⟨Demo.statusReport,Demo.status_reported,Demo.status_admissible⟩,?_⟩
  rintro ⟨v,hv⟩
  obtain ⟨r,_,_,hendpoint,_⟩ := Demo.paddedObserver.project_report Demo.platform hv
  have hlength : Demo.paddedObserver.sourceEndpoint.length = 513 := Demo.paddedUrl_length
  rw [hlength] at hendpoint
  exact absurd hendpoint (by decide)

end LocusMesh
