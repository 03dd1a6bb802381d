import Mathlib
import LocusMesh.Digests
import LocusMesh.Endpoint
import LocusMesh.Reporting

/-! Which fields of a payload an observation depends on, and that its projection digest pins
every one of them. -/
namespace LocusMesh

open CanonicalJson AwareClock PyText PyJson MeshLlm Fallible

namespace MeshLlm

@[ext] structure NodeSelection where
  id : Option Value
  state : Option Value
  models : Option Value
  verified : Option Value

@[ext] structure Selection where
  version : Option Value
  localNode : NodeSelection
  meshDiscoveryMode : Option Value
  discoveryScope : Option Value
  discoverySource : Option Value
  nostrDiscovery : Option Value
  publicationState : Option Value
  peers : Option (List NodeSelection)

def selectNode (asState : Value → Value) (idKey stateKey : String) (node : Value) :
    NodeSelection where
  id := field node idKey
  state := (field node stateKey).map asState
  models := field node "serving_models"
  verified := (field node "owner").bind (field · "verified")

def listItems : Value → Option (List Value)
  | .list items => some items
  | _ => none

def select (asState : Value → Value) (payload : Mapping) : Selection where
  version := field (.dict payload) "version"
  localNode := selectNode asState "node_id" "node_state" (.dict payload)
  meshDiscoveryMode := field (.dict payload) "mesh_discovery_mode"
  discoveryScope := field (.dict payload) "discovery_scope"
  discoverySource := field (.dict payload) "discovery_source"
  nostrDiscovery := field (.dict payload) "nostr_discovery"
  publicationState := field (.dict payload) "publication_state"
  peers := ((field (.dict payload) "peers").bind listItems).map
    (List.map (selectNode asState "id" "state"))

def lowered (u : Unicode) : Value → Value
  | .leaf (.str s) =>
    match s.encodable with
    | some t => textValue (u.lower t)
    | none => .leaf (.str s)
  | v => v

theorem reportsNode_congr {u : Unicode} {idKey stateKey : String} {node node' : Value}
    {r : NodeReport} (h : ReportsNode u idKey stateKey node r)
    (hsame : selectNode id idKey stateKey node = selectNode id idKey stateKey node') :
    ReportsNode u idKey stateKey node' r := by
  obtain ⟨hid,hstate,hmodels,hverified⟩ := NodeSelection.ext_iff.mp hsame
  simp only [selectNode,Option.map_id_fun,id_eq] at hid hstate hmodels hverified
  refine ⟨hid ▸ h.id,hstate ▸ h.state,h.supported,hmodels ▸ h.models,h.modelCount,h.modelNames,
    h.modelsDistinct,hverified ▸ h.verified⟩

theorem listItems_eq_some {v : Value} {items : List Value} :
    listItems v = some items ↔ v = .list items := by
  cases v <;> simp [listItems]

theorem reportsNodes_congr {u : Unicode} {idKey stateKey : String} {nodes nodes' : List Value}
    {reports : List NodeReport} (h : List.Forall₂ (ReportsNode u idKey stateKey) nodes reports)
    (hsame : nodes.map (selectNode id idKey stateKey) = nodes'.map (selectNode id idKey stateKey)) :
    List.Forall₂ (ReportsNode u idKey stateKey) nodes' reports := by
  induction h generalizing nodes' with
  | nil =>
    rw [List.map_nil,eq_comm,List.map_eq_nil_iff] at hsame
    rw [hsame]
    exact .nil
  | cons hn _ ih =>
    cases nodes' with
    | nil => cases hsame
    | cons node' nodes' =>
      obtain ⟨hhead,htail⟩ := List.cons.inj hsame
      exact .cons (reportsNode_congr hn hhead) (ih htail)

theorem reports_congr {u : Unicode} {payload payload' : Mapping} {r : StatusReport}
    (h : Reports u payload r) (hsame : select id payload = select id payload') :
    Reports u payload' r := by
  obtain ⟨hversion,hlocal,hmode,hscope,hsource,hnostr,hpublication,hpeers⟩ :=
    Selection.ext_iff.mp hsame
  simp only [select] at hversion hlocal hmode hscope hsource hnostr hpublication hpeers
  refine ⟨hversion ▸ h.version,reportsNode_congr h.localNode hlocal,hmode ▸ h.meshDiscoveryMode,
    hscope ▸ h.discoveryScope,hsource ▸ h.discoverySource,hnostr ▸ h.nostrDiscovery,
    hpublication ▸ h.publicationState,?_⟩
  obtain ⟨values,hlist,hcount,hreports⟩ := h.peers
  rw [hlist,Option.bind_some,listItems,Option.map_some,eq_comm,Option.map_eq_some_iff] at hpeers
  obtain ⟨values',hitems,hselected⟩ := hpeers
  rw [Option.bind_eq_some_iff] at hitems
  obtain ⟨v,hv,hvalues⟩ := hitems
  rw [listItems_eq_some] at hvalues
  refine ⟨values',by rw [hv,hvalues],?_,reportsNodes_congr hreports hselected.symm⟩
  have hlength := congrArg List.length hselected
  rw [List.length_map,List.length_map] at hlength
  omega

def NodeReport.selection (r : NodeReport) : NodeSelection where
  id := some (textValue r.id)
  state := some (textValue r.state.toList)
  models := some (.list (r.models.map textValue))
  verified := some (.leaf (.bool r.verified))

def StatusReport.selection (r : StatusReport) : Selection where
  version := some (textValue r.version)
  localNode := r.localNode.selection
  meshDiscoveryMode := some (textValue r.meshDiscoveryMode)
  discoveryScope := some (textValue r.discoveryScope)
  discoverySource := some (textValue r.discoverySource)
  nostrDiscovery := some (.leaf (.bool r.nostrDiscovery))
  publicationState := some (textValue r.publicationState)
  peers := some (r.peers.map NodeReport.selection)

theorem lowered_text (u : Unicode) (t : Text) : lowered u (textValue t) = textValue (u.lower t) := by
  have hplain : (plain t).encodable = some t := encodable_eq_some.mpr rfl
  simp only [textValue,lowered,hplain]

theorem selectNode_report {u : Unicode} {idKey stateKey : String} {node : Value} {r : NodeReport}
    (h : ReportsNode u idKey stateKey node r) :
    selectNode (lowered u) idKey stateKey node = r.selection := by
  obtain ⟨t,ht,hstate⟩ := h.state
  have hlowered : (field node stateKey).map (lowered u) = some (textValue r.state.toList) := by
    rw [ht.value,Option.map_some,lowered_text,hstate,String.toList_ofList]
  rw [selectNode,h.id.value,hlowered,h.models,h.verified]
  rfl

theorem selectNodes_report {u : Unicode} {idKey stateKey : String} {nodes : List Value}
    {reports : List NodeReport} (h : List.Forall₂ (ReportsNode u idKey stateKey) nodes reports) :
    nodes.map (selectNode (lowered u) idKey stateKey) = reports.map NodeReport.selection := by
  induction h with
  | nil => rfl
  | cons hn _ ih => rw [List.map_cons,List.map_cons,selectNode_report hn,ih]

theorem select_report {u : Unicode} {payload : Mapping} {r : StatusReport}
    (h : Reports u payload r) : select (lowered u) payload = r.selection := by
  obtain ⟨values,hlist,_,hreports⟩ := h.peers
  have hpeers := selectNodes_report hreports
  rw [select,h.version.value,selectNode_report h.localNode,h.meshDiscoveryMode.value,
    h.discoveryScope.value,h.discoverySource.value,h.nostrDiscovery,h.publicationState.value,hlist,
    Option.bind_some,listItems,Option.map_some,hpeers]
  rfl

theorem textValue_injective : Function.Injective textValue := fun _ _ h =>
  plain_injective (Leaf.str.inj (Value.leaf.inj h))

theorem nodeSelection_injective : Function.Injective NodeReport.selection := by
  rintro ⟨i,s,m,v⟩ ⟨i',s',m',v'⟩ h
  simp only [NodeReport.selection,NodeSelection.mk.injEq,Option.some.injEq,Value.list.injEq,
    Value.leaf.injEq,Leaf.bool.injEq,textValue_injective.eq_iff,String.toList_inj,
    (List.map_injective_iff.mpr textValue_injective).eq_iff] at h
  obtain ⟨rfl,rfl,rfl,rfl⟩ := h
  rfl

theorem selection_injective : Function.Injective StatusReport.selection := by
  rintro ⟨version,l,peers,mode,scope,source,nostr,publication⟩
    ⟨version',l',peers',mode',scope',source',nostr',publication'⟩ h
  simp only [StatusReport.selection,Selection.mk.injEq,Option.some.injEq,Value.leaf.injEq,
    Leaf.bool.injEq,textValue_injective.eq_iff,nodeSelection_injective.eq_iff,
    (List.map_injective_iff.mpr nodeSelection_injective).eq_iff] at h
  obtain ⟨rfl,rfl,rfl,rfl,rfl,rfl,rfl,rfl⟩ := h
  rfl

theorem sortKeys_chars {s t : Text} :
    sortKeys (.str (String.ofList s)) = sortKeys (.str (String.ofList t)) ↔ s = t := by
  rw [sortKeys_str,String.ofList_inj]

theorem sortKeys_bool {a b : Bool} : sortKeys (.bool a) = sortKeys (.bool b) ↔ a = b := by
  simp [sortKeys]

theorem NodeReport.json_inj (r s : NodeReport) : sortKeys r.json = sortKeys s.json ↔ r = s := by
  rw [NodeReport.json,NodeReport.json,sortKeys_record (by rfl) (by simp),NodeReport.ext_iff]
  simp only [sortEntries,List.cons.injEq,Prod.mk.injEq,true_and,and_true,sortKeys_str,
    String.ofList_inj,sortKeys_bool,sortKeys_arr (fun _ _ => sortKeys_chars)]

theorem StatusReport.json_inj (r s : StatusReport) :
    sortKeys r.json = sortKeys s.json ↔ r = s := by
  rw [StatusReport.json,StatusReport.json,sortKeys_record (by rfl) (by simp),StatusReport.ext_iff]
  simp only [sortEntries,List.cons.injEq,Prod.mk.injEq,true_and,and_true,sortKeys_chars,
    NodeReport.json_inj,sortKeys_arr NodeReport.json_inj]
  rw [sortKeys_record (by rfl) (by simp)]
  simp only [sortEntries,List.cons.injEq,Prod.mk.injEq,true_and,and_true,sortKeys_chars,
    sortKeys_bool]

/-- What SHA-256 is given for the projection of a payload. -/
def digestInputs (u : Unicode) (payload : Mapping) : Set (List UInt8) :=
  {raw | ∃ p v, projection u payload = .ok p ∧ p.json = some v ∧ raw = canonicalJsonBytes v}

theorem digestInputs_report {u : Unicode} {payload : Mapping} {r : StatusReport}
    (h : Reports u payload r) : digestInputs u payload = {canonicalJsonBytes r.json} := by
  ext raw
  simp only [digestInputs,projection_reports.mpr h,Set.mem_ofPred_eq,Set.mem_singleton_iff,
    Except.ok.injEq,exists_and_left,exists_eq_left',r.projection_json,Option.some.injEq]

theorem mem_digestInputs {u : Unicode} {payload : Mapping} {r : StatusReport}
    (h : Reports u payload r) : canonicalJsonBytes r.json ∈ digestInputs u payload := by
  rw [digestInputs_report h]
  rfl

end MeshLlm

namespace MeshLlmStatusObserver

variable {u : Unicode} {τ : Type} [DatetimeArithmetic τ] (plat : Platform)
  (o : MeshLlmStatusObserver u)

theorem project_congr {payload payload' : Mapping}
    (h : projection u payload = projection u payload') (now : τ) :
    o.project plat payload now = o.project plat payload' now := by
  rw [project,h]
  rfl

theorem project_of_selected {payload payload' : Mapping} {now : τ}
    {v : Validated (FabricObservation τ)} (h : o.project plat payload now = .ok v)
    (hsame : select id payload = select id payload') : o.project plat payload' now = .ok v := by
  obtain ⟨r,hreports,_⟩ := o.project_report plat h
  have hprojection : projection u payload = projection u payload' := by
    rw [projection_reports.mpr hreports,projection_reports.mpr (reports_congr hreports hsame)]
  rw [← h]
  exact (o.project_congr plat hprojection now).symm

/-- Only the selected fields of a payload influence its observation, and unless SHA-256
collides on the two projections, the digest pins all of them up to the case of states: where
the digests are the same, so are the observations. -/
theorem selected_fields_only (payload payload' : Mapping) (now : τ) :
    (select id payload = select id payload' →
      (∃ v, o.project plat payload now = .ok v ∧ o.project plat payload' now = .ok v) ∨
      ∃ e e', o.project plat payload now = .error e ∧ Rejected e ∧
        o.project plat payload' now = .error e' ∧ Rejected e') ∧
    (CollisionFree plat (digestInputs u payload ∪ digestInputs u payload') →
      ∀ v v', o.project plat payload now = .ok v → o.project plat payload' now = .ok v' →
      (v.val.projectionDigest = v'.val.projectionDigest ↔
        select (lowered u) payload = select (lowered u) payload') ∧
      (v.val.projectionDigest = v'.val.projectionDigest →
        v.val.providerVersion = v'.val.providerVersion ∧ v.val.candidates = v'.val.candidates ∧
          v.val.observedScope = v'.val.observedScope ∧ v.val.reasonCodes = v'.val.reasonCodes)) := by
  constructor
  · intro hsame
    cases hv : o.project plat payload now with
    | ok v => exact .inl ⟨v,rfl,o.project_of_selected plat hv hsame⟩
    | error e =>
      cases hv' : o.project plat payload' now with
      | ok v' =>
        rw [o.project_of_selected plat hv' hsame.symm] at hv
        cases hv
      | error e' =>
        exact .inr ⟨e,e',rfl,o.project_raises plat payload now e hv,rfl,
          o.project_raises plat payload' now e' hv'⟩
  · intro hcollision v v' hv hv'
    obtain ⟨r,hreports,_,_,hshows⟩ := o.project_report plat hv
    obtain ⟨r',hreports',_,_,hshows'⟩ := o.project_report plat hv'
    have hpinned : v.val.projectionDigest = v'.val.projectionDigest ↔ r = r' := by
      rw [hshows.digest,hshows'.digest]
      constructor
      · intro h
        exact (StatusReport.json_inj r r').mp (sha256Digest_inj hcollision
          (.inl (mem_digestInputs hreports)) (.inr (mem_digestInputs hreports')) h)
      · rintro rfl
        rfl
    refine ⟨?_,fun h => ?_⟩
    · rw [hpinned,select_report hreports,select_report hreports',selection_injective.eq_iff]
    · have hsame : projection u payload = projection u payload' := by
        rw [projection_reports.mpr hreports,projection_reports.mpr hreports',hpinned.mp h]
      rw [o.project_congr plat hsame now,hv',Except.ok.injEq] at hv
      rw [hv]
      exact ⟨rfl,rfl,rfl,rfl⟩

end MeshLlmStatusObserver

namespace Demo

def shoutedPayload : Mapping := statusOf "SERVING" [(str "token",textValue "secret".toList)]

theorem shouted_reported : Reports ascii shoutedPayload statusReport :=
  projection_reports.mp (by rfl)

theorem statuses_collisionFree :
    CollisionFree platform (digestInputs ascii statusPayload ∪ digestInputs ascii shoutedPayload) := by
  rw [digestInputs_report status_reported,digestInputs_report shouted_reported,Set.union_self]
  exact Set.injOn_singleton _ _

end Demo

theorem selected_fields_demo :
    ∃ v v', Demo.observer.project Demo.platform Demo.statusPayload (Demo.minutes 0) = .ok v ∧
      Demo.observer.project Demo.platform Demo.shoutedPayload (Demo.minutes 0) = .ok v' ∧
        v.val.projectionDigest = v'.val.projectionDigest := by
  have hendpoint : Demo.observer.sourceEndpoint.length ≤ 512 := by decide
  obtain ⟨v,hv⟩ := Demo.observer.report_observed Demo.platform Demo.status_reported
    Demo.status_admissible hendpoint (Demo.minutes 0)
  obtain ⟨v',hv'⟩ := Demo.observer.report_observed Demo.platform Demo.shouted_reported
    Demo.status_admissible hendpoint (Demo.minutes 0)
  have hselected : select (lowered Demo.ascii) Demo.statusPayload =
      select (lowered Demo.ascii) Demo.shoutedPayload := by
    rw [select_report Demo.status_reported,select_report Demo.shouted_reported]
  exact ⟨v,v',hv,hv',(((Demo.observer.selected_fields_only Demo.platform Demo.statusPayload
    Demo.shoutedPayload (Demo.minutes 0)).2 Demo.statuses_collisionFree v v' hv hv').1).mpr
      hselected⟩

end LocusMesh
