import Mathlib
import LocusMesh.StatusObserver

/-! What a status payload reports, field by field, and that the projection reads exactly
this. -/
namespace LocusMesh

open CanonicalJson AwareClock PyText PyJson Fallible

namespace MeshLlm

def field (value : Value) (key : String) : Option Value :=
  match value with
  | .dict entries => entries.lookup (str key)
  | _ => none

def plain (t : Text) : Str := t.map .scalar

def textValue (t : Text) : Value := .leaf (.str (plain t))

/-- The field is a non-empty string of at most `maximum` characters, without lone surrogates. -/
structure IsText (maximum : ℕ) (v : Option Value) (t : Text) : Prop where
  value : v = some (textValue t)
  nonempty : t ≠ []
  bounded : t.length ≤ maximum

@[ext] structure NodeReport where
  id : Text
  state : String
  models : List Text
  verified : Bool

@[ext] structure StatusReport where
  version : Text
  localNode : NodeReport
  peers : List NodeReport
  meshDiscoveryMode : Text
  discoveryScope : Text
  discoverySource : Text
  nostrDiscovery : Bool
  publicationState : Text

def StatusReport.nodes (r : StatusReport) : List NodeReport := r.localNode :: r.peers

/-- The object reports the node, under its own names for the id and the state. -/
structure ReportsNode (u : Unicode) (idKey stateKey : String) (node : Value) (r : NodeReport) :
    Prop where
  id : IsText 128 (field node idKey) r.id
  state : ∃ t, IsText 64 (field node stateKey) t ∧ r.state = String.ofList (u.lower t)
  supported : r.state ∈ nodeStates
  models : field node "serving_models" = some (.list (r.models.map textValue))
  modelCount : r.models.length ≤ 256
  modelNames : ∀ t ∈ r.models, t ≠ [] ∧ t.length ≤ 512
  modelsDistinct : r.models.Nodup
  verified : (field node "owner").bind (field · "verified") = some (.leaf (.bool r.verified))

structure Reports (u : Unicode) (payload : Mapping) (r : StatusReport) : Prop where
  version : IsText 64 (field (.dict payload) "version") r.version
  localNode : ReportsNode u "node_id" "node_state" (.dict payload) r.localNode
  meshDiscoveryMode : IsText 64 (field (.dict payload) "mesh_discovery_mode") r.meshDiscoveryMode
  discoveryScope : IsText 64 (field (.dict payload) "discovery_scope") r.discoveryScope
  discoverySource : IsText 128 (field (.dict payload) "discovery_source") r.discoverySource
  nostrDiscovery : field (.dict payload) "nostr_discovery" = some (.leaf (.bool r.nostrDiscovery))
  publicationState : IsText 64 (field (.dict payload) "publication_state") r.publicationState
  peers : ∃ values, field (.dict payload) "peers" = some (.list values) ∧ values.length ≤ 255 ∧
    List.Forall₂ (ReportsNode u "id" "state") values r.peers

/-- The ids of the local node and of the peers are peer ids, and no two are the same. -/
structure StatusReport.Admissible (r : StatusReport) : Prop where
  ids : ∀ n ∈ r.nodes, peerIdPattern (String.ofList n.id) = true
  distinct : (r.nodes.map NodeReport.id).Nodup

/-- The payload is supported: it reports a status whose ids are admissible. -/
def Supported (u : Unicode) (payload : Mapping) : Prop := ∃ r, Reports u payload r ∧ r.Admissible

/-- All signals of the discovery are explicitly private. -/
def StatusReport.Private (r : StatusReport) : Prop :=
  r.publicationState = "private".toList ∧
    r.discoveryScope ∈ ["private".toList,"lan".toList,"local".toList] ∧
    r.meshDiscoveryMode ∈ ["mdns".toList,"private".toList,"local".toList] ∧
    r.nostrDiscovery = false

theorem plain_injective : Function.Injective plain :=
  List.map_injective_iff.mpr fun _ _ h => CodePoint.scalar.inj h

@[simp] theorem plain_length (t : Text) : (plain t).length = t.length := List.length_map _

@[simp] theorem plain_eq_nil {t : Text} : plain t = [] ↔ t = [] := List.map_eq_nil_iff

theorem encodable_eq_some {s : Str} {t : Text} : s.encodable = some t ↔ s = plain t := by
  induction s generalizing t with
  | nil => cases t <;> simp [Str.encodable,plain]
  | cons c s ih =>
    cases c with
    | surrogate unit => cases t <;> simp [Str.encodable,plain]
    | scalar c =>
      rw [Str.encodable,Option.map_eq_some_iff]
      constructor
      · rintro ⟨t',ht',rfl⟩
        rw [ih.mp ht']
        rfl
      · intro h
        cases t with
        | nil => cases h
        | cons d t =>
          obtain ⟨hc,hs⟩ := List.cons.inj h
          rw [CodePoint.scalar.inj hc]
          exact ⟨t,ih.mpr hs,rfl⟩

theorem boundedString_eq_some {maximum : ℕ} {v : Value} {s : Str} :
    boundedString maximum v = some s ↔ v = .leaf (.str s) ∧ s ≠ [] ∧ s.length ≤ maximum := by
  unfold boundedString
  split
  · rename_i s'
    rw [Option.ite_none_right_eq_some,Value.leaf.injEq,Leaf.str.injEq,Option.some.injEq]
    constructor
    · rintro ⟨hbounded,rfl⟩
      exact ⟨rfl,hbounded⟩
    · rintro ⟨rfl,hbounded⟩
      exact ⟨hbounded,rfl⟩
  · rename_i hno
    simp only [reduceCtorEq,false_iff,not_and]
    rintro rfl
    exact absurd rfl (hno s)

theorem string_ok {value : Mapping} {key : String} {maximum : ℕ} {s : Str} :
    string value key maximum = .ok s ↔
      field (.dict value) key = some (.leaf (.str s)) ∧ s ≠ [] ∧ s.length ≤ maximum := by
  have hread : string value key maximum = .ok s ↔
      (value.lookup (str key)).bind (boundedString maximum) = some s := by
    unfold string
    split
    · rename_i s' hs'
      simp [hs']
    · rename_i hnone
      simp [hnone]
  simp [hread,Option.bind_eq_some_iff,boundedString_eq_some,field]

theorem boolean_ok {value : Mapping} {key : String} {b : Bool} :
    boolean value key = .ok b ↔ field (.dict value) key = some (.leaf (.bool b)) := by
  rw [field]
  unfold boolean
  split
  · rename_i b' hb'
    simp [hb']
  · rename_i hno
    simp only [reduceCtorEq,false_iff]
    exact hno b

theorem mapping_ok {value entries : Mapping} {key : String} :
    mapping value key = .ok entries ↔ field (.dict value) key = some (.dict entries) := by
  rw [field]
  unfold mapping
  split
  · rename_i entries' hentries
    simp [hentries]
  · rename_i hno
    simp only [reduceCtorEq,false_iff]
    exact hno entries

theorem isText_plain {maximum : ℕ} {v : Option Value} {t : Text} :
    IsText maximum v t ↔
      v = some (.leaf (.str (plain t))) ∧ plain t ≠ [] ∧ (plain t).length ≤ maximum := by
  rw [ne_eq,plain_eq_nil,plain_length]
  exact ⟨fun h => ⟨h.value,h.nonempty,h.bounded⟩,fun h => ⟨h.1,h.2.1,h.2.2⟩⟩

theorem state_ok {u : Unicode} {value : Mapping} {key label : String} :
    state u value key = .ok label ↔ label ∈ nodeStates ∧
      ∃ t, IsText 64 (field (.dict value) key) t ∧ label = String.ofList (u.lower t) := by
  simp only [state,bind_ok,string_ok,isText_plain]
  constructor
  · rintro ⟨item,hstring,hlabel⟩
    cases hs : item.encodable with
    | none =>
      rw [hs] at hlabel
      cases hlabel
    | some t =>
      simp only [hs,Option.map_some] at hlabel
      split_ifs at hlabel with hmem
      rw [Except.ok.injEq] at hlabel
      rw [encodable_eq_some] at hs
      rw [← hlabel]
      rw [hs] at hstring
      exact ⟨hmem,t,hstring,rfl⟩
  · rintro ⟨hmem,t,hstring,rfl⟩
    refine ⟨plain t,hstring,?_⟩
    rw [encodable_eq_some.mpr rfl]
    exact if_pos hmem

theorem mapM_boundedString {maximum : ℕ} {items : List Value} {names : List Str} :
    items.mapM (boundedString maximum) = some names ↔
      items = names.map (fun s => .leaf (.str s)) ∧ ∀ s ∈ names, s ≠ [] ∧ s.length ≤ maximum := by
  induction items generalizing names with
  | nil => cases names <;> simp
  | cons item items ih =>
    simp only [List.mapM_cons,Option.pure_def,Option.bind_eq_bind,Option.bind_eq_some_iff,
      boundedString_eq_some,ih,Option.some.injEq]
    constructor
    · rintro ⟨s,⟨rfl,hs⟩,names',⟨rfl,hnames⟩,rfl⟩
      exact ⟨rfl,List.forall_mem_cons.mpr ⟨hs,hnames⟩⟩
    · rintro ⟨hitems,hnames⟩
      cases names with
      | nil => cases hitems
      | cons s names =>
        obtain ⟨hitem,hrest⟩ := List.cons.inj hitems
        rw [List.forall_mem_cons] at hnames
        exact ⟨s,⟨hitem,hnames.1⟩,names,⟨hrest,hnames.2⟩,rfl⟩

theorem models_ok {value : Mapping} {key : String} {names : List Str} :
    models value key = .ok names ↔
      field (.dict value) key = some (.list (names.map fun s => .leaf (.str s))) ∧
        names.length ≤ 256 ∧ (∀ s ∈ names, s ≠ [] ∧ s.length ≤ 512) ∧ names.Nodup := by
  rw [field]
  unfold models
  split
  · rename_i items hitems
    rw [hitems]
    simp only [Option.some.injEq,Value.list.injEq]
    split_ifs with hlong
    · simp only [false_iff,not_and]
      rintro rfl hcount
      rw [List.length_map] at hlong
      exact absurd hlong (not_lt.mpr hcount)
    · cases hnames : items.mapM (boundedString 512) with
      | none =>
        simp only [reduceCtorEq,false_iff,not_and]
        rintro rfl _ hbounded
        rw [mapM_boundedString.mpr ⟨rfl,hbounded⟩] at hnames
        cases hnames
      | some names' =>
        obtain ⟨rfl,hbounded⟩ := mapM_boundedString.mp hnames
        rw [List.length_map,not_lt] at hlong
        have hinj : Function.Injective fun s : Str => Value.leaf (.str s) := fun a b h =>
          Leaf.str.inj (Value.leaf.inj h)
        rw [(List.map_injective_iff.mpr hinj).eq_iff]
        simp only
        split_ifs with hnodup
        · rw [Except.ok.injEq]
          constructor
          · rintro rfl
            exact ⟨rfl,hlong,hbounded,hnodup⟩
          · exact fun h => h.1
        · simp only [false_iff,not_and]
          rintro rfl _ _ hdistinct
          exact hnodup hdistinct
  · rename_i hno
    simp only [reduceCtorEq,false_iff,not_and]
    intro hitems
    exact absurd hitems (hno _)

def NodeReport.projected (r : NodeReport) : ProjectedNode :=
  ⟨plain r.id,r.state,r.models.map plain,r.verified⟩

def StatusReport.projection (r : StatusReport) : Projection :=
  ⟨plain r.version,r.localNode.projected,r.peers.map NodeReport.projected,
    ⟨plain r.meshDiscoveryMode,plain r.discoveryScope,plain r.discoverySource,r.nostrDiscovery,
      plain r.publicationState⟩⟩

theorem owner_verified {value : Mapping} {b : Bool} :
    (field (.dict value) "owner").bind (field · "verified") = some (.leaf (.bool b)) ↔
      ∃ owner, mapping value "owner" = .ok owner ∧ boolean owner "verified" = .ok b := by
  simp only [Option.bind_eq_some_iff,mapping_ok,boolean_ok]
  constructor
  · rintro ⟨owner,howner,hverified⟩
    cases owner with
    | leaf a => cases hverified
    | list items => cases hverified
    | dict entries => exact ⟨entries,howner,hverified⟩
  · rintro ⟨entries,howner,hverified⟩
    exact ⟨.dict entries,howner,hverified⟩

theorem models_plain {value : Mapping} {key : String} {names : List Text} :
    models value key = .ok (names.map plain) ↔
      field (.dict value) key = some (.list (names.map textValue)) ∧ names.length ≤ 256 ∧
        (∀ t ∈ names, t ≠ [] ∧ t.length ≤ 512) ∧ names.Nodup := by
  rw [models_ok,List.map_map,List.length_map,List.forall_mem_map,
    List.nodup_map_iff plain_injective]
  simp only [ne_eq,plain_eq_nil,plain_length]
  rfl

theorem string_plain {value : Mapping} {key : String} {maximum : ℕ} {t : Text} :
    string value key maximum = .ok (plain t) ↔ IsText maximum (field (.dict value) key) t := by
  rw [string_ok,isText_plain]

theorem reportsNode_iff {u : Unicode} {idKey stateKey : String} {value : Mapping}
    {r : NodeReport} : ReportsNode u idKey stateKey (.dict value) r ↔
      string value idKey 128 = .ok (plain r.id) ∧ state u value stateKey = .ok r.state ∧
        models value "serving_models" = .ok (r.models.map plain) ∧
          ∃ owner, mapping value "owner" = .ok owner ∧ boolean owner "verified" = .ok r.verified := by
  rw [string_plain,state_ok,models_plain,← owner_verified]
  constructor
  · intro h
    exact ⟨h.id,⟨h.supported,h.state⟩,⟨h.models,h.modelCount,h.modelNames,h.modelsDistinct⟩,
      h.verified⟩
  · rintro ⟨hid,⟨hsupported,hstate⟩,⟨hmodels,hcount,hnames,hdistinct⟩,hverified⟩
    exact ⟨hid,hstate,hsupported,hmodels,hcount,hnames,hdistinct,hverified⟩

theorem projectPeer_reports {u : Unicode} {peer : Value} {r : NodeReport} :
    projectPeer u peer = .ok r.projected ↔ ReportsNode u "id" "state" peer r := by
  cases peer with
  | leaf a => exact iff_of_false nofun fun h => nomatch h.id.value
  | list items => exact iff_of_false nofun fun h => nomatch h.id.value
  | dict value =>
    simp only [reportsNode_iff,projectPeer,bind_ok,Except.ok.injEq,NodeReport.projected,
      ProjectedNode.mk.injEq]
    constructor
    · rintro ⟨owner,howner,_,hid,_,hstate,_,hmodels,_,hverified,rfl,rfl,rfl,rfl⟩
      exact ⟨hid,hstate,hmodels,owner,howner,hverified⟩
    · rintro ⟨hid,hstate,hmodels,owner,howner,hverified⟩
      exact ⟨owner,howner,_,hid,_,hstate,_,hmodels,_,hverified,rfl,rfl,rfl,rfl⟩

theorem projectPeers_reports {u : Unicode} {peers : List Value} {reports : List NodeReport} :
    peers.mapM (projectPeer u) = .ok (reports.map NodeReport.projected) ↔
      List.Forall₂ (ReportsNode u "id" "state") peers reports := by
  rw [mapM_ok,List.forall₂_map_right_iff]
  simp only [projectPeer_reports]

/-- The projection of a payload is that of a report exactly if the payload reports this. -/
theorem projection_reports {u : Unicode} {payload : Mapping} {r : StatusReport} :
    projection u payload = .ok r.projection ↔ Reports u payload r := by
  simp only [projection,bind_ok]
  constructor
  · rintro ⟨_,hversion,_,hid,_,hstate,_,hmodels,owner,howner,_,hverified,_,hmode,_,hscope,_,
      hsource,_,hnostr,_,hpublication,hpeers⟩
    split at hpeers
    · rename_i peers hlist
      split_ifs at hpeers with hmany
      obtain ⟨_,hprojected,hsame⟩ := bind_ok.mp hpeers
      simp only [StatusReport.projection,NodeReport.projected,Except.ok.injEq,Projection.mk.injEq,
        ProjectedNode.mk.injEq,Discovery.mk.injEq] at hsame
      obtain ⟨rfl,⟨rfl,rfl,rfl,rfl⟩,rfl,rfl,rfl,rfl,rfl,rfl⟩ := hsame
      refine ⟨string_plain.mp hversion,reportsNode_iff.mpr ⟨hid,hstate,hmodels,owner,howner,
        hverified⟩,string_plain.mp hmode,string_plain.mp hscope,string_plain.mp hsource,
        boolean_ok.mp hnostr,string_plain.mp hpublication,peers,hlist,?_,
        projectPeers_reports.mp hprojected⟩
      exact Nat.le_of_lt_succ (not_le.mp hmany)
    · cases hpeers
  · intro h
    obtain ⟨hid,hstate,hmodels,owner,howner,hverified⟩ := reportsNode_iff.mp h.localNode
    obtain ⟨peers,hlist,hcount,hpeers⟩ := h.peers
    refine ⟨_,string_plain.mpr h.version,_,hid,_,hstate,_,hmodels,owner,howner,_,hverified,_,
      string_plain.mpr h.meshDiscoveryMode,_,string_plain.mpr h.discoveryScope,_,
      string_plain.mpr h.discoverySource,_,boolean_ok.mpr h.nostrDiscovery,_,
      string_plain.mpr h.publicationState,?_⟩
    have hlookup : payload.lookup (str "peers") = some (.list peers) := hlist
    have hfew : ¬maxCandidates ≤ peers.length := by
      rw [maxCandidates]
      omega
    simp only [hlookup,if_neg hfew,bind_ok]
    exact ⟨_,projectPeers_reports.mpr hpeers,rfl⟩

end MeshLlm

end LocusMesh
