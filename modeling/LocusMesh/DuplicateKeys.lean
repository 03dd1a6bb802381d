import Mathlib
import LocusMesh.Construction
import LocusMesh.Io

/-! Duplicate keys: what an accepted file has of them. In JSON there are none. In YAML they
are found in the mappings that the registered constructor gets to see, or merges. -/
namespace LocusMesh

open CanonicalJson PyText PyJson PyYaml Fallible

section Mapping

variable {ν κ : Type} [DecidableEq ν] [DecidableEq κ] {g : NodeGraph ν}
  {scalars : Scalars κ PyError} {pending : List ν} {s : Loading ν κ}

theorem uniqueEntries_sound {construct : Construct ν κ PyError}
    (hconstruct : Sane g scalars pending construct) {entries : List (ν × ν)}
    {result : List (Object ν κ × Object ν κ)}
    {found : List (Object ν κ × Object ν κ) × Loading ν κ} (hs : Sound g scalars pending s)
    (h : uniqueEntries scalars construct result entries s = .ok found) :
    Sound g scalars pending found.2 ∧ Extends s found.2 ∧
      BothConstructed found.2.constructed entries ∧
      DistinctKeys found.2.constructed entries ∧
      ∀ entry ∈ entries, ∀ o ∈ result.map Prod.fst, found.2.constructed entry.1 ≠ some o := by
  induction entries generalizing result s with
  | nil =>
    cases h
    exact ⟨hs,.refl s,by simp [BothConstructed],⟨by simp,.nil⟩,by simp⟩
  | cons entry entries ih =>
    obtain ⟨k,v⟩ := entry
    rw [uniqueEntries] at h
    obtain ⟨key,hkey,h⟩ := bind_ok.mp h
    obtain ⟨hsound,hextends,hk⟩ := hconstruct k s key hs hkey
    split at h
    · cases h
    · rename_i hhash
      split_ifs at h with hmem
      obtain ⟨value,hvalue,h⟩ := bind_ok.mp h
      obtain ⟨hsound',hextends',hv⟩ := hconstruct v key.2 value hsound hvalue
      obtain ⟨hsound'',hextends'',hboth,hdistinct,hfresh⟩ := ih hsound' h
      have hk' := (hextends'.trans hextends'').constructed _ _ hk
      have hv' := hextends''.constructed _ _ hv
      refine ⟨hsound'',(hextends.trans hextends').trans hextends'',?_,⟨?_,?_⟩,?_⟩
      · intro entry hentry
        rcases List.mem_cons.mp hentry with rfl | hentry
        · exact ⟨⟨_,hk'⟩,⟨_,hv'⟩⟩
        · exact hboth entry hentry
      · intro entry hentry
        rcases List.mem_cons.mp hentry with rfl | hentry
        · exact ⟨_,hk',hhash⟩
        · exact hdistinct.hashable entry hentry
      · refine .cons ?_ hdistinct.distinct
        intro entry hentry heq
        rw [hk'] at heq
        exact hfresh entry hentry key.1 (by simp) heq.symm
      · intro entry hentry o ho
        rcases List.mem_cons.mp hentry with rfl | hentry
        · rw [hk']
          rintro ⟨⟩
          exact hmem ho
        · apply hfresh entry hentry o
          rw [List.map_append]
          exact List.mem_append_left _ ho

omit [DecidableEq ν] [DecidableEq κ] in
theorem distinct_of_empty (hs : Sound g scalars pending s) {n : ν} (hn : (s.graph n).entries = [])
    {depth : ℕ} (hmerges : g.MergesWithin depth n) :
    BothConstructed s.constructed (g.flattened depth n) ∧
      DistinctKeys s.constructed (g.flattened depth n) := by
  have hflat : g.flattened depth n = [] := by
    rw [← hn]
    exact hs.graph.entries_of_free hmerges (by simp [hn])
  rw [hflat]
  exact ⟨by simp [BothConstructed],⟨by simp,.nil⟩⟩

theorem constructUniqueMapping_checks : Checks g scalars (constructUniqueMapping scalars) := by
  intro construct pending limit n s found hconstruct hs h
  unfold constructUniqueMapping at h
  split at h
  · rename_i hnode
    split_ifs at h
    cases h
    exact ⟨hs,.refl s,fun depth => distinct_of_empty hs (by rw [hnode]; rfl)⟩
  · rename_i hnode
    split_ifs at h
    cases h
    exact ⟨hs,.refl s,fun depth => distinct_of_empty hs (by rw [hnode]; rfl)⟩
  · obtain ⟨g',hg',h⟩ := bind_ok.mp h
    obtain ⟨hsound,hextends,hboth,hdistinct,_⟩ :=
      uniqueEntries_sound hconstruct (hs.flatten hg') h
    refine ⟨hsound,⟨hextends.constructed,hextends.recursive⟩,?_⟩
    intro depth hmerges
    rw [← flatten_entries hs.graph hmerges hg']
    exact ⟨hboth,hdistinct⟩

end Mapping

/-- Two nodes of a graph are written alike: an alias and its anchor, or equal tags and texts
throughout. -/
inductive WrittenAlike {ν : Type} (g : NodeGraph ν) : ν → ν → Prop
  | same (n : ν) : WrittenAlike g n n
  | scalar {m n : ν} {t : Tag} {value : String} (hm : g m = .scalar t value)
    (hn : g n = .scalar t value) : WrittenAlike g m n
  | sequence {m n : ν} {t : Tag} {items items' : List ν} (hm : g m = .sequence t items)
    (hn : g n = .sequence t items') (hitems : List.Forall₂ (WrittenAlike g) items items') :
    WrittenAlike g m n
  | mapping {m n : ν} {t : Tag} {entries entries' : List (ν × ν)} (hm : g m = .mapping t entries)
    (hn : g n = .mapping t entries')
    (hkeys : List.Forall₂ (WrittenAlike g) (entries.map Prod.fst) (entries'.map Prod.fst))
    (hvalues : List.Forall₂ (WrittenAlike g) (entries.map Prod.snd) (entries'.map Prod.snd)) :
    WrittenAlike g m n

inductive Below {ν : Type} (g : NodeGraph ν) (n : ν) : ν → Prop
  | item {t : Tag} {items : List ν} {item : ν} (hn : g n = .sequence t items)
    (hitem : item ∈ items) : Below g n item
  | key {t : Tag} {entries : List (ν × ν)} {entry : ν × ν} (hn : g n = .mapping t entries)
    (hentry : entry ∈ entries) : Below g n entry.1
  | value {t : Tag} {entries : List (ν × ν)} {entry : ν × ν} (hn : g n = .mapping t entries)
    (hentry : entry ∈ entries) : Below g n entry.2

namespace Document

variable (d : Document)

def EveryTwoEntries (R : Fin d.size → Fin d.size × Fin d.size → Fin d.size × Fin d.size → Prop) :
    Prop :=
  ∀ n, Relation.ReflTransGen (Below d.graph) d.root n → (d.graph n).entries.Pairwise (R n)

def NoRepeats : Prop := d.EveryTwoEntries fun _ e e' => ¬WrittenAlike d.graph e.1 e'.1

/-- The entries of `n` end up in a mapping that the registered constructor is called for:
`n` itself or one that merges it, where that mapping does not merge itself. -/
def Checked (n : Fin d.size) : Prop :=
  ∃ c depth, Relation.ReflTransGen (Part d.graph) d.root c ∧ (d.graph c).tag = .map ∧
    d.graph.MergesWithin depth c ∧
    Relation.ReflTransGen (fun a b => b ∈ d.graph.sources a) c n

/-- What the key is constructed to is told by the way it is written: it is no mapping that is
read as a scalar, and no NaN that is made anew. -/
def ToldByWriting {κ : Type} (scalars : Scalars κ PyError) (k : Fin d.size) : Prop :=
  match d.graph k with
  | .scalar t value => scalars.construct .scalar t.settled value ≠ .ok .nan
  | .sequence _ _ => True
  | .mapping t _ => t.settled.isScalar = false

/-- Keys that are equal as written stand in checked mappings only, and are neither merge keys
nor such that the check takes them for different. -/
def RepeatsOnlyChecked {κ : Type} (scalars : Scalars κ PyError) : Prop :=
  d.EveryTwoEntries fun n e e' => WrittenAlike d.graph e.1 e'.1 →
    d.Checked n ∧ (d.graph e.1).tag ≠ .merge ∧ (e.1 = e'.1 ∨ d.ToldByWriting scalars e.1)

end Document

section Found

variable {κ : Type} [DecidableEq κ] {scalars : Scalars κ PyError} {d : Document}
  {constructed : Constructed (Fin d.size) κ}

theorem WrittenAlike.tag {ν : Type} {g : NodeGraph ν} {m n : ν} (h : WrittenAlike g m n) :
    (g m).tag = (g n).tag := by
  cases h with
  | same => rfl
  | scalar hm hn | sequence hm hn | mapping hm hn =>
    simp only [hm,hn,Node.tag]

omit [DecidableEq κ] in
/-- Hashable keys that are equal as written are equal objects, where writing tells them. -/
theorem WrittenAlike.object_eq {k k' : Fin d.size} {o o' : Object (Fin d.size) κ}
    (h : WrittenAlike d.graph k k') (htold : k = k' ∨ d.ToldByWriting scalars k)
    (hk : constructed k = some o) (hk' : constructed k' = some o')
    (hdenotes : ∀ m p, constructed m = some p → Denotes scalars m (d.graph.shape m) p)
    (hhash : ∀ m, o ≠ .collection m) (hhash' : ∀ m, o' ≠ .collection m) : o = o' := by
  by_cases heq : k = k'
  · rw [heq,hk'] at hk
    exact (Option.some.inj hk).symm
  have htold := htold.resolve_left heq
  have hd := hdenotes k o hk
  have hd' := hdenotes k' o' hk'
  rw [NodeGraph.shape] at hd hd'
  cases h with
  | same => exact absurd rfl heq
  | scalar hm hn =>
    rw [hm,Node.shape] at hd
    rw [hn,Node.shape] at hd'
    rw [Document.ToldByWriting,hm] at htold
    cases hd with
    | collection => exact absurd rfl (hhash k)
    | scalar _ hdatum =>
      cases hd' with
      | collection => exact absurd rfl (hhash' k')
      | scalar _ hdatum' =>
        rw [hdatum] at hdatum'
        cases hdatum'
        rename_i datum _ _
        cases datum with
        | key key => rfl
        | nan => exact absurd hdatum htold
  | sequence hm =>
    rw [hm,Node.shape] at hd
    cases hd with
    | collection => exact absurd rfl (hhash k)
  | mapping hm =>
    rw [hm,Node.shape] at hd
    rw [Document.ToldByWriting,hm] at htold
    cases hd with
    | mapping htag =>
      rw [htold] at htag
      cases htag
    | collection => exact absurd rfl (hhash k)

theorem plain_sublist {ν : Type} {g : NodeGraph ν} {depth : ℕ} {c n : ν}
    (hc : g.MergesWithin depth c) (h : Relation.ReflTransGen (fun a b => b ∈ g.sources a) c n) :
    (g.plain n).Sublist (g.flattened depth c) := by
  induction h using Relation.ReflTransGen.head_induction_on generalizing depth with
  | refl =>
    cases depth with
    | zero => exact hc.elim
    | succ depth => exact List.sublist_append_right _ _
  | head hsource _ ih =>
    cases depth with
    | zero => exact hc.elim
    | succ depth =>
      rename_i a s _
      have hs := ih (hc s hsource)
      have hmem : g.flattened depth s ∈ (g.sources a).map (g.flattened depth) :=
        List.mem_map_of_mem hsource
      rw [NodeGraph.flattened,List.flatMap_def]
      exact (hs.trans (List.sublist_flatten_of_mem hmem)).trans (List.sublist_append_left _ _)

/-- In a checked mapping the keys that merge nothing are distinct objects. -/
theorem checked_distinct {limit nodes : ℕ}
    {found : Object (Fin d.size) κ × Loading (Fin d.size) κ}
    (h : constructDocument (constructUniqueMapping scalars) scalars limit nodes d.graph d.root =
      .ok found) {n : Fin d.size} (hn : d.Checked n) :
    DistinctKeys found.2.constructed (d.graph.plain n) := by
  obtain ⟨c,depth,hreached,htag,hmerges,hsources⟩ := hn
  obtain ⟨_,hfilled,_⟩ := constructDocument_sound constructUniqueMapping_checks h hreached
  have hkeys := hfilled.keys htag depth hmerges
  have hsub := plain_sublist hmerges hsources
  exact ⟨fun entry hentry => hkeys.hashable entry (hsub.subset hentry),hkeys.distinct.sublist hsub⟩

/-- Of an accepted document, the repeated keys are those that no check compares. -/
theorem noRepeats_iff {limit nodes : ℕ} {found : Object (Fin d.size) κ × Loading (Fin d.size) κ}
    (h : constructDocument (constructUniqueMapping scalars) scalars limit nodes d.graph d.root =
      .ok found) : d.NoRepeats ↔ d.RepeatsOnlyChecked scalars := by
  constructor
  · intro hunique n hn
    exact (hunique n hn).imp fun hne halike => absurd halike hne
  · intro hrepeats n hn
    have hpairs := hrepeats n hn
    by_cases hchecked : d.Checked n
    · have hkeys := checked_distinct h hchecked
      have hdistinct := List.pairwise_filter.mp hkeys.distinct
      apply (hpairs.and hdistinct).imp_of_mem
      rintro e e' he he' ⟨hguard,hne⟩ halike
      obtain ⟨_,hmerge,htold⟩ := hguard halike
      have hkey : d.graph.mergeKey e = false := beq_eq_false_iff_ne.mpr hmerge
      have hkey' : d.graph.mergeKey e' = false := by
        rw [halike.tag] at hmerge
        exact beq_eq_false_iff_ne.mpr hmerge
      obtain ⟨o,ho,hhash⟩ := hkeys.hashable e (List.mem_filter.mpr ⟨he,by simp [hkey]⟩)
      obtain ⟨o',ho',hhash'⟩ := hkeys.hashable e' (List.mem_filter.mpr ⟨he',by simp [hkey']⟩)
      have hdenotes := (constructDocument_sound constructUniqueMapping_checks h .refl).2.2
      apply hne (by simp [hkey]) (by simp [hkey'])
      rw [ho,ho',halike.object_eq htold ho ho' hdenotes hhash hhash']
    · exact hpairs.imp fun hguard halike => absurd (hguard halike).1 hchecked

end Found

variable {κ : Type} [DecidableEq κ]

/-- An accepted JSON file has no duplicate keys. An accepted YAML file has none if and only if
keys that are equal as written come again only where the constructor compares them. -/
theorem accepted_unique_iff (limit : ℕ) (file : File)
    (compose : Text → Except PyError (Option Document)) (scalars : Scalars κ PyError) :
    (∀ v, loadJsonData limit file = .ok v →
      ∃ text, readBounded file = .ok text ∧ loads source limit text = .ok v ∧ UniqueKeys v) ∧
    ∀ data, loadYamlData compose scalars limit file = .ok (some data) →
      (∃ text, readBounded file = .ok text ∧ compose text = .ok (some data.document)) ∧
        (data.document.NoRepeats ↔ data.document.RepeatsOnlyChecked scalars) := by
  constructor
  · intro v h
    obtain ⟨text,htext,h⟩ := bind_ok.mp h
    exact ⟨text,htext,loads_strict (parseJson_ok.mp h)⟩
  · intro data h
    obtain ⟨text,htext,h⟩ := bind_ok.mp h
    obtain ⟨composed,hcomposed,h⟩ := bind_ok.mp h
    split at h
    · cases h
    · rename_i document
      obtain ⟨found,hfound,h⟩ := bind_ok.mp h
      cases h
      exact ⟨⟨text,htext,hcomposed⟩,noRepeats_iff (mapError_ok.mp hfound)⟩

namespace Demo

def textFile (text : String) : File := ⟨.ok (encodeUtf8 text).length,.ok (encodeUtf8 text)⟩

theorem yamlError_closed : ∀ c ∈ [PyClass.yamlError], ∀ b ∈ c.base, b ∈ [PyClass.yamlError] := by
  simp [PyClass.base]

def composing (text : String) (d : Document) : Text → Except PyError (Option Document) := fun t =>
  if t = text.toList then .ok (some d)
  else .error (.external ⟨[.yamlError],"could not be composed",[],yamlError_closed⟩)

/-- Strings, small integers and nulls, as they are written. -/
def plainScalars : Scalars (Tag × String) PyError where
  construct _ t value :=
    if t = .str ∨ t = .int ∨ t = .null then .ok (.key (t,value))
    else .error (.valueError "not a plain scalar")
  text := Prod.snd

theorem readBounded_textFile {text : String} (hsize : (encodeUtf8 text).length ≤ maxInputBytes) :
    readBounded (textFile text) = .ok (universalNewlines text.toList) := by
  simp only [readBounded,boundedText,textFile,bind,Except.bind,if_neg (not_lt.mpr hsize),
    decodeUtf8_encode]

def pairText : String := "\x7b\"a\": 1, \"b\": 2\x7d"

def setText : String := "allowed_intents: !!set \x7b? device_only, ? device_only\x7d\n"

def mergeText : String := "\x7b<<: \x7ba: 1\x7d, <<: \x7bb: 2\x7d\x7d\n"

def pairDocument : Document where
  size := 5
  graph := ![.mapping .map [(1,2),(3,4)],.scalar .str "a",.scalar .int "1",.scalar .str "b",
    .scalar .int "2"]
  root := 0

def setDocument : Document where
  size := 7
  graph := ![.mapping .map [(1,2)],.scalar .str "allowed_intents",.mapping .set [(3,4),(5,6)],
    .scalar .str "device_only",.scalar .null "",.scalar .str "device_only",.scalar .null ""]
  root := 0

def mergeDocument : Document where
  size := 9
  graph := ![.mapping .map [(1,2),(3,4)],.scalar .merge "<<",.mapping .map [(5,6)],
    .scalar .merge "<<",.mapping .map [(7,8)],.scalar .str "a",.scalar .int "1",.scalar .str "b",
    .scalar .int "2"]
  root := 0

theorem setDocument_repeats : ¬setDocument.NoRepeats := by
  intro h
  have hset : Below setDocument.graph setDocument.root (2 : Fin 7) :=
    @Below.value (Fin 7) _ _ .map [(1,2)] (1,2) rfl List.mem_cons_self
  have hpairs := h (2 : Fin 7) (.single hset)
  exact (List.pairwise_cons.mp hpairs).1 ((5 : Fin 7),(6 : Fin 7)) List.mem_cons_self
    (.scalar rfl rfl)

theorem mergeDocument_repeats : ¬mergeDocument.NoRepeats := by
  intro h
  exact (List.pairwise_cons.mp (h mergeDocument.root .refl)).1 ((3 : Fin 9),(4 : Fin 9))
    List.mem_cons_self (.scalar rfl rfl)

theorem loads_document (text : String) (d : Document)
    (hsize : (encodeUtf8 text).length ≤ maxInputBytes)
    (hlines : universalNewlines text.toList = text.toList)
    (h : (constructDocument (constructUniqueMapping plainScalars) plainScalars 100 d.size d.graph
      d.root).isOk = true) :
    ∃ data, loadYamlData (composing text d) plainScalars 100 (textFile text) = .ok (some data) ∧
      data.document = d := by
  cases hfound : constructDocument (constructUniqueMapping plainScalars) plainScalars 100 d.size
      d.graph d.root with
  | error e =>
    rw [hfound] at h
    cases h
  | ok found =>
    refine ⟨⟨d,found.1,found.2.contents⟩,?_,rfl⟩
    rw [loadYamlData,readBounded_textFile hsize,hlines]
    simp only [bind,Except.bind,composing,if_pos,hfound,Except.mapError]

theorem pairDocument_checked : pairDocument.RepeatsOnlyChecked plainScalars := by
  have hsources : pairDocument.graph.sources pairDocument.root = [] := by decide
  have hroot : pairDocument.Checked pairDocument.root := by
    refine ⟨pairDocument.root,1,.refl,rfl,?_,.refl⟩
    intro s hs
    rw [hsources] at hs
    cases hs
  intro n _
  fin_cases n
  · refine .cons ?_ (List.pairwise_singleton _ _)
    intro e' he' _
    refine ⟨hroot,by decide,.inr ?_⟩
    simp [Document.ToldByWriting,pairDocument,plainScalars,Tag.settled]
  all_goals exact .nil

end Demo

/-- A file with two keys, read as JSON and as YAML. -/
theorem accepted_unique_demo : ∃ v data,
    loadJsonData 100 (Demo.textFile Demo.pairText) = .ok v ∧ UniqueKeys v ∧
    loadYamlData (Demo.composing Demo.pairText Demo.pairDocument) Demo.plainScalars 100
      (Demo.textFile Demo.pairText) = .ok (some data) ∧ data.document.NoRepeats := by
  obtain ⟨data,hdata,hdocument⟩ :=
    Demo.loads_document Demo.pairText Demo.pairDocument (by decide) (by decide) (by decide)
  obtain ⟨v,hv⟩ : ∃ v, loadJsonData 100 (Demo.textFile Demo.pairText) = .ok v := by
    rw [loadJsonData,Demo.readBounded_textFile (by decide)]
    exact ⟨_,rfl⟩
  obtain ⟨hjson,hyaml⟩ := accepted_unique_iff 100 (Demo.textFile Demo.pairText)
    (Demo.composing Demo.pairText Demo.pairDocument) Demo.plainScalars
  obtain ⟨_,_,_,hunique⟩ := hjson v hv
  refine ⟨v,data,hv,hunique,hdata,(hyaml data hdata).2.mpr ?_⟩
  rw [hdocument]
  exact Demo.pairDocument_checked

/-- A set and a pair of merge keys are accepted with keys that come twice. -/
theorem accepted_repeats_demo :
    (∃ data, loadYamlData (Demo.composing Demo.setText Demo.setDocument) Demo.plainScalars 100
      (Demo.textFile Demo.setText) = .ok (some data) ∧ ¬data.document.NoRepeats) ∧
    ∃ data, loadYamlData (Demo.composing Demo.mergeText Demo.mergeDocument) Demo.plainScalars 100
      (Demo.textFile Demo.mergeText) = .ok (some data) ∧ ¬data.document.NoRepeats := by
  constructor
  · obtain ⟨data,hdata,hdocument⟩ :=
      Demo.loads_document Demo.setText Demo.setDocument (by decide) (by decide) (by decide)
    refine ⟨data,hdata,?_⟩
    rw [hdocument]
    exact Demo.setDocument_repeats
  · obtain ⟨data,hdata,hdocument⟩ :=
      Demo.loads_document Demo.mergeText Demo.mergeDocument (by decide) (by decide) (by decide)
    refine ⟨data,hdata,?_⟩
    rw [hdocument]
    exact Demo.mergeDocument_repeats

end LocusMesh
