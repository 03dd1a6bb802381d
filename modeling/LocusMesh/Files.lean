import Mathlib
import LocusMesh.Validation

/-! Contracts in files: a plan or an attestation that is written as canonical bytes fits into
the input bound, is loaded as it was, and is decided on as it would be in memory. -/
namespace LocusMesh

open AwareClock CanonicalJson PyCollections PyText PyJson Fallible

/-- A bound on the bytes of a text whose characters may all have to be escaped. -/
def stringBound (s : String) : ℕ := 6 * s.toList.length + 2

mutual
def sizeBound : Json → ℕ
  | .null => 4
  | .bool _ => 5
  | .int i => (intText i).length
  | .str s => stringBound s
  | .arr vs => itemsBound vs + 2
  | .obj es => entriesBound es + 2
def itemsBound : List Json → ℕ
  | [] => 0
  | v :: vs => sizeBound v + 1 + itemsBound vs
def entriesBound : List (String × Json) → ℕ
  | [] => 0
  | (k,v) :: es => stringBound k + 1 + sizeBound v + 1 + entriesBound es
end

theorem itemsBound_eq (vs : List Json) : itemsBound vs = (vs.map fun v => sizeBound v + 1).sum := by
  induction vs with
  | nil => rfl
  | cons v vs ih => rw [itemsBound,ih,List.map_cons,List.sum_cons]

theorem entriesBound_eq (es : List (String × Json)) : entriesBound es =
    (es.map fun e => stringBound e.1 + 1 + sizeBound e.2 + 1).sum := by
  induction es with
  | nil => rfl
  | cons e es ih => rw [entriesBound,ih,List.map_cons,List.sum_cons]

theorem sizeBound_sortKeys (v : Json) : sizeBound (sortKeys v) = sizeBound v := by
  induction v using json_induction with
  | arr vs ih =>
    rw [sortKeys,sortItems_eq_map,sizeBound,sizeBound,itemsBound_eq,itemsBound_eq,List.map_map]
    congr 2
    exact List.map_congr_left fun v hv => congrArg (· + 1) (ih v hv)
  | obj es ih =>
    rw [sortKeys,sizeBound,sizeBound,entriesBound_eq,entriesBound_eq,
      ((sortedBy_perm Prod.fst (sortEntries es)).map _).sum_eq,sortEntries_eq_map,List.map_map]
    congr 2
    exact List.map_congr_left fun e he => by simp [ih e he]
  | _ => rfl

def utf8Length (cs : List Char) : ℕ := (cs.flatMap String.utf8EncodeChar).length

@[simp] theorem utf8Length_nil : utf8Length [] = 0 := rfl

@[simp] theorem utf8Length_append (l m : List Char) :
    utf8Length (l ++ m) = utf8Length l + utf8Length m := by
  simp [utf8Length]

@[simp] theorem utf8Length_cons (c : Char) (l : List Char) :
    utf8Length (c :: l) = c.utf8Size + utf8Length l := by
  simp [utf8Length]

theorem utf8Length_ascii {l : List Char} (h : ∀ c ∈ l, isAscii c = true) :
    utf8Length l = l.length := by
  induction l with
  | nil => rfl
  | cons c l ih =>
    have hc := of_decide_eq_true (h c List.mem_cons_self)
    have hsize : c.utf8Size = 1 := Char.utf8Size_eq_one_iff.mpr (Nat.le_of_lt_succ hc)
    rw [utf8Length_cons,ih fun d hd => h d (List.mem_cons_of_mem c hd),hsize,List.length_cons,
      Nat.add_comm]

theorem escapeChar_bound (c : Char) : utf8Length (escapeChar c) ≤ 6 := by
  have hdigit : ∀ d < 16, isAscii (Nat.digitChar d) = true := by decide
  unfold escapeChar
  split_ifs with h1 h2 h3 h4 h5 h6 h7 h8
  · decide
  · decide
  · decide
  · decide
  · decide
  · decide
  · decide
  · rw [utf8Length_ascii]
    · exact le_refl 6
    · intro d hd
      simp only [List.mem_cons,List.not_mem_nil,or_false] at hd
      rcases hd with rfl | rfl | rfl | rfl | rfl | rfl
      · rfl
      · rfl
      · rfl
      · rfl
      · exact hdigit _ (by omega)
      · exact hdigit _ (by omega)
  · have hfour := Char.utf8Size_le_four c
    simp only [utf8Length_cons,utf8Length_nil]
    omega

theorem quote_bound (s : String) : utf8Length (quote s) ≤ stringBound s := by
  have hchars : ∀ l : List Char, utf8Length (escape l) ≤ 6 * l.length := by
    intro l
    induction l with
    | nil => exact le_refl 0
    | cons c l ih =>
      have hc := escapeChar_bound c
      rw [escape,List.flatMap_cons,utf8Length_append,List.length_cons]
      rw [escape] at ih
      omega
  have hbody := hchars s.toList
  have hmark : Char.utf8Size '"' = 1 := rfl
  simp only [quote,utf8Length_cons,utf8Length_append,utf8Length_nil,hmark,stringBound]
  omega

theorem intText_bound (i : ℤ) : utf8Length (intText i) = (intText i).length := by
  have hdigits : ∀ n, ∀ c ∈ Nat.toDigits 10 n, isAscii c = true := by
    intro n c hc
    have hdigit := toDigits_isDigit n c hc
    rw [isDigit,Bool.and_eq_true,decide_eq_true_eq,decide_eq_true_eq] at hdigit
    have hle : c.toNat ≤ '9'.toNat := hdigit.2
    exact decide_eq_true (lt_of_le_of_lt hle (by decide))
  cases i with
  | ofNat n => exact utf8Length_ascii (hdigits n)
  | negSucc n =>
    apply utf8Length_ascii
    intro c hc
    rcases List.mem_cons.mp hc with rfl | hc
    · rfl
    · exact hdigits (n + 1) c hc

mutual
theorem render_bound : ∀ v, utf8Length (render v) ≤ sizeBound v
  | .null => by decide
  | .bool b => by cases b <;> decide
  | .int i => by rw [render,sizeBound]; exact (intText_bound i).le
  | .str s => by rw [render,sizeBound]; exact quote_bound s
  | .arr [] => by decide
  | .arr (v :: vs) => by
    have hv := render_bound v
    have hvs := renderItems_bound vs
    have hopen : Char.utf8Size '[' = 1 := rfl
    simp only [render,utf8Length_cons,utf8Length_append,sizeBound,itemsBound,hopen]
    omega
  | .obj [] => by decide
  | .obj ((k,v) :: es) => by
    have hk := quote_bound k
    have hv := render_bound v
    have hes := renderEntries_bound es
    have hopen : Char.utf8Size '{' = 1 := rfl
    have hcolon : Char.utf8Size ':' = 1 := rfl
    simp only [render,utf8Length_cons,utf8Length_append,sizeBound,entriesBound,hopen,hcolon]
    omega
theorem renderItems_bound : ∀ vs, utf8Length (renderItems vs) ≤ itemsBound vs + 1
  | [] => by decide
  | v :: vs => by
    have hv := render_bound v
    have hvs := renderItems_bound vs
    have hcomma : Char.utf8Size ',' = 1 := rfl
    simp only [renderItems,utf8Length_cons,utf8Length_append,itemsBound,hcomma]
    omega
theorem renderEntries_bound : ∀ es, utf8Length (renderEntries es) ≤ entriesBound es + 1
  | [] => by decide
  | (k,v) :: es => by
    have hk := quote_bound k
    have hv := render_bound v
    have hes := renderEntries_bound es
    have hcomma : Char.utf8Size ',' = 1 := rfl
    have hcolon : Char.utf8Size ':' = 1 := rfl
    simp only [renderEntries,utf8Length_cons,utf8Length_append,entriesBound,hcomma,hcolon]
    omega
end

/-- Canonical bytes are no more than what the strings and numbers of the value allow. -/
theorem canonicalJsonBytes_bound (v : Json) : (canonicalJsonBytes v).length ≤ sizeBound v := by
  have h := render_bound (sortKeys v)
  rw [sizeBound_sortKeys,utf8Length] at h
  rw [canonicalJsonBytes,encodeUtf8,dumps,String.toList_ofList]
  exact h

theorem taggedHex_length {tag s : String} (h : taggedHex tag s = true) :
    s.toList.length = tag.toList.length + 64 := by
  rw [taggedHex,Bool.and_eq_true,Bool.and_eq_true,beq_iff_eq,List.isPrefixOf_iff_prefix] at h
  obtain ⟨hstart,hlength,_⟩ := h
  have hle := hstart.length_le
  rw [List.length_drop] at hlength
  omega

theorem peerId_length (peerId : PeerId) : peerId.val.toList.length ≤ 128 := by
  have h := peerId.property
  unfold peerIdPattern at h
  split at h
  · cases h
  · rename_i c cs hcs
    rw [Bool.and_eq_true,Bool.and_eq_true,decide_eq_true_eq] at h
    rw [hcs,List.length_cons]
    omega

theorem nonce_length (nonce : Nonce) : nonce.val.toList.length ≤ 128 := by
  have h := nonce.property
  rw [noncePattern,Bool.and_eq_true,Bool.and_eq_true,decide_eq_true_eq,decide_eq_true_eq] at h
  exact h.2.1

theorem base64url_length {n : ℕ} {s : String} (h : base64urlPattern n s = true) :
    s.toList.length = n := by
  rw [base64urlPattern,Bool.and_eq_true,beq_iff_eq] at h
  exact h.1

theorem sizeBound_str {s : String} {n : ℕ} (h : s.toList.length ≤ n) :
    sizeBound (.str s) ≤ 6 * n + 2 := by
  rw [sizeBound,stringBound]
  omega

theorem sizeBound_peerId (peerId : PeerId) : sizeBound (text peerId) ≤ 770 :=
  sizeBound_str (peerId_length peerId)

theorem sizeBound_digest (digest : Digest) : sizeBound (text digest) ≤ 428 :=
  sizeBound_str (taggedHex_length digest.property).le

theorem sizeBound_requestId (requestId : RequestId) : sizeBound (text requestId) ≤ 770 :=
  sizeBound_str requestId.property.2

theorem sizeBound_nonce (nonce : Nonce) : sizeBound (text nonce) ≤ 770 :=
  sizeBound_str (nonce_length nonce)

theorem sizeBound_commitment (commitment : Commitment) : sizeBound (text commitment) ≤ 458 :=
  sizeBound_str (taggedHex_length commitment.property).le

theorem sizeBound_optional {α : Type} {dump : α → Json} {n : ℕ} (hn : 4 ≤ n)
    (h : ∀ a, sizeBound (dump a) ≤ n) (o : Option α) : sizeBound (optional dump o) ≤ n := by
  cases o with
  | none => exact hn
  | some a => exact h a

theorem sizeBound_small {n : ℕ} (h : n ≤ 64) : sizeBound (.int n) ≤ 2 := by
  have hall : ∀ n < 65, (intText (n : ℕ)).length ≤ 2 := by decide
  exact hall n (by omega)

theorem sizeBound_arr (vs : List Json) {n : ℕ} (h : ∀ v ∈ vs, sizeBound v ≤ n) :
    sizeBound (.arr vs) ≤ vs.length * (n + 1) + 2 := by
  rw [sizeBound,itemsBound_eq]
  have hsum := List.sum_le_card_nsmul (vs.map fun v => sizeBound v + 1) (n + 1) (by
    intro m hm
    obtain ⟨v,hv,rfl⟩ := List.mem_map.mp hm
    have hle := h v hv
    omega)
  rw [List.length_map,smul_eq_mul] at hsum
  omega

theorem sizeBound_obj {es : List (String × Json)} (names : List String) {bounds : List ℕ}
    (hnames : es.map Prod.fst = names) (hshort : ∀ name ∈ names, name.toList.length ≤ 23)
    (h : List.Forall₂ (fun e n => sizeBound e.2 ≤ n) es bounds) :
    sizeBound (.obj es) ≤ bounds.sum + 142 * bounds.length + 2 := by
  have hentries : (∀ e ∈ es, e.1.toList.length ≤ 23) →
      entriesBound es ≤ bounds.sum + 142 * bounds.length := by
    clear hnames
    induction h with
    | nil => exact fun _ => le_refl 0
    | cons hvalue _ ih =>
      intro hkeys
      have hhead := hkeys _ List.mem_cons_self
      have htail := ih fun f hf => hkeys f (List.mem_cons_of_mem _ hf)
      rw [entriesBound,List.sum_cons,List.length_cons,stringBound]
      omega
  have hes := hentries fun e he => hshort e.1 (hnames ▸ List.mem_map_of_mem he)
  rw [sizeBound]
  omega

/-- The rendering of a time, 32 characters long at most in ISO 8601, has no more than 64. -/
def Platform.ShortTime (plat : Platform) (t : FixedTime) : Prop :=
  (plat.datetimeJson t).toList.length ≤ 64

section Sizes

variable {plat : Platform}

theorem sizeBound_timestamp {t : FixedTime} (h : plat.ShortTime t) :
    sizeBound (timestamp plat t) ≤ 386 :=
  sizeBound_str h

theorem sizeBound_intent (intent : ExecutionIntent) : sizeBound (.str intent.value) ≤ 74 := by
  cases intent <;> decide

theorem sizeBound_level (level : EvidenceLevel) : sizeBound (.str level.value) ≤ 104 := by
  cases level <;> decide

theorem RoutePlan.sizeBound_dump {p : RoutePlan FixedTime}
    (hshort : ∀ t ∈ p.times, plat.ShortTime t) (hcheck : p.check = .ok ()) :
    sizeBound (p.dump plat) ≤ 60000 := by
  obtain ⟨hversion,_,hhops,_⟩ := RoutePlan.check_ok.mp hcheck
  have hcreated := hshort p.createdAt (by simp [times])
  have hexpires := hshort p.expiresAt (by simp [times])
  have hschema : sizeBound (.str p.schemaVersion) ≤ 140 := by rw [hversion]; decide
  have hpeers : sizeBound (.arr (p.hopPeerIds.map text)) ≤ 49346 := by
    have harr := sizeBound_arr (p.hopPeerIds.map text) (List.forall_mem_map.mpr
      fun peerId _ => sizeBound_peerId peerId)
    rw [List.length_map] at harr
    omega
  have hobj : sizeBound (p.dump plat) ≤ _ := sizeBound_obj RoutePlan.fieldNames rfl
    (by decide) <| .cons hschema <| .cons (sizeBound_requestId p.requestId) <|
      .cons (sizeBound_nonce p.nonce) <| .cons (sizeBound_commitment p.requestCommitment) <|
      .cons (sizeBound_intent p.intent) <| .cons (sizeBound_digest p.modelDigest) <|
      .cons (sizeBound_digest p.runtimeDigest) <| .cons hpeers <|
      .cons (sizeBound_timestamp hcreated) <| .cons (sizeBound_timestamp hexpires) .nil
  exact hobj.trans (by decide)

theorem HopReceipt.sizeBound_dump {r : HopReceipt FixedTime} (hshort : plat.ShortTime r.observedAt)
    (hcheck : r.check = .ok ()) : sizeBound (r.dump plat) ≤ 12000 := by
  obtain ⟨hversion,hindex,_,hcount,hkey,halgorithm,hsigned⟩ := HopReceipt.check_ok.mp hcheck
  have hschema : sizeBound (.str r.schemaVersion) ≤ 152 := by rw [hversion]; decide
  have hposition := sizeBound_small (le_trans hindex (by decide : 63 ≤ 64))
  have hprevious := sizeBound_optional (by decide) sizeBound_peerId r.previousPeerId
  have hnext := sizeBound_optional (by decide) sizeBound_peerId r.nextPeerId
  have hchained := sizeBound_optional (by decide) sizeBound_digest r.previousReceiptDigest
  have hkeyId : sizeBound (.str r.keyId) ≤ 476 := sizeBound_str (taggedHex_length hkey).le
  have hed25519 : sizeBound (.str r.signatureAlgorithm) ≤ 44 := by rw [halgorithm]; decide
  have hsignature : sizeBound (.str r.signature) ≤ 518 := sizeBound_str (base64url_length hsigned).le
  have hobj : sizeBound (r.dump plat) ≤ _ := sizeBound_obj HopReceipt.fieldNames rfl
    (by decide) <| .cons hschema <| .cons (sizeBound_requestId r.requestId) <|
      .cons (sizeBound_nonce r.nonce) <| .cons (sizeBound_commitment r.requestCommitment) <|
      .cons (sizeBound_digest r.routePlanDigest) <| .cons (sizeBound_digest r.policyDigest) <|
      .cons (sizeBound_digest r.topologyDigest) <| .cons (sizeBound_intent r.intent) <|
      .cons hposition <| .cons (sizeBound_small hcount) <| .cons (sizeBound_peerId r.peerId) <|
      .cons hprevious <| .cons hnext <| .cons hchained <| .cons (sizeBound_digest r.modelDigest) <|
      .cons (sizeBound_digest r.runtimeDigest) <| .cons (sizeBound_level r.evidenceLevel) <|
      .cons (sizeBound_timestamp hshort) <| .cons hkeyId <| .cons hed25519 <|
      .cons hsignature .nil
  exact hobj.trans (by decide)

/-- The largest attestation that is accepted takes less than a megabyte. -/
theorem RouteAttestation.sizeBound_dump {a : RouteAttestation FixedTime}
    (hshort : ∀ t ∈ a.times, plat.ShortTime t) (hcheck : a.check = .ok ()) :
    sizeBound (a.dump plat) ≤ 900000 := by
  obtain ⟨hversion,hplan,_,hcount,hreceipts⟩ := RouteAttestation.check_ok.mp hcheck
  have hschema : sizeBound (.str a.schemaVersion) ≤ 182 := by rw [hversion]; decide
  have hbody := RoutePlan.sizeBound_dump (fun t ht => hshort t (List.mem_append_left _ ht)) hplan
  have hchain : sizeBound (.arr (a.receipts.map (HopReceipt.dump plat))) ≤ 768066 := by
    have harr := sizeBound_arr (a.receipts.map (HopReceipt.dump plat))
      (List.forall_mem_map.mpr fun r hr => HopReceipt.sizeBound_dump
        (hshort _ (List.mem_append_right _ (List.mem_map_of_mem hr))) (hreceipts r hr))
    rw [List.length_map] at harr
    omega
  have hobj : sizeBound (a.dump plat) ≤ _ :=
    sizeBound_obj RouteAttestation.fieldNames rfl (by decide) <|
      .cons hschema <| .cons hbody <| .cons hchain .nil
  exact hobj.trans (by decide)

end Sizes

/-- A value with distinct keys, short integers and no more than `depth` levels. -/
structure Tame (depth : ℕ) (v : Json) : Prop where
  distinct : Distinct v
  ints : IntsFit v
  nesting : nesting v ≤ depth

namespace Tame

variable {depth : ℕ}

theorem mono {depth' : ℕ} {v : Json} (h : Tame depth v) (hle : depth ≤ depth') : Tame depth' v :=
  ⟨h.distinct,h.ints,h.nesting.trans hle⟩

@[simp] theorem null : Tame depth .null := ⟨trivial,trivial,Nat.zero_le depth⟩

@[simp] theorem bool (b : Bool) : Tame depth (.bool b) := ⟨trivial,trivial,Nat.zero_le depth⟩

@[simp] theorem str (s : String) : Tame depth (.str s) := ⟨trivial,trivial,Nat.zero_le depth⟩

@[simp] theorem text {p : String → Prop} (s : {s : String // p s}) : Tame depth (text s) := str s.val

@[simp] theorem timestamp (plat : Platform) (t : FixedTime) : Tame depth (timestamp plat t) := str _

theorem count {n : ℕ} (h : n ≤ 1024) : Tame depth (.int n) := by
  have hlength : (Nat.toDigits 10 n).length ≤ 4 :=
    (Nat.length_toDigits_le_iff (by decide) (by decide)).mpr (h.trans_lt (by decide))
  have hdigits : ((intText (n : ℕ)).filter isDigit).length ≤ 4 :=
    (List.length_filter_le _ _).trans hlength
  exact ⟨trivial,hdigits.trans (by decide),Nat.zero_le depth⟩

theorem optional {α : Type} {dump : α → Json} (h : ∀ a, Tame depth (dump a)) (o : Option α) :
    Tame depth (optional dump o) := by
  cases o with
  | none => exact null
  | some a => exact h a

@[simp] theorem optional_text {p : String → Prop} (o : Option {s : String // p s}) :
    Tame depth (LocusMesh.optional LocusMesh.text o) :=
  optional text o

theorem arr {vs : List Json} (h : ∀ v ∈ vs, Tame depth v) : Tame (depth + 1) (.arr vs) where
  distinct := distinctItems_iff.mpr fun v hv => (h v hv).distinct
  ints := intsFitItems_iff.mpr fun v hv => (h v hv).ints
  nesting := Nat.succ_le_succ (nestingItems_le.mpr fun v hv => (h v hv).nesting)

theorem obj {es : List (String × Json)} (names : List String) (hnames : es.map Prod.fst = names)
    (hnodup : names.Nodup) (h : ∀ e ∈ es, Tame depth e.2) : Tame (depth + 1) (.obj es) where
  distinct := ⟨hnames ▸ hnodup,distinctEntries_iff.mpr fun e he => (h e he).distinct⟩
  ints := intsFitEntries_iff.mpr fun e he => (h e he).ints
  nesting := Nat.succ_le_succ (nestingEntries_le.mpr fun e he => (h e he).nesting)

end Tame

section Dumps

variable {plat : Platform}

theorem RoutePlan.dump_tame (p : RoutePlan FixedTime) : Tame 2 (p.dump plat) := by
  have hhops : Tame 1 (.arr (p.hopPeerIds.map text)) :=
    .arr (List.forall_mem_map.mpr fun peerId _ => .text peerId)
  exact .obj RoutePlan.fieldNames rfl (by decide) (by simp [hhops])

theorem HopReceipt.dump_tame {r : HopReceipt FixedTime} (hcheck : r.check = .ok ()) :
    Tame 1 (r.dump plat) := by
  obtain ⟨_,hbound,_,hhops,_⟩ := HopReceipt.check_ok.mp hcheck
  have hindex : Tame 0 (.int r.hopIndex) := .count (hbound.trans (by decide))
  have hcount : Tame 0 (.int r.hopCount) := .count (hhops.trans (by decide))
  exact .obj HopReceipt.fieldNames rfl (by decide) (by
    simp [HopReceipt.signingPayload,hindex,hcount])

theorem RouteAttestation.dump_tame {a : RouteAttestation FixedTime} (hcheck : a.check = .ok ()) :
    Tame 3 (a.dump plat) := by
  obtain ⟨_,_,_,_,hchecks⟩ := RouteAttestation.check_ok.mp hcheck
  have hreceipts : Tame 2 (.arr (a.receipts.map (HopReceipt.dump plat))) :=
    .arr (List.forall_mem_map.mpr fun r hr => HopReceipt.dump_tame (hchecks r hr))
  exact .obj RouteAttestation.fieldNames rfl (by decide) (by
    simp [hreceipts,RoutePlan.dump_tame])

theorem PeerManifest.dump_tame (m : PeerManifest FixedTime) : Tame 1 (m.dump plat) :=
  .obj PeerManifest.fieldNames rfl (by decide) (by simp)

theorem TopologyEdge.dump_tame (e : TopologyEdge) : Tame 1 e.dump :=
  .obj TopologyEdge.fieldNames rfl (by decide) (by simp)

theorem TopologySnapshot.dump_tame (t : TopologySnapshot FixedTime) : Tame 3 (t.dump plat) := by
  have hpeers : Tame 2 (.arr (t.peers.map (PeerManifest.dump plat))) :=
    .arr (List.forall_mem_map.mpr fun m _ => PeerManifest.dump_tame m)
  have hedges : Tame 2 (.arr (t.edges.map TopologyEdge.dump)) :=
    .arr (List.forall_mem_map.mpr fun e _ => TopologyEdge.dump_tame e)
  exact .obj TopologySnapshot.fieldNames rfl (by decide) (by simp [hpeers,hedges])

theorem AdmissionPolicy.dump_tame {policy : AdmissionPolicy FixedTime}
    (hhops : policy.maxHops ≤ 64) : Tame 4 (policy.dump plat) := by
  have hintents : Tame 3 (.arr (policy.allowedIntents.val.map fun intent => .str intent.value)) :=
    .arr (List.forall_mem_map.mpr fun intent _ => .str intent.value)
  have hkeys : (policy.minimumEvidence.val.map fun entry => entry.1.value).Nodup := by
    have hvalues := policy.minimumEvidence.property.map ExecutionIntent.value_injective
    rwa [List.map_map] at hvalues
  have hfloors : Tame 3 (.obj (policy.minimumEvidence.val.map fun entry =>
      (entry.1.value,.str entry.2.value))) :=
    .obj _ (List.map_map ..) hkeys (List.forall_mem_map.mpr fun entry _ => .str entry.2.value)
  have hcount : Tame 3 (.int policy.maxHops) := .count (hhops.trans (by decide))
  have htopology : Tame 3 (policy.topology.dump plat) := TopologySnapshot.dump_tame policy.topology
  exact .obj AdmissionPolicy.fieldNames rfl (by decide) (by
    simp [hintents,hfloors,hcount,htopology])

theorem AdmissionDecision.dump_tame {d : AdmissionDecision FixedTime} (hhops : d.checkedHops ≤ 64) :
    Tame 2 (d.dump plat) := by
  have hcodes : Tame 1 (.arr (d.reasonCodes.map .str)) :=
    .arr (List.forall_mem_map.mpr fun code _ => .str code)
  have hcount : Tame 1 (.int d.checkedHops) := .count (hhops.trans (by decide))
  have hintent : ∀ o : Option ExecutionIntent,
      Tame 1 (optional (fun intent => .str intent.value) o) :=
    fun o => .optional (fun intent => .str intent.value) o
  have hlevel : ∀ o : Option EvidenceLevel, Tame 1 (optional (fun level => .str level.value) o) :=
    fun o => .optional (fun level => .str level.value) o
  exact .obj AdmissionDecision.fieldNames rfl (by decide) (by
    simp [hcodes,hcount,hintent,hlevel])

end Dumps

end LocusMesh
