import Mathlib
import LocusMesh.Admission
import LocusMesh.LocalSigner
import LocusMesh.Sha256

/-! The deterministic offline scenarios of the demo, for any keys and any times, and their
instance at the demo's own. -/
namespace LocusMesh.Demo

open CanonicalJson PyCollections AwareClock

def deviceLocal : PeerId := ⟨"device-local",by rfl⟩
def privatePeer : PeerId := ⟨"private-peer",by rfl⟩
def loopbackPublic : PeerId := ⟨"loopback-public",by rfl⟩

def commitmentKey : List UInt8 := encodeUtf8 "locusmesh-demo-commitment-key-v1-32-bytes"

structure Keys where
  deviceLocal : Ed25519PrivateKey
  privatePeer : Ed25519PrivateKey
  loopbackPublic : Ed25519PrivateKey

/-- The windows of the manifests, of the topology and of the plans. -/
structure Windows (τ : Type) [AwareDatetime τ] where
  validFrom : τ
  manifestExpiresAt : τ
  capturedAt : τ
  topologyExpiresAt : τ
  createdAt : τ
  planExpiresAt : τ
  manifest_lt : lt validFrom manifestExpiresAt = true
  topology_lt : lt capturedAt topologyExpiresAt = true
  plan_lt : lt createdAt planExpiresAt = true

section Scenario

variable {τ : Type} [AwareDatetime τ] (plat : Platform) (keys : Keys) (windows : Windows τ)

def modelDigest : Digest := sha256Digest plat (.obj [("model",.str "demo-model-v1")])
def runtimeDigest : Digest := sha256Digest plat (.obj [("runtime",.str "demo-runtime-v1")])

def manifest (peerId : PeerId) (scope : ExecutionIntent) (signer : Ed25519PrivateKey)
    (addressHint : Option AddressHint) : PeerManifest τ where
  schemaVersion := "locusmesh.peer-manifest.v1"
  peerId := peerId
  executionScope := scope
  modelDigest := modelDigest plat
  runtimeDigest := runtimeDigest plat
  evidenceLevel := .peerAsserted
  keyId := LocalEd25519Signer.keyId plat signer
  publicKey := LocalEd25519Signer.publicKey signer
  validFrom := windows.validFrom
  expiresAt := windows.manifestExpiresAt
  addressHint := addressHint

def requestCommitment (requestId : RequestId) : Commitment :=
  tagged "hmac-sha256:" (hmacSha256 plat commitmentKey (canonicalJsonBytes
    (.obj [("operation",.str "classify"),("request_id",text requestId)])))

theorem commitRequest_eq (requestId : RequestId) :
    commitRequest plat (.obj [("operation",.str "classify"),("request_id",text requestId)])
      commitmentKey = .ok (requestCommitment plat requestId) := by
  have hlength : ¬commitmentKey.length < 32 := by decide +kernel
  rw [commitRequest,if_neg hlength,requestCommitment]

def plan (requestId : RequestId) (nonce : Nonce) (intent : ExecutionIntent) (hops : List PeerId) :
    RoutePlan τ where
  schemaVersion := "locusmesh.route-plan.v1"
  requestId := requestId
  nonce := nonce
  requestCommitment := requestCommitment plat requestId
  intent := intent
  modelDigest := modelDigest plat
  runtimeDigest := runtimeDigest plat
  hopPeerIds := hops
  createdAt := windows.createdAt
  expiresAt := windows.planExpiresAt

def edge (target : PeerId) : TopologyEdge := ⟨"locusmesh.topology-edge.v1",deviceLocal,target⟩

def topology : TopologySnapshot τ where
  schemaVersion := "locusmesh.topology-snapshot.v1"
  snapshotId := ⟨"demo-topology-v1",by decide⟩
  localPeerId := deviceLocal
  capturedAt := windows.capturedAt
  expiresAt := windows.topologyExpiresAt
  peers :=
    [manifest plat windows deviceLocal .deviceOnly keys.deviceLocal none,
     manifest plat windows privatePeer .privateMesh keys.privatePeer none,
     manifest plat windows loopbackPublic .publicMesh keys.loopbackPublic
       (some ⟨"http://127.0.0.1:8080",by decide⟩)]
  edges := [edge privatePeer,edge loopbackPublic]

def policy : AdmissionPolicy τ where
  schemaVersion := "locusmesh.admission-policy.v1"
  allowedIntents := ⟨[.deviceOnly,.privateMesh],by decide⟩
  maxHops := 3
  minimumEvidence := ⟨[(.deviceOnly,.observed),(.privateMesh,.peerAsserted)],by decide⟩
  topology := topology plat keys windows

def devicePlan : RoutePlan τ :=
  plan plat windows ⟨"demo-device",by decide⟩ ⟨"nonce-device-0001",by rfl⟩ .deviceOnly [deviceLocal]

def privatePlan : RoutePlan τ :=
  plan plat windows ⟨"demo-private",by decide⟩ ⟨"nonce-private-001",by rfl⟩ .privateMesh
    [deviceLocal,privatePeer]

def escapePlan : RoutePlan τ :=
  plan plat windows ⟨"demo-loopback-escape",by decide⟩ ⟨"nonce-loopback-01",by rfl⟩ .deviceOnly
    [loopbackPublic]

theorem peerIds_distinct : [deviceLocal,privatePeer,loopbackPublic].Nodup := by
  simp [deviceLocal,privatePeer,loopbackPublic,Subtype.ext_iff]

theorem manifest_check (peerId : PeerId) (scope : ExecutionIntent) (signer : Ed25519PrivateKey)
    (addressHint : Option AddressHint) :
    (manifest plat windows peerId scope signer addressHint).check = .ok () := by
  simp [PeerManifest.check,manifest,checkSchemaVersion,andThen_ok,ge_eq_not_lt,
    windows.manifest_lt]

theorem topology_check : (topology plat keys windows).check = .ok () := by
  have hdistinct := peerIds_distinct
  rw [TopologySnapshot.check_ok]
  refine ⟨rfl,by simp [topology],by simp [topology],by simp [topology],?_,?_,windows.topology_lt,hdistinct,
    List.mem_cons_self,?_,?_⟩
  · simp [topology,manifest_check]
  · simp [topology,TopologyEdge.check,edge,checkSchemaVersion]
  · simp_all [TopologySnapshot.edgePairs,topology,edge]
  · simp [TopologySnapshot.edgePairs,TopologySnapshot.peerIds,topology,edge,manifest]

theorem policy_check : (policy plat keys windows).check = .ok () := by
  rw [AdmissionPolicy.check_ok]
  exact ⟨by simp [policy],by simp [policy],topology_check plat keys windows,rfl,
    by simp [policy,AdmissionPolicy.floor]⟩

theorem plan_check (requestId : RequestId) (nonce : Nonce) (intent : ExecutionIntent)
    {hops : List PeerId} (hne : 1 ≤ hops.length) (hmax : hops.length ≤ 64) :
    (plan plat windows requestId nonce intent hops).check = .ok () :=
  RoutePlan.check_ok.mpr ⟨rfl,hne,hmax,windows.plan_lt⟩

def validPolicy : Validated (AdmissionPolicy τ) :=
  ⟨policy plat keys windows,policy_check plat keys windows⟩

theorem peersById_of_mem {m : PeerManifest τ} (h : m ∈ (topology plat keys windows).peers) :
    (policy plat keys windows).peersById m.peerId = some m :=
  (mem_peersById : (validPolicy plat keys windows).val.peersById m.peerId = some m ↔ _).mpr ⟨h,rfl⟩

def validDevicePlan : Validated (RoutePlan τ) :=
  ⟨devicePlan plat windows,plan_check plat windows _ _ _ (by decide) (by decide)⟩

def validPrivatePlan : Validated (RoutePlan τ) :=
  ⟨privatePlan plat windows,plan_check plat windows _ _ _ (by decide) (by decide)⟩

variable {plat keys windows} {now : τ}

section Hops

variable (keys)

theorem manifestFits_iff (requestId : RequestId) (nonce : Nonce) (intent : ExecutionIntent)
    (hops : List PeerId) (peerId : PeerId) (scope : ExecutionIntent) (signer : Ed25519PrivateKey)
    (hint : Option AddressHint) :
    ManifestFits plat (plan plat windows requestId nonce intent hops) (policy plat keys windows) now
      (manifest plat windows peerId scope signer hint) ↔
      inWindow windows.validFrom windows.manifestExpiresAt now = true ∧
      Policy.scopeRank scope ≤ Policy.scopeRank intent ∧
      belowFloor ((policy plat keys windows).floor intent) .peerAsserted = false := by
  rw [belowFloor_eq_false]
  constructor
  · intro h
    exact ⟨h.window,h.scope,h.evidence⟩
  · rintro ⟨hwindow,hscope,hfloor⟩
    exact ⟨hwindow,hscope,rfl,rfl,LocalEd25519Signer.deriveKeyId_publicKey plat signer,hfloor⟩

theorem routeFits_iff (requestId : RequestId) (nonce : Nonce) (intent : ExecutionIntent)
    (hops : List PeerId) : RouteFits (plan plat windows requestId nonce intent hops)
      (policy plat keys windows) now ↔
      inWindow windows.createdAt windows.planExpiresAt now = true ∧
      inWindow windows.capturedAt windows.topologyExpiresAt now = true ∧
      intent ∈ [ExecutionIntent.deviceOnly,.privateMesh] ∧
      (intent = .deviceOnly → hops = [deviceLocal]) ∧ hops.length ≤ 3 ∧ hops.Nodup ∧
      ∀ hop ∈ hops.zip hops.tail,
        hop ∈ [(deviceLocal,privatePeer),(deviceLocal,loopbackPublic)] := by
  have hfloor : (policy plat keys windows).floor intent ≠ some .hardwareAttested := by
    show [(ExecutionIntent.deviceOnly,EvidenceLevel.observed),
      (.privateMesh,.peerAsserted)].lookup intent ≠ some .hardwareAttested
    cases intent <;> decide
  constructor
  · intro h
    exact ⟨h.window,h.topologyWindow,h.allowed,h.locally,h.maxHops,h.distinct,h.edges⟩
  · rintro ⟨hwindow,htopology,hallowed,hlocally,hmax,hdistinct,hedges⟩
    exact ⟨hallowed,hwindow,htopology,hmax,hdistinct,hlocally,hedges,hfloor⟩

theorem plan_admitted_iff (requestId : RequestId) (nonce : Nonce) (intent : ExecutionIntent)
    (hops : List PeerId) :
    (planDecision plat (plan plat windows requestId nonce intent hops) (policy plat keys windows)
      now).admitted = true ↔
      RouteFits (plan plat windows requestId nonce intent hops) (policy plat keys windows) now ∧
      ∀ peerId ∈ hops, ∃ m, (policy plat keys windows).peersById peerId = some m ∧
        ManifestFits plat (plan plat windows requestId nonce intent hops)
          (policy plat keys windows) now m := by
  rw [planDecision_fits]
  exact ⟨fun h => ⟨h.route,h.hops⟩,fun h => ⟨h.1,h.2⟩⟩

end Hops

def localManifest (plat : Platform) (keys : Keys) (windows : Windows τ) : PeerManifest τ :=
  manifest plat windows deviceLocal .deviceOnly keys.deviceLocal none

def privateManifest (plat : Platform) (keys : Keys) (windows : Windows τ) : PeerManifest τ :=
  manifest plat windows privatePeer .privateMesh keys.privatePeer none

theorem peersById_deviceLocal : (policy plat keys windows).peersById deviceLocal =
    some (localManifest plat keys windows) :=
  peersById_of_mem plat keys windows List.mem_cons_self

theorem peersById_privatePeer : (policy plat keys windows).peersById privatePeer =
    some (privateManifest plat keys windows) :=
  peersById_of_mem plat keys windows (List.mem_cons_of_mem _ List.mem_cons_self)

def Windows.Contain (windows : Windows τ) (now : τ) : Prop :=
  inWindow windows.createdAt windows.planExpiresAt now = true ∧
    inWindow windows.capturedAt windows.topologyExpiresAt now = true ∧
    inWindow windows.validFrom windows.manifestExpiresAt now = true

theorem devicePlan_admitted_iff :
    (planDecision plat (devicePlan plat windows) (policy plat keys windows) now).admitted = true ↔
      windows.Contain now := by
  have hfloor : belowFloor ((policy plat keys windows).floor .deviceOnly) .peerAsserted = false :=
    rfl
  rw [devicePlan,plan_admitted_iff,routeFits_iff]
  simp [peersById_deviceLocal,localManifest,manifestFits_iff,hfloor,Windows.Contain,and_assoc]

theorem devicePlan_evidence (now : τ) :
    (planDecision plat (devicePlan plat windows) (policy plat keys windows) now).effectiveEvidence =
      some .peerAsserted := by
  have hhops : (devicePlan plat windows).hopPeerIds.filterMap (policy plat keys windows).peersById =
      [localManifest plat keys windows] := by
    simp [devicePlan,plan,peersById_deviceLocal]
  simp only [planDecision,scanPlan_eq,hhops]
  rfl

theorem privatePlan_admitted_iff :
    (planDecision plat (privatePlan plat windows) (policy plat keys windows) now).admitted = true ↔
      windows.Contain now := by
  have hfloor : belowFloor ((policy plat keys windows).floor .privateMesh) .peerAsserted = false :=
    rfl
  have hne : deviceLocal ≠ privatePeer := by
    have hdistinct := peerIds_distinct
    simp_all
  rw [privatePlan,plan_admitted_iff,routeFits_iff]
  simp [peersById_deviceLocal,peersById_privatePeer,localManifest,privateManifest,
    manifestFits_iff,hfloor,hne,Windows.Contain,Policy.scopeRank,and_assoc]

/-- A loopback address does not make a public peer device-local: the escape is denied at
every time. -/
theorem escapePlan_denied :
    (planDecision plat (escapePlan plat windows) (policy plat keys windows) now).admitted =
      false := by
  have hdistinct := peerIds_distinct
  rw [← Bool.not_eq_true,escapePlan,plan_admitted_iff,routeFits_iff]
  rintro ⟨⟨_,_,_,hfirst,_⟩,_⟩
  simp_all

end Scenario

/-- The text of a listed time, and an injective stand-in for every other. -/
def render (texts : List (FixedTime × String)) (t : FixedTime) : String :=
  match texts.lookup t with
  | some shown => shown
  | none => String.ofList (List.replicate (Encodable.encode (t.wall,t.utcoffset)) 'x')

theorem render_injective {texts : List (FixedTime × String)}
    (hkeys : (texts.map Prod.fst).Nodup) (hnodup : (texts.map Prod.snd).Nodup)
    (hx : ∀ shown ∈ texts.map Prod.snd, ∃ c ∈ shown.toList, c ≠ 'x') :
    Function.Injective (render texts) := by
  have hlisted : ∀ {t : FixedTime} {shown : String}, texts.lookup t = some shown →
      (t,shown) ∈ texts := (lookup_eq_some hkeys).mp
  have hapart : ∀ {t : FixedTime} {shown : String} (n : ℕ), texts.lookup t = some shown →
      shown ≠ String.ofList (List.replicate n 'x') := by
    rintro t shown n h rfl
    obtain ⟨c,hc,hne⟩ := hx _ (List.mem_map_of_mem (hlisted h))
    rw [String.toList_ofList] at hc
    exact hne (List.eq_of_mem_replicate hc)
  intro t u h
  unfold render at h
  cases ht : texts.lookup t with
  | some shown =>
    cases hu : texts.lookup u with
    | some shown' =>
      simp only [ht,hu] at h
      have hsame := List.inj_on_of_nodup_map hnodup (hlisted ht) (hlisted hu) h
      exact congrArg Prod.fst hsame
    | none =>
      simp only [ht,hu] at h
      exact absurd h (hapart _ ht)
  | none =>
    cases hu : texts.lookup u with
    | some shown =>
      simp only [ht,hu] at h
      exact absurd h.symm (hapart _ hu)
    | none =>
      simp only [ht,hu] at h
      have hlength := congrArg (fun s => s.toList.length) h
      simp only [String.toList_ofList,List.length_replicate] at hlength
      have hpair := Prod.ext_iff.mp (Encodable.encode_injective hlength)
      exact FixedTime.ext hpair.1 hpair.2

def minutes (n : ℤ) : FixedTime := ⟨1893499200000000 + n * 60000000,0⟩

def windows : Windows FixedTime where
  validFrom := minutes (-1440)
  manifestExpiresAt := minutes 1440
  capturedAt := minutes (-60)
  topologyExpiresAt := minutes 60
  createdAt := minutes (-5)
  planExpiresAt := minutes 5
  manifest_lt := by decide
  topology_lt := by decide
  plan_lt := by decide

def texts (suffix : String) : List (FixedTime × String) :=
  [(minutes (-1440),"2029-12-31T12:00:00" ++ suffix),
   (minutes 1440,"2030-01-02T12:00:00" ++ suffix),
   (minutes (-60),"2030-01-01T11:00:00" ++ suffix),
   (minutes 60,"2030-01-01T13:00:00" ++ suffix),
   (minutes (-5),"2030-01-01T11:55:00" ++ suffix),
   (minutes 5,"2030-01-01T12:05:00" ++ suffix),
   (minutes 0,"2030-01-01T12:00:00" ++ suffix)]

def hashes : Platform where
  sha256 := Sha256.sha256
  ed25519Verify _ _ _ := .error .invalidSignature
  isoformat := render (texts "+00:00")
  datetimeJson := render (texts "Z")

theorem faithfulTimes : hashes.FaithfulTimes := by
  have hkeys : ∀ suffix, ((texts suffix).map Prod.fst).Nodup := by
    intro suffix
    show [minutes (-1440),minutes 1440,minutes (-60),minutes 60,minutes (-5),minutes 5,
      minutes 0].Nodup
    decide
  refine ⟨render_injective (hkeys _) ?_ ?_,render_injective (hkeys _) ?_ ?_⟩
  · simp [texts]
  · simp [texts]
  · simp [texts]
  · simp [texts]

def devicePublicBytes : List UInt8 :=
  [152,3,115,209,195,169,49,91,212,51,41,73,31,71,121,12,195,113,101,121,149,149,145,230,57,223,33,
   58,43,106,77,38]

def privatePublicBytes : List UInt8 :=
  [234,136,160,181,164,130,51,152,128,174,172,187,99,107,120,65,203,121,67,142,117,85,143,29,169,33,
   86,192,5,102,220,57]

def loopbackPublicBytes : List UInt8 :=
  [177,42,101,35,125,29,100,160,136,145,118,142,157,213,128,179,163,210,96,176,88,221,10,100,161,
   241,34,4,104,243,57,116]

def keysSigning (sign : (key payload : List UInt8) → Vector UInt8 64) : Keys where
  deviceLocal := ⟨devicePublicBytes,fun payload => (sign devicePublicBytes payload).toList,rfl,
    fun _ => Vector.length_toList⟩
  privatePeer := ⟨privatePublicBytes,fun payload => (sign privatePublicBytes payload).toList,rfl,
    fun _ => Vector.length_toList⟩
  loopbackPublic := ⟨loopbackPublicBytes,fun payload => (sign loopbackPublicBytes payload).toList,
    rfl,fun _ => Vector.length_toList⟩

/-- A stand-in for the signatures the demo does not make. -/
def standIn (key payload : List UInt8) : Vector UInt8 64 :=
  Sha256.sha256 (key ++ payload) ++ Sha256.sha256 (payload ++ key)

def signers (plat : Platform) (keys : Keys) (peerId : PeerId) : Option Signer :=
  List.lookup peerId
    [(deviceLocal,LocalEd25519Signer.signer plat keys.deviceLocal),
     (privatePeer,LocalEd25519Signer.signer plat keys.privatePeer),
     (loopbackPublic,LocalEd25519Signer.signer plat keys.loopbackPublic)]

/-- The local hop's override: it claims no more than what it observed. -/
def observedOnly : Option (PeerId → Option EvidenceLevel) := some fun _ => some .observed

section Device

variable (plat : Platform) (keys : Keys)

def unsignedDeviceReceipt : HopReceipt FixedTime :=
  unsignedReceipt plat (devicePlan plat windows) (policy plat keys windows) (minutes 0)
    observedOnly 0 deviceLocal none none (localManifest plat keys windows)
    (LocalEd25519Signer.signer plat keys.deviceLocal) []

def devicePayload : List UInt8 :=
  canonicalJsonBytes (.obj ((unsignedDeviceReceipt plat keys).signingPayload plat))

def deviceReceipt : HopReceipt FixedTime :=
  {unsignedDeviceReceipt plat keys with
    signature := encodeBase64url (keys.deviceLocal.sign (devicePayload plat keys))}

end Device

/-- The Ed25519 signature of the device receipt; of other payloads, the stand-in. -/
def sign (key payload : List UInt8) : Vector UInt8 64 :=
  if key = devicePublicBytes ∧ payload = devicePayload hashes (keysSigning standIn) then
    #v[3,148,205,36,171,248,211,1,133,165,139,206,217,95,36,197,92,169,46,201,127,79,98,13,20,110,
      118,21,198,195,138,53,11,51,64,176,94,74,215,3,30,240,95,59,94,119,92,84,10,108,63,123,223,
      200,147,59,191,45,214,112,180,29,99,15]
  else standIn key payload

def keys : Keys := keysSigning sign

def platform : Platform where
  sha256 := hashes.sha256
  ed25519Verify key signature payload :=
    if signature = (sign key payload).toList then .ok () else .error .invalidSignature
  isoformat := hashes.isoformat
  datetimeJson := hashes.datetimeJson

theorem platform_faithfulTimes : platform.FaithfulTimes :=
  ⟨faithfulTimes.isoformat,faithfulTimes.datetimeJson⟩

theorem verify_of_sign {key signature payload : List UInt8}
    (h : signature = (sign key payload).toList) :
    platform.ed25519Verify key signature payload = .ok () :=
  if_pos h

theorem verify_sign (payload : List UInt8) :
    platform.ed25519Verify keys.deviceLocal.publicBytes (keys.deviceLocal.sign payload) payload =
      .ok () :=
  verify_of_sign (by simp only [keys,keysSigning])

theorem verify_sign_private (payload : List UInt8) :
    platform.ed25519Verify keys.privatePeer.publicBytes (keys.privatePeer.sign payload) payload =
      .ok () :=
  verify_of_sign (by simp only [keys,keysSigning])

def plan₀ : Validated (RoutePlan FixedTime) := validDevicePlan platform windows
def plan₁ : Validated (RoutePlan FixedTime) := validPrivatePlan platform windows
def policy₀ : Validated (AdmissionPolicy FixedTime) := validPolicy platform keys windows

theorem contain_noon : windows.Contain (minutes 0) := ⟨by decide,by decide,by decide⟩

end LocusMesh.Demo
