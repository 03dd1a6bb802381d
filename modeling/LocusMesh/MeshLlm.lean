import Mathlib
import LocusMesh.Crypto
import LocusMesh.Opener

/-! The management URL of the Mesh-LLM status observer: what it accepts, and the request that
it makes of it. -/
namespace LocusMesh

open PyText PyUrl PyOpener IpAddress Fallible

/-- The host that is compared with `localhost` and the loopback addresses. -/
def checkedHost (u : Unicode) (netloc : Text) : Text :=
  u.lower (rstrip (· == '.') ((hostname u netloc).getD []))

def refuse (refused : Prop) [Decidable refused] (message : String) : Except PyError Unit :=
  if refused then .error (.valueError message) else .ok ()

def isLoopbackHost (host : Text) : Bool :=
  decide (host = "localhost".toList) || (ipAddress host).any Address.isLoopback

def hasCredentials (netloc : Text) : Bool :=
  decide ((userinfo netloc).1.getD [] ≠ []) || decide ((userinfo netloc).2.getD [] ≠ [])

def statusUrl (u : Unicode) (value : Text) : Except PyError (Text × Text) := do
  let parsed ← (urlparse u (strip isSpace value)).mapError .valueError
  refuse ((parsed.scheme ≠ "http".toList ∧ parsed.scheme ≠ "https".toList) ∨
      hostname u parsed.netloc = none)
    "management_url must be an HTTP(S) loopback origin"
  refuse (hasCredentials parsed.netloc = true ∨ parsed.query ≠ [] ∨ parsed.fragment ≠ [])
    "management_url must not contain credentials, query, or fragment"
  refuse (parsed.path ≠ [] ∧ parsed.path ≠ ['/']) "management_url must be an origin without a path"
  refuse ((port parsed.netloc).toOption = none) "management_url contains an invalid port"
  refuse (isLoopbackHost (checkedHost u parsed.netloc) = false)
    "management_url must use a loopback host"
  let origin := rstrip (· == '/') (urlunparse ⟨parsed.scheme,parsed.netloc,[],[],[],[]⟩)
  .ok (origin,origin ++ "/api/status".toList)

theorem refuse_ok {refused : Prop} [Decidable refused] {message : String} {v : Unit} :
    refuse refused message = .ok v ↔ ¬refused := by
  unfold refuse
  split_ifs with h <;> simp [h]

/-- What `_status_url` has established of the URL it accepts. -/
structure Accepted (u : Unicode) (p : ParseResult) : Prop where
  scheme : p.scheme = "http".toList ∨ p.scheme = "https".toList
  netloc : NetlocChecked p.netloc
  host : hostname u p.netloc ≠ none
  credentials : hasCredentials p.netloc = false
  port : (PyUrl.port p.netloc).toOption ≠ none
  loopback : isLoopbackHost (checkedHost u p.netloc) = true

theorem netloc_ne_nil {u : Unicode} {netloc : Text} (h : hostname u netloc ≠ none) :
    netloc ≠ [] := by
  rintro rfl
  exact h (by simp [hostname,hostinfo,rpartition,partition])

theorem urlunparse_origin {scheme netloc : Text} (hscheme : scheme ≠ []) (hnetloc : netloc ≠ []) :
    urlunparse ⟨scheme,netloc,[],[],[],[]⟩ = scheme ++ ':' :: '/' :: '/' :: netloc := by
  simp [urlunparse,hscheme,hnetloc]

theorem statusUrl_ok {u : Unicode} {value origin status : Text} {p : ParseResult}
    (hparse : urlparse u (strip isSpace value) = .ok p)
    (h : statusUrl u value = .ok (origin,status)) :
    Accepted u p ∧ origin = p.scheme ++ ':' :: '/' :: '/' :: p.netloc ∧
      status = origin ++ "/api/status".toList := by
  have hparsed : (urlparse u (strip isSpace value)).mapError PyError.valueError = .ok p := by
    rw [hparse]
    rfl
  unfold statusUrl at h
  simp only [hparsed,bind_ok,refuse_ok,Except.ok.injEq,Prod.mk.injEq,exists_eq_left',
    not_or,not_and,not_not,exists_const] at h
  obtain ⟨⟨hscheme,hhost⟩,⟨hcredentials,_⟩,_,hport,hloopback,horigin,hstatus⟩ := h
  have haccepted : Accepted u p := by
    refine ⟨?_,urlparse_checked hparse,hhost,by simpa using hcredentials,hport,by simpa using hloopback⟩
    by_cases hhttp : p.scheme = "http".toList
    · exact .inl hhttp
    · exact .inr (hscheme hhttp)
  have hne : p.scheme ≠ [] := by
    rcases haccepted.scheme with hs | hs <;> rw [hs] <;> simp
  have hnetloc := netloc_ne_nil hhost
  have hlast : ∀ d ∈ (p.scheme ++ ':' :: '/' :: '/' :: p.netloc).getLast?, (d == '/') = false := by
    intro d hd
    obtain ⟨c,l,hcons⟩ := List.exists_cons_of_ne_nil hnetloc
    have hin : d ∈ p.netloc := by
      rw [List.getLast?_append_of_ne_nil _ (List.cons_ne_nil _ _),List.getLast?_cons_cons,
        List.getLast?_cons_cons,hcons,List.getLast?_cons_cons,← hcons] at hd
      exact List.mem_of_getLast? hd
    have hdelim := haccepted.netloc.noDelim d hin
    simp only [isDelim,Bool.or_eq_false_iff] at hdelim
    exact hdelim.1.1
  rw [urlunparse_origin hne hnetloc,rstrip_of_last hlast] at horigin
  exact ⟨haccepted,horigin.symm,by rw [← hstatus,urlunparse_origin hne hnetloc,
    rstrip_of_last hlast,horigin]⟩

/-- Before the host there is nothing, an empty user name, or one with an empty password. -/
theorem userinfo_empty {netloc : Text} (h : hasCredentials netloc = false) :
    ∃ before, netloc = before ++ (rpartition '@' netloc).2 ∧ '@' ∉ (rpartition '@' netloc).2 ∧
      (before = [] ∨ before = ['@'] ∨ before = [':','@']) := by
  rcases rpartition_cases '@' netloc with ⟨hno,hp⟩ | ⟨info,rest,hs,hrest,hp⟩
  · refine ⟨[],?_,?_,.inl rfl⟩
    · rw [hp]
      rfl
    · rw [hp]
      exact hno
  · rw [hasCredentials,userinfo,hp] at h
    simp only [Bool.or_eq_false_iff,decide_eq_false_iff_not,not_not,Option.getD_some] at h
    rw [hp]
    refine ⟨info ++ ['@'],by simpa using hs,hrest,.inr ?_⟩
    rcases partition_cases ':' info with ⟨_,hq⟩ | ⟨l,m,hs',_,hq⟩
    · rw [hq] at h
      exact .inl (by rw [show info = [] from h.1]; rfl)
    · rw [hq] at h
      simp only [Option.getD_some] at h
      exact .inr (by rw [hs',h.1,h.2]; rfl)

def statusRequest (p : ParseResult) : Request :=
  ⟨p.scheme,unquote p.netloc,"/api/status".toList,
    p.scheme ++ ':' :: '/' :: '/' :: (p.netloc ++ "/api/status".toList),none,none⟩

theorem ofUrl_authority {u : Unicode} {scheme netloc path : Text}
    (hscheme : scheme = "http".toList ∨ scheme = "https".toList) (hnetloc : NetlocChecked netloc)
    (hpath : path.head? = some '/') (hhash : '#' ∉ path) {last : Char}
    (hlast : path.getLast? = some last) (hspace : isSpace last = false) :
    Request.ofUrl u (scheme ++ ':' :: '/' :: '/' :: (netloc ++ path)) =
      .ok ⟨scheme,unquote netloc,path,scheme ++ ':' :: '/' :: '/' :: (netloc ++ path),none,none⟩ := by
  have hfacts : ':' ∉ scheme ∧ '/' ∉ scheme ∧ '#' ∉ scheme ∧ scheme ≠ [] ∧
      scheme.head? = some 'h' ∧ scheme.take 4 ≠ ['U','R','L',':'] ∧ 4 ≤ scheme.length ∧
      u.lower scheme = scheme := by
    have hlower : scheme.all isAscii = true ∧ scheme.map Char.toLower = scheme := by
      rcases hscheme with rfl | rfl <;> simp [isAscii]
    have hsame := (u.lower_ascii scheme hlower.1).trans hlower.2
    rcases hscheme with rfl | rfl <;> simpa using hsame
  obtain ⟨hcolon,hslash,hno,hne,hhead,htake,hlen,hlower⟩ := hfacts
  obtain ⟨url,hurl⟩ : ∃ url : Text, url = scheme ++ ':' :: '/' :: '/' :: (netloc ++ path) := ⟨_,rfl⟩
  have hrest : path ≠ [] := by
    rintro rfl
    cases hlast
  have hfirst : url.head? = some 'h' := by
    rw [hurl,List.head?_append,hhead]
    rfl
  have hend : url.getLast? = some last := by
    rw [hurl,← List.cons_append,← List.cons_append,← List.cons_append,← List.append_assoc,
      List.getLast?_append_of_ne_nil _ hrest,hlast]
  have hstrip : strip isSpace url = url := by
    apply strip_of_ends
    · intro d hd
      rw [hfirst,Option.mem_def,Option.some.injEq] at hd
      rw [← hd]
      rfl
    · intro d hd
      rw [hend,Option.mem_def,Option.some.injEq] at hd
      rw [← hd]
      exact hspace
  have hunwrap : unwrap url = url := by
    have hmark : url.take 4 = scheme.take 4 := by
      rw [hurl,List.take_append_of_le_length hlen]
    simp [unwrap,hstrip,hfirst,hmark,htake]
  have htag : splitTag url = (url,[]) := by
    have hfree : '#' ∉ netloc := fun hin => by simpa [isDelim] using hnetloc.noDelim '#' hin
    rw [splitTag,rpartition_of_not_mem]
    simp [hurl,hno,hhash,hfree]
  have htype : splitType u url = (some scheme,'/' :: '/' :: (netloc ++ path)) := by
    rw [splitType,hurl,partition_append hcolon]
    simp [hne,hslash,hlower]
  have hsplit : splitNetloc (netloc ++ path) = (netloc,path) := by
    have hall : ∀ c ∈ netloc, (!isDelim c) = true := by
      intro c hc
      rw [hnetloc.noDelim c hc]
      rfl
    obtain ⟨tail,rfl⟩ := List.head?_eq_some_iff.mp hpath
    rw [splitNetloc,List.takeWhile_append_of_pos hall,List.dropWhile_append_of_pos hall]
    simp [isDelim]
  rw [← hurl]
  simp [Request.ofUrl,hunwrap,htag,htype,splitHost,hsplit,hpath]

theorem ofUrl_status {u : Unicode} {p : ParseResult} (h : Accepted u p) :
    Request.ofUrl u (p.scheme ++ ':' :: '/' :: '/' :: p.netloc ++ "/api/status".toList) =
      .ok (statusRequest p) := by
  have hurl : p.scheme ++ ':' :: '/' :: '/' :: p.netloc ++ "/api/status".toList =
      p.scheme ++ ':' :: '/' :: '/' :: (p.netloc ++ "/api/status".toList) := by simp
  have hlast : "/api/status".toList.getLast? = some 's' := rfl
  rw [hurl,ofUrl_authority h.scheme h.netloc rfl (by decide) hlast rfl]
  rfl

theorem port_digits {netloc : Text} (h : (PyUrl.port netloc).toOption ≠ none) :
    (hostinfo netloc).2.all isDigit = true ∧ (hostinfo netloc).2.length ≤ maxStrDigits := by
  unfold PyUrl.port at h
  by_cases hempty : (hostinfo netloc).2 = []
  · rw [hempty]
    exact ⟨rfl,Nat.zero_le _⟩
  · cases hall : (hostinfo netloc).2.all isDigit with
    | false => simp [hempty,hall,Except.toOption] at h
    | true =>
      refine ⟨rfl,?_⟩
      by_contra hlong
      simp [hempty,hall,not_le.mp hlong,Except.toOption] at h

/-- An accepted authority spells out its host, behind empty credentials if any. -/
theorem Accepted.spelled {u : Unicode} {p : ParseResult} (h : Accepted u p) :
    ∃ (before : Text) (sp : HostSpelling), p.netloc = before ++ sp.text ∧ '@' ∉ sp.text ∧
      (before = [] ∨ before = ['@'] ∨ before = [':','@']) ∧
      hostinfo p.netloc = (sp.host,sp.port.getD []) := by
  obtain ⟨before,hsplit,hat,hbefore⟩ := userinfo_empty h.credentials
  have hbrackets : '[' ∉ before ∧ ']' ∉ before := by
    rcases hbefore with rfl | rfl | rfl <;> decide
  obtain ⟨sp,htext,hinfo⟩ := exists_hostSpelling h.netloc hsplit hbrackets.1 hbrackets.2
  rw [htext] at hsplit hat
  exact ⟨before,sp,hsplit,hat,hbefore,hinfo⟩

theorem Accepted.port_digits {u : Unicode} {p : ParseResult} {sp : HostSpelling}
    (h : Accepted u p) (hinfo : hostinfo p.netloc = (sp.host,sp.port.getD [])) :
    (sp.port.getD []).all isDigit = true ∧ (sp.port.getD []).length ≤ maxStrDigits := by
  have hdigits := LocusMesh.port_digits h.port
  rw [hinfo] at hdigits
  exact hdigits

namespace Demo

def ascii : Unicode := ⟨fun s => s.map Char.toLower,fun _ _ => rfl,id,fun _ => none,fun _ => false⟩

def managementUrl : Text := "http://127.0.0.1:3131".toList

theorem management_accepted : statusUrl ascii managementUrl =
    .ok (managementUrl,managementUrl ++ "/api/status".toList) := by rfl

end Demo

end LocusMesh
