import Mathlib
import LocusMesh.Quoting
import LocusMesh.Fallible

/-! `urllib.parse`: splitting a URL into its components and putting them together again. -/
namespace PyUrl

open PyText IpAddress Fallible

structure ParseResult where
  scheme : Text
  netloc : Text
  path : Text
  params : Text
  query : Text
  fragment : Text

def isC0ControlOrSpace (c : Char) : Bool := decide (c.toNat ≤ 32)

def isUnsafe (c : Char) : Bool := c == '\t' || c == '\r' || c == '\n'

def isAsciiAlpha (c : Char) : Bool :=
  (decide ('a' ≤ c) && decide (c ≤ 'z')) || (decide ('A' ≤ c) && decide (c ≤ 'Z'))

def isSchemeChar (c : Char) : Bool :=
  isAsciiAlpha c || isDigit c || c == '+' || c == '-' || c == '.'

def splitScheme (url : Text) : Text × Text :=
  match partition ':' url with
  | (_,none) => ([],url)
  | (scheme,some rest) =>
    if scheme.head?.any isAsciiAlpha && scheme.all isSchemeChar then
      (scheme.map Char.toLower,rest)
    else ([],url)

def isDelim (c : Char) : Bool := c == '/' || c == '?' || c == '#'

def splitNetloc (url : Text) : Text × Text :=
  (url.takeWhile fun c => !isDelim c,url.dropWhile fun c => !isDelim c)

/-- `\Av[a-fA-F0-9]+\..+\Z` of the text behind the `v`. -/
def isIPvFuture (s : Text) : Bool :=
  match partition '.' s with
  | (_,none) => false
  | (version,some address) =>
    decide (version ≠ []) && version.all isHexDigit && decide (address ≠ []) &&
      decide ('\n' ∉ address)

def checkBracketedHost (hostname : Text) : Except String Unit :=
  if hostname.head? = some 'v' then
    if isIPvFuture hostname.tail then .ok () else .error "IPvFuture address is invalid"
  else match ipAddress hostname with
    | none => .error "does not appear to be an IPv4 or IPv6 address"
    | some (.v4 _) => .error "An IPv4 address cannot be in brackets"
    | some (.v6 _) => .ok ()

/-- No data is allowed before the bracket, nor behind it but for a port. -/
def checkBracketedNetloc (netloc : Text) : Except String Unit :=
  let hostnameAndPort := (rpartition '@' netloc).2
  match partition '[' hostnameAndPort with
  | (beforeBracket,some bracketed) =>
    let port := (partition ']' bracketed).2.getD []
    if beforeBracket ≠ [] ∨ (port ≠ [] ∧ port.head? ≠ some ':') then .error "Invalid IPv6 URL"
    else checkBracketedHost (partition ']' bracketed).1
  | (_,none) => checkBracketedHost (partition ':' hostnameAndPort).1

/-- NFKC must not bring a delimiter into the authority. -/
def checkNetloc (u : Unicode) (netloc : Text) : Except String Unit :=
  let n := netloc.filter fun c => !(c == '@' || c == ':' || c == '#' || c == '?')
  if netloc.all isAscii = true ∨ u.nfkc n = n then .ok ()
  else if (u.nfkc n).any (fun c => isDelim c || c == '@' || c == ':') then
    .error "netloc contains invalid characters under NFKC normalization"
  else .ok ()

def checkBrackets (netloc : Text) : Except String Unit :=
  if decide ('[' ∈ netloc) ≠ decide (']' ∈ netloc) then .error "Invalid IPv6 URL"
  else if '[' ∈ netloc then checkBracketedNetloc netloc
  else .ok ()

def splitAuthority (url : Text) : Except String (Text × Text) :=
  match url with
  | '/' :: '/' :: rest => do
    checkBrackets (splitNetloc rest).1
    .ok (splitNetloc rest)
  | _ => .ok ([],url)

/-- `urlsplit(url)`; the parameters are still in the path. -/
def urlsplit (u : Unicode) (url : Text) : Except String ParseResult := do
  let (scheme,url) := splitScheme ((lstrip isC0ControlOrSpace url).filter fun c => !isUnsafe c)
  let (netloc,url) ← splitAuthority url
  let (url,fragment) := partition '#' url
  let (path,query) := partition '?' url
  checkNetloc u netloc
  .ok ⟨scheme,netloc,path,[],query.getD [],fragment.getD []⟩

def usesParams : List Text :=
  ["","ftp","hdl","prospero","http","imap","https","shttp","rtsp","rtsps","rtspu","sip","sips",
    "mms","sftp","tel"].map String.toList

def splitParams (url : Text) : Text × Text :=
  match rpartition '/' url with
  | (none,_) => ((partition ';' url).1,(partition ';' url).2.getD [])
  | (some before,last) =>
    (before ++ '/' :: (partition ';' last).1,(partition ';' last).2.getD [])

/-- Schemes are equal where their characters are. -/
local instance text_lawful : LawfulBEq Text := inferInstance

def urlparse (u : Unicode) (url : Text) : Except String ParseResult := do
  let split ← urlsplit u url
  if split.scheme ∈ usesParams ∧ ';' ∈ split.path then
    .ok {split with path := (splitParams split.path).1,params := (splitParams split.path).2}
  else .ok split

/-- `_userinfo`: the user name and password. -/
def userinfo (netloc : Text) : Option Text × Option Text :=
  match rpartition '@' netloc with
  | (none,_) => (none,none)
  | (some info,_) => (some (partition ':' info).1,(partition ':' info).2)

/-- `_hostinfo`: the host as written and the port, empty where there is none. -/
def hostinfo (netloc : Text) : Text × Text :=
  let info := (rpartition '@' netloc).2
  match partition '[' info with
  | (_,some bracketed) =>
    let rest := (partition ']' bracketed).2.getD []
    ((partition ']' bracketed).1,(partition ':' rest).2.getD [])
  | (_,none) => ((partition ':' info).1,(partition ':' info).2.getD [])

/-- Lower case up to the zone of a scoped address. -/
def lowerAddress (u : Unicode) (host : Text) : Text :=
  match partition '%' host with
  | (address,none) => u.lower address
  | (address,some zone) => u.lower address ++ '%' :: zone

def hostname (u : Unicode) (netloc : Text) : Option Text :=
  if (hostinfo netloc).1 = [] then none else some (lowerAddress u (hostinfo netloc).1)

/-- `port`, which raises on anything but a number up to 65535. -/
def port (netloc : Text) : Except String (Option ℕ) :=
  let port := (hostinfo netloc).2
  if port = [] then .ok none
  else if port.all isDigit = false then .error "Port could not be cast to integer value"
  else if maxStrDigits < port.length then .error "Exceeds the limit for integer string conversion"
  else if 65535 < ofDigits port then .error "Port out of range 0-65535"
  else .ok (some (ofDigits port))

def usesNetloc : List Text :=
  ["","ftp","http","gopher","nntp","telnet","imap","wais","file","mms","https","shttp","snews",
    "prospero","rtsp","rtsps","rtspu","rsync","svn","svn+ssh","sftp","nfs","git","git+ssh","ws",
    "wss","itms-services"].map String.toList

def urlunparse (p : ParseResult) : Text :=
  let url := if p.params = [] then p.path else p.path ++ ';' :: p.params
  let url :=
    if p.netloc ≠ [] ∨ (p.scheme ≠ [] ∧ p.scheme ∈ usesNetloc ∧ url.take 2 ≠ ['/','/']) then
      '/' :: '/' :: p.netloc ++ (if url ≠ [] ∧ url.head? ≠ some '/' then '/' :: url else url)
    else url
  let url := if p.scheme = [] then url else p.scheme ++ ':' :: url
  let url := if p.query = [] then url else url ++ '?' :: p.query
  if p.fragment = [] then url else url ++ '#' :: p.fragment

/-- `_splittype`: `([^/:]+):(.*)`. -/
def splitType (u : Unicode) (url : Text) : Option Text × Text :=
  match partition ':' url with
  | (_,none) => (none,url)
  | (scheme,some rest) =>
    if scheme = [] ∨ '/' ∈ scheme then (none,url) else (some (u.lower scheme),rest)

/-- `_splithost`: the authority and the path behind it, which begins with a slash. -/
def splitHost (url : Text) : Option (Text × Text) :=
  match url with
  | '/' :: '/' :: rest =>
    let path := (splitNetloc rest).2
    some ((splitNetloc rest).1,if path ≠ [] ∧ path.head? ≠ some '/' then '/' :: path else path)
  | _ => none

/-- `unwrap`: drop the brackets of `<URL:...>`. -/
def unwrap (url : Text) : Text :=
  let url := strip isSpace url
  let url :=
    if url.head? = some '<' ∧ url.getLast? = some '>' then strip isSpace (url.drop 1).dropLast
    else url
  if url.take 4 = ['U','R','L',':'] then strip isSpace (url.drop 4) else url

/-- What `urlsplit` has checked of an authority. -/
structure NetlocChecked (netloc : Text) : Prop where
  noDelim : ∀ c ∈ netloc, isDelim c = false
  brackets : '[' ∈ netloc ↔ ']' ∈ netloc
  bracketed : '[' ∈ netloc → checkBracketedNetloc netloc = .ok ()

theorem netlocChecked_nil : NetlocChecked [] := ⟨by simp,by simp,by simp⟩

theorem splitNetloc_noDelim (url : Text) : ∀ c ∈ (splitNetloc url).1, isDelim c = false := by
  intro c hc
  have hc' := List.mem_takeWhile_imp hc
  simpa using hc'

theorem splitAuthority_checked {url : Text} {parts : Text × Text}
    (h : splitAuthority url = .ok parts) : NetlocChecked parts.1 := by
  unfold splitAuthority at h
  split at h
  · rename_i tail
    rw [bind_ok] at h
    obtain ⟨_,hcheck,hparts⟩ := h
    rw [← Except.ok.inj hparts]
    unfold checkBrackets at hcheck
    split_ifs at hcheck with hbrackets hopen
    · exact ⟨splitNetloc_noDelim tail,by simpa using hbrackets,fun _ => hcheck⟩
    · exact ⟨splitNetloc_noDelim tail,by simpa using hbrackets,fun hin => absurd hin hopen⟩
  · rw [← Except.ok.inj h]
    exact netlocChecked_nil

theorem urlsplit_checked {u : Unicode} {url : Text} {p : ParseResult}
    (h : urlsplit u url = .ok p) : NetlocChecked p.netloc := by
  unfold urlsplit at h
  simp only [bind_ok] at h
  obtain ⟨parts,hauthority,_,_,hp⟩ := h
  rw [← Except.ok.inj hp]
  exact splitAuthority_checked hauthority

theorem urlparse_checked {u : Unicode} {url : Text} {p : ParseResult}
    (h : urlparse u url = .ok p) : NetlocChecked p.netloc := by
  unfold urlparse at h
  rw [bind_ok] at h
  obtain ⟨q,hq,hp⟩ := h
  have hnetloc : p.netloc = q.netloc := by
    split_ifs at hp <;> rw [← Except.ok.inj hp]
  rw [hnetloc]
  exact urlsplit_checked hq

def written (bracketed : Bool) (host : Text) : Text :=
  if bracketed then '[' :: (host ++ [']']) else host

def portTail : Option Text → Text
  | none => []
  | some port => ':' :: port

/-- The text behind the user info, taken apart. -/
structure HostSpelling where
  bracketed : Bool
  host : Text
  port : Option Text
  plain : bracketed = false → '[' ∉ host ∧ ']' ∉ host ∧ ':' ∉ host
  closed : bracketed = true → ']' ∉ host

def HostSpelling.text (sp : HostSpelling) : Text := written sp.bracketed sp.host ++ portTail sp.port

section HostSpellings

variable {netloc : Text}

theorem hostSpelling_plain (hopen : '[' ∉ (rpartition '@' netloc).2)
    (hclose : ']' ∉ (rpartition '@' netloc).2) :
    ∃ sp : HostSpelling, (rpartition '@' netloc).2 = sp.text ∧
      hostinfo netloc = (sp.host,sp.port.getD []) := by
  have hp := partition_of_not_mem hopen
  rcases partition_cases ':' (rpartition '@' netloc).2 with ⟨hcolon,hq⟩ | ⟨host,port,hs,hcolon,hq⟩
  · refine ⟨⟨false,(rpartition '@' netloc).2,none,fun _ => ⟨hopen,hclose,hcolon⟩,by simp⟩,?_,?_⟩
    · simp [HostSpelling.text,written,portTail]
    · simp [hostinfo,hp,hq]
  · have hsub : ∀ c ∈ host, c ∈ (rpartition '@' netloc).2 := by
      intro c hc
      rw [hs]
      exact List.mem_append_left _ hc
    refine ⟨⟨false,host,some port,fun _ => ⟨fun hc => hopen (hsub _ hc),
      fun hc => hclose (hsub _ hc),hcolon⟩,by simp⟩,?_,?_⟩
    · simpa [HostSpelling.text,written,portTail] using hs
    · simp [hostinfo,hp,hq]

theorem hostSpelling_bracketed {bracketed host rest : Text}
    (hs : (rpartition '@' netloc).2 = '[' :: bracketed) (hm : bracketed = host ++ ']' :: rest)
    (hhost : ']' ∉ host) (hrest : rest = [] ∨ rest.head? = some ':') :
    ∃ sp : HostSpelling, (rpartition '@' netloc).2 = sp.text ∧
      hostinfo netloc = (sp.host,sp.port.getD []) := by
  have hp : partition '[' (rpartition '@' netloc).2 = ([],some bracketed) := by
    rw [hs]
    simp [partition]
  have hq : partition ']' bracketed = (host,some rest) := by
    rw [hm]
    exact partition_append hhost
  cases rest with
  | nil =>
    refine ⟨⟨true,host,none,by simp,fun _ => hhost⟩,?_,?_⟩
    · simp [HostSpelling.text,hs,hm,written,portTail]
    · simp [hostinfo,hp,hq,partition]
  | cons c port =>
    have hc : c = ':' := by simpa using hrest
    subst hc
    refine ⟨⟨true,host,some port,by simp,fun _ => hhost⟩,?_,?_⟩
    · simp [HostSpelling.text,hs,hm,written,portTail]
    · simp [hostinfo,hp,hq,partition]

/-- A checked authority spells its host out, in brackets or without any. -/
theorem exists_hostSpelling {before : Text} (h : NetlocChecked netloc)
    (hsplit : netloc = before ++ (rpartition '@' netloc).2) (hopen : '[' ∉ before)
    (hclose : ']' ∉ before) : ∃ sp : HostSpelling, (rpartition '@' netloc).2 = sp.text ∧
      hostinfo netloc = (sp.host,sp.port.getD []) := by
  have hmem : ∀ c, c ∉ before → (c ∈ netloc ↔ c ∈ (rpartition '@' netloc).2) := by
    intro c hc
    constructor
    · intro hin
      rw [hsplit] at hin
      exact (List.mem_append.mp hin).resolve_left hc
    · intro hin
      rw [hsplit]
      exact List.mem_append_right _ hin
  have hboth : '[' ∈ (rpartition '@' netloc).2 ↔ ']' ∈ (rpartition '@' netloc).2 := by
    rw [← hmem _ hopen,h.brackets,hmem _ hclose]
  rcases partition_cases '[' (rpartition '@' netloc).2 with ⟨hno,_⟩ | ⟨l,m,hs,_,hp⟩
  · exact hostSpelling_plain hno (mt hboth.mpr hno)
  · have hin : '[' ∈ (rpartition '@' netloc).2 := by
      rw [hs]
      simp
    have hcheck := h.bracketed ((hmem _ hopen).mpr hin)
    unfold checkBracketedNetloc at hcheck
    simp only [hp] at hcheck
    split_ifs at hcheck with hbad
    rw [not_or,not_not] at hbad
    obtain ⟨rfl,htail⟩ := hbad
    have hclosed : ']' ∈ m := by
      have hin' := hboth.mp hin
      rw [hs] at hin'
      simpa using hin'
    rcases partition_cases ']' m with ⟨hnot,_⟩ | ⟨host,rest,hm,hhost,hq⟩
    · exact absurd hclosed hnot
    · rw [hq,Option.getD_some,not_and_or,not_not,not_not] at htail
      exact hostSpelling_bracketed hs hm hhost htail

end HostSpellings

/-- What is left of a URL of the control characters that `urlsplit` removes. -/
def removeControls (url : Text) : Text :=
  (lstrip isC0ControlOrSpace url).filter fun c => !isUnsafe c

def marked (mark : Char) : Option Text → Text
  | none => []
  | some s => mark :: s

theorem partition_marked (c : Char) (s : Text) :
    s = (partition c s).1 ++ marked c (partition c s).2 ∧ c ∉ (partition c s).1 := by
  rcases partition_cases c s with ⟨hno,hp⟩ | ⟨l,m,hs,hl,hp⟩
  · rw [hp]
    exact ⟨(List.append_nil s).symm,hno⟩
  · rw [hp]
    exact ⟨hs,hl⟩

theorem splitNetloc_append (url : Text) : url = (splitNetloc url).1 ++ (splitNetloc url).2 :=
  (List.takeWhile_append_dropWhile).symm

theorem splitNetloc_rest {url : Text} {c : Char} (h : (splitNetloc url).2.head? = some c) :
    isDelim c = true := by
  have hhead := List.head?_dropWhile_not (fun c => !isDelim c) url
  rw [splitNetloc] at h
  rw [h] at hhead
  simpa using hhead

theorem splitScheme_spelled {url rest scheme : Text} (h : splitScheme url = (scheme,rest))
    (hne : scheme ≠ []) : ∃ spelled, url = spelled ++ ':' :: rest ∧
      spelled.map Char.toLower = scheme := by
  unfold splitScheme at h
  rcases partition_cases ':' url with ⟨_,hp⟩ | ⟨l,m,hs,_,hp⟩
  · rw [hp] at h
    exact absurd (Prod.mk.inj h).1.symm hne
  · simp only [hp] at h
    split_ifs at h
    · obtain ⟨hscheme,hrest⟩ := Prod.mk.inj h
      exact ⟨l,by rw [hs,hrest],hscheme⟩
    · exact absurd (Prod.mk.inj h).1.symm hne

theorem splitAuthority_spelled {url : Text} {parts : Text × Text}
    (h : splitAuthority url = .ok parts) (hne : parts.1 ≠ []) :
    url = '/' :: '/' :: (parts.1 ++ parts.2) ∧ ∀ c, parts.2.head? = some c → isDelim c = true := by
  unfold splitAuthority at h
  split at h
  · rename_i rest
    rw [bind_ok] at h
    obtain ⟨_,_,hparts⟩ := h
    rw [← Except.ok.inj hparts]
    exact ⟨by rw [← splitNetloc_append],fun c => splitNetloc_rest⟩
  · rw [← Except.ok.inj h] at hne
    exact absurd rfl hne

/-- A URL with a scheme and an authority, spelled out in its components. -/
structure Spelled (url : Text) (p : ParseResult) (scheme : Text) (query fragment : Option Text) :
    Prop where
  text : removeControls url = scheme ++ ':' :: '/' :: '/' ::
    (p.netloc ++ (p.path ++ (marked '?' query ++ marked '#' fragment)))
  scheme : p.scheme = scheme.map Char.toLower
  query : p.query = query.getD []
  fragment : p.fragment = fragment.getD []
  rooted : p.path = [] ∨ p.path.head? = some '/'

theorem Spelled.rest_delim {url scheme : Text} {p : ParseResult} {query fragment : Option Text}
    (h : Spelled url p scheme query fragment) :
    ∀ c, (p.path ++ (marked '?' query ++ marked '#' fragment)).head? = some c →
      isDelim c = true := by
  intro c hc
  rcases h.rooted with hpath | hpath
  · rw [hpath,List.nil_append] at hc
    cases query with
    | some s =>
      cases hc
      rfl
    | none =>
      cases fragment with
      | some s =>
        cases hc
        rfl
      | none => cases hc
  · rw [List.head?_append,hpath,Option.some_or,Option.some.injEq] at hc
    rw [← hc]
    rfl

theorem urlsplit_spelled {u : Unicode} {url : Text} {p : ParseResult}
    (h : urlsplit u url = .ok p) (hscheme : p.scheme ≠ []) (hnetloc : p.netloc ≠ []) :
    (∃ scheme query fragment, Spelled url p scheme query fragment) ∧
      checkNetloc u p.netloc = .ok () := by
  unfold urlsplit at h
  simp only [bind_ok] at h
  obtain ⟨⟨netloc,rest⟩,hauthority,⟨⟩,hcheck,hp⟩ := h
  rw [← Except.ok.inj hp] at hscheme hnetloc ⊢
  refine ⟨?_,hcheck⟩
  have hsplit : splitScheme (removeControls url) =
      ((splitScheme (removeControls url)).1,(splitScheme (removeControls url)).2) := rfl
  obtain ⟨scheme,htext,hlower⟩ := splitScheme_spelled hsplit hscheme
  obtain ⟨hurl,hdelim⟩ := splitAuthority_spelled hauthority hnetloc
  obtain ⟨hfragment,hhash⟩ := partition_marked '#' rest
  obtain ⟨hquery,hmark⟩ := partition_marked '?' (partition '#' rest).1
  have hrest : rest = (partition '?' (partition '#' rest).1).1 ++
      (marked '?' (partition '?' (partition '#' rest).1).2 ++ marked '#' (partition '#' rest).2) := by
    rw [← List.append_assoc,← hquery,← hfragment]
  refine ⟨scheme,(partition '?' (partition '#' rest).1).2,(partition '#' rest).2,?_,hlower.symm,
    rfl,rfl,?_⟩
  · rw [← hrest,← hurl]
    exact htext
  · cases hpath : (partition '?' (partition '#' rest).1).1 with
    | nil => exact .inl rfl
    | cons c path =>
      have hfront : c ∈ (partition '#' rest).1 := by
        rw [hquery,hpath]
        simp
      have hc : isDelim c = true := hdelim c (by rw [hrest,hpath]; rfl)
      simp only [isDelim,Bool.or_eq_true,beq_iff_eq] at hc
      rcases hc with (rfl | rfl) | rfl
      · exact .inr rfl
      · exact absurd (by rw [hpath]; simp) hmark
      · exact absurd hfront hhash

theorem NetlocChecked.checkBrackets {netloc : Text} (h : NetlocChecked netloc) :
    PyUrl.checkBrackets netloc = .ok () := by
  unfold PyUrl.checkBrackets
  split_ifs with hbrackets hopen
  · exact absurd (by simpa using h.brackets) hbrackets
  · exact h.bracketed hopen
  · rfl

theorem NetlocChecked.splitNetloc {netloc : Text} (h : NetlocChecked netloc) :
    PyUrl.splitNetloc netloc = (netloc,[]) := by
  have hall : ∀ c ∈ netloc, (!isDelim c) = true := by
    intro c hc
    rw [h.noDelim c hc]
    rfl
  rw [PyUrl.splitNetloc,List.takeWhile_eq_self_iff.mpr hall,List.dropWhile_eq_nil_iff.mpr hall]

theorem urlparse_origin {u : Unicode} {scheme netloc : Text}
    (hscheme : scheme = "http".toList ∨ scheme = "https".toList) (hnetloc : NetlocChecked netloc)
    (hcheck : checkNetloc u netloc = .ok ())
    (hcontrols : removeControls (scheme ++ ':' :: '/' :: '/' :: netloc) =
      scheme ++ ':' :: '/' :: '/' :: netloc) :
    urlparse u (scheme ++ ':' :: '/' :: '/' :: netloc) = .ok ⟨scheme,netloc,[],[],[],[]⟩ := by
  have hsplit : splitScheme (removeControls (scheme ++ ':' :: '/' :: '/' :: netloc)) =
      (scheme,'/' :: '/' :: netloc) := by
    have hcolon : ':' ∉ scheme := by
      rcases hscheme with rfl | rfl <;> decide
    rw [hcontrols,splitScheme,partition_append hcolon]
    rcases hscheme with rfl | rfl <;> rfl
  have hauthority : splitAuthority ('/' :: '/' :: netloc) = .ok (netloc,[]) := by
    simp only [splitAuthority,hnetloc.splitNetloc]
    rw [hnetloc.checkBrackets]
    rfl
  have hurlsplit : urlsplit u (scheme ++ ':' :: '/' :: '/' :: netloc) =
      .ok ⟨scheme,netloc,[],[],[],[]⟩ := by
    unfold urlsplit
    rw [← removeControls,hsplit]
    simp only [hauthority,bind,Except.bind,partition,hcheck]
    rfl
  simp [urlparse,hurlsplit,bind,Except.bind]

end PyUrl
