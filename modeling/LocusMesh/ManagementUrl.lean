import Mathlib
import LocusMesh.MeshLlm

/-! Which spellings of a management URL are accepted: bare loopback origins, but also an
authority with an empty user name and a path of nothing but parameters. -/
namespace LocusMesh

open PyText PyUrl IpAddress Fallible

/-- What `str.lower` does to characters that have no case: the ASCII ones neither go nor come,
and whitespace at the end stays there. -/
structure LowerKeeps (u : Unicode) : Prop where
  uncased : ∀ s c, isAscii c = true → isAsciiAlpha c = false → (c ∈ u.lower s ↔ c ∈ s)
  space : ∀ s c, isSpace c = true → (u.lower (s ++ [c])).getLast? = some c

/-- `scheme://authority`, with or without a slash, an empty query and an empty fragment. -/
structure BareSpelling (u : Unicode) (url scheme authority path tail : Text) : Prop where
  text : url = scheme ++ ':' :: '/' :: '/' :: (authority ++ (path ++ tail))
  scheme : scheme.map Char.toLower = "http".toList ∨ scheme.map Char.toLower = "https".toList
  noDelim : ∀ c ∈ authority, isDelim c = false
  noUser : '@' ∉ authority
  path : path = [] ∨ path = ['/']
  tail : tail = [] ∨ tail = ['?'] ∨ tail = ['#'] ∨ tail = ['?','#']
  loopback : isLoopbackHost (checkedHost u authority) = true

/-- A URL that is a bare loopback origin, and the origin as one that is read as itself. -/
structure BareOrigin (u : Unicode) (value origin status : Text) : Prop where
  spelled : ∃ scheme authority path tail,
    BareSpelling u (removeControls (strip isSpace value)) scheme authority path tail
  reparsed : statusUrl u origin = .ok (origin,status)
  status : status = origin ++ "/api/status".toList

theorem mem_rstrip {p : Char → Bool} {s : Text} {c : Char} (h : c ∈ s) (hc : p c = false) :
    c ∈ rstrip p s := by
  rw [rstrip,List.mem_reverse]
  rw [← List.mem_reverse,← List.takeWhile_append_dropWhile (p := p) (l := s.reverse)] at h
  refine (List.mem_append.mp h).resolve_left fun htaken => ?_
  rw [List.mem_takeWhile_imp htaken] at hc
  cases hc

theorem of_mem_rstrip {p : Char → Bool} {s : Text} {c : Char} (h : c ∈ rstrip p s) : c ∈ s := by
  rw [rstrip,List.mem_reverse] at h
  exact List.mem_reverse.mp ((List.dropWhile_sublist p).subset h)

theorem ipAddress_colonless {s : Text} {a : Address} (h : ipAddress s = some a) (hs : ':' ∉ s) :
    ∃ n, ipv4 s = some n := by
  have hsix : ∀ l : Text, ':' ∉ l → ipv6 l = none := by
    intro l hl
    simp [ipv6,List.splitOn_eq_singleton hl]
  unfold ipAddress at h
  split_ifs at h
  cases hfour : ipv4 s with
  | some n => exact ⟨n,rfl⟩
  | none =>
    have hscoped : ipv6Scoped s = none := by
      unfold ipv6Scoped
      rcases partition_cases '%' s with ⟨_,hp⟩ | ⟨l,m,hl,_,hp⟩
      · rw [hp]
        exact hsix s hs
      · have hfront : ':' ∉ l := fun hin => hs (by rw [hl]; simp [hin])
        simp only [hp,hsix l hfront]
        split_ifs <;> rfl
    rw [hfour,hscoped] at h
    cases h

/-- What a loopback host without a colon is written with. -/
def isPlainChar (c : Char) : Bool := isAsciiAlpha c || isDigit c || c == '.'

theorem loopback_plain {host : Text} (h : isLoopbackHost host = true) (hcolon : ':' ∉ host) :
    ∀ c ∈ host, isPlainChar c = true := by
  rw [isLoopbackHost,Bool.or_eq_true,decide_eq_true_eq] at h
  rcases h with rfl | h
  · have hall : "localhost".toList.all isPlainChar = true := by rfl
    exact List.all_eq_true.mp hall
  · rw [Option.any_eq_true] at h
    obtain ⟨a,ha,_⟩ := h
    obtain ⟨n,hn⟩ := ipAddress_colonless ha hcolon
    intro c hc
    rcases ipv4_chars hn c hc with rfl | hd
    · rfl
    · simp [isPlainChar,hd]

theorem plain_not_space {c : Char} (h : isPlainChar c = true) : isSpace c = false := by
  have hrange : 46 ≤ c.toNat ∧ c.toNat ≤ 122 := by
    simp only [isPlainChar,isAsciiAlpha,isDigit,Bool.or_eq_true,Bool.and_eq_true,decide_eq_true_eq,
      beq_iff_eq,Char.le_def,UInt32.le_iff_toNat_le] at h
    change (((97 ≤ c.toNat ∧ c.toNat ≤ 122) ∨ 65 ≤ c.toNat ∧ c.toNat ≤ 90) ∨
      48 ≤ c.toNat ∧ c.toNat ≤ 57) ∨ c = '.' at h
    rcases h with h | rfl
    · omega
    · decide
  simp only [isSpace,Bool.or_eq_false_iff,Bool.and_eq_false_iff,decide_eq_false_iff_not,
    beq_eq_false_iff_ne]
  omega

/-- Without a colon the host is written in letters, digits and dots where it is compared; a
character that stays as it is in lower case is therefore one of these. -/
structure PlainHost (u : Unicode) (host : Text) : Prop where
  lowered : ∀ c ∈ u.lower (rstrip (· == '.') (u.lower host)), isPlainChar c = true

theorem checkedHost_plain {u : Unicode} (hlower : LowerKeeps u) {netloc : Text}
    (hcolon : ':' ∉ (hostinfo netloc).1) (hne : (hostinfo netloc).1 ≠ [])
    (h : isLoopbackHost (checkedHost u netloc) = true) : PlainHost u (hostinfo netloc).1 := by
  have hchecked : checkedHost u netloc =
      u.lower (rstrip (· == '.') (lowerAddress u (hostinfo netloc).1)) := by
    simp [checkedHost,hostname,hne]
  rw [hchecked] at h
  have hkept : ∀ c, isAscii c = true → isAsciiAlpha c = false → c ≠ '.' →
      (c ∈ u.lower (rstrip (· == '.') (lowerAddress u (hostinfo netloc).1)) ↔
        c ∈ lowerAddress u (hostinfo netloc).1) := by
    intro c hascii halpha hdot
    rw [hlower.uncased _ c hascii halpha]
    exact ⟨of_mem_rstrip,fun hin => mem_rstrip hin (by simpa using hdot)⟩
  have hno : ':' ∉ lowerAddress u (hostinfo netloc).1 := by
    unfold lowerAddress
    rcases partition_cases '%' (hostinfo netloc).1 with ⟨_,hp⟩ | ⟨l,m,hs,_,hp⟩
    · simp only [hp]
      rw [hlower.uncased _ ':' rfl rfl]
      exact hcolon
    · simp only [hp,List.mem_append,List.mem_cons,not_or]
      rw [hs,List.mem_append,List.mem_cons,not_or] at hcolon
      rw [hlower.uncased _ ':' rfl rfl]
      exact ⟨hcolon.1,by decide,fun hin => hcolon.2 (.inr hin)⟩
  have hplain := loopback_plain h ((hkept ':' rfl rfl (by decide)).not.mpr hno)
  have hscope : '%' ∉ lowerAddress u (hostinfo netloc).1 := by
    intro hin
    exact absurd (hplain '%' ((hkept '%' rfl rfl (by decide)).mpr hin)) (by decide)
  have hwhole : lowerAddress u (hostinfo netloc).1 = u.lower (hostinfo netloc).1 := by
    unfold lowerAddress at hscope ⊢
    rcases partition_cases '%' (hostinfo netloc).1 with ⟨_,hp⟩ | ⟨l,m,_,_,hp⟩
    · rw [hp]
    · simp [hp] at hscope
  rw [hwhole] at hplain
  exact ⟨hplain⟩

theorem PlainHost.not_mem {u : Unicode} (hlower : LowerKeeps u) {host : Text}
    (h : PlainHost u host) {c : Char} (hascii : isAscii c = true) (hplain : isPlainChar c = false) :
    c ∉ host := by
  simp only [isPlainChar,Bool.or_eq_false_iff] at hplain
  obtain ⟨⟨halpha,hdigit⟩,hdot⟩ := hplain
  intro hin
  have hchar := h.lowered c (by
    rw [hlower.uncased _ c hascii halpha]
    exact mem_rstrip ((hlower.uncased _ c hascii halpha).mpr hin) hdot)
  simp [isPlainChar,halpha,hdigit,hdot] at hchar

theorem PlainHost.last {u : Unicode} (hlower : LowerKeeps u) {host : Text} (h : PlainHost u host)
    {c : Char} (hc : host.getLast? = some c) : isSpace c = false := by
  cases hspace : isSpace c with
  | false => rfl
  | true =>
    obtain ⟨init,rfl⟩ := List.getLast?_eq_some_iff.mp hc
    have hdot : (c == '.') = false := by
      rw [beq_eq_false_iff_ne]
      rintro rfl
      cases hspace
    have honce := hlower.space init c hspace
    have hsame : rstrip (· == '.') (u.lower (init ++ [c])) = u.lower (init ++ [c]) := by
      apply rstrip_of_last
      intro d hd
      rw [honce,Option.mem_def,Option.some.injEq] at hd
      rw [← hd]
      exact hdot
    obtain ⟨init',hinit'⟩ := List.getLast?_eq_some_iff.mp honce
    have htwice := hlower.space init' c hspace
    rw [← hinit'] at htwice
    have hin := h.lowered c (by rw [hsame]; exact List.mem_of_getLast? htwice)
    rw [plain_not_space hin] at hspace
    cases hspace

/-- How the authority of an accepted URL is spelled. -/
theorem Accepted.spelling {u : Unicode} {p : ParseResult} (h : Accepted u p) :
    ∃ (before : Text) (sp : HostSpelling), p.netloc = before ++ sp.text ∧
      ('@' ∉ p.netloc → before = []) ∧ hostinfo p.netloc = (sp.host,sp.port.getD []) ∧
      sp.host ≠ [] := by
  obtain ⟨before,sp,hsplit,_,hbefore,hinfo⟩ := h.spelled
  refine ⟨before,sp,hsplit,?_,hinfo,?_⟩
  · intro hat
    rw [hsplit,List.mem_append,not_or] at hat
    rcases hbefore with rfl | rfl | rfl
    · rfl
    · exact absurd (by decide) hat.1
    · exact absurd (by decide) hat.1
  · intro hempty
    exact h.host (by simp [hostname,hinfo,hempty])

theorem Accepted.plainHost {u : Unicode} (hlower : LowerKeeps u) {p : ParseResult}
    (h : Accepted u p) {sp : HostSpelling} (hinfo : hostinfo p.netloc = (sp.host,sp.port.getD []))
    (hne : sp.host ≠ []) (hplain : sp.bracketed = false) : PlainHost u sp.host := by
  have hhost := checkedHost_plain hlower (by rw [hinfo]; exact (sp.plain hplain).2.2)
    (by rw [hinfo]; exact hne) h.loopback
  rw [hinfo] at hhost
  exact hhost

theorem Accepted.last_not_space {u : Unicode} (hlower : LowerKeeps u) {p : ParseResult}
    (h : Accepted u p) {c : Char} (hc : p.netloc.getLast? = some c) : isSpace c = false := by
  obtain ⟨before,sp,hnetloc,_,hinfo,hne⟩ := h.spelling
  have hdigits := (h.port_digits hinfo).1
  rw [hnetloc,HostSpelling.text] at hc
  cases hport : sp.port with
  | some port =>
    rw [hport,portTail,← List.append_assoc,
      List.getLast?_append_of_ne_nil _ (List.cons_ne_nil _ _)] at hc
    rw [hport,Option.getD_some,List.all_eq_true] at hdigits
    rcases List.mem_cons.mp (List.mem_of_getLast? hc) with rfl | hin
    · rfl
    · exact plain_not_space (by simp [isPlainChar,hdigits c hin])
  | none =>
    rw [hport,portTail,List.append_nil] at hc
    cases hbracketed : sp.bracketed with
    | true =>
      have hclosed : before ++ written true sp.host = (before ++ '[' :: sp.host) ++ [']'] := by
        simp [written]
      rw [hbracketed,hclosed,List.getLast?_concat,Option.some.injEq] at hc
      rw [← hc]
      rfl
    | false =>
      rw [hbracketed,written,if_neg Bool.false_ne_true,List.getLast?_append_of_ne_nil _ hne] at hc
      exact (h.plainHost hlower hinfo hne hbracketed).last hlower hc

theorem Accepted.head_ne {u : Unicode} (hlower : LowerKeeps u) {p : ParseResult}
    (h : Accepted u p) (hat : '@' ∉ p.netloc) : p.netloc.head? ≠ some ';' := by
  obtain ⟨before,sp,hnetloc,hbefore,hinfo,hne⟩ := h.spelling
  rw [hnetloc,hbefore hat,List.nil_append,HostSpelling.text]
  cases hbracketed : sp.bracketed with
  | true => simp [written]
  | false =>
    rw [written,if_neg Bool.false_ne_true,List.head?_append_of_ne_nil _ hne]
    intro hhead
    exact (h.plainHost hlower hinfo hne hbracketed).not_mem hlower (c := ';') rfl rfl
      (List.mem_of_head? hhead)

theorem statusUrl_of_accepted {u : Unicode} {value : Text} {p : ParseResult}
    (hparse : urlparse u (strip isSpace value) = .ok p) (h : Accepted u p) (hquery : p.query = [])
    (hfragment : p.fragment = []) (hpath : p.path = [] ∨ p.path = ['/']) :
    ∃ origin status, statusUrl u value = .ok (origin,status) := by
  have hscheme : ¬((p.scheme ≠ "http".toList ∧ p.scheme ≠ "https".toList) ∨
      hostname u p.netloc = none) := by
    rintro (⟨hhttp,hhttps⟩ | hhost)
    · exact h.scheme.elim hhttp hhttps
    · exact h.host hhost
  have hcredentials : ¬(hasCredentials p.netloc = true ∨ p.query ≠ [] ∨ p.fragment ≠ []) := by
    simp [h.credentials,hquery,hfragment]
  have hroot : ¬(p.path ≠ [] ∧ p.path ≠ ['/']) := fun hboth => hpath.elim hboth.1 hboth.2
  have hloopback : ¬isLoopbackHost (checkedHost u p.netloc) = false := by simp [h.loopback]
  unfold statusUrl
  simp only [hparse,Except.mapError,bind,Except.bind,refuse,if_neg hscheme,if_neg hcredentials,
    if_neg hroot,if_neg h.port,if_neg hloopback]
  exact ⟨_,_,rfl⟩

theorem removeControls_safe {url : Text} {c : Char} (h : c ∈ removeControls url) :
    isUnsafe c = false := by
  have hc := (List.mem_filter.mp h).2
  simpa using hc

theorem removeControls_eq {url : Text} (hfirst : ∀ c ∈ url.head?, isC0ControlOrSpace c = false)
    (hsafe : ∀ c ∈ url, isUnsafe c = false) : removeControls url = url := by
  have hl : lstrip isC0ControlOrSpace url = url := by
    cases url with
    | nil => rfl
    | cons c url => simp [lstrip,hfirst c rfl]
  rw [removeControls,hl,List.filter_eq_self]
  intro c hc
  rw [hsafe c hc]
  rfl

/-- The origin of an accepted URL is accepted, and its origin is itself. -/
theorem statusUrl_origin {u : Unicode} (hlower : LowerKeeps u) {p : ParseResult}
    (h : Accepted u p) (hcheck : checkNetloc u p.netloc = .ok ())
    (hsafe : ∀ c ∈ p.netloc, isUnsafe c = false) :
    statusUrl u (p.scheme ++ ':' :: '/' :: '/' :: p.netloc) =
      .ok (p.scheme ++ ':' :: '/' :: '/' :: p.netloc,
        p.scheme ++ ':' :: '/' :: '/' :: p.netloc ++ "/api/status".toList) := by
  have hhead : (p.scheme ++ ':' :: '/' :: '/' :: p.netloc).head? = some 'h' := by
    rcases h.scheme with hs | hs <;> rw [hs] <;> rfl
  have hstrip : strip isSpace (p.scheme ++ ':' :: '/' :: '/' :: p.netloc) =
      p.scheme ++ ':' :: '/' :: '/' :: p.netloc := by
    apply strip_of_ends
    · intro c hc
      rw [hhead,Option.mem_def,Option.some.injEq] at hc
      rw [← hc]
      rfl
    · intro c hc
      obtain ⟨d,netloc,hcons⟩ := List.exists_cons_of_ne_nil (netloc_ne_nil h.host)
      rw [List.getLast?_append_of_ne_nil _ (List.cons_ne_nil _ _),List.getLast?_cons_cons,
        List.getLast?_cons_cons,hcons,List.getLast?_cons_cons,← hcons] at hc
      exact h.last_not_space hlower hc
  have hcontrols : removeControls (p.scheme ++ ':' :: '/' :: '/' :: p.netloc) =
      p.scheme ++ ':' :: '/' :: '/' :: p.netloc := by
    apply removeControls_eq
    · intro c hc
      rw [hhead,Option.mem_def,Option.some.injEq] at hc
      rw [← hc]
      rfl
    · intro c hc
      rw [List.mem_append,List.mem_cons,List.mem_cons,List.mem_cons] at hc
      rcases hc with hc | rfl | rfl | rfl | hc
      · have hscheme : p.scheme.all (fun c => !isUnsafe c) = true := by
          rcases h.scheme with hs | hs <;> rw [hs] <;> rfl
        simpa using List.all_eq_true.mp hscheme c hc
      · rfl
      · rfl
      · rfl
      · exact hsafe c hc
  have hparse := urlparse_origin h.scheme h.netloc hcheck hcontrols
  rw [← hstrip] at hparse
  obtain ⟨origin,status,hok⟩ := statusUrl_of_accepted hparse
    ⟨h.scheme,h.netloc,h.host,h.credentials,h.port,h.loopback⟩ rfl rfl (.inl rfl)
  obtain ⟨_,horigin,hstatus⟩ := statusUrl_ok hparse hok
  rw [hok,hstatus,horigin]

/-- What stands before `://` and between it and the next delimiter is determined. -/
theorem spelling_unique {scheme scheme' authority authority' rest rest' : Text}
    (hs : ':' ∉ scheme) (hs' : ':' ∉ scheme') (ha : ∀ c ∈ authority, isDelim c = false)
    (ha' : ∀ c ∈ authority', isDelim c = false)
    (hrest : ∀ c, rest.head? = some c → isDelim c = true)
    (hrest' : ∀ c, rest'.head? = some c → isDelim c = true)
    (h : scheme ++ ':' :: '/' :: '/' :: (authority ++ rest) =
      scheme' ++ ':' :: '/' :: '/' :: (authority' ++ rest')) :
    scheme = scheme' ∧ authority = authority' ∧ rest = rest' := by
  have hcut : ∀ l m : Text, (∀ c ∈ l, isDelim c = false) →
      (∀ c, m.head? = some c → isDelim c = true) → splitNetloc (l ++ m) = (l,m) := by
    intro l m hl hm
    have hall : ∀ c ∈ l, (!isDelim c) = true := by
      intro c hc
      rw [hl c hc]
      rfl
    have hstop : m.takeWhile (fun c => !isDelim c) = [] ∧ m.dropWhile (fun c => !isDelim c) = m := by
      cases m with
      | nil => exact ⟨rfl,rfl⟩
      | cons c m => simp [hm c rfl]
    rw [splitNetloc,List.takeWhile_append_of_pos hall,List.dropWhile_append_of_pos hall,hstop.1,
      hstop.2,List.append_nil]
  have hparts := congrArg (partition ':') h
  rw [partition_append hs,partition_append hs'] at hparts
  obtain ⟨hscheme,htext⟩ := Prod.mk.inj hparts
  simp only [Option.some.injEq,List.cons.injEq,true_and] at htext
  have hnetloc := congrArg splitNetloc htext
  rw [hcut _ _ ha hrest,hcut _ _ ha' hrest'] at hnetloc
  exact ⟨hscheme,(Prod.mk.inj hnetloc).1,(Prod.mk.inj hnetloc).2⟩

theorem chain_of_slashless {l : Text} (h : '/' ∉ l) :
    l.IsChain fun a b => ¬(a = '/' ∧ b = ';') := by
  refine (List.pairwise_of_forall_mem_list fun a ha b _ hboth => ?_).isChain
  rw [hboth.1] at ha
  exact h ha

theorem BareSpelling.rest_delim {u : Unicode} {url scheme authority path tail : Text}
    (h : BareSpelling u url scheme authority path tail) :
    ∀ c, (path ++ tail).head? = some c → isDelim c = true := by
  intro c hc
  rcases h.path with rfl | rfl <;> rcases h.tail with rfl | rfl | rfl | rfl <;> cases hc <;> rfl

theorem not_mem_scheme {scheme : Text} (h : scheme.map Char.toLower = "http".toList ∨
    scheme.map Char.toLower = "https".toList) {c : Char} (hc : c.toLower = c)
    (hhttp : c ∉ "http".toList) (hhttps : c ∉ "https".toList) : c ∉ scheme := by
  intro hin
  have hmem := List.mem_map_of_mem (f := Char.toLower) hin
  rw [hc] at hmem
  rcases h with hs | hs <;> rw [hs] at hmem
  · exact hhttp hmem
  · exact hhttps hmem

theorem BareSpelling.no_at {u : Unicode} {url scheme authority path tail : Text}
    (h : BareSpelling u url scheme authority path tail) : '@' ∉ url := by
  have hrest : '@' ∉ path ++ tail := by
    rcases h.path with rfl | rfl <;> rcases h.tail with rfl | rfl | rfl | rfl <;> decide
  rw [List.mem_append,not_or] at hrest
  have hscheme : '@' ∉ scheme := not_mem_scheme h.scheme (by decide) (by decide) (by decide)
  rw [h.text]
  simp [hscheme,h.noUser,hrest]

theorem BareSpelling.no_params {u : Unicode} {url scheme authority path tail : Text}
    (h : BareSpelling u url scheme authority path tail) (hne : authority ≠ [])
    (hhead : authority.head? ≠ some ';') : ¬"/;".toList <:+: url := by
  have hrest : (path ++ tail).IsChain fun a b => ¬(a = '/' ∧ b = ';') := by
    rcases h.path with rfl | rfl <;> rcases h.tail with rfl | rfl | rfl | rfl <;> simp
  have hslash : '/' ∉ authority := by
    intro hin
    have hdelim := h.noDelim '/' hin
    cases hdelim
  have hback : (authority ++ (path ++ tail)).IsChain fun a b => ¬(a = '/' ∧ b = ';') := by
    rw [List.isChain_append]
    refine ⟨chain_of_slashless hslash,hrest,?_⟩
    rintro a _ b hb ⟨_,rfl⟩
    have hdelim := h.rest_delim ';' hb
    cases hdelim
  have hfront : ∀ b ∈ (authority ++ (path ++ tail)).head?, b ≠ ';' := by
    rw [List.head?_append_of_ne_nil _ hne]
    rintro b hb rfl
    exact hhead hb
  have hchain : url.IsChain fun a b => ¬(a = '/' ∧ b = ';') := by
    rw [h.text,List.isChain_append]
    refine ⟨chain_of_slashless (not_mem_scheme h.scheme (by decide) (by decide) (by decide)),?_,?_⟩
    · rw [List.isChain_cons_cons,List.isChain_cons_cons,List.isChain_cons]
      exact ⟨by decide,by decide,fun b hb hboth => hfront b hb hboth.2,hback⟩
    · rintro a _ b hb ⟨_,rfl⟩
      cases hb
  intro hin
  have hpair := hchain.infix hin
  simp at hpair

theorem statusUrl_parsed {u : Unicode} {value origin status : Text}
    (h : statusUrl u value = .ok (origin,status)) :
    ∃ p, urlparse u (strip isSpace value) = .ok p ∧ p.query = [] ∧ p.fragment = [] ∧
      (p.path = [] ∨ p.path = ['/']) := by
  cases hparse : urlparse u (strip isSpace value) with
  | error message =>
    rw [statusUrl,hparse] at h
    cases h
  | ok p =>
    have hparsed : (urlparse u (strip isSpace value)).mapError PyError.valueError = .ok p := by
      rw [hparse]
      rfl
    unfold statusUrl at h
    simp only [hparsed,bind_ok,refuse_ok,Except.ok.injEq,exists_eq_left',not_or,not_and,not_not,
      exists_const] at h
    obtain ⟨_,⟨_,hquery,hfragment⟩,hpath,_⟩ := h
    refine ⟨p,rfl,hquery,hfragment,?_⟩
    by_cases hempty : p.path = []
    · exact .inl hempty
    · exact .inr (hpath hempty)

/-- The parameters are cut off the path; all else is as `urlsplit` has it. -/
theorem urlparse_urlsplit {u : Unicode} {url : Text} {p : ParseResult}
    (h : urlparse u url = .ok p) : ∃ q, urlsplit u url = .ok q ∧ p.scheme = q.scheme ∧
      p.netloc = q.netloc ∧ p.query = q.query ∧ p.fragment = q.fragment ∧
      (p.path = q.path ∨ (';' ∈ q.path ∧ p.path = (splitParams q.path).1)) := by
  unfold urlparse at h
  rw [bind_ok] at h
  obtain ⟨q,hq,hp⟩ := h
  refine ⟨q,hq,?_⟩
  split_ifs at hp with hparams
  · rw [← Except.ok.inj hp]
    exact ⟨rfl,rfl,rfl,rfl,.inr ⟨hparams.2,rfl⟩⟩
  · rw [← Except.ok.inj hp]
    exact ⟨rfl,rfl,rfl,rfl,.inl rfl⟩

theorem splitParams_root {path : Text} (hrooted : path.head? = some '/') (hsemi : ';' ∈ path)
    (h : (splitParams path).1 = [] ∨ (splitParams path).1 = ['/']) :
    ∃ params, path = '/' :: ';' :: params := by
  unfold splitParams at h
  rcases rpartition_cases '/' path with ⟨hno,_⟩ | ⟨before,last,hs,_,hp⟩
  · exact absurd (List.mem_of_head? hrooted) hno
  · simp only [hp] at h
    have hfront : before = [] ∧ (partition ';' last).1 = [] := by
      rcases h with h | h
      · simp at h
      · simpa [List.append_eq_singleton_iff] using h
    rw [hfront.1,List.nil_append] at hs
    rcases partition_cases ';' last with ⟨hnone,_⟩ | ⟨l,params,hlast,_,hq⟩
    · rw [hs] at hsemi
      exact absurd ((List.mem_cons.mp hsemi).resolve_left (by decide)) hnone
    · rw [hq] at hfront
      obtain ⟨_,rfl⟩ := hfront
      exact ⟨params,by rw [hs,hlast]; rfl⟩

theorem marked_empty (mark : Char) {s : Option Text} (h : s.getD [] = []) :
    marked mark s = [] ∨ marked mark s = [mark] := by
  cases s with
  | none => exact .inl rfl
  | some s => exact .inr (by rw [marked,show s = [] from h])

/-- The split of an accepted URL, its parameters still in the path. -/
structure AcceptedSplit (u : Unicode) (value origin status : Text) (q : ParseResult)
    (scheme : Text) (query fragment : Option Text) : Prop where
  accepted : Accepted u q
  checked : checkNetloc u q.netloc = .ok ()
  spelled : Spelled (strip isSpace value) q scheme query fragment
  query : query.getD [] = []
  fragment : fragment.getD [] = []
  path : q.path = [] ∨ q.path = ['/'] ∨ ∃ params, q.path = '/' :: ';' :: params
  status : status = origin ++ "/api/status".toList
  origin : origin = q.scheme ++ ':' :: '/' :: '/' :: q.netloc

theorem statusUrl_split {u : Unicode} {value origin status : Text}
    (h : statusUrl u value = .ok (origin,status)) :
    ∃ q scheme query fragment, AcceptedSplit u value origin status q scheme query fragment := by
  obtain ⟨p,hparse,hquery,hfragment,hpath⟩ := statusUrl_parsed h
  obtain ⟨haccepted,horigin,hstatus⟩ := statusUrl_ok hparse h
  obtain ⟨q,hsplit,hscheme,hnetloc,hquery',hfragment',hpath'⟩ := urlparse_urlsplit hparse
  have hq : Accepted u q := by
    obtain ⟨hs,hn,hhost,hcredentials,hport,hloopback⟩ := haccepted
    rw [hscheme] at hs
    rw [hnetloc] at hn hhost hcredentials hport hloopback
    exact ⟨hs,hn,hhost,hcredentials,hport,hloopback⟩
  have hsne : q.scheme ≠ [] := by
    rcases hq.scheme with hs | hs <;> rw [hs] <;> simp
  obtain ⟨⟨scheme,query,fragment,hspelled⟩,hcheck⟩ :=
    urlsplit_spelled hsplit hsne (netloc_ne_nil hq.host)
  refine ⟨q,scheme,query,fragment,⟨hq,hcheck,hspelled,?_,?_,?_,hstatus,?_⟩⟩
  · rw [← hspelled.query,← hquery',hquery]
  · rw [← hspelled.fragment,← hfragment',hfragment]
  · rcases hpath' with hsame | ⟨hsemi,hcut⟩
    · rw [← hsame]
      exact hpath.imp_right .inl
    · rw [hcut] at hpath
      rcases hspelled.rooted with hempty | hrooted
      · exact .inl hempty
      · exact .inr (.inr (splitParams_root hrooted hsemi hpath))
  · rw [horigin,hscheme,hnetloc]

theorem AcceptedSplit.lowered {u : Unicode} {value origin status scheme : Text} {q : ParseResult}
    {query fragment : Option Text} (h : AcceptedSplit u value origin status q scheme query fragment) :
    scheme.map Char.toLower = "http".toList ∨ scheme.map Char.toLower = "https".toList := by
  rw [← h.spelled.scheme]
  exact h.accepted.scheme

theorem BareOrigin.plain {u : Unicode} (hlower : LowerKeeps u) {value origin status : Text}
    (h : statusUrl u value = .ok (origin,status)) (hbare : BareOrigin u value origin status) :
    '@' ∉ removeControls (strip isSpace value) ∧
      ¬"/;".toList <:+: removeControls (strip isSpace value) := by
  obtain ⟨q,scheme,query,fragment,hsplit⟩ := statusUrl_split h
  obtain ⟨scheme',authority,path,tail,hspelling⟩ := hbare.spelled
  have hcolon : ∀ {s : Text}, s.map Char.toLower = "http".toList ∨
      s.map Char.toLower = "https".toList → ':' ∉ s := fun hs =>
    not_mem_scheme hs (by decide) (by decide) (by decide)
  have hauthority : authority = q.netloc :=
    (spelling_unique (hcolon hspelling.scheme) (hcolon hsplit.lowered) hspelling.noDelim
      hsplit.accepted.netloc.noDelim hspelling.rest_delim hsplit.spelled.rest_delim
      (hspelling.text.symm.trans hsplit.spelled.text)).2.1
  have hat := hspelling.noUser
  refine ⟨hspelling.no_at,hspelling.no_params ?_ ?_⟩
  · rw [hauthority]
    exact netloc_ne_nil hsplit.accepted.host
  · rw [hauthority] at hat ⊢
    exact hsplit.accepted.head_ne hlower hat

/-- Without user info and parameters an accepted URL is a bare origin. -/
theorem bareOrigin_of_plain {u : Unicode} (hlower : LowerKeeps u) {value origin status : Text}
    (h : statusUrl u value = .ok (origin,status))
    (hat : '@' ∉ removeControls (strip isSpace value))
    (hparams : ¬"/;".toList <:+: removeControls (strip isSpace value)) :
    BareOrigin u value origin status := by
  obtain ⟨q,scheme,query,fragment,hsplit⟩ := statusUrl_split h
  have htext := hsplit.spelled.text
  have hroot : q.path = [] ∨ q.path = ['/'] := by
    rcases hsplit.path with hpath | hpath | ⟨params,hpath⟩
    · exact .inl hpath
    · exact .inr hpath
    · refine absurd ⟨scheme ++ ':' :: '/' :: '/' :: q.netloc,
        params ++ (marked '?' query ++ marked '#' fragment),?_⟩ hparams
      rw [htext,hpath]
      simp
  refine ⟨⟨scheme,q.netloc,q.path,marked '?' query ++ marked '#' fragment,⟨htext,hsplit.lowered,
    hsplit.accepted.netloc.noDelim,?_,hroot,?_,hsplit.accepted.loopback⟩⟩,?_,hsplit.status⟩
  · intro hin
    rw [htext] at hat
    simp [hin] at hat
  · rcases marked_empty '?' hsplit.query with hm | hm <;>
      rcases marked_empty '#' hsplit.fragment with hn | hn <;> simp [hm,hn]
  · rw [hsplit.status,hsplit.origin]
    refine statusUrl_origin hlower hsplit.accepted hsplit.checked fun c hc => ?_
    have hin : c ∈ removeControls (strip isSpace value) := by
      rw [htext]
      simp [hc]
    exact removeControls_safe hin

/-- An accepted URL is a bare loopback origin exactly when it has no user info, not even an
empty one, and no parameters behind the slash. -/
theorem bare_origin_iff {u : Unicode} (hlower : LowerKeeps u) {value origin status : Text}
    (h : statusUrl u value = .ok (origin,status)) :
    BareOrigin u value origin status ↔
      '@' ∉ removeControls (strip isSpace value) ∧
        ¬"/;".toList <:+: removeControls (strip isSpace value) :=
  ⟨fun hbare => hbare.plain hlower h,fun hplain => bareOrigin_of_plain hlower h hplain.1 hplain.2⟩

namespace Demo

theorem toLower_cases (c : Char) :
    c.toLower = c ∨ (isAsciiAlpha c = true ∧ isAsciiAlpha c.toLower = true) := by
  unfold Char.toLower
  split_ifs with h
  · refine .inr ⟨?_,?_⟩
    · simp only [isAsciiAlpha,Bool.or_eq_true,Bool.and_eq_true,decide_eq_true_eq]
      exact .inr h
    · have hcode : 65 ≤ c.val.toNat ∧ c.val.toNat ≤ 90 := h
      have hsum : (c.val + ('a'.val - 'A'.val)).toNat = c.val.toNat + 32 := by
        rw [UInt32.toNat_add]
        change (c.val.toNat + 32) % 2 ^ 32 = c.val.toNat + 32
        omega
      simp only [isAsciiAlpha,Bool.or_eq_true,Bool.and_eq_true,decide_eq_true_eq,Char.le_def,
        UInt32.le_iff_toNat_le,hsum]
      change (97 ≤ c.val.toNat + 32 ∧ c.val.toNat + 32 ≤ 122) ∨ _
      omega
  · exact .inl rfl

theorem ascii_keeps : LowerKeeps ascii := by
  constructor
  · intro s c _ hc
    simp only [ascii,List.mem_map]
    constructor
    · rintro ⟨d,hd,rfl⟩
      rcases toLower_cases d with hsame | ⟨_,halpha⟩
      · rwa [hsame]
      · rw [halpha] at hc
        cases hc
    · intro hin
      refine ⟨c,hin,(toLower_cases c).resolve_right fun halpha => ?_⟩
      rw [halpha.1] at hc
      cases hc
  · intro s c hc
    have hsame : c.toLower = c := by
      refine (toLower_cases c).resolve_right fun halpha => ?_
      rw [plain_not_space (by simp [isPlainChar,halpha.1])] at hc
      cases hc
    simp [ascii,hsame]

end Demo

theorem bare_origin_demo :
    statusUrl Demo.ascii Demo.managementUrl =
      .ok (Demo.managementUrl,Demo.managementUrl ++ "/api/status".toList) ∧
    BareOrigin Demo.ascii Demo.managementUrl Demo.managementUrl
      (Demo.managementUrl ++ "/api/status".toList) :=
  ⟨Demo.management_accepted,(bare_origin_iff Demo.ascii_keeps Demo.management_accepted).mpr
    ⟨by decide,by decide⟩⟩

/-- An empty user name and parameters behind the slash are accepted. -/
theorem loose_origin_demo :
    (statusUrl Demo.ascii "http://@localhost".toList =
        .ok ("http://@localhost".toList,"http://@localhost/api/status".toList) ∧
      ¬BareOrigin Demo.ascii "http://@localhost".toList "http://@localhost".toList
        "http://@localhost/api/status".toList) ∧
    statusUrl Demo.ascii "http://localhost/;x".toList =
        .ok ("http://localhost".toList,"http://localhost/api/status".toList) ∧
      ¬BareOrigin Demo.ascii "http://localhost/;x".toList "http://localhost".toList
        "http://localhost/api/status".toList := by
  have huser : statusUrl Demo.ascii "http://@localhost".toList =
      .ok ("http://@localhost".toList,"http://@localhost/api/status".toList) := by rfl
  have hparams : statusUrl Demo.ascii "http://localhost/;x".toList =
      .ok ("http://localhost".toList,"http://localhost/api/status".toList) := by rfl
  refine ⟨⟨huser,fun hbare => ?_⟩,hparams,fun hbare => ?_⟩
  · exact (hbare.plain Demo.ascii_keeps huser).1 (by decide)
  · exact (hbare.plain Demo.ascii_keeps hparams).2 (by decide)

end LocusMesh
