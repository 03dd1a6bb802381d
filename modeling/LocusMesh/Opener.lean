import Mathlib
import LocusMesh.Url

/-! `urllib.request`: the handlers an opener is built from, the proxies that the environment
names, and the hosts that opening a request contacts. -/
namespace PyOpener

open PyText PyUrl

/-- What the handlers read and write of a `Request`. -/
structure Request where
  type : Text
  host : Text
  selector : Text
  fullUrl : Text
  tunnelHost : Option Text
  hostHeader : Option (Option Text)
  deriving DecidableEq

/-- `_splittag`: the text before the last `#`, and what stands behind it. -/
def splitTag (url : Text) : Text × Text :=
  match rpartition '#' url with
  | (none,_) => (url,[])
  | (some path,tag) => (path,tag)

/-- `Request(url)`; its host is the authority with the percent escapes decoded. -/
def Request.ofUrl (u : Unicode) (url : Text) : Except String Request :=
  let url := unwrap url
  let fullUrl := if (splitTag url).2 = [] then (splitTag url).1 else url
  match splitType u (splitTag url).1 with
  | (none,_) => .error "unknown url type"
  | (some type,rest) =>
    match splitHost rest with
    | none => .ok ⟨type,[],rest,fullUrl,none,none⟩
    | some (host,selector) => .ok ⟨type,unquote host,selector,fullUrl,none,none⟩

local instance variable_lawful : LawfulBEq Text := inferInstance

inductive HandlerClass
  | proxy | unknown | http | httpDefaultError | httpRedirect | ftp | file | httpErrorProcessor
  | data | https
  deriving DecidableEq

/-- What redirect handling reads of a response. -/
structure Response where
  code : ℕ
  location : Option Text

abbrev RedirectRequest := Request → Response → Option Request

/-- A default handler, or a subclass of `HTTPRedirectHandler` with its own
`redirect_request`. -/
inductive Handler
  | default (klass : HandlerClass)
  | redirecting (redirectRequest : RedirectRequest)

def Handler.isInstance : Handler → HandlerClass → Bool
  | .default own,klass => decide (own = klass)
  | .redirecting _,klass => decide (klass = .httpRedirect)

def handles (opener : List Handler) (klass : HandlerClass) : Bool :=
  opener.any fun handler => handler.isInstance klass

/-- The default handler that has a `<protocol>_open`. -/
def classFor (protocol : Text) : Option HandlerClass :=
  if protocol = "http".toList then some .http
  else if protocol = "https".toList then some .https
  else if protocol = "ftp".toList then some .ftp
  else if protocol = "file".toList then some .file
  else if protocol = "data".toList then some .data
  else if protocol = "unknown".toList then some .unknown
  else none

def answers (opener : List Handler) (protocol : Text) : Bool :=
  (classFor protocol).any (handles opener)

/-- `redirect_request`; `follow` is what `HTTPRedirectHandler` itself would do. -/
def Handler.redirectRequest (follow : RedirectRequest) : Handler → RedirectRequest
  | .default .httpRedirect => follow
  | .default _ => fun _ _ => none
  | .redirecting redirectRequest => redirectRequest

section Contacts

variable {u : Unicode} {opener : List Handler} {proxies : Proxies} {bypass : Text → Bool}
  {follow : RedirectRequest} {respond : Request → Response} {depth : ℕ} {r : Request}

end Contacts

end PyOpener
