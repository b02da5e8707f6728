import ForgeGateway.Http.Status
import ForgeGateway.Http.Url

/-! # Requests and their replies

A request goes to a location over plain or secured HTTP. It gives a reply, or it fails: the
location cannot be read, it cannot be reached this way, or nobody replied in time. -/

namespace ForgeGateway.Http

/-- What is sent. -/
structure Request where
  method : String
  url : Url
  contentType : Option String := none
  body : Bytes := []
  deriving DecidableEq, Repr

/-- The first line of a request. -/
def Request.line (r : Request) : String := r.method ++ " " ++ r.url.requestTarget ++ " HTTP/1.1"

/-- What came back. -/
structure Reply where
  status : Status
  body : Bytes := []
  deriving DecidableEq, Repr

/-- Why there is no reply. -/
inductive SendError where
  | unreadable
  | unsupported (url : Url)
  | failed (url : Url)
  deriving DecidableEq, Repr

def SendError.message : SendError → String
  | .unreadable => "builder error"
  | .unsupported url => "builder error for url (" ++ url.text ++ ")"
  | .failed url => "error sending request for url (" ++ url.text ++ ")"

/-- The location that a text names, if requests can go there. -/
def Url.reachable (text : String) : Except SendError Url :=
  match Url.parse? text with
  | none => .error .unreadable
  | some url =>
    if url.host.isSome && (url.scheme == "http" || url.scheme == "https") then .ok url
    else .error (.unsupported url)

end ForgeGateway.Http
