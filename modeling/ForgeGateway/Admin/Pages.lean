import ForgeGateway.Admin.Health
import ForgeGateway.Metrics.Exposition

/-! # The pages for operators

`/healthz` reports how the gateway is and `/metrics` what it counted. Both can only be read.
What follows a question mark in a path does not matter. -/

namespace ForgeGateway.Admin

inductive Page where
  | health
  | metrics
  deriving DecidableEq, Repr

def Page.ofPath? (path : String) : Option Page :=
  match String.ofList (path.toList.takeWhile (· ≠ '?')) with
  | "/healthz" => some .health
  | "/metrics" => some .metrics
  | _ => none

/-- How a request is answered. -/
structure Answer where
  status : Http.Status
  contentType : Option String := none
  /-- The methods that would be answered. -/
  allow : Option String := none
  body : String := ""
  deriving DecidableEq, Repr

/-- The page that a request reads, or the answer if it reads none. -/
def Page.requested (method path : String) : Except Answer Page :=
  match Page.ofPath? path with
  | none => .error { status := 404 }
  | some page =>
    if method == "GET" || method == "HEAD" then .ok page
    else .error { status := 405, allow := some "GET,HEAD" }

/-- The report about the gateway. -/
def Answer.ofHealth (h : Health) : Answer where
  status := h.condition.status
  contentType := some "application/json"
  body := h.report.toText

/-- The page with the counters. -/
def Answer.ofMetrics (r : Metrics.Registry) : Answer where
  status := 200
  contentType := some "application/openmetrics-text; version=1.0.0; charset=utf-8"
  body := r.text

/-- The answer as it is sent: a request for the head only has no body. -/
def Answer.sent (method : String) (a : Answer) : Answer :=
  if method == "HEAD" then { a with body := "" } else a

end ForgeGateway.Admin
