import ForgeGateway.Approval.Request
import ForgeGateway.Approval.Verdict
import ForgeGateway.Http.Exchange

/-! # The gate behind a location

The gate is sent every request as JSON. Its verdict counts only if it comes with a status of
success in a text that can be read; in every other case the gate counts as unavailable, and
nothing is allowed. -/

namespace ForgeGateway.Approval

/-- The message that carries a request to the gate. -/
def Request.toHttp (r : Request) (url : Http.Url) : Http.Request where
  method := "POST"
  url := url
  contentType := some "application/json"
  body := r.toJson

/-- What a reply, or its absence, says. -/
def Verdict.ofReply : Except Http.SendError Http.Reply → Except Relay.Failure Verdict
  | .error e => .error (.gateUnavailable ("request failed: " ++ e.message))
  | .ok reply =>
    if reply.status.isSuccess then
      match Verdict.parse? reply.body with
      | some v => .ok v
      | none =>
        .error (.gateUnavailable "unreadable verdict: error decoding response body")
    else .error (.gateUnavailable ("gate returned " ++ reply.status.text))

end ForgeGateway.Approval
