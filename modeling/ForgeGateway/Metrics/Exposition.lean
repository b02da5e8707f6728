import ForgeGateway.Metrics.Registry
import ForgeGateway.Text.ShortestDecimal

/-! # The registry as text

`Registry.lines` is the OpenMetrics text of a registry, line by line: for each family its help,
its type and its samples. A counter shows its value modulo `2 ^ 64`. The samples of a family
are in order of their text, those of the histogram in the order of its buckets. -/

namespace ForgeGateway.Metrics

def Outcome.label : Outcome → String
  | .success => "Success"
  | .failure => "Failure"

def CommandKind.label : CommandKind → String
  | .uploadPack => "UploadPack"
  | .receivePack => "ReceivePack"
  | .rejected => "Rejected"

def VerdictKind.label : VerdictKind → String
  | .allowed => "Allowed"
  | .blocked => "Blocked"
  | .unavailable => "Unavailable"

structure Family where
  name : String
  help : String
  kind : String
  samples : List String

/-- `\x7ba="x",b="y"\x7d`. -/
def labelText (labels : List (String × String)) : String :=
  "\x7b" ++ ",".intercalate (labels.map fun (k, v) => k ++ "=\"" ++ v ++ "\"") ++ "\x7d"

def sample (name : String) (n : Nat) : String := name ++ " " ++ toString (n % Nat.pow 2 64)

def labelledSample (name : String) (labels : List (String × String)) (n : Nat) : String :=
  sample (name ++ labelText labels) n

/-- The samples of a tally in order of their text. -/
def tallySamples {κ : Type} (name : String) (labels : κ → List (String × String))
    (t : Tally κ) : List String :=
  (t.counts.map fun (k, n) => labelledSample (name ++ "_total") (labels k) n).mergeSort
    fun a b => !(b < a)

/-! ### The histogram -/

/-- The bounds of the buckets: their names and their values in nanoseconds. -/
def bucketBounds : List (String × Nat) := [
  ("0.05", 50000000), ("0.1", 100000000), ("0.2", 200000000), ("0.4", 400000000),
  ("0.8", 800000000), ("1.6", 1600000000), ("3.2", 3200000000), ("6.4", 6400000000),
  ("12.8", 12800000000), ("25.6", 25600000000)]

/-- Nanoseconds in seconds. -/
def secondsOf (nanos : Nat) : Float :=
  Float.ofNat (nanos / 1000000000) + Float.ofNat (nanos % 1000000000) / 1000000000.0

/-- The sum, the count and the buckets of a list of times. -/
def histogramSamples (name : String) (times : List Nat) : List String :=
  let sum := times.foldl (fun s n => s + secondsOf n) 0.0
  let bucket := fun (le : String) (n : Nat) => labelledSample (name ++ "_bucket") [("le", le)] n
  (name ++ "_sum " ++ Text.floatText sum) ::
    sample (name ++ "_count") times.length ::
    bucketBounds.map (fun (le, bound) => bucket le (times.countP (· ≤ bound))) ++
      [bucket "+Inf" times.length]

/-! ### The text -/

/-- The name of the histogram of connection times. -/
def connectName : String := "gitgate_upstream_connect_duration_seconds"

def Registry.families (r : Registry) : List Family := [
  ⟨"gitgate_sessions", "Inbound SSH connections accepted", "counter",
    [sample "gitgate_sessions_total" r.sessions]⟩,
  ⟨"gitgate_active_sessions", "Inbound SSH sessions currently open", "gauge",
    [sample "gitgate_active_sessions" r.activeSessions]⟩,
  ⟨"gitgate_auth_attempts", "Public key authentication attempts by outcome", "counter",
    tallySamples "gitgate_auth_attempts" (fun o => [("outcome", o.label)]) r.authAttempts⟩,
  ⟨"gitgate_commands", "Exec commands handled by command and outcome", "counter",
    tallySamples "gitgate_commands"
      (fun (k, o) => [("command", k.label), ("outcome", o.label)]) r.commands⟩,
  ⟨"gitgate_push_bytes", "Pack bytes captured from pushes", "counter",
    [sample "gitgate_push_bytes_total" r.pushBytes]⟩,
  ⟨"gitgate_approval_verdicts", "Approval gate verdicts", "counter",
    tallySamples "gitgate_approval_verdicts" (fun v => [("verdict", v.label)]) r.verdicts⟩,
  ⟨"gitgate_agent_operations", "Forwarded agent operations by operation and outcome", "counter",
    tallySamples "gitgate_agent_operations"
      (fun (op, o) => [("operation", op), ("outcome", o.label)]) r.agentOperations⟩,
  ⟨connectName, "Time to connect and authenticate to the upstream host", "histogram",
    histogramSamples connectName r.connects⟩]

def Family.lines (f : Family) : List String :=
  ("# HELP " ++ f.name ++ " " ++ f.help ++ ".") :: ("# TYPE " ++ f.name ++ " " ++ f.kind) ::
    f.samples

def Registry.lines (r : Registry) : List String := r.families.flatMap Family.lines ++ ["# EOF"]

/-- The samples without the buckets of the histogram. -/
def Registry.sampleLines (r : Registry) : List String :=
  (r.families.flatMap Family.samples).filter fun l =>
    !(connectName ++ "_bucket").isPrefixOf l

/-- The line with the sum of the connection times. -/
def isConnectSum (line : String) : Bool := (connectName ++ "_sum").isPrefixOf line

def Registry.text (r : Registry) : String := String.join (r.lines.map (· ++ "\n"))

end ForgeGateway.Metrics
