import ForgeGateway.Key.Blob
import ForgeGateway.Text.Blank
import ForgeGateway.Text.Split

/-! # Lines of authorised keys

A line names an algorithm, gives a key in base64 and may end in a comment. `parseKeyLine`
answers the wire text of the key, provided that the algorithm is the one the key names
itself. -/

namespace ForgeGateway.Identity

/-- What is wrong with a line. -/
inductive KeyLineFault where
  | incomplete
  | badBase64
  | unreadable (fault : Agent.MessageFault)
  | mismatch (declared actual : String)
  deriving DecidableEq, Repr

def KeyLineFault.message : KeyLineFault → String
  | .incomplete => "expected \"<algorithm> <base64> [comment]\""
  | .badBase64 => "key is not valid base64"
  | .unreadable fault => Key.unreadable fault
  | .mismatch declared actual =>
    "declared algorithm " ++ declared ++ " does not match key type " ++ actual

/-- What stands before the first space. -/
def beforeSpace (s : String) : String := String.ofList (s.toList.takeWhile (· != ' '))

/-- The wire text of the key on a line. -/
def parseKeyLine (line : String) : Except KeyLineFault String :=
  match Text.words line.toList with
  | algorithm :: encoded :: _ =>
    match Base64.decode? (String.ofList encoded) with
    | none => .error .badBase64
    | some blob =>
      match Key.wireText blob with
      | .error fault => .error (.unreadable fault)
      | .ok wire =>
        if beforeSpace wire = String.ofList algorithm then .ok wire
        else .error (.mismatch (String.ofList algorithm) (beforeSpace wire))
  | _ => .error .incomplete

end ForgeGateway.Identity
