import ForgeGateway.Json.Value
import ForgeGateway.Key.Private
import ForgeGateway.Settings.Basic

/-! # The gateway's own key

The key comes from the file that the settings name. Without one it comes from the keyring, and
where the keyring has none a key is made for the time that the gateway runs. A file that
gives no key is an error: clients must not find another key without being told. -/

namespace ForgeGateway

/-- Where the gateway's key came from. -/
inductive HostKeySource where
  | file (path : String)
  | keyring (name : String)
  | ephemeral
  deriving DecidableEq, Repr

/-- The origin of the key as it is reported. -/
def HostKeySource.report : HostKeySource → Json.Value
  | .file path => .record [("source", .text "file"), ("path", .text path)]
  | .keyring name => .record [("source", .text "keyring"), ("name", .text name)]
  | .ephemeral => .record [("source", .text "ephemeral")]

/-- The file gives no key. -/
structure HostKeyFault where
  path : String
  deriving DecidableEq, Repr

def HostKeyFault.message (f : HostKeyFault) : String :=
  "failed to load SSH host key from " ++ f.path

/-- What the configured file and the keyring hold, where they hold something readable. -/
structure HostKeyStock where
  file : Option String := none
  keyring : Option String := none

/-- The gateway's key and its origin. -/
def HostKeySettings.load (s : HostKeySettings) (stock : HostKeyStock) :
    Except HostKeyFault (Key.Private × HostKeySource) :=
  match s.path with
  | some path =>
    match stock.file.bind Key.Private.ofText? with
    | some key => .ok (key, .file path)
    | none => .error ⟨path⟩
  | none =>
    match stock.keyring.bind Key.Private.ofText? with
    | some key => .ok (key, .keyring s.keyringName)
    | none => .ok (.ed25519, .ephemeral)

end ForgeGateway
