import ForgeGateway.Text.Split

/-! # Pinned host keys

Which fingerprints a forge's host key may have. There is a table of well-known forges;
a host that the settings list has the fingerprints given there instead. Host names are
compared without ASCII case. Hosts that are listed nowhere never verify. -/

namespace ForgeGateway

/-- Host names in lower case with their fingerprints. -/
abbrev HostPins := List (String × List String)

namespace HostPins

/-- Published fingerprints of the well-known forges. -/
def builtin : HostPins := [
  ("github.com", [
    "SHA256:+DiY3wvvV6TuJJhbpZisF/zLDA0zPMSvHdkr4UvCOqU",
    "SHA256:p2QAMXNIC1TJYWeIOttrVc98/R1BUFWu3/LiyKgUfQM",
    "SHA256:uNiVztksCsDhcc0u9e8BujQXVUpKZIDTMczCvj3tD2s"]),
  ("gitlab.com", [
    "SHA256:eUXGGm1YGsMAS7vkcx6JOJdOGHPem5gQp4taiCfCLB8",
    "SHA256:HbW3g8zUjNSksFbqTiUWPWg2Bq1x8xdGUrliXFzSnUw",
    "SHA256:ROQFvPThGrW4RuWLoL9tq9I9zJ42fK4XywyRtbOz/EQ"])]

/-- Puts a host's fingerprints in place of those it had. -/
def pin (pins : HostPins) (host : String) (fingerprints : List String) : HostPins :=
  (Text.lowered host, fingerprints) :: pins

/-- The built-in table with the listed hosts put in place one after the other. -/
def withOverrides (overrides : List (String × List String)) : HostPins :=
  overrides.foldl (fun pins o => pins.pin o.1 o.2) builtin

/-- The fingerprints of a host, if it is pinned. -/
def find? (pins : HostPins) (host : String) : Option (List String) :=
  pins.lookup (Text.lowered host)

def isKnown (pins : HostPins) (host : String) : Bool := (pins.find? host).isSome

/-- The host is pinned and the fingerprint is one of its own. -/
def verify (pins : HostPins) (host fingerprint : String) : Bool :=
  match pins.find? host with
  | some fingerprints => fingerprints.contains fingerprint
  | none => false

end HostPins

end ForgeGateway
