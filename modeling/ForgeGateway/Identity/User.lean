/-! # Users -/

namespace ForgeGateway

/-- The developer behind a session. -/
structure User where
  username : String
  email : String
  /-- The account on the forge that the developer's keys belong to. -/
  account : String
  deriving DecidableEq, Repr

end ForgeGateway
