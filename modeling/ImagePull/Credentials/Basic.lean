import ImagePull.Json.Printer
import ImagePull.Text.Base64

/-!
# Registry credentials

A credential is a user name and a password, or an identity token in their place.
A request carries it as one header value: the JSON object of what is set, in
base64 with the alphabet for addresses.
-/

namespace ImagePull

/-- What proves to a registry who asks. An empty user name or password counts as
not set. -/
structure Credential where
  username : String := ""
  password : String := ""
  server : Option String := none
  identityToken : Option String := none
deriving DecidableEq, Repr

namespace Credential

/-- The value if it is not empty. -/
def unlessEmpty? (s : String) : Option String :=
  if s = "" then none else some s

/-- The credential as a JSON object; what is not set is left out. -/
def toJson (c : Credential) : Json :=
  .ofMembers
    (Json.member? "username" ((unlessEmpty? c.username).map .ofString) ++
     Json.member? "password" ((unlessEmpty? c.password).map .ofString) ++
     Json.member? "serveraddress" (c.server.map .ofString) ++
     Json.member? "identitytoken" (c.identityToken.map .ofString))

/-- The credential as the value of a request header. -/
def header (c : Credential) : String :=
  String.ofList (Text.Base64.encode .urlSafe c.toJson.render)

end Credential

end ImagePull
