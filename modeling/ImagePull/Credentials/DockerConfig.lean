import ImagePull.Credentials.Store
import ImagePull.Json.Parser

/-!
# Stored logins

Logging in to a registry leaves an entry in the file `config.json`: an object
`auths` whose keys are spellings of registries. An entry holds a user name and a
password in two fields, or both in base64 in the field `auth` with a colon
between them, or an identity token alone. An entry with none of them says nothing.
-/

namespace ImagePull

/-- Why the field `auth` of an entry holds no login. What the base64 reader says is a function of
the characters that it refused, which stand for it. -/
inductive AuthFault where
  | notBase64 (refused : List Char)
  | notText (fault : Text.Utf8.Fault)
  | noColon
deriving DecidableEq, Repr

/-- The wording of a fault, up to what the base64 reader says. -/
def AuthFault.message : AuthFault → String
  | .notBase64 _ => "auth is not base64"
  | .notText fault => fault.message
  | .noColon => "auth is not user:password"

/-- Why stored logins cannot be used. What the JSON reader says of a file is a function of its
text, which stands for it. -/
inductive LoginsError where
  | read (path reason : String)
  | parse (refused : List UInt8)
  | invalidEntry (registry : String) (reason : AuthFault)
deriving DecidableEq, Repr

/-- The wording of an error, up to what the JSON reader says. -/
def LoginsError.message : LoginsError → String
  | .read path reason => "failed to read " ++ path ++ ": " ++ reason
  | .parse _ => "invalid docker config"
  | .invalidEntry registry reason =>
    "invalid auth entry for " ++ registry ++ ": " ++ reason.message

/-- An entry as it is stored. -/
structure Login where
  auth : Option String := none
  username : Option String := none
  password : Option String := none
  identityToken : Option String := none
deriving DecidableEq, Repr

namespace Login

/-- The entry that a JSON value holds. -/
def ofJson? (j : Json) : Option Login := do
  let fields ← j.fields? ["auth", "username", "password", "identitytoken"]
  let text? (name : String) := Json.field? fields name none (Json.nullable? Json.text?)
  let auth ← text? "auth"
  let username ← text? "username"
  let password ← text? "password"
  let identityToken ← text? "identitytoken"
  some { auth, username, password, identityToken }

/-- The user name and the password in the text of a field `auth`. -/
def decodeAuth (text : String) : Except AuthFault (String × String) :=
  let encoded := Text.trim Text.isBlank text.toList
  match Text.Base64.decode? .standard encoded with
  | none => .error (.notBase64 encoded)
  | some bytes => match Text.Utf8.decode bytes with
    | .error fault => .error (.notText fault)
    | .ok chars => match Text.cutFirst? ':' chars with
      | none => .error .noColon
      | some (username, password) => .ok (String.ofList username, String.ofList password)

/-- The user name and the password of an entry: from the two fields if both are
there, else from `auth` unless it is empty, else empty if there is an identity
token. -/
def userPassword (l : Login) : Except AuthFault (Option (String × String)) :=
  match l.username, l.password with
  | some username, some password => .ok (some (username, password))
  | _, _ => match l.auth.bind Credential.unlessEmpty? with
    | some auth => (decodeAuth auth).map some
    | none => .ok (l.identityToken.map fun _ => ("", ""))

/-- The credential that an entry for a registry stands for, if it stands for one. -/
def credential (registry : String) (l : Login) : Except LoginsError (Option Credential) :=
  match l.userPassword with
  | .error reason => .error (.invalidEntry registry reason)
  | .ok none => .ok none
  | .ok (some (username, password)) => .ok (some
      { username, password, server := some registry, identityToken := l.identityToken })

/-- The entries that a JSON value of the whole file holds. Of two entries under one
key the later counts. -/
def listOfJson? (j : Json) : Option (List (String × Login)) := do
  let fields ← j.fields? ["auths"]
  match fields.lookup "auths" with
  | none => some []
  | some (.object members) =>
    let entries ← members.mapM fun m => do
      let registry ← Json.bodyText? m.1
      let login ← ofJson? m.2
      some (registry, login)
    some (lastOfEach entries)
  | some _ => none
where
  /-- The entries without those whose key comes again later. -/
  lastOfEach : List (String × Login) → List (String × Login)
    | [] => []
    | entry :: rest =>
      if rest.any (·.1 == entry.1) then lastOfEach rest else entry :: lastOfEach rest

end Login

namespace CredentialStore

/-- The store of the entries of a file, in the order of their keys. -/
def ofLogins (entries : List (String × Login)) : Except LoginsError CredentialStore :=
  entries.foldlM
    (fun store entry => do
      match ← entry.2.credential entry.1 with
      | some c => return store.insert entry.1 c
      | none => return store)
    {}

/-- The store of the logins in the text of a file. -/
def ofDockerConfig (text : List UInt8) : Except LoginsError CredentialStore :=
  match (Json.parse? text).bind Login.listOfJson? with
  | none => .error (.parse text)
  | some entries => ofLogins entries

end CredentialStore

end ImagePull
