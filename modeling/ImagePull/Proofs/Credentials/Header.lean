import ImagePull.Credentials.Basic
import ImagePull.Proofs.Json.Members
import ImagePull.Proofs.Text.Base64

/-!
# The header of a credential

A registry reads the header of a request by undoing its base64 and taking the fields of the object
that is in it; what is missing there is empty or not set. It reads the credential that the header
was made for, so no two credentials have one header (`ofHeader?_header`).
-/

namespace ImagePull.Credential

open Json (Field IsText IsOptional Carries Fill present)

/-! ## Reading -/

/-- The credential that a JSON value holds. A user name or password that is missing is empty, a
server or identity token that is missing is not set. -/
def ofJson? (j : Json) : Option Credential := do
  let fields ← j.fields? ["username", "password", "serveraddress", "identitytoken"]
  let username ← Json.field? fields "username" "" Json.text?
  let password ← Json.field? fields "password" "" Json.text?
  let server ← Json.field? fields "serveraddress" none (Json.nullable? Json.text?)
  let identityToken ← Json.field? fields "identitytoken" none (Json.nullable? Json.text?)
  some { username, password, server, identityToken }

/-- The credential in the value of a header. -/
def ofHeader? (value : String) : Option Credential := do
  let bytes ← Text.Base64.decode? .urlSafe value.toList
  let j ← Json.parse? bytes
  ofJson? j

/-! ## The object of a credential -/

variable {c : Credential} {j : Json}

/-- The fields of a credential. -/
def fields (c : Credential) : List Field :=
  [.of "username" IsText c.username "", .of "password" IsText c.password "",
    .of "serveraddress" (IsOptional IsText) c.server none,
    .of "identitytoken" (IsOptional IsText) c.identityToken none]

theorem ofJson?_of_carries (h : Carries c.fields j) : ofJson? j = some c := by
  obtain ⟨found, hfields, hfound⟩ := h.exists_found
  have hnames : j.fields? ["username", "password", "serveraddress", "identitytoken"]
      = some found := hfields
  have husername : Json.field? found "username" "" Json.text? = some c.username :=
    hfound.field?_of IsText (by simp [fields]) fun _ hvalue => hvalue.text?
  have hpassword : Json.field? found "password" "" Json.text? = some c.password :=
    hfound.field?_of IsText (by simp [fields]) fun _ hvalue => hvalue.text?
  have hserver : Json.field? found "serveraddress" none (Json.nullable? Json.text?)
      = some c.server :=
    hfound.field?_of (IsOptional IsText) (by simp [fields])
      fun _ hvalue => hvalue.nullable?_text?
  have htoken : Json.field? found "identitytoken" none (Json.nullable? Json.text?)
      = some c.identityToken :=
    hfound.field?_of (IsOptional IsText) (by simp [fields])
      fun _ hvalue => hvalue.nullable?_text?
  simp only [ofJson?, hnames, husername, hpassword, hserver, htoken, Option.bind_eq_bind,
    Option.bind_some]

/-- What is written of a credential. -/
def slots (c : Credential) : List (String × Option Json) :=
  [("username", (unlessEmpty? c.username).map .ofString),
    ("password", (unlessEmpty? c.password).map .ofString),
    ("serveraddress", c.server.map .ofString), ("identitytoken", c.identityToken.map .ofString)]

theorem toJson_eq_present (c : Credential) : c.toJson = .ofMembers (present c.slots) := by
  simp [toJson, present, slots]

/-- A text that is left out when it is empty fills a slot whose default is the empty text. -/
theorem allows_unlessEmpty? (name s : String) :
    (Field.of name IsText s "").Allows ((unlessEmpty? s).map .ofString) := by
  rw [unlessEmpty?]
  split
  · next hempty => exact hempty
  · exact Json.isText_ofString s

theorem carries_toJson (c : Credential) : Carries c.fields c.toJson := by
  have hfill : Fill c.slots c.fields :=
    .cons ⟨rfl, allows_unlessEmpty? _ _⟩ (.cons ⟨rfl, allows_unlessEmpty? _ _⟩
      (.cons ⟨rfl, Json.allows_map Json.isText_ofString _⟩
        (.cons ⟨rfl, Json.allows_map Json.isText_ofString _⟩ .nil)))
  rw [toJson_eq_present]
  exact Json.carries_present hfill (by simp [slots])

theorem wellFormed_toJson (c : Credential) : c.toJson.WellFormed := by
  rw [toJson_eq_present]
  refine Json.wellFormed_present ?_
  simp [slots, Json.wellFormed_ofString]

/-! ## Headers -/

theorem ofHeader?_of_header (c : Credential) : ofHeader? c.header = some c := by
  have hbytes : Text.Base64.decode? .urlSafe c.header.toList = some c.toJson.render := by
    rw [header, String.toList_ofList]
    exact Text.Base64.decode?_encode _
  have hjson : Json.parse? c.toJson.render = some c.toJson := Json.parse?_render c.wellFormed_toJson
  simp only [ofHeader?, hbytes, hjson, Option.bind_eq_bind, Option.bind_some]
  exact ofJson?_of_carries c.carries_toJson

/-- A character that a header may hold. -/
def IsHeaderChar (symbol : Char) : Prop :=
  symbol.isAlphanum = true ∨ symbol = '-' ∨ symbol = '_' ∨ symbol = '='

instance (symbol : Char) : Decidable (IsHeaderChar symbol) :=
  inferInstanceAs (Decidable (_ ∨ _))

theorem isHeaderChar_of_mem {symbol : Char} (h : symbol ∈ c.header.toList) :
    IsHeaderChar symbol := by
  rw [header, String.toList_ofList] at h
  have hall : ∀ n < 64, IsHeaderChar (Text.Base64.Alphabet.urlSafe.symbol n) := by decide
  rcases Text.Base64.mem_encode h with rfl | ⟨n, hn, rfl⟩
  · decide
  · exact hall n hn

/-- **The header of a credential loses nothing.** -/
theorem ofHeader?_header (c : Credential) :
    ofHeader? c.header = some c ∧ (∀ symbol ∈ c.header.toList, IsHeaderChar symbol)
      ∧ ∀ c' : Credential, c'.header = c.header → c' = c := by
  refine ⟨c.ofHeader?_of_header, fun _ => isHeaderChar_of_mem, ?_⟩
  intro c' hsame
  have hread := c'.ofHeader?_of_header
  rw [hsame, c.ofHeader?_of_header] at hread
  exact (Option.some.inj hread).symm

/-- The user name is left out, the empty server is not. -/
theorem ofHeader?_header_emptyServer :
    let c : Credential := { password := "p\"\n😀>?", server := some "" }
    let value := "eyJwYXNzd29yZCI6InBcIlxu8J-YgD4_Iiwic2VydmVyYWRkcmVzcyI6IiJ9"
    c.header = value
      ∧ ofHeader? value = some c
      ∧ (∀ symbol ∈ value.toList, IsHeaderChar symbol)
      ∧ ∀ c' : Credential, c'.header = value → c' = c := by
  intro c value
  have hvalue : c.header = value := by decide +kernel
  exact ⟨hvalue, hvalue ▸ ofHeader?_header c⟩

end ImagePull.Credential
