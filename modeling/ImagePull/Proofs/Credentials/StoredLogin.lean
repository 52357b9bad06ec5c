import ImagePull.Proofs.Credentials.Resolution
import ImagePull.Proofs.Json.Members

/-!
# Files of stored logins

Which texts are files of given entries: an object whose member `auths` has one member for each
entry, under a key that spells its registry, with anything else beside them (`Login.IsFile`). Every
such text is read as those entries (`listOfJson?_of_isFile`). A file with one entry gives its
registry the user name and the password that are encoded in the entry, or else is refused, exactly
if the encoding is broken (`Login.IsBroken`), under the name of that registry.
-/

namespace ImagePull

open Json (Field IsText IsOptional SpellsChars Spells Blanks)
open RegistryDomain (ofSpelling isFor)

namespace Login

variable {l : Login} {j : Json} {registry : String}

/-! ## Entries -/

/-- The fields of an entry. -/
def fields (l : Login) : List Field :=
  [.of "auth" (IsOptional IsText) l.auth none, .of "username" (IsOptional IsText) l.username none,
    .of "password" (IsOptional IsText) l.password none,
    .of "identitytoken" (IsOptional IsText) l.identityToken none]

/-- The object holds the entry. -/
def IsHeldBy (l : Login) (j : Json) : Prop :=
  Json.Carries l.fields j

theorem IsHeldBy.ofJson? (h : l.IsHeldBy j) : ofJson? j = some l := by
  obtain ⟨found, hfields, hfound⟩ := h.exists_found
  have hnames : j.fields? ["auth", "username", "password", "identitytoken"] = some found := hfields
  have hfield (name : String) (content : Option String)
      (hmem : .of name (IsOptional IsText) content none ∈ l.fields) :
      Json.field? found name none (Json.nullable? Json.text?) = some content :=
    hfound.field?_of (IsOptional IsText) hmem fun _ hvalue => hvalue.nullable?_text?
  have hauth := hfield "auth" l.auth (by simp [fields])
  have husername := hfield "username" l.username (by simp [fields])
  have hpassword := hfield "password" l.password (by simp [fields])
  have htoken := hfield "identitytoken" l.identityToken (by simp [fields])
  simp only [Login.ofJson?, hnames, hauth, husername, hpassword, htoken, Option.bind_eq_bind,
    Option.bind_some]

/-! ## Files -/

/-- The members hold the entries, each under a key that spells its registry. -/
inductive AreHeldBy : List (String × Login) → List (List UInt8 × Json) → Prop
  | nil : AreHeldBy [] []
  | cons {registry : String} {l : Login} {key : List UInt8} {value : Json}
    {entries : List (String × Login)} {members : List (List UInt8 × Json)}
    (hkey : SpellsChars registry.toList key) (hentry : l.IsHeldBy value)
    (more : AreHeldBy entries members) :
    AreHeldBy ((registry, l) :: entries) ((key, value) :: members)

/-- The object holds the entries and nothing else. -/
inductive IsTable (entries : List (String × Login)) : Json → Prop
  | object {members : List (List UInt8 × Json)} (h : AreHeldBy entries members) :
    IsTable entries (.object members)

/-- The object is a file of the entries. -/
def IsFile (entries : List (String × Login)) (j : Json) : Prop :=
  Json.Carries [.of "auths" IsTable entries []] j

theorem AreHeldBy.mapM_eq {entries : List (String × Login)} {members : List (List UInt8 × Json)}
    (h : AreHeldBy entries members) :
    members.mapM (fun m => do
      let registry ← Json.bodyText? m.1
      let login ← Login.ofJson? m.2
      some (registry, login)) = some entries := by
  induction h with
  | nil => rfl
  | cons hkey hentry more ih =>
      rw [List.mapM_cons, hkey.bodyText?, hentry.ofJson?, ih]
      rfl

/-- **A file is read as its entries**, of which the last under one key counts. -/
theorem listOfJson?_of_isFile {entries : List (String × Login)} (h : IsFile entries j) :
    listOfJson? j = some (listOfJson?.lastOfEach entries) := by
  obtain ⟨found, hfields, hfound⟩ := h.exists_found
  have hnames : j.fields? ["auths"] = some found := hfields
  have hallows : (Field.of "auths" IsTable entries []).Allows (found.lookup "auths") :=
    hfound _ List.mem_cons_self
  simp only [listOfJson?, hnames, Option.bind_eq_bind, Option.bind_some]
  cases hlookup : found.lookup "auths" with
  | none =>
      rw [hlookup] at hallows
      have hnothing : entries = [] := hallows
      rw [hnothing]
      rfl
  | some value =>
      rw [hlookup] at hallows
      have htable : IsTable entries value := hallows
      cases htable with
      | object hheld =>
          have hread := hheld.mapM_eq
          simp only [Option.bind_eq_bind] at hread
          simp only [hread, Option.bind_some]

/-- The bytes spell a file of the entries, with any blanks around its tokens. -/
inductive SpellsFile (entries : List (String × Login)) : List UInt8 → Prop
  | document {j : Json} {before text after : List UInt8} (hfile : IsFile entries j)
    (hbefore : Blanks before) (htext : Spells j text) (hafter : Blanks after) :
    SpellsFile entries (before ++ (text ++ after))

theorem SpellsFile.ofDockerConfig_eq {entries : List (String × Login)} {file : List UInt8}
    (h : SpellsFile entries file) : CredentialStore.ofDockerConfig file
      = CredentialStore.ofLogins (listOfJson?.lastOfEach entries) := by
  cases h with
  | document hfile hbefore htext hafter =>
      rw [CredentialStore.ofDockerConfig, Json.parse?_of_spells hbefore htext hafter,
        Option.bind_some, listOfJson?_of_isFile hfile]

/-! ## Encoded logins -/

/-- The characters encode no login: they are not base64, or the bytes they stand for are no text,
or there is no colon in that text. -/
inductive IsBroken (chars : List Char) : Prop
  | notBase64 (h : ∀ bytes, chars ≠ Text.Base64.encode .standard bytes) : IsBroken chars
  | notText {bytes : List UInt8} (hchars : chars = Text.Base64.encode .standard bytes)
    (h : ∀ text, bytes ≠ Text.Utf8.bytes text) : IsBroken chars
  | noColon {text : String}
    (hchars : chars = Text.Base64.encode .standard (Text.Utf8.bytes text))
    (h : ':' ∉ text.toList) : IsBroken chars

/-- **A text is broken exactly if it encodes no login.** -/
theorem isBroken_trim_iff {text : String} :
    IsBroken (Text.trim Text.isBlank text.toList)
      ↔ ∀ username password, ¬Encodes text username password := by
  constructor
  · intro hbroken username password hencodes
    have hwritten := hencodes.written
    cases hbroken with
    | notBase64 h => exact h _ hwritten
    | notText hchars h =>
        rw [hchars] at hwritten
        exact h _ (Text.Base64.encode_inj.mp hwritten)
    | noColon hchars h =>
        rw [hchars] at hwritten
        have htext := Text.Utf8.bytes_inj.mp (Text.Base64.encode_inj.mp hwritten)
        apply h
        simp [htext]
  · intro hnone
    by_cases hbase : ∃ bytes, Text.trim Text.isBlank text.toList
        = Text.Base64.encode .standard bytes
    · obtain ⟨bytes, hbytes⟩ := hbase
      by_cases hutf8 : ∃ decoded, bytes = Text.Utf8.bytes decoded
      · obtain ⟨decoded, rfl⟩ := hutf8
        refine .noColon hbytes fun hcolon => ?_
        -- cut at its first colon the text is a user name and a password
        obtain ⟨username, password, hdecoded, hfirst⟩ := List.eq_append_cons_of_mem hcolon
        refine hnone (String.ofList username) (String.ofList password) ⟨?_, by simpa using hfirst⟩
        rw [hbytes]
        congr 2
        rw [← String.toList_inj]
        simp [hdecoded]
      · exact .notText hbytes fun decoded hdecoded => hutf8 ⟨decoded, hdecoded⟩
    · exact .notBase64 fun bytes hbytes => hbase ⟨bytes, hbytes⟩

theorem isBlank_of_mem_encode {c : Char} {bytes : List UInt8}
    (h : c ∈ Text.Base64.encode .standard bytes) : Text.isBlank c = false := by
  have hall : ∀ n < 64, Text.isBlank (Text.Base64.Alphabet.standard.symbol n) = false := by decide
  rcases Text.Base64.mem_encode h with rfl | ⟨n, hn, rfl⟩
  · decide
  · exact hall n hn

/-- Blanks around an encoded login do not matter. -/
theorem encodes_of_blanks {text username password : String} {leading trailing : List Char}
    (hcolon : ':' ∉ username.toList) (hleading : ∀ c ∈ leading, Text.isBlank c = true)
    (htrailing : ∀ c ∈ trailing, Text.isBlank c = true)
    (htext : text.toList = leading
      ++ Text.Base64.encode .standard (Text.Utf8.bytes (username ++ ":" ++ password)) ++ trailing) :
    Encodes text username password := by
  refine ⟨?_, hcolon⟩
  rw [htext, Text.trim_append_append hleading htrailing]
  refine Text.trim_eq_self (fun c hc => ?_) fun c hc => ?_
  · exact isBlank_of_mem_encode (List.mem_of_mem_head? hc)
  · exact isBlank_of_mem_encode (List.mem_of_getLast? hc)

/-- There is a colon in an encoded login, so it is not empty. -/
theorem Encodes.ne_empty {text username password : String} (h : Encodes text username password) :
    text ≠ "" := by
  rintro rfl
  have hnothing : Text.Utf8.bytes (username ++ ":" ++ password) = Text.Utf8.bytes "" :=
    Text.Base64.encode_inj.mp h.written.symm
  have hempty := congrArg String.toList (Text.Utf8.bytes_inj.mp hnothing)
  simp at hempty

/-- What an entry stands for whose user name or password is missing and whose `auth` is not. -/
theorem credential_of_auth {encoded : String} (hplain : l.username = none ∨ l.password = none)
    (hauth : l.auth = some encoded) (hne : encoded ≠ "") :
    l.credential registry = match decodeAuth encoded with
      | .error reason => .error (.invalidEntry registry reason)
      | .ok (username, password) => .ok (some (l.granted registry username password)) := by
  rw [credential, userPassword_of_missing hplain, bind_unlessEmpty?_eq_some.mpr ⟨hauth, hne⟩,
    Option.elim_some]
  cases decodeAuth encoded <;> rfl

end Login

/-! ## Files with one entry -/

namespace CredentialStore

variable {registry : String} {l : Login}

theorem ofLogins_singleton_of_ok {c : Credential} (h : l.credential registry = .ok (some c)) :
    ∃ store, ofLogins [(registry, l)] = .ok store
      ∧ ∀ q, store.find? q = if ofSpelling q = ofSpelling registry then some c else none := by
  have hcarried : [(registry, l)].filterMap carried? = [(registry, c)] := by
    simp [carried?, h]
  refine ⟨_, ofLogins_eq_ok.mpr ⟨?_, rfl⟩, fun q => ?_⟩
  · simpa using ⟨_, h⟩
  · rw [hcarried, find?_ofList]
    by_cases hq : ofSpelling q = ofSpelling registry
    · simp [isFor, hq]
    · simp [isFor, hq, Ne.symm hq]

theorem ofLogins_singleton_of_error {e : LoginsError} (h : l.credential registry = .error e) :
    ofLogins [(registry, l)] = .error e := by
  simp [ofLogins, h, bind, Except.bind]

/-- **A stored login is read back**, or its file refused. The file has one entry, in which the user
name or the password is missing and `auth` is not. If `auth` encodes a user name without a colon and
a password, with any blanks around, the registry of the entry is given these under every spelling,
and no other registry is given anything. Unless `auth` is empty, the file is refused exactly if what
is in `auth` between blanks is broken, and then under the name of the registry. -/
theorem ofDockerConfig_onlyLogin {file : List UInt8} {encoded : String}
    (hfile : Login.SpellsFile [(registry, l)] file) (hauth : l.auth = some encoded)
    (hplain : l.username = none ∨ l.password = none) :
    (∀ username password leading trailing, ':' ∉ username.toList →
        (∀ c ∈ leading, Text.isBlank c = true) → (∀ c ∈ trailing, Text.isBlank c = true) →
        encoded.toList = leading ++ Text.Base64.encode .standard
          (Text.Utf8.bytes (username ++ ":" ++ password)) ++ trailing →
        ∃ store, ofDockerConfig file = .ok store
          ∧ ∀ q, store.find? q = if ofSpelling q = ofSpelling registry then some
              { username, password, server := some registry, identityToken := l.identityToken }
            else none)
      ∧ (encoded ≠ "" →
        ((∃ e, ofDockerConfig file = .error e)
            ↔ Login.IsBroken (Text.trim Text.isBlank encoded.toList))
          ∧ ∀ e, ofDockerConfig file = .error e → ∃ reason, e = .invalidEntry registry reason) := by
  have hread : ofDockerConfig file = ofLogins [(registry, l)] := hfile.ofDockerConfig_eq
  rw [hread]
  refine ⟨fun username password leading trailing hcolon hleading htrailing htext => ?_,
    fun hne => ?_⟩
  · have hencodes := Login.encodes_of_blanks hcolon hleading htrailing htext
    have hcredential : l.credential registry = _ :=
      Login.credential_of_auth hplain hauth hencodes.ne_empty
    rw [Login.decodeAuth_eq_ok.mpr hencodes] at hcredential
    exact ofLogins_singleton_of_ok hcredential
  · have hcredential : l.credential registry = _ := Login.credential_of_auth hplain hauth hne
    rw [Login.isBroken_trim_iff]
    cases hdecode : Login.decodeAuth encoded with
    | error reason =>
        rw [hdecode] at hcredential
        rw [ofLogins_singleton_of_error hcredential]
        refine ⟨⟨fun _ username password hencodes => ?_, fun _ => ⟨_, rfl⟩⟩, fun e he => ?_⟩
        · rw [Login.decodeAuth_eq_ok.mpr hencodes] at hdecode
          cases hdecode
        · cases he
          exact ⟨reason, rfl⟩
    | ok parts =>
        obtain ⟨username, password⟩ := parts
        rw [hdecode] at hcredential
        obtain ⟨store, hstore, -⟩ := ofLogins_singleton_of_ok hcredential
        rw [hstore]
        refine ⟨⟨nofun, fun hnone => ?_⟩, nofun⟩
        exact absurd (Login.decodeAuth_eq_ok.mp hdecode) (hnone username password)

/-! ## An entry with an ignored user name -/

/-- An entry that holds an encoded login and a user name without a password. -/
def ghcrLogin (encoded : String) : Login :=
  { auth := some encoded, username := some "other" }

@[inherit_doc ghcrLogin]
def ghcrEntry (encoded : String) : Json :=
  .ofMembers [("email", .null), ("auth", .ofString encoded), ("username", .ofString "other")]

/-- A file of that entry, with another member before it. -/
def ghcrFile (encoded : String) : Json :=
  .ofMembers [("credsStore", .ofString "desktop"),
    ("auths", .ofMembers [("https://ghcr.io/v2/", ghcrEntry encoded)])]

theorem isHeldBy_ghcrEntry (encoded : String) :
    (ghcrLogin encoded).IsHeldBy (ghcrEntry encoded) := by
  have hauth : (Field.of "auth" (IsOptional IsText) (some encoded) none).Allows
      (some (.ofString encoded)) := .value (Json.isText_ofString _)
  have husername : (Field.of "username" (IsOptional IsText) (some "other") none).Allows
      (some (.ofString "other")) := .value (Json.isText_ofString _)
  refine .object (Json.spellsNames_escape _) ?_ ?_
  · simp [Json.known, Login.fields, Field.of]
  · refine List.forall_mem_cons.mpr ⟨hauth, List.forall_mem_cons.mpr ⟨husername, ?_⟩⟩
    exact List.forall_mem_cons.mpr ⟨rfl, List.forall_mem_cons.mpr ⟨rfl, List.forall_mem_nil _⟩⟩

theorem isFile_ghcrFile (encoded : String) :
    Login.IsFile [("https://ghcr.io/v2/", ghcrLogin encoded)] (ghcrFile encoded) := by
  refine .object (Json.spellsNames_escape _) ?_ ?_
  · simp [Json.known, Field.of]
  · have htable : Login.IsTable [("https://ghcr.io/v2/", ghcrLogin encoded)]
        (.ofMembers [("https://ghcr.io/v2/", ghcrEntry encoded)]) :=
      .object (.cons (Json.spellsChars_escape _) (isHeldBy_ghcrEntry encoded) .nil)
    exact List.forall_mem_cons.mpr ⟨htable, List.forall_mem_nil _⟩

theorem wellFormed_ghcrFile (encoded : String) : (ghcrFile encoded).WellFormed := by
  have hentry : (ghcrEntry encoded).WellFormed :=
    Json.wellFormed_ofMembers (by simp [Json.WellFormed.null, Json.wellFormed_ofString])
  have htable : (Json.ofMembers [("https://ghcr.io/v2/", ghcrEntry encoded)]).WellFormed :=
    Json.wellFormed_ofMembers (by simp [hentry])
  exact Json.wellFormed_ofMembers (by simp [htable, Json.wellFormed_ofString])

/-- The text of that file, with blanks around it. -/
def ghcrText (encoded : String) : List UInt8 :=
  [0x09] ++ ((ghcrFile encoded).render ++ [0x0A])

theorem spellsFile_ghcrText (encoded : String) :
    Login.SpellsFile [("https://ghcr.io/v2/", ghcrLogin encoded)] (ghcrText encoded) :=
  .document (isFile_ghcrFile encoded) (by decide)
    (Json.spells_render (wellFormed_ghcrFile encoded)) (by decide)

/-- There is a colon in the password of the first file, and blanks are around what is encoded. In
the second one bits are left over behind the last byte that are not zero. -/
theorem ofDockerConfig_onlyLogin_ghcr :
    (∃ store, ofDockerConfig (ghcrText "\u00a0dTpwOnfDtnJkCg== \n") = .ok store
        ∧ ∀ q, store.find? q = if ofSpelling q = ofSpelling "https://ghcr.io/v2/" then some
            { username := "u", password := "p:wörd\n", server := some "https://ghcr.io/v2/" }
          else none)
      ∧ (Login.IsBroken "dTp=".toList
        ∧ ∃ reason, ofDockerConfig (ghcrText " dTp=")
          = .error (.invalidEntry "https://ghcr.io/v2/" reason)) := by
  constructor
  · obtain ⟨hread, -⟩ := ofDockerConfig_onlyLogin
      (spellsFile_ghcrText "\u00a0dTpwOnfDtnJkCg== \n") rfl (.inr rfl)
    have hleading : ∀ c ∈ ['\u00a0'], Text.isBlank c = true :=
      List.forall_mem_singleton.mpr (by decide)
    have htrailing : ∀ c ∈ [' ', '\n'], Text.isBlank c = true :=
      List.forall_mem_cons.mpr ⟨by decide, List.forall_mem_singleton.mpr (by decide)⟩
    exact hread "u" "p:wörd\n" _ _ (by decide) hleading htrailing (by decide +kernel)
  · obtain ⟨-, hrefused⟩ := ofDockerConfig_onlyLogin (spellsFile_ghcrText " dTp=") rfl (.inr rfl)
    obtain ⟨hbroken, hnamed⟩ := hrefused (by decide)
    have htrim : Text.trim Text.isBlank " dTp=".toList = "dTp=".toList := by decide +kernel
    have hunread : Text.Base64.decode? .standard "dTp=".toList = none := by decide +kernel
    have hnot : Login.IsBroken "dTp=".toList := .notBase64 fun bytes hbytes => by
      rw [Text.Base64.decode?_eq_some.mpr hbytes] at hunread
      cases hunread
    rw [htrim] at hbroken
    obtain ⟨e, he⟩ := hbroken.mpr hnot
    obtain ⟨reason, rfl⟩ := hnamed e he
    exact ⟨hnot, reason, he⟩

end CredentialStore

end ImagePull
