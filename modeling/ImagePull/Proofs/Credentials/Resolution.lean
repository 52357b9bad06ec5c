import ImagePull.Credentials.DockerConfig
import ImagePull.Proofs.Outcome
import ImagePull.Proofs.Text.Base64
import ImagePull.Proofs.Text.Trim
import ImagePull.Proofs.Text.Utf8

/-!
# The credential of a registry

A registry is given the last credential configured for its domain, else what the entry of a file
for its domain holds, else none (`Resolves`). What is there for other registries makes no
difference, and an entry that holds nothing is as if it were not there.
-/

namespace ImagePull

/-- Whether an entry is for the registry with this spelling. -/
def RegistryDomain.isFor {α : Type} (spelling : String) (entry : String × α) : Bool :=
  ofSpelling entry.1 == ofSpelling spelling

open RegistryDomain (ofSpelling isFor)

/-! ## What an entry holds -/

namespace Login

/-- The text of a field `auth` for a user name and a password. There may be blanks around it, and
there is no colon in the user name. -/
structure Encodes (text username password : String) : Prop where
  written : Text.trim Text.isBlank text.toList
    = Text.Base64.encode .standard (Text.Utf8.bytes (username ++ ":" ++ password))
  colon : ':' ∉ username.toList

theorem decodeAuth_eq_ok {text username password : String} :
    decodeAuth text = .ok (username, password) ↔ Encodes text username password := by
  have hbytes : Text.Utf8.bytes (username ++ ":" ++ password)
      = Text.Utf8.encode (username.toList ++ ':' :: password.toList) := by
    simp [Text.Utf8.bytes]
  constructor
  · intro h
    simp only [decodeAuth] at h
    split at h
    · cases h
    · next bytes hbase =>
        split at h
        · cases h
        · next chars hchars =>
            split at h
            · cases h
            · next before after hcut =>
                cases h
                obtain ⟨rfl, hcolon⟩ := Text.cutFirst?_eq_some.mp hcut
                rw [Text.Utf8.decode_eq_ok.mp hchars] at hbase
                refine ⟨?_, by simpa using hcolon⟩
                rw [Text.Base64.decode?_eq_some.mp hbase, hbytes, String.toList_ofList,
                  String.toList_ofList]
  · rintro ⟨hwritten, hcolon⟩
    have hcut : Text.cutFirst? ':' (username.toList ++ ':' :: password.toList)
        = some (username.toList, password.toList) := Text.cutFirst?_eq_some.mpr ⟨rfl, hcolon⟩
    rw [decodeAuth, hwritten, Text.Base64.decode?_encode, hbytes]
    simp only [Text.Utf8.decode_eq_ok.mpr rfl, hcut, String.ofList_toList]

/-- The user name and the password that an entry holds: those of its two fields, else those in its
field `auth`, else empty ones beside an identity token. -/
inductive Holds (l : Login) : (username password : String) → Prop
  | fields {username password : String} (husername : l.username = some username)
      (hpassword : l.password = some password) : Holds l username password
  | encoded {text username password : String}
      (hmissing : l.username = none ∨ l.password = none) (hauth : l.auth = some text)
      (hne : text ≠ "") (hencodes : Encodes text username password) : Holds l username password
  | token {text : String} (hmissing : l.username = none ∨ l.password = none)
      (hauth : l.auth = none ∨ l.auth = some "") (htoken : l.identityToken = some text) :
      Holds l "" ""

theorem bind_unlessEmpty?_eq_some {field : Option String} {text : String} :
    field.bind Credential.unlessEmpty? = some text ↔ field = some text ∧ text ≠ "" := by
  cases field with
  | none => simp
  | some text' =>
      simp only [Option.bind_some, Credential.unlessEmpty?, Option.ite_none_left_eq_some,
        Option.some.injEq]
      constructor
      · rintro ⟨hne, rfl⟩
        exact ⟨rfl, hne⟩
      · rintro ⟨rfl, hne⟩
        exact ⟨hne, rfl⟩

theorem bind_unlessEmpty?_eq_none {field : Option String} :
    field.bind Credential.unlessEmpty? = none ↔ field = none ∨ field = some "" := by
  cases field with
  | none => simp
  | some text => simp [Credential.unlessEmpty?]

theorem userPassword_of_missing {l : Login} (h : l.username = none ∨ l.password = none) :
    l.userPassword = (l.auth.bind Credential.unlessEmpty?).elim
      (.ok (l.identityToken.map fun _ => ("", ""))) fun text => (decodeAuth text).map some := by
  rcases h with h | h
  · simp only [userPassword, h]
    cases l.auth.bind Credential.unlessEmpty? <;> rfl
  · cases hu : l.username <;> simp only [userPassword, h, hu] <;>
      cases l.auth.bind Credential.unlessEmpty? <;> rfl

theorem Holds.userPassword_eq {l : Login} {username password : String}
    (h : l.Holds username password) : l.userPassword = .ok (some (username, password)) := by
  cases h with
  | fields hu hp => simp only [userPassword, hu, hp]
  | encoded hmissing hauth hne hencodes =>
      rw [userPassword_of_missing hmissing, bind_unlessEmpty?_eq_some.mpr ⟨hauth, hne⟩,
        Option.elim_some, decodeAuth_eq_ok.mpr hencodes]
      rfl
  | token hmissing hauth htoken =>
      rw [userPassword_of_missing hmissing, bind_unlessEmpty?_eq_none.mpr hauth, htoken]
      rfl

theorem userPassword_eq_some {l : Login} {username password : String} :
    l.userPassword = .ok (some (username, password)) ↔ l.Holds username password := by
  refine ⟨fun h => ?_, Holds.userPassword_eq⟩
  by_cases hmissing : l.username = none ∨ l.password = none
  · rw [userPassword_of_missing hmissing] at h
    cases hauth : l.auth.bind Credential.unlessEmpty? with
    | some text =>
        obtain ⟨htext, hne⟩ := bind_unlessEmpty?_eq_some.mp hauth
        cases hdecode : decodeAuth text with
        | error reason => simp [hauth, hdecode, Except.map] at h
        | ok parts =>
            simp only [hauth, Option.elim_some, hdecode, Except.map, Except.ok.injEq,
              Option.some.injEq] at h
            subst h
            exact .encoded hmissing htext hne (decodeAuth_eq_ok.mp hdecode)
    | none =>
        simp only [hauth, Option.elim_none, Except.ok.injEq, Option.map_eq_some_iff] at h
        obtain ⟨token, htoken, h⟩ := h
        cases h
        exact .token hmissing (bind_unlessEmpty?_eq_none.mp hauth) htoken
  · obtain ⟨hu, hp⟩ := not_or.mp hmissing
    obtain ⟨u, hu⟩ := Option.ne_none_iff_exists'.mp hu
    obtain ⟨p, hp⟩ := Option.ne_none_iff_exists'.mp hp
    simp only [userPassword, hu, hp, Except.ok.injEq, Option.some.injEq, Prod.mk.injEq] at h
    obtain ⟨rfl, rfl⟩ := h
    exact .fields hu hp

/-- The credential of an entry that holds this user name and password. -/
def granted (l : Login) (registry username password : String) : Credential :=
  { username, password, server := some registry, identityToken := l.identityToken }

theorem credential_eq_some {registry : String} {l : Login} {c : Credential} :
    l.credential registry = .ok (some c) ↔ ∃ username password,
      l.Holds username password ∧ l.granted registry username password = c := by
  simp only [← userPassword_eq_some]
  cases h : l.userPassword with
  | error reason => simp [credential, h]
  | ok held =>
      cases held with
      | none => simp [credential, h]
      | some parts =>
          obtain ⟨username, password⟩ := parts
          simp [credential, h, granted]

/-- The entry holds a credential. -/
def Carries (l : Login) : Prop :=
  ∃ username password, l.Holds username password

instance (l : Login) : Decidable l.Carries :=
  match h : l.userPassword with
  | .ok (some (username, password)) => .isTrue ⟨username, password, userPassword_eq_some.mp h⟩
  | .ok none => .isFalse fun ⟨_, _, hholds⟩ =>
    nomatch h.symm.trans (userPassword_eq_some.mpr hholds)
  | .error _ => .isFalse fun ⟨_, _, hholds⟩ =>
    nomatch h.symm.trans (userPassword_eq_some.mpr hholds)

end Login

/-! ## Stores -/

namespace CredentialStore

theorem find?_insert (s : CredentialStore) (spelling : String) (c : Credential) (q : String) :
    (s.insert spelling c).find? q
      = if ofSpelling q = ofSpelling spelling then some c else s.find? q :=
  get?_insert s spelling c (ofSpelling q)

theorem ofList_append_singleton (entries : List (String × Credential)) (e : String × Credential) :
    ofList (entries ++ [e]) = (ofList entries).insert e.1 e.2 := by
  simp [ofList]

/-- **The last credential for a registry counts.** -/
theorem find?_ofList (entries : List (String × Credential)) (q : String) :
    (ofList entries).find? q = (entries.filter (isFor q)).getLast?.map Prod.snd := by
  induction entries using List.reverseRecOn with
  | nil => rfl
  | append_singleton entries e ih =>
      rw [ofList_append_singleton, find?_insert, List.filter_append]
      by_cases h : ofSpelling q = ofSpelling e.1
      · simp [isFor, h]
      · simp [isFor, h, Ne.symm h, ih]

/-- Where no two entries are for one registry, their order does not matter. -/
theorem find?_ofList_of_pairwise {entries : List (String × Credential)}
    (h : entries.Pairwise fun a b => ofSpelling a.1 ≠ ofSpelling b.1) {q : String}
    {c : Credential} :
    (ofList entries).find? q = some c ↔ ∃ registry, (registry, c) ∈ entries.filter (isFor q) := by
  rw [find?_ofList]
  cases hfound : entries.filter (isFor q) with
  | nil => simp
  | cons e rest =>
      have hone : rest = [] := by
        have hpairwise := h.filter (isFor q)
        have hfor : ∀ e' ∈ e :: rest, ofSpelling e'.1 = ofSpelling q := fun e' he' => by
          rw [← hfound, List.mem_filter] at he'
          exact beq_iff_eq.mp he'.2
        rw [hfound] at hpairwise
        refine List.eq_nil_iff_forall_not_mem.mpr fun e' he' => ?_
        refine (List.pairwise_cons.mp hpairwise).1 e' he' ?_
        rw [hfor e List.mem_cons_self, hfor e' (List.mem_cons_of_mem e he')]
      subst hone
      obtain ⟨registry, c'⟩ := e
      simp [eq_comm]

/-! ## Files -/

/-- The credential of an entry, under its registry. -/
def carried? (entry : String × Login) : Option (String × Credential) :=
  match entry.2.credential entry.1 with
  | .ok c => c.map (entry.1, ·)
  | .error _ => none

theorem carried?_eq_some {entry : String × Login} {registry : String} {c : Credential} :
    carried? entry = some (registry, c) ↔ entry.1 = registry ∧ ∃ username password,
      entry.2.Holds username password ∧ entry.2.granted registry username password = c := by
  have hcredential : entry.2.credential entry.1 = .ok (some c) ↔ _ := Login.credential_eq_some
  constructor
  · intro h
    simp only [carried?] at h
    split at h
    · next found hfound =>
        obtain ⟨c', rfl, h⟩ := Option.map_eq_some_iff.mp h
        cases h
        exact ⟨rfl, hcredential.mp hfound⟩
    · cases h
  · rintro ⟨rfl, hholds⟩
    simp only [carried?, hcredential.mpr hholds, Option.map_some]

/-- The store after one more entry. -/
def after (s : CredentialStore) (entry : String × Login) : Except LoginsError CredentialStore := do
  match ← entry.2.credential entry.1 with
  | some c => return s.insert entry.1 c
  | none => return s

theorem after_eq_ok {s t : CredentialStore} {entry : String × Login} :
    s.after entry = .ok t ↔ (∃ c, entry.2.credential entry.1 = .ok c)
      ∧ t = (carried? entry).toList.foldl (fun s e => s.insert e.1 e.2) s := by
  simp only [after, carried?]
  cases entry.2.credential entry.1 with
  | error reason => simp [bind, Except.bind]
  | ok found => cases found <;> simp [bind, Except.bind, pure, Except.pure, eq_comm]

/-- **The store of a file** is the store of the credentials that its entries hold, if all can be
read. -/
theorem ofLogins_eq_ok {logins : List (String × Login)} {s : CredentialStore} :
    ofLogins logins = .ok s ↔ (∀ e ∈ logins, ∃ c, e.2.credential e.1 = .ok c)
      ∧ s = ofList (logins.filterMap carried?) := by
  have hfold : ∀ start, logins.foldlM after start = .ok s
      ↔ (∀ e ∈ logins, ∃ c, e.2.credential e.1 = .ok c)
        ∧ s = (logins.filterMap carried?).foldl (fun s e => s.insert e.1 e.2) start := by
    induction logins with
    | nil => simp [pure, Except.pure, eq_comm]
    | cons e rest ih =>
        intro start
        rw [foldlM_cons_eq_ok]
        simp only [after_eq_ok, ih, List.forall_mem_cons]
        have hjoin : (e :: rest).filterMap carried?
            = (carried? e).toList ++ rest.filterMap carried? := by
          cases h : carried? e <;> simp [h]
        rw [hjoin, List.foldl_append]
        constructor
        · rintro ⟨_, ⟨he, rfl⟩, hrest, hs⟩
          exact ⟨⟨he, hrest⟩, hs⟩
        · rintro ⟨⟨he, hrest⟩, hs⟩
          exact ⟨_, ⟨he, rfl⟩, hrest, hs⟩
  exact hfold {}

/-- No two of these entries hold a credential for one registry. -/
def Once (logins : List (String × Login)) : Prop :=
  logins.Pairwise fun a b => a.2.Carries → b.2.Carries → ofSpelling a.1 ≠ ofSpelling b.1

instance (logins : List (String × Login)) : Decidable (Once logins) :=
  inferInstanceAs (Decidable (List.Pairwise _ logins))

theorem Once.perm {logins logins' : List (String × Login)} (h : Once logins)
    (hperm : logins.Perm logins') : Once logins' :=
  (hperm.pairwise_iff fun h ha hb => (h hb ha).symm).mp h

theorem find?_ofLogins {logins : List (String × Login)} {s : CredentialStore}
    (hs : ofLogins logins = .ok s) (honce : Once logins) {q : String} {c : Credential} :
    s.find? q = some c ↔ ∃ registry l username password, (registry, l) ∈ logins.filter (isFor q)
      ∧ l.Holds username password ∧ l.granted registry username password = c := by
  obtain ⟨-, rfl⟩ := ofLogins_eq_ok.mp hs
  have hpairwise : (logins.filterMap carried?).Pairwise
      fun a b => ofSpelling a.1 ≠ ofSpelling b.1 := by
    refine honce.filterMap _ fun a b hab a' ha b' hb => ?_
    obtain ⟨ha, ua, pa, hholds, -⟩ := carried?_eq_some.mp ha
    obtain ⟨hb, ub, pb, hholds', -⟩ := carried?_eq_some.mp hb
    rw [← ha, ← hb]
    exact hab ⟨ua, pa, hholds⟩ ⟨ub, pb, hholds'⟩
  rw [find?_ofList_of_pairwise hpairwise]
  simp only [List.mem_filter, List.mem_filterMap, carried?_eq_some, Prod.exists]
  constructor
  · rintro ⟨_, ⟨registry, l, hmem, rfl, username, password, hheld⟩, hfor⟩
    exact ⟨registry, l, username, password, ⟨hmem, hfor⟩, hheld⟩
  · rintro ⟨registry, l, username, password, ⟨hmem, hfor⟩, hheld⟩
    exact ⟨registry, ⟨registry, l, hmem, rfl, username, password, hheld⟩, hfor⟩

theorem find?_ofLogins_eq_none {logins : List (String × Login)} {s : CredentialStore}
    (hs : ofLogins logins = .ok s) (honce : Once logins) {q : String} :
    s.find? q = none ↔ ∀ e ∈ logins.filter (isFor q), ¬e.2.Carries := by
  rw [Option.eq_none_iff_forall_ne_some]
  simp only [ne_eq, find?_ofLogins hs honce]
  constructor
  · rintro h ⟨registry, l⟩ hmem ⟨username, password, hholds⟩
    exact h _ ⟨registry, l, username, password, hmem, hholds, rfl⟩
  · rintro h c ⟨registry, l, username, password, hmem, hholds, -⟩
    exact h _ hmem ⟨username, password, hholds⟩

end CredentialStore

/-! ## Resolution -/

/-- What the registry with a spelling is given: the last of the configured credentials for its
domain, else what the stored entry for its domain holds, else none. -/
inductive Resolves (overrides : List (String × Credential)) (logins : List (String × Login))
    (q : String) : Option Credential → Prop
  | configured {registry : String} {c : Credential}
      (hlast : (overrides.filter (isFor q)).getLast? = some (registry, c)) :
      Resolves overrides logins q (some c)
  | stored {registry username password : String} {l : Login}
      (hnone : overrides.filter (isFor q) = []) (hmem : (registry, l) ∈ logins.filter (isFor q))
      (hholds : l.Holds username password) :
      Resolves overrides logins q (some (l.granted registry username password))
  | anonymous (hnone : overrides.filter (isFor q) = [])
      (hmem : ∀ e ∈ logins.filter (isFor q), ¬e.2.Carries) : Resolves overrides logins q none

/-- A file of stored logins that can be read, in which no two entries hold a credential for one
registry. -/
structure LoginsFile where
  text : List UInt8
  logins : List (String × Login)
  store : CredentialStore
  parses : (Json.parse? text).bind Login.listOfJson? = some logins
  loads : CredentialStore.ofDockerConfig text = .ok store
  once : CredentialStore.Once logins

namespace LoginsFile

theorem ofLogins_logins (file : LoginsFile) :
    CredentialStore.ofLogins file.logins = .ok file.store := by
  have hloads := file.loads
  rwa [CredentialStore.ofDockerConfig, file.parses] at hloads

/-- The credentials configured in a list, before those of the file. -/
def under (file : LoginsFile) (overrides : List (String × Credential)) : Credentials :=
  { configured := .ofList overrides, stored := file.store }

/-- Two lists of overrides and two files that have the same for the registry with a spelling. -/
def Agree (q : String) (overrides overrides' : List (String × Credential))
    (file file' : LoginsFile) : Prop :=
  overrides.filter (isFor q) = overrides'.filter (isFor q)
    ∧ ∀ e, isFor q e = true → e.2.Carries → (e ∈ file.logins ↔ e ∈ file'.logins)

theorem find?_eq_iff_resolves (file : LoginsFile) (overrides : List (String × Credential))
    (q : String) (found : Option Credential) :
    (file.under overrides).find? q = found ↔ Resolves overrides file.logins q found := by
  have hstored {c : Credential} :=
    CredentialStore.find?_ofLogins file.ofLogins_logins file.once (q := q) (c := c)
  have hnothing := CredentialStore.find?_ofLogins_eq_none file.ofLogins_logins file.once (q := q)
  simp only [under, Credentials.find?, CredentialStore.find?_ofList]
  cases hlast : (overrides.filter (isFor q)).getLast? with
  | some e =>
      obtain ⟨registry, c⟩ := e
      simp only [Option.map_some, Option.orElse_eq_orElse, Option.orElse_some]
      constructor
      · rintro rfl
        exact .configured hlast
      · intro h
        cases h with
        | configured hlast' =>
            rw [hlast] at hlast'
            cases hlast'
            rfl
        | stored hnone => simp [hnone] at hlast
        | anonymous hnone => simp [hnone] at hlast
  | none =>
      have hnone := List.getLast?_eq_none_iff.mp hlast
      simp only [Option.map_none, Option.orElse_eq_orElse, Option.orElse_none]
      constructor
      · rintro rfl
        cases hfound : file.store.find? q with
        | none => exact .anonymous hnone (hnothing.mp hfound)
        | some c =>
            obtain ⟨registry, l, username, password, hmem, hholds, rfl⟩ := hstored.mp hfound
            exact .stored hnone hmem hholds
      · intro h
        cases h with
        | configured hlast' =>
            rw [hlast] at hlast'
            cases hlast'
        | stored _ hmem hholds => exact hstored.mpr ⟨_, _, _, _, hmem, hholds, rfl⟩
        | anonymous _ hmem => exact hnothing.mpr hmem

/-- What two have in common for a registry decides what it is given. -/
theorem resolves_of_agree {q : String} {overrides overrides' : List (String × Credential)}
    {file file' : LoginsFile} (h : Agree q overrides overrides' file file')
    {found : Option Credential} (hfound : Resolves overrides file.logins q found) :
    Resolves overrides' file'.logins q found := by
  obtain ⟨hsame, hlogins⟩ := h
  cases hfound with
  | configured hlast => exact .configured (hsame ▸ hlast)
  | stored hnone hmem hholds =>
      obtain ⟨hmem, hfor⟩ := List.mem_filter.mp hmem
      have hmem' := (hlogins _ hfor ⟨_, _, hholds⟩).mp hmem
      exact .stored (hsame ▸ hnone) (List.mem_filter.mpr ⟨hmem', hfor⟩) hholds
  | anonymous hnone hmem =>
      refine .anonymous (hsame ▸ hnone) fun e he hcarries => ?_
      obtain ⟨he, hfor⟩ := List.mem_filter.mp he
      exact hmem e (List.mem_filter.mpr ⟨(hlogins e hfor hcarries).mpr he, hfor⟩) hcarries

theorem exists_ofLogins_of_perm (file : LoginsFile) {order : List (String × Login)}
    (horder : order.Perm file.logins) : ∃ store, CredentialStore.ofLogins order = .ok store
      ∧ ∀ q, store.find? q = file.store.find? q := by
  obtain ⟨hread, -⟩ := CredentialStore.ofLogins_eq_ok.mp file.ofLogins_logins
  have hloads := CredentialStore.ofLogins_eq_ok.mpr
    ⟨fun e he => hread e (horder.mem_iff.mp he), rfl⟩
  refine ⟨_, hloads, fun q => Option.ext fun c => ?_⟩
  rw [CredentialStore.find?_ofLogins hloads (file.once.perm horder.symm),
    CredentialStore.find?_ofLogins file.ofLogins_logins file.once]
  simp only [(horder.filter _).mem_iff]

/-- **A registry is given its own credential**: the last one configured for its domain, else what
the stored entry for its domain holds, with the entry's key as the server, else none. So two sets
of credentials that have the same for its domain give it the same, whatever they hold for others,
and the order in which the entries of a file are taken makes no difference. -/
theorem resolves_under (file : LoginsFile) (overrides : List (String × Credential)) :
    (∀ q found, (file.under overrides).find? q = found ↔ Resolves overrides file.logins q found)
      ∧ (∀ q overrides' file', Agree q overrides overrides' file file' →
          (file.under overrides).find? q = (file'.under overrides').find? q)
      ∧ ∀ order, order.Perm file.logins → ∃ store, CredentialStore.ofLogins order = .ok store
          ∧ ∀ q, store.find? q = file.store.find? q := by
  refine ⟨file.find?_eq_iff_resolves overrides, fun q overrides' file' hagree => ?_,
    fun order => file.exists_ofLogins_of_perm⟩
  have hfound := (file.find?_eq_iff_resolves overrides q _).mp rfl
  exact ((file'.find?_eq_iff_resolves overrides' q _).mpr (resolves_of_agree hagree hfound)).symm

/-- Entries of every form. -/
def everyLogin : List (String × Login) :=
  [("https://index.docker.io/v1/", { auth := some "YTpi" }),
    ("ghcr.io", { username := some "c", password := some "d" }),
    ("quay.io", { identityToken := some "e" }), ("GHCR.io", { auth := some "" })]

theorem parse_everyLogin : (Json.parse? (Text.Utf8.bytes
    ("\x7b\"auths\":\x7b\"https://index.docker.io/v1/\":\x7b\"auth\":\"YTpi\"\x7d," ++
      "\"ghcr.io\":\x7b\"username\":\"c\",\"password\":\"d\"\x7d," ++
      "\"quay.io\":\x7b\"identitytoken\":\"e\"\x7d," ++
      "\"GHCR.io\":\x7b\"auth\":\"\"\x7d\x7d\x7d"))).bind
    Login.listOfJson? = some everyLogin := by
  decide +kernel

/-- A file with entries of every form, of which the last says nothing. -/
def everyForm : LoginsFile where
  text := _
  logins := everyLogin
  store := .ofList
    [("docker.io",
        { username := "a", password := "b", server := some "https://index.docker.io/v1/" }),
      ("ghcr.io", { username := "c", password := "d", server := some "ghcr.io" }),
      ("quay.io", { server := some "quay.io", identityToken := some "e" })]
  parses := parse_everyLogin
  loads := by
    rw [CredentialStore.ofDockerConfig, parse_everyLogin]
    decide +kernel
  once := by decide +kernel

/-- The same entry for one registry, and another for another. -/
def otherLogin : List (String × Login) :=
  [("quay.io", { auth := some "Zjpn" }), ("https://index.docker.io/v1/", { auth := some "YTpi" })]

theorem parse_otherLogin : (Json.parse? (Text.Utf8.bytes
    ("\x7b\"auths\":\x7b\"quay.io\":\x7b\"auth\":\"Zjpn\"\x7d," ++
      "\"https://index.docker.io/v1/\":\x7b\"auth\":\"YTpi\"\x7d\x7d\x7d"))).bind
    Login.listOfJson? = some otherLogin := by
  decide +kernel

@[inherit_doc otherLogin]
def otherForm : LoginsFile where
  text := _
  logins := otherLogin
  store := .ofList
    [("quay.io", { username := "f", password := "g", server := some "quay.io" }),
      ("docker.io",
        { username := "a", password := "b", server := some "https://index.docker.io/v1/" })]
  parses := parse_otherLogin
  loads := by
    rw [CredentialStore.ofDockerConfig, parse_otherLogin]
    decide +kernel
  once := by decide +kernel

theorem agree_everyForm_otherForm :
    Agree "docker.io" [("quay.io", { username := "bot" })] [] everyForm otherForm := by
  refine ⟨by decide +kernel, fun e hfor hcarries => ⟨fun he => ?_, fun he => ?_⟩⟩
  · simp only [everyForm, everyLogin, List.mem_cons, List.not_mem_nil, or_false] at he
    rcases he with rfl | rfl | rfl | rfl
    · simp [otherForm, otherLogin]
    all_goals exact absurd hfor (by decide +kernel)
  · simp only [otherForm, otherLogin, List.mem_cons, List.not_mem_nil, or_false] at he
    rcases he with rfl | rfl
    · exact absurd hfor (by decide +kernel)
    · simp [everyForm, everyLogin]

theorem resolves_under_everyForm :
    (everyForm.under [("quay.io", { username := "bot" })]).find? "registry-1.docker.io"
        = some { username := "a", password := "b", server := some "https://index.docker.io/v1/" }
      ∧ (everyForm.under [("quay.io", { username := "bot" })]).find? "docker.io"
        = (otherForm.under []).find? "docker.io"
      ∧ ∃ store, CredentialStore.ofLogins everyForm.logins.reverse = .ok store
        ∧ ∀ q, store.find? q = everyForm.store.find? q := by
  obtain ⟨hfind, hsame, horder⟩ := everyForm.resolves_under [("quay.io", { username := "bot" })]
  have hauth : Login.Encodes "YTpi" "a" "b" := ⟨by decide +kernel, by decide⟩
  have hholds : Login.Holds { auth := some "YTpi" } "a" "b" :=
    .encoded (.inl rfl) rfl (by decide) hauth
  have hmem : ("https://index.docker.io/v1/", { auth := some "YTpi" })
      ∈ everyForm.logins.filter (isFor "registry-1.docker.io") := by decide +kernel
  refine ⟨?_, hsame _ [] otherForm agree_everyForm_otherForm, horder _ (List.reverse_perm _)⟩
  exact (hfind _ _).mpr (.stored (by decide +kernel) hmem hholds)

end LoginsFile

end ImagePull
