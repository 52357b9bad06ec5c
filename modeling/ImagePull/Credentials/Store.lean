import ImagePull.Credentials.Basic
import ImagePull.ImageRef

/-!
# Stored credentials

Credentials are written down under many spellings of a registry: with a scheme,
with a path, in any case. They are kept under its domain, which is the host in
lower case; the hosts that serve the default registry share its domain.

A store holds at most one credential for each registry domain, and the last one
put in counts. Both putting in and looking up take any spelling of a registry.
-/

namespace ImagePull

/-! ## Registry domains -/

namespace RegistryDomain

/-- The schemes that a spelling may begin with, in the order they are taken off. -/
def schemes : List String := ["https://", "http://"]

/-- Further hosts of the default registry. -/
def defaultHosts : List String :=
  ["index.docker.io", "registry-1.docker.io", "registry.hub.docker.com"]

/-- The host of a spelling: what is left of it without the blanks around it, the
schemes before it and the path behind it. -/
def hostChars (spelling : List Char) : List Char :=
  (schemes.foldl (fun cs scheme => Text.dropStarts scheme.toList cs)
    (Text.trim Text.isBlank spelling)).takeWhile (· != '/')

/-- The domain of a host in lower case. -/
def ofHost (host : String) : String :=
  if defaultHosts.contains host then ImageRef.defaultDomain else host

/-- The domain that a spelling of a registry stands for. -/
def ofSpelling (spelling : String) : String :=
  ofHost (Text.lowered (String.ofList (hostChars spelling.toList)))

end RegistryDomain

/-! ## Stores -/

/-- Credentials by registry domain. -/
structure CredentialStore where
  entries : List (String × Credential) := []
deriving DecidableEq, Repr

namespace CredentialStore

/-- The credential for a domain. -/
def get? (s : CredentialStore) (domain : String) : Option Credential :=
  s.entries.lookup domain

/-- The credential for the registry with this spelling. -/
def find? (s : CredentialStore) (spelling : String) : Option Credential :=
  s.get? (RegistryDomain.ofSpelling spelling)

/-- The store with a credential in place of the one its registry had. -/
def insert (s : CredentialStore) (spelling : String) (c : Credential) : CredentialStore :=
  let domain := RegistryDomain.ofSpelling spelling
  ⟨(domain, c) :: s.entries.filter fun entry => entry.1 != domain⟩

/-- The store of a list of credentials, of which later ones replace earlier ones. -/
def ofList (entries : List (String × Credential)) : CredentialStore :=
  entries.foldl (fun s entry => s.insert entry.1 entry.2) {}

/-- The number of domains. -/
def size (s : CredentialStore) : Nat :=
  s.entries.length

/-- Whether there is no credential. -/
def isEmpty (s : CredentialStore) : Bool :=
  s.entries.isEmpty

/-! ## Laws -/

theorem get?_insert (s : CredentialStore) (spelling : String) (c : Credential) (domain : String) :
    (s.insert spelling c).get? domain =
      if domain = RegistryDomain.ofSpelling spelling then some c else s.get? domain := by
  by_cases h : domain = RegistryDomain.ofSpelling spelling
  · simp [insert, get?, h]
  · simp only [insert, get?, List.lookup_cons, beq_eq_false_iff_ne.mpr h, if_neg h]
    induction s.entries with
    | nil => rfl
    | cons e rest ih =>
      by_cases he : e.1 = RegistryDomain.ofSpelling spelling
      · rw [List.filter_cons_of_neg (by simp [he]), ih, List.lookup_cons, he,
          beq_eq_false_iff_ne.mpr h]
      · rw [List.filter_cons_of_pos (by simp [he]), List.lookup_cons, List.lookup_cons, ih]

end CredentialStore

/-- Two stores, of which the first has the say. -/
structure Credentials where
  configured : CredentialStore := {}
  stored : CredentialStore := {}
deriving DecidableEq, Repr

/-- The credential for the registry with this spelling. -/
def Credentials.find? (c : Credentials) (spelling : String) : Option Credential :=
  c.configured.find? spelling <|> c.stored.find? spelling

end ImagePull
