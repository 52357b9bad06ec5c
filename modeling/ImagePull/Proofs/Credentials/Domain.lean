import ImagePull.Proofs.Credentials.Resolution
import ImagePull.Proofs.Text.Blank

/-!
# Spellings of a registry

A host may be spelled with a scheme before it, a path behind it and blanks around all of that
(`Spells`). Every spelling of a host stands for its domain, under which the hosts of the default
registry are one and no other two are (`spellings_share_domain`). A domain is a spelling too. It
stands for itself, unless the host was left with a blank at an end when the scheme before it or the
path behind it came off (`domain_of_domain_iff`).
-/

namespace ImagePull.RegistryDomain

/-! ## What comes off a spelling -/

/-- What is left without the schemes in front. -/
def withoutSchemes (cs : List Char) : List Char :=
  schemes.foldl (fun cs scheme => Text.dropStarts scheme.toList cs) cs

theorem hostChars_eq (cs : List Char) :
    hostChars cs = (withoutSchemes (Text.trim Text.isBlank cs)).takeWhile (· != '/') :=
  rfl

/-- No scheme stands in front. -/
def IsBare (cs : List Char) : Prop :=
  ∀ scheme ∈ schemes, Text.afterStart? scheme.toList cs = none

theorem withoutSchemes_of_isBare {cs : List Char} (h : IsBare cs) : withoutSchemes cs = cs := by
  have hfirst := h "https://" List.mem_cons_self
  have hsecond := h "http://" (List.mem_cons_of_mem _ List.mem_cons_self)
  unfold withoutSchemes schemes
  rw [List.foldl_cons, Text.dropStarts_of_none hfirst, List.foldl_cons,
    Text.dropStarts_of_none hsecond, List.foldl_nil]

theorem withoutSchemes_append {scheme : String} (hscheme : scheme ∈ schemes) {cs : List Char}
    (h : IsBare cs) : withoutSchemes (scheme.toList ++ cs) = cs := by
  have hfirst := h "https://" List.mem_cons_self
  have hsecond := h "http://" (List.mem_cons_of_mem _ List.mem_cons_self)
  unfold withoutSchemes schemes
  rw [List.foldl_cons, List.foldl_cons, List.foldl_nil]
  rcases List.mem_cons.mp hscheme with rfl | hscheme
  · rw [Text.dropStarts_append (by decide), Text.dropStarts_of_none hfirst,
      Text.dropStarts_of_none hsecond]
  · obtain rfl := List.mem_singleton.mp hscheme
    have hother : Text.afterStart? "https://".toList ("http://".toList ++ cs) = none := rfl
    rw [Text.dropStarts_of_none hother, Text.dropStarts_append (by decide),
      Text.dropStarts_of_none hsecond]

/-- Up to its first slash a scheme is a name with a colon at its end. -/
theorem getLast?_takeWhile_scheme {scheme : String} (h : scheme ∈ schemes) (rest : List Char) :
    ((scheme.toList ++ rest).takeWhile (· != '/')).getLast? = some ':' := by
  rcases List.mem_cons.mp h with rfl | h
  · rfl
  · obtain rfl := List.mem_singleton.mp h
    rfl

/-- A scheme stands in front only if what stands before the first slash ends in a colon. -/
theorem isBare_of_getLast? {cs : List Char}
    (h : (cs.takeWhile (· != '/')).getLast? ≠ some ':') : IsBare cs := by
  intro scheme hscheme
  by_contra hstarts
  obtain ⟨rest, hrest⟩ := Option.ne_none_iff_exists'.mp hstarts
  rw [Text.afterStart?_eq_some.mp hrest] at h
  exact h (getLast?_takeWhile_scheme hscheme rest)

/-! ## Hosts and their spellings -/

/-- The name of a host, with or without a port. -/
structure IsHost (host : String) : Prop where
  nonempty : host ≠ ""
  slash : '/' ∉ host.toList
  blank : ∀ c ∈ host.toList, Text.isBlank c = false
  colon : host.toList.getLast? ≠ some ':'

/-- The text spells the host: there may be a scheme before it, a path behind it, and blanks around
all of that. -/
inductive Spells (host : String) : String → Prop
  | parts {before scheme path after : String} (hbefore : ∀ c ∈ before.toList, Text.isBlank c = true)
    (hscheme : scheme = "" ∨ scheme ∈ schemes) (hpath : path = "" ∨ path.toList.head? = some '/')
    (hafter : ∀ c ∈ after.toList, Text.isBlank c = true) :
    Spells host (before ++ (scheme ++ (host ++ path)) ++ after)

variable {host host' spelling spelling' : String}

theorem takeWhile_append_path {host path : List Char} (hslash : '/' ∉ host)
    (hpath : path = [] ∨ path.head? = some '/') :
    (host ++ path).takeWhile (· != '/') = host := by
  have hhost : ∀ c ∈ host, (c != '/') = true := by
    intro c hc
    exact bne_iff_ne.mpr fun heq => hslash (heq ▸ hc)
  rw [List.takeWhile_append_of_pos hhost]
  rcases hpath with rfl | hpath
  · simp
  · obtain ⟨rest, rfl⟩ := List.head?_eq_some_iff.mp hpath
    simp

theorem isBlank_of_mem_scheme {scheme : String} (h : scheme = "" ∨ scheme ∈ schemes) :
    ∀ c ∈ scheme.toList, Text.isBlank c = false := by
  have hall : ∀ scheme ∈ "" :: schemes, scheme.toList.all (fun c => !Text.isBlank c) = true := by
    decide
  intro c hc
  have hscheme := List.all_eq_true.mp (hall scheme (List.mem_cons.mpr h)) c hc
  simpa using hscheme

/-- Trimming a path leaves a path. -/
theorem trimEnd_path {path : List Char} (h : path = [] ∨ path.head? = some '/') :
    Text.trimEnd Text.isBlank path = []
      ∨ (Text.trimEnd Text.isBlank path).head? = some '/' := by
  rcases h with rfl | h
  · exact .inl rfl
  · obtain ⟨rest, rfl⟩ := List.head?_eq_some_iff.mp h
    have hslash : ∀ c ∈ ['/'].getLast?, Text.isBlank c = false := by
      intro c hc
      cases hc
      decide
    rw [← List.singleton_append, Text.trimEnd_append_of_getLast? hslash]
    exact .inr rfl

/-- **The host is what is left of its spelling.** -/
theorem hostChars_of_spells (hhost : IsHost host) (h : Spells host spelling) :
    hostChars spelling.toList = host.toList := by
  obtain ⟨hne, hslash, hblank, hcolon⟩ := hhost
  cases h with
  | @parts before scheme path after hbefore hscheme hpath hafter =>
      have hpath : path.toList = [] ∨ path.toList.head? = some '/' :=
        hpath.imp_left String.toList_eq_nil_iff.mpr
      have htrim : Text.trim Text.isBlank (before ++ (scheme ++ (host ++ path)) ++ after).toList
          = scheme.toList ++ (host.toList ++ Text.trimEnd Text.isBlank path.toList) := by
        simp only [String.toList_append]
        rw [Text.trim_append_append hbefore hafter, ← List.append_assoc, ← List.append_assoc]
        refine Text.trim_append_of_forall (fun hnil => ?_) (fun c hc => ?_) path.toList
        · exact hne (String.toList_inj.mp (List.append_eq_nil_iff.mp hnil).2)
        · rcases List.mem_append.mp hc with hc | hc
          · exact isBlank_of_mem_scheme hscheme c hc
          · exact hblank c hc
      have htake := takeWhile_append_path hslash (trimEnd_path hpath)
      have hbare : IsBare (host.toList ++ Text.trimEnd Text.isBlank path.toList) :=
        isBare_of_getLast? (by rwa [htake])
      rw [hostChars_eq, htrim]
      rcases hscheme with rfl | hscheme
      · show (withoutSchemes (host.toList ++ _)).takeWhile (· != '/') = host.toList
        rw [withoutSchemes_of_isBare hbare, htake]
      · rw [withoutSchemes_append hscheme hbare, htake]

/-! ## Registries -/

/-- The host is one of the default registry. -/
def IsDefault (host : String) : Prop :=
  Text.lowered host = ImageRef.defaultDomain ∨ Text.lowered host ∈ defaultHosts

instance (host : String) : Decidable (IsDefault host) :=
  inferInstanceAs (Decidable (_ ∨ _))

/-- The hosts are of one registry. -/
def IsSame (host host' : String) : Prop :=
  Text.lowered host = Text.lowered host' ∨ IsDefault host ∧ IsDefault host'

instance (host host' : String) : Decidable (IsSame host host') :=
  inferInstanceAs (Decidable (_ ∨ _))

theorem ofHost_lowered (host : String) :
    ofHost (Text.lowered host)
      = if IsDefault host then ImageRef.defaultDomain else Text.lowered host := by
  by_cases hlisted : Text.lowered host ∈ defaultHosts
  · rw [ofHost, if_pos (List.contains_iff_mem.mpr hlisted), if_pos (.inr hlisted)]
  · rw [ofHost, if_neg (mt List.contains_iff_mem.mp hlisted)]
    by_cases hdefault : Text.lowered host = ImageRef.defaultDomain
    · rw [if_pos (.inl hdefault), hdefault]
    · have hnot : ¬IsDefault host := not_or.mpr ⟨hdefault, hlisted⟩
      rw [if_neg hnot]

theorem ofSpelling_of_spells (hhost : IsHost host) (h : Spells host spelling) :
    ofSpelling spelling
      = if IsDefault host then ImageRef.defaultDomain else Text.lowered host := by
  rw [ofSpelling, hostChars_of_spells hhost h, String.ofList_toList, ofHost_lowered]

/-- **Hosts share a domain exactly if they are of one registry.** -/
theorem domain_eq_iff :
    ((if IsDefault host then ImageRef.defaultDomain else Text.lowered host)
        = if IsDefault host' then ImageRef.defaultDomain else Text.lowered host')
      ↔ IsSame host host' := by
  by_cases h : IsDefault host
  · by_cases h' : IsDefault host'
    · simp [IsSame, h, h']
    · have hne : ImageRef.defaultDomain ≠ Text.lowered host' := fun heq => h' (.inl heq.symm)
      have hne' : Text.lowered host ≠ Text.lowered host' := fun heq => h' (by
        unfold IsDefault at h ⊢
        rwa [← heq])
      simp [IsSame, h', hne, h, hne']
  · by_cases h' : IsDefault host'
    · have hne : Text.lowered host ≠ ImageRef.defaultDomain := fun heq => h (.inl heq)
      have hne' : Text.lowered host ≠ Text.lowered host' := fun heq => h (by
        unfold IsDefault at h' ⊢
        rwa [heq])
      simp [IsSame, h', hne, h, hne']
    · simp [IsSame, h, h']

/-- **Every spelling of a registry is a key for what is stored under another.** A spelling of a host
stands for the host in lower case, and for the default domain if this is a host of the default
registry. Two spellings stand for one domain exactly if their hosts are of one registry, and then a
credential that is put in under one of them is found under the other. -/
theorem spellings_share_domain (hhost : IsHost host) (h : Spells host spelling)
    (hhost' : IsHost host') (h' : Spells host' spelling') :
    (ofSpelling spelling = if IsDefault host then ImageRef.defaultDomain else Text.lowered host)
      ∧ (ofSpelling spelling = ofSpelling spelling' ↔ IsSame host host')
      ∧ ∀ (store : CredentialStore) (c : Credential),
        (store.insert spelling c).find? spelling'
          = if IsSame host host' then some c else store.find? spelling' := by
  have hdomain := ofSpelling_of_spells hhost h
  have hdomain' := ofSpelling_of_spells hhost' h'
  have hsame : ofSpelling spelling = ofSpelling spelling' ↔ IsSame host host' := by
    rw [hdomain, hdomain']
    exact domain_eq_iff
  refine ⟨hdomain, hsame, ?_⟩
  intro store c
  rw [CredentialStore.find?_insert]
  by_cases heq : ofSpelling spelling = ofSpelling spelling'
  · rw [if_pos heq.symm, if_pos (hsame.mp heq)]
  · rw [if_neg (Ne.symm heq), if_neg (mt hsame.mpr heq)]

theorem isHost_of_any (hne : host ≠ "")
    (hplain : (host.toList.any fun c => c == '/' || Text.isBlank c) = false)
    (hcolon : host.toList.getLast? ≠ some ':') : IsHost host := by
  have hnone (c : Char) (hc : c ∈ host.toList) : c ≠ '/' ∧ Text.isBlank c = false := by
    have hnot := List.any_eq_false.mp hplain c hc
    simpa using hnot
  exact ⟨hne, fun hslash => (hnone _ hslash).1 rfl, fun c hc => (hnone c hc).2, hcolon⟩

/-- Around the one host stand blanks and a path with a scheme in it; the other is another host of the
default registry. -/
theorem spellings_share_domain_default :
    let spelling := "\u00a0https://INDEX.docker.io/v1/ http://x/\n"
    IsHost "INDEX.docker.io" ∧ IsHost "Docker.IO" ∧ Spells "INDEX.docker.io" spelling
      ∧ Spells "Docker.IO" "http://Docker.IO" ∧ ofSpelling spelling = "docker.io"
      ∧ ofSpelling "http://Docker.IO" = ofSpelling spelling
      ∧ ∀ (store : CredentialStore) (c : Credential),
        (store.insert spelling c).find? "http://Docker.IO" = some c := by
  intro spelling
  have hhost : IsHost "INDEX.docker.io" := isHost_of_any (by decide) (by decide) (by decide)
  have hhost' : IsHost "Docker.IO" := isHost_of_any (by decide) (by decide) (by decide)
  have h : Spells "INDEX.docker.io" spelling := by
    have hbefore : ∀ c ∈ "\u00a0".toList, Text.isBlank c = true :=
      List.all_eq_true.mp (by decide)
    have hafter : ∀ c ∈ "\n".toList, Text.isBlank c = true := List.all_eq_true.mp (by decide)
    have hparts : spelling
        = "\u00a0" ++ ("https://" ++ ("INDEX.docker.io" ++ "/v1/ http://x/")) ++ "\n" := rfl
    rw [hparts]
    exact .parts hbefore (.inr (by decide)) (.inr rfl) hafter
  have h' : Spells "Docker.IO" "http://Docker.IO" := by
    have hnone : ∀ c ∈ "".toList, Text.isBlank c = true := List.all_eq_true.mp (by decide)
    have hparts : "http://Docker.IO" = "" ++ ("http://" ++ ("Docker.IO" ++ "")) ++ "" := rfl
    rw [hparts]
    exact .parts hnone (.inr (by decide)) (.inl rfl) hnone
  obtain ⟨hdomain, hsame, hfind⟩ := spellings_share_domain hhost h hhost' h'
  have hone : IsSame "INDEX.docker.io" "Docker.IO" := by decide +kernel
  have hdefault : IsDefault "INDEX.docker.io" := by decide +kernel
  refine ⟨hhost, hhost', h, h', hdomain.trans (if_pos hdefault), (hsame.mpr hone).symm, ?_⟩
  intro store c
  exact (hfind store c).trans (if_pos hone)

/-! ## Domains as spellings -/

theorem isBare_of_slash_notMem {cs : List Char} (h : '/' ∉ cs) : IsBare cs := by
  have hslash : ∀ scheme ∈ schemes, '/' ∈ scheme.toList := by decide
  intro scheme hscheme
  by_contra hstarts
  obtain ⟨rest, hrest⟩ := Option.ne_none_iff_exists'.mp hstarts
  apply h
  rw [Text.afterStart?_eq_some.mp hrest]
  exact List.mem_append_left rest (hslash scheme hscheme)

/-- Where there is neither a scheme nor a path, only blanks come off. -/
theorem hostChars_of_slash_notMem {cs : List Char} (h : '/' ∉ cs) :
    hostChars cs = Text.trim Text.isBlank cs := by
  have hnone : '/' ∉ Text.trim Text.isBlank cs := by
    intro hmem
    obtain ⟨before, after, hcs, -, -⟩ := Text.exists_trim Text.isBlank cs
    apply h
    rw [hcs]
    exact List.mem_append_left _ (List.mem_append_right _ hmem)
  have hall : ∀ c ∈ Text.trim Text.isBlank cs, (c != '/') = true := by
    intro c hc
    exact bne_iff_ne.mpr fun heq => hnone (heq ▸ hc)
  rw [hostChars_eq, withoutSchemes_of_isBare (isBare_of_slash_notMem hnone),
    List.takeWhile_eq_self_iff.mpr hall]

/-- The host of a spelling, in lower case. -/
def hostOf (spelling : String) : String :=
  Text.lowered (String.ofList (hostChars spelling.toList))

theorem ofHost_eq (host : String) :
    host ∈ defaultHosts ∧ ofHost host = ImageRef.defaultDomain ∨ ofHost host = host := by
  by_cases h : host ∈ defaultHosts
  · exact .inl ⟨h, if_pos (List.contains_iff_mem.mpr h)⟩
  · exact .inr (if_neg (mt List.contains_iff_mem.mp h))

theorem ofHost_ofHost (host : String) : ofHost (ofHost host) = ofHost host := by
  rcases ofHost_eq host with ⟨-, h⟩ | h
  · rw [h]
    decide
  · rw [h, h]

theorem slash_notMem_hostOf (spelling : String) : '/' ∉ (hostOf spelling).toList := by
  intro hmem
  rw [hostOf, Text.toList_lowered, String.toList_ofList] at hmem
  obtain ⟨c, hc, hslash⟩ := List.mem_map.mp hmem
  have hne := List.mem_takeWhile_imp hc
  rw [Text.toLower_eq_slash.mp hslash] at hne
  exact absurd hne (by decide)

theorem slash_notMem_ofSpelling (spelling : String) : '/' ∉ (ofSpelling spelling).toList := by
  rcases ofHost_eq (hostOf spelling) with ⟨-, h⟩ | h
  · show '/' ∉ (ofHost (hostOf spelling)).toList
    rw [h]
    decide
  · show '/' ∉ (ofHost (hostOf spelling)).toList
    rw [h]
    exact slash_notMem_hostOf spelling

theorem lowered_ofSpelling (spelling : String) :
    Text.lowered (ofSpelling spelling) = ofSpelling spelling := by
  show Text.lowered (ofHost (hostOf spelling)) = ofHost (hostOf spelling)
  rcases ofHost_eq (hostOf spelling) with ⟨-, h⟩ | h
  · rw [h]
    decide
  · rw [h]
    exact Text.lowered_lowered _

/-- The spelling leaves a host without blanks at its ends. -/
def LeavesTrimmed (spelling : String) : Prop :=
  (∀ c ∈ (hostChars spelling.toList).head?, Text.isBlank c = false)
    ∧ ∀ c ∈ (hostChars spelling.toList).getLast?, Text.isBlank c = false

/-- Of a domain only blanks come off. -/
theorem ofSpelling_ofSpelling (spelling : String) :
    ofSpelling (ofSpelling spelling) = ofHost (Text.trimmed (ofSpelling spelling)) := by
  rw [ofSpelling, hostChars_of_slash_notMem (slash_notMem_ofSpelling spelling)]
  show ofHost (Text.lowered (Text.trimmed (ofSpelling spelling))) = _
  rw [← Text.trimmed_lowered, lowered_ofSpelling]

theorem trimmed_ofSpelling_iff {spelling : String} :
    Text.trimmed (ofSpelling spelling) = ofSpelling spelling ↔ LeavesTrimmed spelling := by
  have hhost : Text.trimmed (hostOf spelling) = hostOf spelling ↔ LeavesTrimmed spelling := by
    rw [hostOf, Text.trimmed_lowered_eq_self_iff, Text.trimmed_eq_self_iff, String.toList_ofList,
      LeavesTrimmed]
  show Text.trimmed (ofHost (hostOf spelling)) = ofHost (hostOf spelling) ↔ _
  rcases ofHost_eq (hostOf spelling) with ⟨hmem, h⟩ | h
  · -- neither the default domain nor any of its hosts has a blank at an end
    have hall : ∀ host ∈ defaultHosts, Text.trimmed host = host := by decide +kernel
    rw [h]
    exact iff_of_true (by decide +kernel) (hhost.mp (hall _ hmem))
  · rw [h]
    exact hhost

theorem ofSpelling_ofSpelling_eq_iff {spelling : String} :
    ofSpelling (ofSpelling spelling) = ofSpelling spelling ↔ LeavesTrimmed spelling := by
  rw [← trimmed_ofSpelling_iff, ofSpelling_ofSpelling]
  constructor
  · intro h
    rcases ofHost_eq (Text.trimmed (ofSpelling spelling)) with ⟨-, hdefault⟩ | hsame
    · rw [← h, hdefault]
      decide +kernel
    · exact hsame.symm.trans h
  · intro h
    rw [h]
    exact ofHost_ofHost (hostOf spelling)

/-- A domain has been trimmed once it has been taken for a spelling. -/
theorem leavesTrimmed_ofSpelling (spelling : String) : LeavesTrimmed (ofSpelling spelling) := by
  rw [LeavesTrimmed, hostChars_of_slash_notMem (slash_notMem_ofSpelling spelling)]
  exact ⟨Text.head?_trim _ _, Text.getLast?_trim _ _⟩

/-- **A domain stands for itself exactly if its spelling left no blank at an end of the host**, and
then a credential put in under the spelling is found under the domain. Taking it for a spelling once
more always takes such blanks off. -/
theorem domain_of_domain_iff (spelling : String) :
    (ofSpelling (ofSpelling spelling) = ofSpelling spelling ↔ LeavesTrimmed spelling)
      ∧ ((∀ (store : CredentialStore) (c : Credential),
          (store.insert spelling c).find? (ofSpelling spelling) = some c) ↔ LeavesTrimmed spelling)
      ∧ ofSpelling (ofSpelling (ofSpelling spelling)) = ofSpelling (ofSpelling spelling) := by
  refine ⟨ofSpelling_ofSpelling_eq_iff, ?_,
    ofSpelling_ofSpelling_eq_iff.mpr (leavesTrimmed_ofSpelling spelling)⟩
  rw [← ofSpelling_ofSpelling_eq_iff]
  constructor
  · intro hfound
    by_contra hne
    have hnothing := hfound {} {}
    rw [CredentialStore.find?_insert, if_neg hne] at hnothing
    cases hnothing
  · intro hsame store c
    rw [CredentialStore.find?_insert, if_pos hsame]

/-- **Blanks in front of the path are left over.** What is stored for this spelling is kept under a
domain for which nobody is given it. -/
theorem domain_of_domain_blankBeforePath :
    ofSpelling "ghcr.io /v2" = "ghcr.io " ∧ ofSpelling "ghcr.io " = "ghcr.io"
      ∧ ∀ c : Credential,
        (({} : CredentialStore).insert "ghcr.io /v2" c).find? "ghcr.io " = none := by
  have hkept : ofSpelling "ghcr.io /v2" = "ghcr.io " := by decide +kernel
  have htrimmed : ofSpelling "ghcr.io " = "ghcr.io" := by decide +kernel
  refine ⟨hkept, htrimmed, ?_⟩
  intro c
  have hne : ofSpelling "ghcr.io " ≠ ofSpelling "ghcr.io /v2" := by
    rw [hkept, htrimmed]
    decide
  rw [CredentialStore.find?_insert, if_neg hne]
  rfl

end ImagePull.RegistryDomain
