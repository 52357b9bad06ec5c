import ImagePull.Config.Decode
import ImagePull.Proofs.Config.Registries
import ImagePull.Proofs.Credentials.Resolution

/-!
# Configured registries

The credentials configured for registries are taken all together or not at all. The first registry
that is refused, in the order of the names, is what everything fails with. If none is, each domain
is given what the last of its names is granted. The registries that are read from a file are in the
order of their names (`ofYaml_increasing`).
-/

namespace ImagePull

open RegistryDomain (ofSpelling isFor)

variable {valueOf? : String → Option String} {registry : String}

/-! ## Names in order -/

namespace Config

variable {α : Type} {registries : List (String × RegistrySettings)}

/-- In the order of the names the last entry has the greatest name. -/
theorem getLast?_eq_some_of_increasing {entries : List (String × α)} {last : String × α}
    (h : entries.Pairwise fun a b => a.1 < b.1) :
    entries.getLast? = some last ↔ last ∈ entries ∧ ∀ other ∈ entries, other.1 ≤ last.1 := by
  rcases List.eq_nil_or_concat' entries with rfl | ⟨before, final, rfl⟩
  · simp
  · obtain ⟨-, -, hbefore⟩ := List.pairwise_append.mp h
    have hlt : ∀ other ∈ before, other.1 < final.1 :=
      fun other hmem => hbefore other hmem final List.mem_cons_self
    rw [List.getLast?_concat]
    constructor
    · intro hlast
      obtain rfl := Option.some.inj hlast
      refine ⟨by simp, fun other hmem => ?_⟩
      rcases List.mem_append.mp hmem with hmem | hmem
      · exact Std.le_of_lt (hlt other hmem)
      · obtain rfl := List.mem_singleton.mp hmem
        exact String.le_refl _
    · rintro ⟨hmem, hgreatest⟩
      rcases List.mem_append.mp hmem with hmem | hmem
      · exact absurd (hlt last hmem) (String.not_lt.mpr (hgreatest final (by simp)))
      · rw [List.mem_singleton.mp hmem]

/-- What is before an entry, in the order of the names, has a smaller name. -/
theorem mem_before_iff {before after : List (String × α)} {entry other : String × α}
    (h : (before ++ entry :: after).Pairwise fun a b => a.1 < b.1)
    (hmem : other ∈ before ++ entry :: after) : other ∈ before ↔ other.1 < entry.1 := by
  obtain ⟨-, hafter, hbefore⟩ := List.pairwise_append.mp h
  constructor
  · intro hother
    exact hbefore other hother entry List.mem_cons_self
  · intro hlt
    rcases List.mem_append.mp hmem with hother | hother
    · exact hother
    · rcases List.mem_cons.mp hother with rfl | hother
      · exact absurd hlt (String.lt_irrefl _)
      · exact absurd ((List.pairwise_cons.mp hafter).1 other hother) (String.lt_asymm hlt)

/-! ### Reading -/

theorem mem_place {e other : String × RegistrySettings}
    (h : other ∈ registriesOf?.place e registries) : other = e ∨ other ∈ registries := by
  induction registries with
  | nil => exact .inl (List.mem_singleton.mp h)
  | cons x rest ih =>
      rw [registriesOf?.place] at h
      split at h
      · exact List.mem_cons.mp h
      · split at h
        · exact (List.mem_cons.mp h).imp_right (List.mem_cons_of_mem x)
        · rcases List.mem_cons.mp h with rfl | hmem
          · exact .inr List.mem_cons_self
          · exact (ih hmem).imp_right (List.mem_cons_of_mem x)

theorem place_increasing (e : String × RegistrySettings)
    (h : registries.Pairwise fun a b => a.1 < b.1) :
    (registriesOf?.place e registries).Pairwise fun a b => a.1 < b.1 := by
  induction registries with
  | nil => exact List.pairwise_singleton _ _
  | cons x rest ih =>
      obtain ⟨hx, hrest⟩ := List.pairwise_cons.mp h
      rw [registriesOf?.place]
      split
      · next hlt =>
          refine List.pairwise_cons.mpr ⟨List.forall_mem_cons.mpr ⟨hlt, fun other hmem => ?_⟩, h⟩
          exact String.lt_trans hlt (hx other hmem)
      · next hnlt =>
          split
          · next heq =>
              exact List.pairwise_cons.mpr ⟨fun other hmem => heq ▸ hx other hmem, hrest⟩
          · next hne =>
              refine List.pairwise_cons.mpr ⟨fun other hmem => ?_, ih hrest⟩
              rcases mem_place hmem with rfl | hmem
              · exact Std.lt_of_le_of_ne (String.not_lt.mp hnlt) (Ne.symm hne)
              · exact hx other hmem

theorem registriesOf?_increasing {n : Yaml.Node} (h : registriesOf? n = some registries) :
    registries.Pairwise fun a b => a.1 < b.1 := by
  obtain ⟨pairs, -, hmore⟩ := Option.bind_eq_some_iff.mp h
  obtain ⟨entries, -, hplaced⟩ := Option.bind_eq_some_iff.mp hmore
  cases hplaced
  clear h hmore
  induction entries using List.reverseRecOn with
  | nil => exact .nil
  | append_singleton entries e ih =>
      rw [List.foldl_concat]
      exact place_increasing e ih

theorem ofNode?_increasing {n : Yaml.Node} {c : Config} (h : ofNode? n = some c) :
    c.registries.Pairwise fun a b => a.1 < b.1 := by
  simp only [ofNode?, Option.bind_eq_bind, Option.bind_eq_some_iff, Option.some.injEq] at h
  obtain ⟨fields, -, -, -, -, -, -, -, -, -, -, -, -, -, -, -, registries, hregistries, rfl⟩ := h
  rw [Yaml.Node.field?] at hregistries
  cases hlookup : fields.lookup "registries" with
  | none =>
      rw [hlookup] at hregistries
      cases hregistries
      exact .nil
  | some value =>
      rw [hlookup] at hregistries
      exact registriesOf?_increasing hregistries

/-- **The registries of a configuration that is read are in the order of their names.** -/
theorem ofYaml_increasing {text : String} {c : Config} (h : ofYaml text = .ok c) :
    c.registries.Pairwise fun a b => a.1 < b.1 := by
  rw [ofYaml] at h
  split at h
  · cases h
  · cases h
    exact .nil
  · split at h
    · next hread =>
        cases h
        exact ofNode?_increasing hread
    · cases h

/-! ## All registries -/

variable {e : ConfigError} {c : Credential}

/-- What a registry is granted, under its name. -/
def entry (valueOf? : String → Option String) (configured : String × RegistrySettings) :
    Except ConfigError (String × Credential) :=
  (configured.2.credential valueOf? configured.1).map (configured.1, ·)

theorem entry_eq_ok {configured : String × RegistrySettings} :
    entry valueOf? configured = .ok (registry, c)
      ↔ configured.1 = registry ∧ configured.2.credential valueOf? registry = .ok c := by
  rw [entry, map_eq_ok]
  constructor
  · rintro ⟨c', hcredential, hentry⟩
    cases hentry
    exact ⟨rfl, hcredential⟩
  · rintro ⟨rfl, hcredential⟩
    exact ⟨c, hcredential, rfl⟩

theorem entry_eq_error {settings : RegistrySettings} :
    entry valueOf? (registry, settings) = .error e ↔ settings.Fails valueOf? registry e := by
  rw [entry, map_eq_error, RegistrySettings.credential_eq_error]

theorem exists_entry_iff {configured : String × RegistrySettings} :
    (∃ granted, entry valueOf? configured = .ok granted) ↔ ¬configured.2.IsRefused valueOf? := by
  rw [← RegistrySettings.exists_credential_iff configured.1, entry]
  cases configured.2.credential valueOf? configured.1 <;> simp [Except.map]

theorem overrides_eq :
    overrides valueOf? registries
      = (registries.mapM (entry valueOf?)).map CredentialStore.ofList := by
  have hstep (store : CredentialStore) (configured : String × RegistrySettings) :
      (do return store.insert configured.1 (← configured.2.credential valueOf? configured.1))
        = (do
          let granted ← entry valueOf? configured
          return store.insert granted.1 granted.2) := by
    rw [entry]
    cases configured.2.credential valueOf? configured.1 <;> rfl
  rw [overrides]
  simp only [hstep]
  exact foldlM_eq_map_mapM _ _ _ _

/-- Everything fails with the first registry that is refused. -/
theorem overrides_eq_error :
    overrides valueOf? registries = .error e ↔ ∃ before registry settings after,
      registries = before ++ (registry, settings) :: after ∧ settings.Fails valueOf? registry e
        ∧ ∀ earlier ∈ before, ¬earlier.2.IsRefused valueOf? := by
  rw [overrides_eq, map_eq_error, mapM_eq_error]
  simp only [exists_entry_iff]
  constructor
  · rintro ⟨before, ⟨registry, settings⟩, after, hsplit, hrefused, hbefore⟩
    exact ⟨before, registry, settings, after, hsplit, entry_eq_error.mp hrefused, hbefore⟩
  · rintro ⟨before, registry, settings, after, hsplit, hfails, hbefore⟩
    exact ⟨before, (registry, settings), after, hsplit, entry_eq_error.mpr hfails, hbefore⟩

/-- What the registries are granted that are not refused. -/
def granted (valueOf? : String → Option String) (registries : List (String × RegistrySettings)) :
    List (String × Credential) :=
  registries.filterMap fun configured => (entry valueOf? configured).toOption

theorem mem_granted : (registry, c) ∈ granted valueOf? registries
    ↔ ∃ settings, (registry, settings) ∈ registries
      ∧ settings.credential valueOf? registry = .ok c := by
  simp only [granted, List.mem_filterMap, toOption_eq_some, entry_eq_ok]
  constructor
  · rintro ⟨⟨_, settings⟩, hmem, rfl, hcredential⟩
    exact ⟨settings, hmem, hcredential⟩
  · rintro ⟨settings, hmem, hcredential⟩
    exact ⟨_, hmem, rfl, hcredential⟩

theorem granted_increasing (h : registries.Pairwise fun a b => a.1 < b.1) :
    (granted valueOf? registries).Pairwise fun a b => a.1 < b.1 := by
  refine h.filterMap _ fun a b hab a' ha b' hb => ?_
  rw [toOption_eq_some] at ha hb
  rw [← (entry_eq_ok.mp ha).1, ← (entry_eq_ok.mp hb).1]
  exact hab

/-- If none is refused, the store is that of what each registry is granted. -/
theorem overrides_eq_ok {store : CredentialStore} :
    overrides valueOf? registries = .ok store
      ↔ (∀ configured ∈ registries, ¬configured.2.IsRefused valueOf?)
        ∧ store = .ofList (granted valueOf? registries) := by
  rw [overrides_eq, map_eq_ok]
  simp only [mapM_eq_ok, exists_entry_iff]
  constructor
  · rintro ⟨_, ⟨hall, rfl⟩, rfl⟩
    exact ⟨hall, rfl⟩
  · rintro ⟨hall, rfl⟩
    exact ⟨_, ⟨hall, rfl⟩, rfl⟩

/-! ### The last name of a domain -/

/-- The settings are those under the last name of a domain. -/
structure IsLast (registries : List (String × RegistrySettings)) (domain registry : String)
    (settings : RegistrySettings) : Prop where
  mem : (registry, settings) ∈ registries
  domain_eq : ofSpelling registry = domain
  last : ∀ other ∈ registries, ofSpelling other.1 = domain → other.1 ≤ registry

theorem isLast_iff_getLast? (h : registries.Pairwise fun a b => a.1 < b.1) {q : String}
    {settings : RegistrySettings} : IsLast registries (ofSpelling q) registry settings
      ↔ (registries.filter (isFor q)).getLast? = some (registry, settings) := by
  rw [getLast?_eq_some_of_increasing (h.filter _)]
  simp only [List.mem_filter, isFor, beq_iff_eq]
  constructor
  · rintro ⟨hmem, hdomain, hlast⟩
    exact ⟨⟨hmem, hdomain⟩, fun other hother => hlast other hother.1 hother.2⟩
  · rintro ⟨⟨hmem, hdomain⟩, hlast⟩
    exact ⟨hmem, hdomain, fun other hmem hfor => hlast other ⟨hmem, hfor⟩⟩

/-- **The store of the configured credentials** has for each registry what the last name of its
domain is granted. -/
theorem find?_overrides {store : CredentialStore}
    (hsorted : registries.Pairwise fun a b => a.1 < b.1)
    (hstore : overrides valueOf? registries = .ok store) {q : String} :
    store.find? q = some c ↔ ∃ registry settings,
      IsLast registries (ofSpelling q) registry settings
        ∧ settings.Grants valueOf? registry c := by
  obtain ⟨hall, rfl⟩ := overrides_eq_ok.mp hstore
  rw [CredentialStore.find?_ofList, Option.map_eq_some_iff]
  simp only [getLast?_eq_some_of_increasing ((granted_increasing hsorted).filter _),
    List.mem_filter, isFor, beq_iff_eq]
  constructor
  · rintro ⟨⟨registry, c⟩, ⟨⟨hgranted, hdomain⟩, hlast⟩, rfl⟩
    obtain ⟨settings, hmem, hcredential⟩ := mem_granted.mp hgranted
    refine ⟨registry, settings, ⟨hmem, hdomain, fun other hother hsame => ?_⟩,
      (RegistrySettings.credential_eq_ok.mp hcredential).2⟩
    obtain ⟨c', hc'⟩ := (RegistrySettings.exists_credential_iff other.1).mpr (hall other hother)
    exact hlast (other.1, c') ⟨mem_granted.mpr ⟨other.2, hother, hc'⟩, hsame⟩
  · rintro ⟨registry, settings, ⟨hmem, hdomain, hlast⟩, hgrants⟩
    have hsecret : ¬settings.LacksSecret := fun h => hall _ hmem (.inl h)
    have hcredential := RegistrySettings.credential_eq_ok.mpr ⟨hsecret, hgrants⟩
    refine ⟨(registry, c), ⟨⟨mem_granted.mpr ⟨settings, hmem, hcredential⟩, hdomain⟩,
      fun other hother => ?_⟩, rfl⟩
    obtain ⟨settings', hmem', -⟩ := mem_granted.mp hother.1
    exact hlast _ hmem' hother.2

theorem exists_isLast (h : registries.Pairwise fun a b => a.1 < b.1)
    {configured : String × RegistrySettings} (hmem : configured ∈ registries) :
    ∃ registry settings, IsLast registries (ofSpelling configured.1) registry settings := by
  have hfor : configured ∈ registries.filter (isFor configured.1) :=
    List.mem_filter.mpr ⟨hmem, beq_self_eq_true _⟩
  obtain ⟨⟨registry, settings⟩, hlast⟩ :=
    Option.ne_none_iff_exists'.mp (List.getLast?_eq_none_iff.not.mpr (List.ne_nil_of_mem hfor))
  exact ⟨registry, settings, (isLast_iff_getLast? h).mpr hlast⟩

theorem exists_overrides_eq_error_iff :
    (∃ e, overrides valueOf? registries = .error e)
      ↔ ∃ configured ∈ registries, configured.2.IsRefused valueOf? := by
  constructor
  · rintro ⟨e, he⟩
    obtain ⟨before, registry, settings, after, rfl, hfails, -⟩ := overrides_eq_error.mp he
    have hrefused := (RegistrySettings.exists_fails_iff registry).mp ⟨e, hfails⟩
    exact ⟨(registry, settings), by simp, hrefused⟩
  · rintro ⟨configured, hmem, hrefused⟩
    cases hresult : overrides valueOf? registries with
    | error e => exact ⟨e, rfl⟩
    | ok store => exact absurd hrefused ((overrides_eq_ok.mp hresult).1 configured hmem)

theorem overrides_eq_error_of_increasing (hsorted : registries.Pairwise fun a b => a.1 < b.1) :
    overrides valueOf? registries = .error e ↔ ∃ registry settings,
      (registry, settings) ∈ registries ∧ settings.Fails valueOf? registry e
        ∧ ∀ earlier ∈ registries, earlier.1 < registry → ¬earlier.2.IsRefused valueOf? := by
  rw [overrides_eq_error]
  constructor
  · rintro ⟨before, registry, settings, after, rfl, hfails, hbefore⟩
    refine ⟨registry, settings, by simp, hfails, fun earlier hmem hlt => ?_⟩
    exact hbefore earlier ((mem_before_iff hsorted hmem).mpr hlt)
  · rintro ⟨registry, settings, hmem, hfails, hearlier⟩
    obtain ⟨before, after, rfl⟩ := List.append_of_mem hmem
    refine ⟨before, registry, settings, after, rfl, hfails, fun earlier hbefore => ?_⟩
    have hthere := List.mem_append_left ((registry, settings) :: after) hbefore
    exact hearlier earlier hthere ((mem_before_iff hsorted hthere).mp hbefore)

/-- **Configured registries are taken all together or not at all.** They are refused exactly if one
of them has no secret or has a field that is a variable that is missing, and then for what the first
such registry in the order of the names fails with. Else every spelling of a configured registry is
given what the last name of its domain is granted, and no other registry is given anything. -/
theorem overrides_all_or_none (hsorted : registries.Pairwise fun a b => a.1 < b.1) :
    ((∃ e, overrides valueOf? registries = .error e) ↔ ∃ configured ∈ registries,
        configured.2.LacksSecret ∨ configured.2.LacksVariable valueOf?)
      ∧ (∀ e, overrides valueOf? registries = .error e ↔ ∃ registry settings,
          (registry, settings) ∈ registries ∧ settings.Fails valueOf? registry e
            ∧ ∀ earlier ∈ registries, earlier.1 < registry →
              ¬(earlier.2.LacksSecret ∨ earlier.2.LacksVariable valueOf?))
      ∧ ∀ store, overrides valueOf? registries = .ok store →
          (∀ configured ∈ registries, ∃ registry settings c,
            IsLast registries (ofSpelling configured.1) registry settings
              ∧ settings.Grants valueOf? registry c
              ∧ ∀ q, ofSpelling q = ofSpelling configured.1 → store.find? q = some c)
          ∧ ∀ q, (∀ configured ∈ registries, ofSpelling configured.1 ≠ ofSpelling q) →
            store.find? q = none := by
  refine ⟨exists_overrides_eq_error_iff, fun e => overrides_eq_error_of_increasing hsorted,
    fun store hstore => ⟨fun configured hmem => ?_, fun q hnone => ?_⟩⟩
  · obtain ⟨registry, settings, hlast⟩ := exists_isLast hsorted hmem
    have hkept := (overrides_eq_ok.mp hstore).1 (registry, settings) hlast.mem
    obtain ⟨c, hc⟩ := (RegistrySettings.exists_credential_iff registry).mpr hkept
    have hgrants := (RegistrySettings.credential_eq_ok.mp hc).2
    refine ⟨registry, settings, c, hlast, hgrants, fun q hq => ?_⟩
    rw [find?_overrides hsorted hstore, hq]
    exact ⟨registry, settings, hlast, hgrants⟩
  · refine Option.eq_none_iff_forall_ne_some.mpr fun c hc => ?_
    obtain ⟨registry, settings, hlast, -⟩ := (find?_overrides hsorted hstore).mp hc
    exact hnone _ hlast.mem hlast.domain_eq

/-- Two names of one domain, of which the last has a variable that is set to nothing. -/
def twoNames : List (String × RegistrySettings) :=
  [("ghcr.io", { username := some (.literal "bot"), password := some (.literal "secret") }),
    ("https://GHCR.io/v2/",
      { password := some (.variable "EMPTY" (some "default"))
        identityToken := some (.variable "UNSET" (some "token")) })]

/-- Three registries, of which the last two are refused, the first of them for two variables. -/
def refusedTwice : List (String × RegistrySettings) :=
  [("ghcr.io", { password := some (.literal "secret") }),
    ("quay.io",
      { username := some (.variable "UNSET" none), password := some (.variable "OTHER" none) }),
    ("registry.example", { username := some (.literal "bot") })]

/-- An environment with one variable, which has no text. -/
def onlyEmpty (name : String) : Option String :=
  if name = "EMPTY" then some "" else none

theorem overrides_all_or_none_twoNames :
    overrides onlyEmpty refusedTwice = .error (.missingVariable "UNSET")
      ∧ ∃ store, overrides onlyEmpty twoNames = .ok store ∧ store.find? "GHCR.IO" = some
        { server := some "https://GHCR.io/v2/", identityToken := some "token" } := by
  constructor
  · obtain ⟨-, hfirst, -⟩ :=
      @overrides_all_or_none onlyEmpty refusedTwice (by decide +kernel)
    have hfails : RegistrySettings.Fails onlyEmpty "quay.io"
        { username := some (.variable "UNSET" none), password := some (.variable "OTHER" none) }
        (.missingVariable "UNSET") :=
      .missingVariable (by simp [RegistrySettings.LacksSecret]) (List.nil_append _).symm
        (.variable rfl) (by simp)
    refine (hfirst _).mpr ⟨_, _, by simp [refusedTwice], hfails, fun earlier hmem hlt => ?_⟩
    simp only [refusedTwice, List.mem_cons, List.not_mem_nil, or_false] at hmem
    rcases hmem with rfl | rfl | rfl
    · exact (RegistrySettings.exists_credential_iff "ghcr.io").mp ⟨_, rfl⟩
    · exact absurd hlt (by decide +kernel)
    · exact absurd hlt (by decide +kernel)
  · obtain ⟨store, hstore⟩ : ∃ store, overrides onlyEmpty twoNames = .ok store := ⟨_, rfl⟩
    obtain ⟨-, -, hgranted⟩ :=
      @overrides_all_or_none onlyEmpty twoNames (by decide +kernel)
    obtain ⟨registry, settings, c, hlast, hgrants, hfind⟩ :=
      (hgranted store hstore).1 _ List.mem_cons_self
    have hmem := hlast.mem
    simp only [twoNames, List.mem_cons, List.not_mem_nil, or_false] at hmem
    rcases hmem with hfirst | hsecond
    · cases hfirst
      have hle := hlast.last ("https://GHCR.io/v2/", _)
        (List.mem_cons_of_mem _ List.mem_cons_self) (by decide +kernel)
      exact absurd hle (by decide +kernel)
    · cases hsecond
      have hcredential := RegistrySettings.credential_eq_ok.mpr
        ⟨by simp [RegistrySettings.LacksSecret], hgrants⟩
      obtain rfl := Except.ok.inj (hcredential.symm.trans rfl)
      exact ⟨store, hstore, hfind _ (by decide +kernel)⟩

end Config

end ImagePull
