import ImagePull.Config.Basic
import ImagePull.Proofs.Outcome

/-!
# The settings of a registry

A registry is refused if it has no secret or if one of its fields is a variable that is missing
(`RegistrySettings.Fails`); else it is granted what its fields give (`RegistrySettings.Grants`).
Both are exact (`credential_eq_error`, `credential_eq_ok`).
-/

namespace ImagePull

variable {valueOf? : String → Option String} {registry : String}

/-! ## Settings -/

namespace Setting

/-- The value that a setting gives: what is written down, or the value of its variable, which may
be empty, or what it has for a variable that is not set. -/
inductive Gives (valueOf? : String → Option String) : Setting → String → Prop
  | literal {value : String} : Gives valueOf? (.literal value) value
  | variable {name value : String} {missing : Option String} (hset : valueOf? name = some value) :
    Gives valueOf? (.variable name missing) value
  | missing {name value : String} (hunset : valueOf? name = none) :
    Gives valueOf? (.variable name (some value)) value

/-- The setting is a variable that is not set, without a value to take for it. -/
inductive Misses (valueOf? : String → Option String) : Setting → String → Prop
  | variable {name : String} (hunset : valueOf? name = none) :
    Misses valueOf? (.variable name none) name

variable {setting : Setting} {name value : String}

theorem Gives.resolve_eq (h : setting.Gives valueOf? value) :
    setting.resolve valueOf? = .ok value := by
  cases h with
  | literal => rfl
  | «variable» hset => simp [resolve, hset]
  | missing hunset => simp [resolve, hunset]

theorem Misses.resolve_eq (h : setting.Misses valueOf? name) :
    setting.resolve valueOf? = .error (.missingVariable name) := by
  obtain ⟨hunset⟩ := h
  simp [resolve, hunset]

theorem gives_or_misses (valueOf? : String → Option String) (setting : Setting) :
    (∃ value, setting.Gives valueOf? value) ∨ ∃ name, setting.Misses valueOf? name := by
  cases setting with
  | literal value => exact .inl ⟨value, .literal⟩
  | «variable» name missing =>
      cases hset : valueOf? name with
      | some value => exact .inl ⟨value, .variable hset⟩
      | none =>
          cases missing with
          | some value => exact .inl ⟨value, .missing hset⟩
          | none => exact .inr ⟨name, .variable hset⟩

theorem resolve_eq_ok : setting.resolve valueOf? = .ok value ↔ setting.Gives valueOf? value := by
  constructor
  · intro h
    rcases gives_or_misses valueOf? setting with ⟨found, hgives⟩ | ⟨name, hmisses⟩
    · rw [hgives.resolve_eq] at h
      cases h
      exact hgives
    · rw [hmisses.resolve_eq] at h
      cases h
  · intro h
    exact h.resolve_eq

theorem resolve_eq_error {e : ConfigError} : setting.resolve valueOf? = .error e
    ↔ ∃ name, setting.Misses valueOf? name ∧ e = .missingVariable name := by
  constructor
  · intro h
    rcases gives_or_misses valueOf? setting with ⟨found, hgives⟩ | ⟨name, hmisses⟩
    · rw [hgives.resolve_eq] at h
      cases h
    · rw [hmisses.resolve_eq] at h
      cases h
      exact ⟨name, hmisses, rfl⟩
  · rintro ⟨name, hmisses, rfl⟩
    exact hmisses.resolve_eq

end Setting

/-! ## Registries -/

namespace RegistrySettings

variable {s : RegistrySettings} {c : Credential} {e : ConfigError}

/-- The fields, in the order in which they are read. -/
def fields (s : RegistrySettings) : List (Option Setting) :=
  [s.username, s.password, s.identityToken]

/-- There is neither a password nor an identity token. -/
def LacksSecret (s : RegistrySettings) : Prop :=
  s.password = none ∧ s.identityToken = none

/-- A field is a variable that is missing. -/
def LacksVariable (valueOf? : String → Option String) (s : RegistrySettings) : Prop :=
  ∃ setting name, some setting ∈ s.fields ∧ setting.Misses valueOf? name

/-- There is a reason to refuse a registry. -/
def IsRefused (valueOf? : String → Option String) (s : RegistrySettings) : Prop :=
  s.LacksSecret ∨ s.LacksVariable valueOf?

/-- What a registry is refused for: that it has no secret, or else the first of its fields that is a
variable that is missing. -/
inductive Fails (valueOf? : String → Option String) (registry : String) (s : RegistrySettings) :
    ConfigError → Prop
  | noSecret (hnone : s.LacksSecret) : Fails valueOf? registry s (.noSecret registry)
  | missingVariable {before after : List (Option Setting)} {setting : Setting} {name : String}
    (hsecret : ¬s.LacksSecret) (hfields : s.fields = before ++ some setting :: after)
    (hmisses : setting.Misses valueOf? name)
    (hfirst : ∀ earlier name, some earlier ∈ before → ¬earlier.Misses valueOf? name) :
    Fails valueOf? registry s (.missingVariable name)

/-- What a registry is granted: under its name, what its fields give. A user name or a password that
is not configured is empty, and an identity token that is not configured is absent. -/
structure Grants (valueOf? : String → Option String) (registry : String) (s : RegistrySettings)
    (c : Credential) : Prop where
  username : s.username.elim (c.username = "") (Setting.Gives valueOf? · c.username)
  password : s.password.elim (c.password = "") (Setting.Gives valueOf? · c.password)
  server : c.server = some registry
  identityToken : Option.Rel (Setting.Gives valueOf?) s.identityToken c.identityToken

/-- The value of a field that may be left out. -/
def value? (valueOf? : String → Option String) (field : Option Setting) :
    Except ConfigError (Option String) :=
  field.mapM (Setting.resolve valueOf?)

theorem value?_some (setting : Setting) :
    value? valueOf? (some setting) = (setting.resolve valueOf?).map some := by
  rw [value?, Option.mapM_some]
  rfl

theorem value?_eq_ok {field : Option Setting} {value : Option String} :
    value? valueOf? field = .ok value ↔ Option.Rel (Setting.Gives valueOf?) field value := by
  cases field with
  | none =>
      constructor
      · intro h
        cases h
        exact .none
      · intro h
        cases h
        rfl
  | some setting =>
      rw [value?_some, map_eq_ok]
      constructor
      · rintro ⟨text, htext, rfl⟩
        exact .some (Setting.resolve_eq_ok.mp htext)
      · intro h
        cases h with
        | some hgives => exact ⟨_, Setting.resolve_eq_ok.mpr hgives, rfl⟩

theorem value?_eq_error {field : Option Setting} :
    value? valueOf? field = .error e
      ↔ ∃ setting name, field = some setting ∧ setting.Misses valueOf? name
        ∧ e = .missingVariable name := by
  cases field with
  | none => simp [value?, pure, Except.pure]
  | some setting =>
      rw [value?_some, map_eq_error, Setting.resolve_eq_error]
      constructor
      · rintro ⟨name, hmisses, he⟩
        exact ⟨setting, name, rfl, hmisses, he⟩
      · rintro ⟨_, name, hfield, hmisses, he⟩
        cases hfield
        exact ⟨name, hmisses, he⟩

theorem credential_of_lacksSecret (h : s.LacksSecret) :
    s.credential valueOf? registry = .error (.noSecret registry) := by
  simp [credential, h.1, h.2]

theorem credential_of_secret (h : ¬s.LacksSecret) :
    s.credential valueOf? registry = (do
      let username ← value? valueOf? s.username
      let password ← value? valueOf? s.password
      let identityToken ← value? valueOf? s.identityToken
      .ok
        { username := username.getD "", password := password.getD ""
          server := some registry, identityToken := identityToken }) := by
  have hsecret : ¬(s.password.isNone = true ∧ s.identityToken.isNone = true) := by
    simpa [LacksSecret] using h
  have ok_bind (text : String) (f : String → Except ConfigError Credential) :
    (Except.ok text >>= f) = f text := rfl
  simp only [credential, if_neg hsecret, value?]
  cases s.username <;> cases s.password <;> simp [ok_bind]

theorem elim_gives_iff {field : Option Setting} {text : String} :
    field.elim (text = "") (Setting.Gives valueOf? · text)
      ↔ ∃ value, Option.Rel (Setting.Gives valueOf?) field value ∧ value.getD "" = text := by
  constructor
  · intro h
    cases field with
    | none => exact ⟨none, .none, Eq.symm h⟩
    | some setting => exact ⟨some text, .some h, rfl⟩
  · rintro ⟨value, hrel, rfl⟩
    cases hrel with
    | none => rfl
    | some hgives => exact hgives

/-- **A registry is granted what its fields give.** -/
theorem credential_eq_ok :
    s.credential valueOf? registry = .ok c ↔ ¬s.LacksSecret ∧ s.Grants valueOf? registry c := by
  by_cases h : s.LacksSecret
  · simp [credential_of_lacksSecret h, h]
  · rw [credential_of_secret h, bind_eq_ok]
    constructor
    · rintro ⟨username, husername, hmore⟩
      obtain ⟨password, hpassword, hmore⟩ := bind_eq_ok.mp hmore
      obtain ⟨identityToken, htoken, hc⟩ := bind_eq_ok.mp hmore
      cases hc
      exact ⟨h, elim_gives_iff.mpr ⟨username, value?_eq_ok.mp husername, rfl⟩,
        elim_gives_iff.mpr ⟨password, value?_eq_ok.mp hpassword, rfl⟩, rfl,
        value?_eq_ok.mp htoken⟩
    · rintro ⟨-, hgrants⟩
      obtain ⟨username, husername, hu⟩ := elim_gives_iff.mp hgrants.username
      obtain ⟨password, hpassword, hp⟩ := elim_gives_iff.mp hgrants.password
      refine ⟨username, value?_eq_ok.mpr husername, bind_eq_ok.mpr ⟨password,
        value?_eq_ok.mpr hpassword, bind_eq_ok.mpr ⟨c.identityToken,
          value?_eq_ok.mpr hgrants.identityToken, ?_⟩⟩⟩
      rw [hu, hp, ← hgrants.server]

theorem credential_eq_error_of_secret (h : ¬s.LacksSecret) :
    s.credential valueOf? registry = .error e ↔ s.fields.mapM (value? valueOf?) = .error e := by
  rw [credential_of_secret h]
  simp only [fields, List.mapM_cons, List.mapM_nil, bind_eq_error, pure, Except.pure, reduceCtorEq,
    and_false, exists_false, or_false]

/-- **A registry is refused** for its missing secret, or else for the first of its fields that is a
variable that is missing. -/
theorem credential_eq_error :
    s.credential valueOf? registry = .error e ↔ s.Fails valueOf? registry e := by
  by_cases h : s.LacksSecret
  · rw [credential_of_lacksSecret h]
    constructor
    · intro he
      cases he
      exact .noSecret h
    · intro hfails
      cases hfails with
      | noSecret => rfl
      | missingVariable hsecret => exact absurd h hsecret
  · rw [credential_eq_error_of_secret h, mapM_eq_error]
    constructor
    · rintro ⟨before, field, after, hfields, hfield, hbefore⟩
      obtain ⟨setting, name, rfl, hmisses, rfl⟩ := value?_eq_error.mp hfield
      refine .missingVariable h hfields hmisses fun earlier other hmem hother => ?_
      obtain ⟨value, hvalue⟩ := hbefore _ hmem
      rw [value?_eq_error.mpr ⟨earlier, other, rfl, hother, rfl⟩] at hvalue
      cases hvalue
    · intro hfails
      cases hfails with
      | noSecret hnone => exact absurd hnone h
      | @missingVariable before after setting name _ hfields hmisses hfirst =>
          refine ⟨before, _, after, hfields,
            value?_eq_error.mpr ⟨setting, name, rfl, hmisses, rfl⟩, fun field hmem => ?_⟩
          cases hvalue : value? valueOf? field with
          | ok value => exact ⟨value, rfl⟩
          | error e =>
              obtain ⟨earlier, other, rfl, hother, -⟩ := value?_eq_error.mp hvalue
              exact absurd hother (hfirst earlier other hmem)

theorem exists_fails_iff (registry : String) :
    (∃ e, s.Fails valueOf? registry e) ↔ s.IsRefused valueOf? := by
  simp only [← credential_eq_error]
  by_cases h : s.LacksSecret
  · simp [credential_of_lacksSecret h, IsRefused, h]
  · simp only [credential_eq_error_of_secret h, IsRefused, h, false_or]
    constructor
    · rintro ⟨e, he⟩
      obtain ⟨before, field, after, hfields, hfield, -⟩ := mapM_eq_error.mp he
      obtain ⟨setting, name, rfl, hmisses, -⟩ := value?_eq_error.mp hfield
      exact ⟨setting, name, by simp [hfields], hmisses⟩
    · rintro ⟨setting, name, hmem, hmisses⟩
      cases hvalues : s.fields.mapM (value? valueOf?) with
      | error e => exact ⟨e, rfl⟩
      | ok values =>
          obtain ⟨value, hvalue⟩ := (mapM_eq_ok.mp hvalues).1 _ hmem
          rw [value?_eq_error.mpr ⟨setting, name, rfl, hmisses, rfl⟩] at hvalue
          cases hvalue

theorem exists_credential_iff (registry : String) :
    (∃ c, s.credential valueOf? registry = .ok c) ↔ ¬s.IsRefused valueOf? := by
  rw [← exists_fails_iff registry]
  simp only [← credential_eq_error]
  cases s.credential valueOf? registry <;> simp

end RegistrySettings

end ImagePull
