/-!
# Steps that can fail

What it takes for a composed step to succeed or to fail, said of its parts. Proofs on the model
take composed steps apart with these laws instead of opening the monad.
-/

namespace ImagePull

variable {ε δ α β : Type}

theorem bind_eq_ok {x : Except ε α} {f : α → Except ε β} {b : β} :
    (x >>= f) = .ok b ↔ ∃ a, x = .ok a ∧ f a = .ok b := by
  cases x with
  | error e => exact ⟨nofun, nofun⟩
  | ok a => exact ⟨fun h => ⟨a, rfl, h⟩, fun ⟨_, h, h'⟩ => Except.ok.inj h ▸ h'⟩

theorem bind_eq_error {x : Except ε α} {f : α → Except ε β} {e : ε} :
    (x >>= f) = .error e ↔ x = .error e ∨ ∃ a, x = .ok a ∧ f a = .error e := by
  cases x <;> simp [bind, Except.bind]

theorem map_eq_ok {x : Except ε α} {f : α → β} {b : β} :
    x.map f = .ok b ↔ ∃ a, x = .ok a ∧ f a = b := by
  cases x <;> simp [Except.map]

theorem map_eq_error {x : Except ε α} {f : α → β} {e : ε} :
    x.map f = .error e ↔ x = .error e := by
  cases x <;> simp [Except.map]

theorem map_inj {x y : Except ε α} {f : α → β} (h : ∀ a a', f a = f a' → a = a') :
    x.map f = y.map f ↔ x = y := by
  constructor
  · intro hmap
    cases x <;> cases y <;> simp_all [Except.map]
    exact h _ _ hmap
  · rintro rfl
    rfl

theorem mapError_eq_error {x : Except ε α} {g : ε → δ} {d : δ} :
    x.mapError g = .error d ↔ ∃ e, x = .error e ∧ g e = d := by
  cases x with
  | ok a => exact ⟨nofun, nofun⟩
  | error e =>
      constructor
      · intro h
        cases h
        exact ⟨e, rfl, rfl⟩
      · rintro ⟨e', h, rfl⟩
        cases h
        rfl

theorem mapError_map (x : Except ε α) (f : α → β) (g : ε → δ) :
    (x.map f).mapError g = (x.mapError g).map f := by
  cases x <;> rfl

theorem isOk_mapError (x : Except ε α) (g : ε → δ) : (x.mapError g).isOk = x.isOk := by
  cases x <;> rfl

theorem toOption_eq_some {x : Except ε α} {a : α} : x.toOption = some a ↔ x = .ok a := by
  cases x <;> simp [Except.toOption]

theorem foldlM_cons_eq_ok {f : β → α → Except ε β} {b b' : β} {a : α} {rest : List α} :
    (a :: rest).foldlM f b = .ok b' ↔ ∃ c, f b a = .ok c ∧ rest.foldlM f c = .ok b' := by
  rw [List.foldlM_cons, bind_eq_ok]

/-- All steps succeed together if each of them does. -/
theorem mapM_eq_ok {f : α → Except ε β} {xs : List α} {ys : List β} :
    xs.mapM f = .ok ys ↔ (∀ x ∈ xs, ∃ y, f x = .ok y)
      ∧ ys = xs.filterMap fun x => (f x).toOption := by
  induction xs generalizing ys with
  | nil => simp [pure, Except.pure, eq_comm]
  | cons x rest ih =>
      rw [List.mapM_cons, bind_eq_ok]
      constructor
      · rintro ⟨y, hx, hrest⟩
        obtain ⟨later, hlater, hys⟩ := bind_eq_ok.mp hrest
        cases hys
        obtain ⟨hall, rfl⟩ := ih.mp hlater
        refine ⟨List.forall_mem_cons.mpr ⟨⟨y, hx⟩, hall⟩, ?_⟩
        simp [hx, Except.toOption]
      · rintro ⟨hall, rfl⟩
        obtain ⟨⟨y, hx⟩, hall⟩ := List.forall_mem_cons.mp hall
        refine ⟨y, hx, bind_eq_ok.mpr ⟨_, ih.mpr ⟨hall, rfl⟩, ?_⟩⟩
        simp [hx, Except.toOption, pure, Except.pure]

/-- Steps fail together as the first of them that fails. -/
theorem mapM_eq_error {f : α → Except ε β} {xs : List α} {e : ε} :
    xs.mapM f = .error e ↔ ∃ before x after, xs = before ++ x :: after ∧ f x = .error e
      ∧ ∀ y ∈ before, ∃ b, f y = .ok b := by
  induction xs with
  | nil => simp [pure, Except.pure]
  | cons x rest ih =>
      rw [List.mapM_cons, bind_eq_error]
      constructor
      · rintro (hx | ⟨y, hx, hrest⟩)
        · exact ⟨[], x, rest, rfl, hx, nofun⟩
        · rcases bind_eq_error.mp hrest with hlater | ⟨_, -, hlast⟩
          · obtain ⟨before, z, after, rfl, hz, hbefore⟩ := ih.mp hlater
            exact ⟨x :: before, z, after, rfl, hz,
              List.forall_mem_cons.mpr ⟨⟨y, hx⟩, hbefore⟩⟩
          · cases hlast
      · rintro ⟨before, z, after, hsplit, hz, hbefore⟩
        rcases List.cons_eq_append_iff.mp hsplit with ⟨rfl, hfirst⟩ | ⟨later, rfl, hrest⟩
        · cases hfirst
          exact .inl hz
        · obtain ⟨⟨y, hx⟩, hlater⟩ := List.forall_mem_cons.mp hbefore
          have hfails := ih.mpr ⟨later, z, after, hrest, hz, hlater⟩
          exact .inr ⟨y, hx, bind_eq_error.mpr (.inl hfails)⟩

/-- A fold over steps that do not depend on what is folded is a fold over their outcomes. -/
theorem foldlM_eq_map_mapM {γ : Type} (f : α → Except ε β) (g : γ → β → γ) (xs : List α)
    (start : γ) : xs.foldlM (fun c x => do return g c (← f x)) start
      = (xs.mapM f).map fun ys => ys.foldl g start := by
  induction xs generalizing start with
  | nil => rfl
  | cons x rest ih =>
      rw [List.foldlM_cons, List.mapM_cons]
      cases f x with
      | error e => rfl
      | ok y =>
          have hrest := ih (g start y)
          simp only [bind, Except.bind, pure, Except.pure] at hrest ⊢
          rw [hrest]
          cases List.mapM f rest <;> rfl

/-- All outcomes are taken together if none of them is an error. -/
theorem mapM_id_eq_ok {xs : List (Except ε α)} {as : List α} :
    xs.mapM id = .ok as ↔ xs = as.map .ok := by
  induction xs generalizing as with
  | nil => cases as <;> simp [pure, Except.pure]
  | cons x rest ih =>
      rw [List.mapM_cons, bind_eq_ok]
      constructor
      · rintro ⟨a, hx, hrest⟩
        obtain ⟨later, hlater, has⟩ := bind_eq_ok.mp hrest
        cases has
        rw [ih.mp hlater, List.map_cons, ← hx]
        rfl
      · intro h
        obtain ⟨a, later, rfl, hx, hrest⟩ := List.map_eq_cons_iff.mp h.symm
        exact ⟨a, hx.symm, bind_eq_ok.mpr ⟨later, ih.mpr hrest.symm, rfl⟩⟩

/-- What may be missing is there for all if it is there for each. -/
theorem mapM_eq_some {f : α → Option β} {xs : List α} {ys : List β} :
    xs.mapM f = some ys ↔ (∀ x ∈ xs, f x ≠ none) ∧ ys = xs.filterMap f := by
  induction xs generalizing ys with
  | nil => simp [eq_comm]
  | cons x rest ih =>
      rw [List.mapM_cons]
      cases hx : f x with
      | none => simp [hx]
      | some y =>
          cases hrest : rest.mapM f with
          | none =>
              have hnot : ¬∀ z ∈ rest, f z ≠ none := fun hall => by
                have := ih.mpr ⟨hall, rfl⟩
                rw [hrest] at this
                cases this
              simp [hx, hnot]
          | some found =>
              obtain ⟨hall, hfound⟩ := ih.mp hrest
              simp only [Option.bind_eq_bind, Option.bind_some, Option.pure_def,
                Option.some.injEq, List.filterMap_cons, hx, hfound, List.mem_cons]
              constructor
              · rintro rfl
                refine ⟨fun z hz => ?_, rfl⟩
                rcases hz with rfl | hz
                · simp [hx]
                · exact hall z hz
              · rintro ⟨-, rfl⟩
                rfl

end ImagePull
