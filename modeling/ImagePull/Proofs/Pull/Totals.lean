import ImagePull.Proofs.Pull.Bytes

/-!
# Progress within the manifest

The bytes of a pull are counted along its manifest, layer after layer (`Pull.counted`). If the
sizes of the manifest do not overflow, no sum on the way does, whatever counts a daemon reports,
since no layer accounts for more than its size. So the progress stays within the size of the
manifest, and reaches it exactly when every layer that has bytes counts in full
(`byteProgress_within`).
-/

namespace ImagePull

/-! ## Sums of words -/

section Sums

variable {α : Type} {f g : α → UInt64} {xs ys : List α}

theorem exactSum_append : exactSum f (xs ++ ys) = exactSum f xs + exactSum f ys := by
  induction xs with
  | nil => exact (Nat.zero_add _).symm
  | cons x rest ih =>
      show (f x).toNat + exactSum f (rest ++ ys) = (f x).toNat + exactSum f rest + exactSum f ys
      rw [ih, Nat.add_assoc]

/-- **Sums of parts that are in order** are equal only if all their parts are. -/
theorem exactSum_eq_iff (h : ∀ x ∈ xs, f x ≤ g x) :
    exactSum f xs = exactSum g xs ↔ ∀ x ∈ xs, f x = g x := by
  induction xs with
  | nil => simp [exactSum]
  | cons x rest ih =>
      obtain ⟨hx, hrest⟩ := List.forall_mem_cons.mp h
      have hfirst : (f x).toNat ≤ (g x).toNat := UInt64.le_iff_toNat_le.mp hx
      have hlater := exactSum_le hrest
      show (f x).toNat + exactSum f rest = (g x).toNat + exactSum g rest ↔ _
      rw [List.forall_mem_cons, ← ih hrest, ← UInt64.toNat_inj]
      omega

/-- The order in which words are summed up does not matter. -/
theorem foldl_add_eq_foldr (first : UInt64) :
    xs.foldl (fun total x => total + f x) first
      = first + xs.foldr (fun x total => f x + total) 0 := by
  induction xs generalizing first with
  | nil => exact (UInt64.add_zero first).symm
  | cons x rest ih => rw [List.foldl_cons, List.foldr_cons, ih, UInt64.add_assoc]

end Sums

namespace Pull

variable {p : Pull}

/-! ## Counting along the manifest -/

/-- Takes one more layer of the manifest into account. -/
def count (p : Pull) (sum : Progress) (d : Descriptor) : Progress :=
  { sum with current := sum.current + p.accountedFor d, total := sum.total + d.size }

/-- The progress over layers of the manifest that are counted one after the other. -/
def counted (p : Pull) (layers : List Descriptor) : Progress :=
  layers.foldl p.count .none

theorem foldl_count (p : Pull) (layers : List Descriptor) (sum : Progress) :
    layers.foldl p.count sum
      = { sum with
          current := layers.foldl (fun current d => current + p.accountedFor d) sum.current
          total := layers.foldl (fun total d => total + d.size) sum.total } := by
  induction layers generalizing sum with
  | nil => rfl
  | cons d rest ih =>
      rw [List.foldl_cons, ih]
      rfl

theorem counted_eq (p : Pull) (layers : List Descriptor) :
    p.counted layers
      = { current := layers.foldr (fun d current => p.accountedFor d + current) 0
          total := layers.foldr (fun d total => d.size + total) 0
          hide := false } := by
  rw [counted, foldl_count, foldl_add_eq_foldr, foldl_add_eq_foldr]
  simp [Progress.none]

theorem exactSum_accountedFor_le (p : Pull) (layers : List Descriptor) :
    exactSum p.accountedFor layers ≤ exactSum Descriptor.size layers :=
  exactSum_le fun d _ => p.accountedFor_le_size d

/-- **No sum on the way overflows.** -/
theorem counted_exact {layers part : List Descriptor}
    (hsize : exactSum Descriptor.size layers < UInt64.size) (hpart : part <+: layers) :
    (p.counted part).current.toNat = exactSum p.accountedFor part
      ∧ (p.counted part).total.toNat = exactSum Descriptor.size part := by
  obtain ⟨later, rfl⟩ := hpart
  rw [exactSum_append] at hsize
  -- the whole bounds the part, and its sizes what is accounted for
  have hle := p.exactSum_accountedFor_le part
  rw [counted_eq]
  exact ⟨toNat_foldr_add (by omega), toNat_foldr_add (by omega)⟩

/-! ## Layers that count in full -/

/-- A layer of this size counts in full in this state. -/
inductive CountsInFull (size : UInt64) : LayerState → Prop where
  | downloaded {progress : Progress} (h : size ≤ progress.current) :
    CountsInFull size (.downloading progress)
  | verifyingChecksum : CountsInFull size .verifyingChecksum
  | downloadComplete : CountsInFull size .downloadComplete
  | alreadyDownloaded : CountsInFull size .alreadyDownloaded
  | alreadyExists : CountsInFull size .alreadyExists
  | extracting (detail : Extraction) : CountsInFull size (.extracting detail)
  | pullComplete : CountsInFull size .pullComplete

theorem accounted_eq_size_iff {size : UInt64} (hsize : size ≠ 0) {state : LayerState} :
    accounted size state = size ↔ CountsInFull size state := by
  cases state with
  | pullingFsLayer | waiting | errored => exact iff_of_false (Ne.symm hsize) nofun
  | downloading progress =>
      rw [accounted]
      constructor
      · intro h
        exact .downloaded (h ▸ Std.min_le_left)
      · intro h
        cases h with
        | downloaded h =>
            exact UInt64.le_antisymm Std.min_le_right (Std.le_min_iff.mpr ⟨h, Std.le_refl size⟩)
  | _ => exact iff_of_true rfl (by constructor)

theorem accountedFor_eq_size_iff {d : Descriptor} (hsize : d.size ≠ 0) :
    p.accountedFor d = d.size ↔ ∃ l, p.Tracks d l ∧ CountsInFull d.size l.state := by
  simp only [Tracks, ← LayerTable.findTracked?_eq_some]
  rw [accountedFor]
  cases p.layers.findTracked? d.digest with
  | none => simpa using Ne.symm hsize
  | some l => simp [accounted_eq_size_iff hsize]

/-- A layer without bytes always counts in full. -/
theorem accountedFor_eq_size {d : Descriptor} (hsize : d.size = 0) :
    p.accountedFor d = d.size := by
  have hle := p.accountedFor_le_size d
  rw [hsize] at hle ⊢
  exact UInt64.le_antisymm hle UInt64.zero_le

/-- **Progress stays within the manifest.** If the sizes of the manifest do not overflow, then no
sum does that is formed on the way, the total is the size of the manifest, and at most that much is
done. All is done exactly when every layer that has bytes is tracked and counts in full. -/
theorem byteProgress_within (hsize : p.context.manifest.exactSize < UInt64.size) :
    p.byteProgress = p.counted p.context.manifest.layers
      ∧ (∀ part, part <+: p.context.manifest.layers →
          (p.counted part).current.toNat = exactSum p.accountedFor part
            ∧ (p.counted part).total.toNat = exactSum Descriptor.size part)
      ∧ p.byteProgress.total = p.context.manifest.totalSize
      ∧ p.byteProgress.total.toNat = p.context.manifest.exactSize
      ∧ p.byteProgress.current ≤ p.byteProgress.total
      ∧ (p.byteProgress.current = p.byteProgress.total
          ↔ ∀ d ∈ p.context.manifest.layers, d.size ≠ 0 →
              ∃ l, p.Tracks d l ∧ CountsInFull d.size l.state) := by
  have hcounted : p.byteProgress = p.counted p.context.manifest.layers := by
    rw [counted_eq]
    rfl
  obtain ⟨hcurrent, htotal⟩ := counted_exact (p := p) hsize (List.prefix_refl _)
  refine ⟨hcounted, fun part => counted_exact hsize, rfl, hcounted ▸ htotal, ?_, ?_⟩
  · rw [hcounted, UInt64.le_iff_toNat_le, hcurrent, htotal]
    exact p.exactSum_accountedFor_le _
  · rw [hcounted, ← UInt64.toNat_inj, hcurrent, htotal,
      exactSum_eq_iff fun d _ => p.accountedFor_le_size d]
    refine forall₂_congr fun d _ => ?_
    by_cases hd : d.size = 0
    · exact iff_of_true (accountedFor_eq_size hd) fun hne => absurd hd hne
    · rw [accountedFor_eq_size_iff hd]
      exact ⟨fun h _ => h, fun h => h hd⟩

/-- A pull that was told more bytes of one layer than it has, with the other in this state. -/
def overstated (other : LayerState) : Pull :=
  layered [⟨"d1", .downloading ⟨18446744073709551615, 0, false⟩⟩, ⟨"c3", other⟩]

/-- Of a layer that the daemon overstates no more than its size is done, and all is done only when
the other layer is there as well. -/
theorem byteProgress_within_overstated :
    [.layer "c3" .pullingFsLayer, .layer "c3" .waiting, .layer "d1" .pullingFsLayer,
        .layer "d1" (.downloading ⟨18446744073709551615, 0, false⟩)].foldlM advance
          (new layeredContext) = .ok (overstated .waiting)
      ∧ [.layer "c3" (.downloading ⟨5, 5, false⟩), .layer "c3" .downloadComplete].foldlM advance
          (overstated .waiting) = .ok (overstated .downloadComplete)
      ∧ ((overstated .waiting).counted (layeredContext.manifest.layers.take 2)).current.toNat = 10
      ∧ (overstated .waiting).byteProgress.total.toNat = 25
      ∧ (overstated .waiting).byteProgress.current < (overstated .waiting).byteProgress.total
      ∧ (overstated .downloadComplete).byteProgress.current
          = (overstated .downloadComplete).byteProgress.total := by
  have hsize : layeredContext.manifest.exactSize < UInt64.size := by decide
  obtain ⟨-, hparts, -, htotal, hle, hdone⟩ :=
    byteProgress_within (p := overstated .waiting) hsize
  obtain ⟨-, -, -, -, -, hdone'⟩ := byteProgress_within (p := overstated .downloadComplete) hsize
  refine ⟨rfl, rfl, ?_, htotal, UInt64.lt_of_le_of_ne hle fun hall => ?_, hdone'.mpr ?_⟩
  · exact (hparts _ (List.take_prefix 2 _)).1.trans (by decide +kernel)
  · -- the layer that waits does not count
    obtain ⟨l, htracks, hfull⟩ :=
      hdone.mp hall ⟨.sha256 "c3d4" (by decide), 5, none⟩ (by decide) (by decide)
    rw [Tracks, ← LayerTable.findTracked?_eq_some] at htracks
    cases htracks
    cases hfull
  · have hfirst : ∃ l,
        (overstated .downloadComplete).Tracks ⟨.sha256 "d1e2" (by decide), 10, none⟩ l
          ∧ CountsInFull 10 l.state :=
      ⟨_, LayerTable.findTracked?_eq_some.mp rfl, .downloaded (by decide)⟩
    have hsecond : ∃ l,
        (overstated .downloadComplete).Tracks ⟨.sha256 "c3d4" (by decide), 5, none⟩ l
          ∧ CountsInFull 5 l.state :=
      ⟨_, LayerTable.findTracked?_eq_some.mp rfl, .downloadComplete⟩
    exact List.forall_mem_cons.mpr ⟨fun _ => hfirst, List.forall_mem_cons.mpr
      ⟨fun _ => hsecond, List.forall_mem_cons.mpr ⟨fun _ => hfirst, List.forall_mem_nil _⟩⟩⟩

end Pull

end ImagePull
