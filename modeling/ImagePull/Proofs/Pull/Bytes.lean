import ImagePull.Proofs.Digest
import ImagePull.Proofs.Layer.Lifecycle
import ImagePull.Proofs.Pull.Failures

/-!
# The bytes of a pull only grow

Each layer of a manifest counts for the bytes that the state of its tracked layer accounts for. A
layer that does not fail never accounts for less than before, if its downloads count up
(`Layer.accounted_le_of_following?`), and a digest that stands for a tracked layer goes on standing
for that layer as long as no tracked id is the beginning of another
(`LayerTable.isShortest_of_isApart`). So the sum over the manifest only grows
(`byteProgress_of_run`).
-/

namespace ImagePull

/-! ## Sums of words -/

section Sums

variable {α : Type} {f g : α → UInt64} {xs : List α}

theorem exactSum_le (h : ∀ x ∈ xs, f x ≤ g x) : exactSum f xs ≤ exactSum g xs := by
  induction xs with
  | nil => exact Nat.le_refl 0
  | cons x rest ih =>
      obtain ⟨hx, hrest⟩ := List.forall_mem_cons.mp h
      exact Nat.add_le_add (UInt64.le_iff_toNat_le.mp hx) (ih hrest)

/-- Sums that do not overflow are in the order of their parts. -/
theorem foldr_add_le (h : ∀ x ∈ xs, f x ≤ g x) (hsize : exactSum g xs < UInt64.size) :
    xs.foldr (fun x total => f x + total) 0 ≤ xs.foldr (fun x total => g x + total) 0 := by
  have hle := exactSum_le h
  rw [UInt64.le_iff_toNat_le, toNat_foldr_add hsize, toNat_foldr_add (by omega)]
  exact hle

end Sums

/-! ## One layer -/

/-- The bytes that an event reports as downloaded. -/
def LayerEvent.downloaded? : LayerEvent → Option UInt64
  | .downloading progress => some progress.current
  | _ => none

/-- The bytes that a state holds as downloaded. -/
def LayerState.downloaded? : LayerState → Option UInt64
  | .downloading progress => some progress.current
  | _ => none

namespace Layer

variable {state : Option LayerState} {before later : LayerState} {event : LayerEvent}
  {rest : List LayerEvent}

/-- The downloads that events report count up, from what a state holds on. -/
def CountsUp (state : Option LayerState) (events : List LayerEvent) : Prop :=
  ((state.bind LayerState.downloaded?).toList
    ++ events.filterMap LayerEvent.downloaded?).Pairwise (· ≤ ·)

/-- A state holds what its event reports. -/
theorem downloaded?_of_following? (h : following? state event = some later) :
    later.downloaded? = event.downloaded? := by
  rcases state with _ | state
  · cases event <;> cases h <;> rfl
  · cases state <;> cases event <;> cases h <;> rfl

theorem CountsUp.following (hcounts : CountsUp state (event :: rest))
    (h : following? state event = some later) : CountsUp (some later) rest := by
  have hsplit : (event :: rest).filterMap LayerEvent.downloaded?
      = event.downloaded?.toList ++ rest.filterMap LayerEvent.downloaded? := by
    cases hevent : event.downloaded? <;> simp [hevent]
  rw [CountsUp, hsplit] at hcounts
  rw [CountsUp, Option.bind_some, downloaded?_of_following? h]
  exact hcounts.sublist (List.sublist_append_right _ _)

theorem accounted_le (size : UInt64) (state : LayerState) : Pull.accounted size state ≤ size := by
  have hzero : (0 : UInt64) ≤ size := UInt64.zero_le
  cases state with
  | downloading progress => exact Std.min_le_right
  | pullingFsLayer | waiting | errored => exact hzero
  | _ => exact Std.le_refl size

/-- **A layer that does not fail never accounts for less than before.** -/
theorem accounted_le_of_following? (h : following? (some before) event = some later)
    (hcounts : CountsUp (some before) [event]) (hfailed : ∀ message, event ≠ .error message)
    (size : UInt64) : Pull.accounted size before ≤ Pull.accounted size later := by
  cases before with
  | pullingFsLayer | waiting => exact UInt64.zero_le
  | downloading progress =>
      cases event with
      | downloading progress' =>
          cases h
          have hcurrent : progress.current ≤ progress'.current := by
            simpa [CountsUp, LayerState.downloaded?, LayerEvent.downloaded?] using hcounts
          exact Std.le_min_iff.mpr ⟨Std.le_trans Std.min_le_left hcurrent, Std.min_le_right⟩
      | error message => exact absurd rfl (hfailed message)
      | _ => cases h <;> exact accounted_le size (.downloading progress)
  | _ =>
      -- the layer accounts for all of its bytes, and will do so until it fails
      cases event with
      | error message => exact absurd rfl (hfailed message)
      | _ => cases h <;> exact Std.le_refl size

/-- What an accepted event makes of the state. -/
theorem following?_of_next {id : String} {current : Option Layer} {l : Layer}
    (h : next id current event = .ok l) :
    following? (current.map Layer.state) event = some l.state := by
  cases current with
  | none =>
      rw [next, start] at h
      rw [Option.map_none, following?]
      cases hopened : LayerState.opened? event with
      | none => simp [hopened] at h
      | some opened =>
          simp only [hopened] at h
          cases h
          rfl
  | some l' =>
      rw [next, advance] at h
      split at h
      · cases h
      · rw [Option.map_some, following?]
        cases hnext : l'.state.next? event with
        | none => simp [hnext] at h
        | some following =>
            simp only [hnext] at h
            cases h
            rfl

/-- Downloads that count up go on doing so. -/
theorem CountsUp.after {id : String} {current current' : Option Layer} {xs ys : List LayerEvent}
    (hcounts : CountsUp (current.map Layer.state) (xs ++ ys))
    (h : after id current xs = .ok current') : CountsUp (current'.map Layer.state) ys := by
  induction xs generalizing current with
  | nil =>
      cases h
      exact hcounts
  | cons event rest ih =>
      obtain ⟨l, hnext, hrest⟩ := bind_eq_ok.mp h
      have hlater : CountsUp ((some l).map Layer.state) (rest ++ ys) :=
        hcounts.following (following?_of_next hnext)
      exact ih hlater hrest

theorem accounted_le_of_after {id : String} {l : Layer} {current : Option Layer}
    {events : List LayerEvent} (h : after id (some l) events = .ok current)
    (hcounts : CountsUp (some l.state) events)
    (hfailed : ∀ event ∈ events, ∀ message, event ≠ .error message) :
    ∃ l', current = some l'
      ∧ ∀ size, Pull.accounted size l.state ≤ Pull.accounted size l'.state := by
  induction events generalizing l with
  | nil =>
      cases h
      exact ⟨l, rfl, fun size => Std.le_refl _⟩
  | cons event rest ih =>
      obtain ⟨hevent, hlater⟩ := List.forall_mem_cons.mp hfailed
      obtain ⟨next, hnext, hrest⟩ := bind_eq_ok.mp h
      have hfollowing : following? (some l.state) event = some next.state :=
        following?_of_next hnext
      obtain ⟨l', rfl, hle⟩ := ih hrest (hcounts.following hfollowing) hlater
      refine ⟨l', rfl, fun size => Std.le_trans ?_ (hle size)⟩
      refine accounted_le_of_following? hfollowing (hcounts.sublist ?_) hevent size
      exact .append_left (.filterMap _ (List.singleton_sublist.mpr List.mem_cons_self)) _

end Layer

/-! ## The layer that a digest stands for -/

namespace LayerTable

variable {t : LayerTable} {d : Digest}

/-- No tracked id is the beginning of another. -/
def IsApart (t : LayerTable) : Prop :=
  ∀ a ∈ t.ids, ∀ b ∈ t.ids, a.toList <+: b.toList → a = b

instance (t : LayerTable) : Decidable t.IsApart :=
  inferInstanceAs (Decidable (∀ a ∈ t.ids, ∀ b ∈ t.ids, a.toList <+: b.toList → a = b))

/-- Where ids are kept apart, a digest stands for whatever layer its value begins with. -/
theorem isShortest_of_isApart {id : String} (hapart : t.IsApart) (hid : t.Abbreviates d id) :
    t.IsShortest d id := by
  refine ⟨hid, fun other hother => ?_⟩
  rcases List.prefix_or_prefix_of_prefix hid.2.2 hother.2.2 with h | h
  · rw [hapart id hid.1 other hother.1 h]
  · rw [hapart other hother.1 id hid.1 h]

end LayerTable

namespace Pull

open PullEvent

variable {p p' q : Pull}

/-! ## Two snapshots -/

/-- Whatever layer the first snapshot tracks, the second one tracks as well, and accounts for at
least as much of it. -/
def AccountsFor (q p : Pull) : Prop :=
  ∀ id l, p.layers.get? id = some l → ∃ l', q.layers.get? id = some l'
    ∧ ∀ size, accounted size l.state ≤ accounted size l'.state

theorem accountedFor_le_size (p : Pull) (d : Descriptor) : p.accountedFor d ≤ d.size := by
  rw [accountedFor]
  cases p.layers.findTracked? d.digest with
  | none => exact UInt64.zero_le
  | some l => exact Layer.accounted_le d.size l.state

theorem AccountsFor.accountedFor_le (h : q.AccountsFor p) (hapart : q.layers.IsApart)
    (d : Descriptor) : p.accountedFor d ≤ q.accountedFor d := by
  rw [accountedFor]
  cases hfound : p.layers.findTracked? d.digest with
  | none => exact UInt64.zero_le
  | some l =>
      obtain ⟨id, ⟨⟨-, hne, hbegins⟩, -⟩, hget⟩ := LayerTable.findTracked?_eq_some.mp hfound
      obtain ⟨l', hget', hle⟩ := h id l hget
      -- the digest stands for the same layer, whatever has come to be tracked since
      have hid : q.layers.Abbreviates d.digest id :=
        ⟨LayerTable.mem_ids_iff.mpr (by simp [hget']), hne, hbegins⟩
      have hfound' := LayerTable.findTracked?_eq_some.mpr
        ⟨id, LayerTable.isShortest_of_isApart hapart hid, hget'⟩
      rw [accountedFor, hfound']
      exact hle d.size

theorem AccountsFor.byteProgress_le (h : q.AccountsFor p) (hcontext : q.context = p.context)
    (hapart : q.layers.IsApart) (hsize : q.context.manifest.exactSize < UInt64.size) :
    p.byteProgress.current ≤ q.byteProgress.current := by
  have hsum : exactSum q.accountedFor q.context.manifest.layers < UInt64.size :=
    Nat.lt_of_le_of_lt (exactSum_le fun d _ => q.accountedFor_le_size d) hsize
  rw [byteProgress, byteProgress, ← hcontext]
  exact foldr_add_le (fun d _ => h.accountedFor_le hapart d) hsum

/-! ## Runs -/

/-- Whatever an event does to the pull, a layer takes its own events. -/
theorem after_of_advance {event : PullEvent} (h : p.advance event = .ok p') (id : String) :
    Layer.after id (p.layers.get? id) (layerEvents id [event]) = .ok (p'.layers.get? id) := by
  cases advanced h with
  | layer next => exact p.after_insert next id
  | _ => rfl

theorem after_of_foldlM {events : List PullEvent} (h : events.foldlM advance p = .ok q)
    (id : String) :
    Layer.after id (p.layers.get? id) (layerEvents id events) = .ok (q.layers.get? id) := by
  induction events generalizing p with
  | nil =>
      cases h
      rfl
  | cons event rest ih =>
      obtain ⟨next, hadvance, hrest⟩ := foldlM_cons_eq_ok.mp h
      rw [layerEvents_cons, Layer.after_append, after_of_advance hadvance]
      exact ih hrest

theorem context_of_foldlM {events : List PullEvent} (h : events.foldlM advance p = .ok q) :
    q.context = p.context := by
  induction events generalizing p with
  | nil =>
      cases h
      rfl
  | cons event rest ih =>
      obtain ⟨next, hadvance, hrest⟩ := foldlM_cons_eq_ok.mp h
      exact (ih hrest).trans (context_of_advance hadvance)

theorem not_error_of_failed? {events : List PullEvent}
    (h : ∀ event ∈ events, event.failed? = none) (id : String) :
    ∀ event ∈ layerEvents id events, ∀ message, event ≠ .error message := by
  rintro event hevent message rfl
  obtain ⟨e, he, hlayer⟩ := List.mem_filterMap.mp hevent
  have hnone := h e he
  cases e with
  | layer about layerEvent =>
      obtain ⟨-, hsame⟩ := Option.ite_none_right_eq_some.mp hlayer
      rw [Option.some.inj hsame] at hnone
      cases hnone
  | _ => cases hlayer

/-- The bytes that events report as downloaded of one layer, in order. -/
def downloads (id : String) (events : List PullEvent) : List UInt64 :=
  (layerEvents id events).filterMap LayerEvent.downloaded?

/-- **The bytes of a pull never go backwards.** Of two snapshots of a run the later one accounts
for at least as many bytes, out of the same total, if the sizes of the manifest do not overflow, no
layer fails in between, the downloads of every layer count up, and no tracked id is the beginning
of another. -/
theorem byteProgress_of_run {context : Context} {opening : PullEvent} {opened p q : Pull}
    {before between : List PullEvent} (hsize : context.manifest.exactSize < UInt64.size)
    (hstart : start context opening = .ok opened) (hp : before.foldlM advance opened = .ok p)
    (hq : between.foldlM advance p = .ok q) (hfailed : ∀ event ∈ between, event.failed? = none)
    (hdownloads : ∀ id, (downloads id (opening :: (before ++ between))).Pairwise (· ≤ ·))
    (hapart : q.layers.IsApart) :
    p.byteProgress.current ≤ q.byteProgress.current
      ∧ q.byteProgress.total = p.byteProgress.total := by
  have hrun : (opening :: before).foldlM advance (new context) = .ok p := by
    rw [foldlM_of_start hstart, hp]
  have hcontext : q.context = p.context := context_of_foldlM hq
  have hwhole : p.context = context := context_of_foldlM hrun
  have haccounts : q.AccountsFor p := by
    intro id l hget
    have hcounts : Layer.CountsUp (some l.state) (layerEvents id between) := by
      have hfirst := after_of_foldlM hrun id
      rw [hget] at hfirst
      refine Layer.CountsUp.after ?_ hfirst
      rw [layerEvents, layerEvents, ← List.filterMap_append]
      exact hdownloads id
    have hrest := after_of_foldlM hq id
    rw [hget] at hrest
    exact Layer.accounted_le_of_after hrest hcounts (not_error_of_failed? hfailed id)
  refine ⟨haccounts.byteProgress_le hcontext hapart (by rw [hcontext, hwhole]; exact hsize), ?_⟩
  rw [byteProgress, byteProgress, hcontext]

/-- A pull of an image that has one layer twice and another one between. -/
def layeredContext : Context :=
  let first : Descriptor := ⟨.sha256 "d1e2" (by decide), 10, none⟩
  let second : Descriptor := ⟨.sha256 "c3d4" (by decide), 5, none⟩
  { podmanContext with manifest := { layers := [first, second, first] } }

/-- That pull with these layers tracked. -/
def layered (layers : List Layer) : Pull :=
  { new layeredContext with layers := .ofList layers }

theorem byteProgress_of_run_layered :
    ∃ p q, start layeredContext (.layer "d1" .pullingFsLayer)
          = .ok (layered [⟨"d1", .pullingFsLayer⟩])
      ∧ [.layer "d1" (.downloading ⟨3, 10, false⟩)].foldlM advance
          (layered [⟨"d1", .pullingFsLayer⟩]) = .ok p
      ∧ [.layer "c3" .alreadyExists, .layer "d1" (.downloading ⟨7, 10, false⟩)].foldlM advance p
          = .ok q
      ∧ p.byteProgress.current = 6 ∧ q.byteProgress.current = 19
      ∧ p.byteProgress.current ≤ q.byteProgress.current
      ∧ q.byteProgress.total = p.byteProgress.total := by
  refine ⟨layered [⟨"d1", .downloading ⟨3, 10, false⟩⟩],
    layered [⟨"d1", .downloading ⟨7, 10, false⟩⟩, ⟨"c3", .alreadyExists⟩],
    rfl, rfl, rfl, by decide +kernel, by decide +kernel, ?_⟩
  have hstart : start layeredContext (.layer "d1" .pullingFsLayer)
      = .ok (layered [⟨"d1", .pullingFsLayer⟩]) := rfl
  have hbefore : [.layer "d1" (.downloading ⟨3, 10, false⟩)].foldlM advance
      (layered [⟨"d1", .pullingFsLayer⟩])
        = .ok (layered [⟨"d1", .downloading ⟨3, 10, false⟩⟩]) := rfl
  have hbetween : [.layer "c3" .alreadyExists, .layer "d1" (.downloading ⟨7, 10, false⟩)].foldlM
      advance (layered [⟨"d1", .downloading ⟨3, 10, false⟩⟩])
        = .ok (layered [⟨"d1", .downloading ⟨7, 10, false⟩⟩, ⟨"c3", .alreadyExists⟩]) := rfl
  refine byteProgress_of_run (by decide) hstart hbefore hbetween (by decide) (fun id => ?_)
    (by decide +kernel)
  by_cases hd : "d1" = id
  · subst hd
    decide
  · by_cases hc : "c3" = id
    · subst hc
      decide
    · simp [downloads, layerEvents, layerEvent?, hd, hc]

end Pull

end ImagePull
