import ImagePull.Proofs.Event.Classification
import ImagePull.Proofs.Pull.Failures

/-!
# Snapshots that are built

A snapshot is opened by an event, advanced by others and perhaps completed (`Pull.BuiltFrom`). What
a new pull has and each of these steps keeps is true of every snapshot (`Pull.BuiltFrom.holds`): its
layers are tracked under their own ids, and none of them is nameless if the events stand in lines.
-/

namespace ImagePull.Pull

/-- The snapshot is built from events of this kind. -/
inductive BuiltFrom (kind : PullEvent → Prop) : Pull → Prop where
  | start {context : Context} {event : PullEvent} {p : Pull} (hkind : kind event)
      (opened : Pull.start context event = .ok p) : BuiltFrom kind p
  | advance {p p' : Pull} {event : PullEvent} (before : BuiltFrom kind p) (hkind : kind event)
      (advanced : p.advance event = .ok p') : BuiltFrom kind p'
  | finalize {p q : Pull} (before : BuiltFrom kind p) (finalized : p.finalize? = some q) :
    BuiltFrom kind q

variable {kind : PullEvent → Prop} {p : Pull}

/-- **What a new pull has and every step keeps is true of every snapshot.** -/
theorem BuiltFrom.holds {motive : Pull → Prop} (h : p.BuiltFrom kind)
    (new : ∀ context, motive (.new context))
    (advance : ∀ {p p' : Pull} {event : PullEvent}, motive p → kind event →
      p.advance event = .ok p' → motive p')
    (finalize : ∀ {p q : Pull}, motive p → p.finalize? = some q → motive q) : motive p := by
  induction h with
  | start hkind opened => exact advance (new _) hkind (advance_of_start opened)
  | advance _ hkind advanced ih => exact advance ih hkind advanced
  | finalize _ finalized ih => exact finalize ih finalized

/-- Every layer of a snapshot is tracked under its own id. -/
theorem BuiltFrom.isKeyed (h : p.BuiltFrom kind) : p.IsKeyed := by
  refine h.holds isKeyed_new (fun hp _ hadvance => hp.advance hadvance) ?_
  intro p q hp hfinal id l hl
  rw [(isCompletion_of_finalize? hfinal).layers] at hl
  exact hp id l hl

/-- **No layer is nameless** of which lines tell. -/
theorem BuiltFrom.empty_notMem_ids (h : p.BuiltFrom PullEvent.IsClassified) :
    "" ∉ p.layers.ids := by
  rw [LayerTable.mem_ids_iff, Decidable.not_not]
  refine h.holds (motive := fun p => p.layers.get? "" = none) (fun _ => rfl) ?_ ?_
  · intro p p' event hp hclassified hadvance
    cases advanced hadvance with
    | layer next =>
        rw [LayerTable.get?_insert, if_neg hclassified.id_ne_empty]
        exact hp
    | _ => exact hp
  · intro p q hp hfinal
    rw [(isCompletion_of_finalize? hfinal).layers]
    exact hp

end ImagePull.Pull
