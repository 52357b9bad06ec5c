import ImagePull.Proofs.Layer.Table
import ImagePull.Pull.Basic

/-!
# The layer that a digest stands for

A digest stands for a tracked layer if the id of the layer is a beginning of its encoded value.
Of several such layers the one with the shortest id counts (`findTracked?_eq_some`), and there
is only one of that length.
-/

namespace ImagePull.LayerTable

/-- A layer is tracked under this id, which is a non-empty beginning of the encoded value. -/
def Abbreviates (t : LayerTable) (d : Digest) (id : String) : Prop :=
  id ∈ t.ids ∧ id ≠ "" ∧ id.toList <+: d.encoded.toList

/-- The shortest id that abbreviates the digest. -/
def IsShortest (t : LayerTable) (d : Digest) (id : String) : Prop :=
  t.Abbreviates d id ∧ ∀ other, t.Abbreviates d other → id.length ≤ other.length

theorem findSome?_range {β : Type} {f : Nat → Option β} {size : Nat} {b : β} :
    (List.range size).findSome? f = some b ↔ ∃ n < size, f n = some b ∧ ∀ k < n, f k = none := by
  induction size with
  | zero => simp
  | succ size ih =>
      rw [List.range_succ, List.findSome?_append, Option.or_eq_some_iff, ih,
        List.findSome?_eq_none_iff]
      simp only [List.mem_range, List.findSome?_cons, List.findSome?_nil]
      constructor
      · rintro (⟨n, hn, hfound⟩ | ⟨hnone, hlast⟩)
        · exact ⟨n, Nat.lt_succ_of_lt hn, hfound⟩
        · refine ⟨size, Nat.lt_succ_self size, ?_, hnone⟩
          cases hf : f size <;> simp_all
      · rintro ⟨n, hn, hfound, hnone⟩
        rcases Nat.lt_succ_iff_lt_or_eq.mp hn with hlt | rfl
        · exact .inl ⟨n, hlt, hfound, hnone⟩
        · exact .inr ⟨hnone, by rw [hfound]⟩

variable {t : LayerTable} {d : Digest}

theorem length_short {n : Nat} (h : n ≤ d.encoded.length) : (d.short n).length = n := by
  rw [Digest.short, String.length_ofList, List.length_take, String.length_toList]
  exact Nat.min_eq_left h

/-- The ids that abbreviate a digest are those tracked among its short forms. -/
theorem abbreviates_iff {id : String} :
    t.Abbreviates d id
      ↔ ∃ n < d.encoded.length, id = d.short (n + 1) ∧ t.get? (d.short (n + 1)) ≠ none := by
  constructor
  · rintro ⟨hmem, hne, hbegins⟩
    have hlength : id.length ≤ d.encoded.length := by
      rw [← String.length_toList, ← String.length_toList]
      exact hbegins.length_le
    have hpos : 0 < id.length := by
      rw [Nat.pos_iff_ne_zero]
      exact fun h => hne (String.length_eq_zero_iff.mp h)
    have hid : id = d.short (id.length - 1 + 1) := by
      rw [Nat.sub_add_cancel hpos, Digest.short, ← String.length_toList,
        ← List.prefix_iff_eq_take.mp hbegins, String.ofList_toList]
    refine ⟨id.length - 1, by omega, hid, ?_⟩
    rw [← hid]
    exact mem_ids_iff.mp hmem
  · rintro ⟨n, hn, rfl, hget⟩
    refine ⟨mem_ids_iff.mpr hget, fun hempty => ?_, ?_⟩
    · have hlength := length_short (d := d) (n := n + 1) (by omega)
      rw [hempty] at hlength
      cases hlength
    · rw [Digest.short, String.toList_ofList]
      exact List.take_prefix _ _

/-- **The tracked layer of a digest** is the one under the shortest id that abbreviates it. -/
theorem findTracked?_eq_some {l : Layer} :
    t.findTracked? d = some l ↔ ∃ id, t.IsShortest d id ∧ t.get? id = some l := by
  rw [findTracked?, findSome?_range]
  constructor
  · rintro ⟨n, hn, hget, hnone⟩
    refine ⟨d.short (n + 1), ⟨abbreviates_iff.mpr ⟨n, hn, rfl, by simp [hget]⟩, ?_⟩, hget⟩
    intro other hother
    obtain ⟨k, hk, rfl, hfound⟩ := abbreviates_iff.mp hother
    rw [length_short (by omega), length_short (by omega)]
    by_contra hshorter
    exact hfound (hnone k (by omega))
  · rintro ⟨id, ⟨hid, hshortest⟩, hget⟩
    obtain ⟨n, hn, rfl, -⟩ := abbreviates_iff.mp hid
    refine ⟨n, hn, hget, fun k hk => ?_⟩
    by_contra hfound
    have hless := hshortest _ (abbreviates_iff.mpr ⟨k, by omega, rfl, hfound⟩)
    rw [length_short (by omega), length_short (by omega)] at hless
    omega

/-- **A digest has no tracked layer** if no layer is tracked under a beginning of its value. -/
theorem findTracked?_eq_none : t.findTracked? d = none ↔ ∀ id, ¬t.Abbreviates d id := by
  rw [findTracked?, List.findSome?_eq_none_iff]
  constructor
  · intro hnone id hid
    obtain ⟨n, hn, -, hfound⟩ := abbreviates_iff.mp hid
    exact hfound (hnone n (List.mem_range.mpr hn))
  · intro hnone n hn
    by_contra hfound
    exact hnone _ (abbreviates_iff.mpr ⟨n, List.mem_range.mp hn, rfl, hfound⟩)

end ImagePull.LayerTable
