import ImagePull.Layer.Table
import Mathlib.Data.List.Sort

/-!
# What a table of layers holds

A table is known by what is under each id: the entries are the ids with the layers that `get?`
finds (`mem_entries_iff`), and as their order is fixed, tables that give the same under every id
are equal (`ext_get?`).
-/

namespace ImagePull.LayerTable

theorem ids_increasing (t : LayerTable) : t.ids.Pairwise (· < ·) :=
  List.pairwise_map.mpr t.increasing

theorem eq_of_mem_entries {t : LayerTable} {a b : String × Layer} (ha : a ∈ t.entries)
    (hb : b ∈ t.entries) (hid : a.1 = b.1) : a = b := by
  have hnodup : t.ids.Nodup := t.ids_increasing.imp String.ne_of_lt
  exact List.inj_on_of_nodup_map hnodup ha hb hid

/-- The entries are the ids with the layers found under them. -/
theorem mem_entries_iff {t : LayerTable} {id : String} {l : Layer} :
    (id, l) ∈ t.entries ↔ t.get? id = some l := by
  constructor
  · intro hmem
    cases hfind : t.entries.find? fun e => e.1 == id with
    | none =>
        have hnot := List.find?_eq_none.mp hfind (id, l) hmem
        simp at hnot
    | some e =>
        have hid : e.1 = id := by simpa using List.find?_some hfind
        have he := eq_of_mem_entries (List.mem_of_find?_eq_some hfind) hmem hid
        rw [get?, hfind, he]
        rfl
  · intro hget
    obtain ⟨e, hfind, rfl⟩ := Option.map_eq_some_iff.mp hget
    have hid : e.1 = id := by simpa using List.find?_some hfind
    exact hid ▸ List.mem_of_find?_eq_some hfind

/-- **A table is known by what is under each id.** -/
theorem ext_get? {s t : LayerTable} (h : ∀ id, s.get? id = t.get? id) : s = t := by
  have : Std.Irrefl fun a b : String × Layer => a.1 < b.1 := ⟨fun a => String.lt_irrefl a.1⟩
  have : Std.Antisymm fun a b : String × Layer => a.1 < b.1 :=
    ⟨fun a b hab hba => absurd (String.lt_trans hab hba) (String.lt_irrefl a.1)⟩
  refine ext (s.increasing.eq_of_mem_iff t.increasing fun e => ?_)
  rw [← Prod.eta e, mem_entries_iff, mem_entries_iff, h]

theorem mem_ids_iff {t : LayerTable} {id : String} : id ∈ t.ids ↔ t.get? id ≠ none := by
  rw [Option.ne_none_iff_exists', ids, List.mem_map]
  constructor
  · rintro ⟨e, he, rfl⟩
    exact ⟨e.2, mem_entries_iff.mp he⟩
  · rintro ⟨l, hl⟩
    exact ⟨(id, l), mem_entries_iff.mpr hl, rfl⟩

end ImagePull.LayerTable
