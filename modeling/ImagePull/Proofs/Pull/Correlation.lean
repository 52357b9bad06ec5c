import ImagePull.Proofs.Pull.Bytes
import ImagePull.Proofs.Pull.Snapshots
import ImagePull.Pull.View

/-!
# Matching is exact

A digest stands for the layer under the shortest id that its encoded value begins with, and cuts no
character to find it. The layers of a manifest are matched in their order, and just those are left
out that stand for no tracked layer. So where no tracked id is the beginning of another, and one
layer of the manifest begins with each of them, the order of the manifest is an order of all tracked
layers (`correlation_is_exact`).
-/

namespace ImagePull

namespace LayerTable

variable {t : LayerTable} {d : Digest}

/-- A layer is tracked under a non-empty beginning of the encoded value. -/
def Covers (t : LayerTable) (d : Digest) : Prop :=
  ∃ id ∈ t.ids, id ≠ "" ∧ id.toList <+: d.encoded.toList

instance (t : LayerTable) (d : Digest) : Decidable (t.Covers d) :=
  inferInstanceAs (Decidable (∃ id ∈ t.ids, id ≠ "" ∧ id.toList <+: d.encoded.toList))

theorem covers_iff : t.Covers d ↔ ∃ l, t.findTracked? d = some l := by
  rw [← Option.ne_none_iff_exists', ne_eq, findTracked?_eq_none, not_forall]
  simp only [Covers, Abbreviates, Decidable.not_not]

end LayerTable

namespace Manifest

/-- **Just the manifest layers that tracked ids cover are matched**, in the order of the manifest,
and each with the layer that its digest stands for. -/
theorem map_correlate (m : Manifest) (t : LayerTable) :
    (m.correlate t).map (Prod.map id some)
      = (m.layers.filter (t.Covers ·.digest)).map fun d => (d, t.findTracked? d.digest) := by
  rw [correlate]
  induction m.layers with
  | nil => rfl
  | cons d rest ih =>
      by_cases hcovers : t.Covers d.digest
      · obtain ⟨l, hfound⟩ := LayerTable.covers_iff.mp hcovers
        simp [hfound, hcovers, ih]
      · have hfound : t.findTracked? d.digest = none := by
          rw [Option.eq_none_iff_forall_ne_some]
          exact fun l hl => hcovers (LayerTable.covers_iff.mpr ⟨l, hl⟩)
        simp [hfound, hcovers, ih]

theorem map_orderedLayers (m : Manifest) (t : LayerTable) :
    (m.orderedLayers t).map some
      = (m.layers.filter (t.Covers ·.digest)).map (t.findTracked? ·.digest) := by
  have hpairs := congrArg (List.map Prod.snd) (m.map_correlate t)
  rw [List.map_map, List.map_map] at hpairs
  rw [orderedLayers, List.map_map]
  exact hpairs

theorem orderedLayers_eq (m : Manifest) (t : LayerTable) :
    m.orderedLayers t = m.layers.filterMap (t.findTracked? ·.digest) := by
  rw [orderedLayers, correlate, List.map_filterMap]
  congr 1
  funext d
  cases t.findTracked? d.digest <;> rfl

/-- The value of one layer of the manifest begins with this id, and no other does. -/
def ListsOnce (m : Manifest) (id : String) : Prop :=
  m.layers.countP (fun d => id.toList <+: d.digest.encoded.toList) = 1

instance (m : Manifest) (id : String) : Decidable (m.ListsOnce id) :=
  inferInstanceAs (Decidable (_ = _))

end Manifest

namespace Pull

variable {p : Pull}

/-- The layer that a digest stands for is tracked, and the value of the digest begins with its
id. -/
theorem IsKeyed.of_findTracked? (hp : p.IsKeyed) {d : Digest} {l : Layer}
    (h : p.layers.findTracked? d = some l) :
    l ∈ p.layers.layers ∧ l.id.toList <+: d.encoded.toList := by
  obtain ⟨id, ⟨⟨-, -, hbegins⟩, -⟩, hget⟩ := LayerTable.findTracked?_eq_some.mp h
  obtain rfl : l.id = id := hp id l hget
  exact ⟨(mem_layers hp).mpr hget, hbegins⟩

/-- Where ids are kept apart, a digest stands for the layer with whose id its value begins. -/
theorem IsKeyed.findTracked?_of_isPrefix (hp : p.IsKeyed) (hnamed : "" ∉ p.layers.ids)
    (hapart : p.layers.IsApart) {d : Digest} {l : Layer} (hl : l ∈ p.layers.layers)
    (hbegins : l.id.toList <+: d.encoded.toList) : p.layers.findTracked? d = some l := by
  have hget := (mem_layers hp).mp hl
  have hmem : l.id ∈ p.layers.ids := LayerTable.mem_ids_iff.mpr (by simp [hget])
  have hne : l.id ≠ "" := fun hempty => hnamed (hempty ▸ hmem)
  exact LayerTable.findTracked?_eq_some.mpr
    ⟨l.id, LayerTable.isShortest_of_isApart hapart ⟨hmem, hne, hbegins⟩, hget⟩

/-- A layer stands in the order of the manifest once at most, if the manifest lists it once. -/
theorem count_orderedLayers_le (hp : p.IsKeyed) {l : Layer}
    (honce : p.context.manifest.ListsOnce l.id) : p.orderedLayers.count l ≤ 1 := by
  rw [orderedLayers, Manifest.orderedLayers_eq, List.count_filterMap]
  refine Nat.le_trans (List.countP_mono_left ?_) (Nat.le_of_eq honce)
  intro d hd hfound
  exact decide_eq_true (hp.of_findTracked? (eq_of_beq hfound)).2

/-- **No tracked layer is lost in the order of the manifest, and none comes twice**, where no id is
the beginning of another and the manifest lists each id once. -/
theorem orderedLayers_perm (hp : p.IsKeyed) (hnamed : "" ∉ p.layers.ids)
    (hapart : p.layers.IsApart) (honce : ∀ id ∈ p.layers.ids, p.context.manifest.ListsOnce id) :
    p.orderedLayers.Perm p.layers.layers := by
  have hid {l : Layer} (hl : l ∈ p.layers.layers) : p.context.manifest.ListsOnce l.id := by
    refine honce l.id ?_
    rw [← map_id_layers hp]
    exact List.mem_map_of_mem hl
  have hmem (l : Layer) : l ∈ p.orderedLayers ↔ l ∈ p.layers.layers := by
    rw [orderedLayers, Manifest.orderedLayers_eq, List.mem_filterMap]
    constructor
    · rintro ⟨d, -, hfound⟩
      exact (hp.of_findTracked? hfound).1
    · intro hl
      -- the manifest lists the id, so a digest leads to the layer
      have hpos : 0 < p.context.manifest.layers.countP
          (fun d => l.id.toList <+: d.digest.encoded.toList) :=
        Nat.lt_of_lt_of_eq Nat.one_pos (hid hl).symm
      obtain ⟨d, hd, hbegins⟩ := List.countP_pos_iff.mp hpos
      exact ⟨d, hd, hp.findTracked?_of_isPrefix hnamed hapart hl (of_decide_eq_true hbegins)⟩
  have hordered : p.orderedLayers.Nodup := by
    refine List.nodup_iff_count_le_one.mpr fun l => ?_
    by_cases hl : l ∈ p.orderedLayers
    · exact count_orderedLayers_le hp (hid ((hmem l).mp hl))
    · rw [List.count_eq_zero_of_not_mem hl]
      exact Nat.zero_le 1
  have hlayers : p.layers.layers.Nodup := by
    refine List.Nodup.of_map Layer.id ?_
    rw [map_id_layers hp]
    exact p.layers.ids_increasing.imp String.ne_of_lt
  exact (List.perm_ext_iff_of_nodup hordered hlayers).mpr hmem

/-- **Matching is exact.**

* A digest stands for the layer under the shortest tracked id that is a non-empty beginning of its
  encoded value, and for none just if there is no such id. The value has as many bytes as
  characters, and its first bytes, as many as are taken, are those of a text.
* The layers of a manifest are matched in their order, each with the layer that its digest stands
  for, and just those are left out that stand for none.
* In a snapshot built from lines no tracked id is empty, so a digest stands for no layer just if its
  value begins with no tracked id. If no id is the beginning of another and the manifest lists each
  of them once, the layers in the order of the manifest are the tracked layers. -/
theorem correlation_is_exact :
    (∀ (t : LayerTable) (d : Digest),
        (∀ l, t.findTracked? d = some l ↔ ∃ id, t.IsShortest d id ∧ t.get? id = some l)
          ∧ (t.findTracked? d = none
              ↔ ∀ id ∈ t.ids, id ≠ "" → ¬id.toList <+: d.encoded.toList)
          ∧ (Text.Utf8.bytes d.encoded).length = d.encoded.length
          ∧ ∀ length ≤ d.encoded.length,
              (Text.Utf8.bytes d.encoded).take length = Text.Utf8.bytes (d.short length)
                ∧ (d.short length).length = length)
      ∧ (∀ (m : Manifest) (t : LayerTable),
        (m.correlate t).map (Prod.map id some)
            = (m.layers.filter (t.Covers ·.digest)).map (fun d => (d, t.findTracked? d.digest))
          ∧ (m.orderedLayers t).map some
            = (m.layers.filter (t.Covers ·.digest)).map (t.findTracked? ·.digest))
      ∧ ∀ p : Pull, p.BuiltFrom PullEvent.IsClassified →
        "" ∉ p.layers.ids
          ∧ (∀ d : Digest, p.layers.findTracked? d = none
              ↔ ∀ id ∈ p.layers.ids, ¬id.toList <+: d.encoded.toList)
          ∧ (p.layers.IsApart → (∀ id ∈ p.layers.ids, p.context.manifest.ListsOnce id) →
              p.orderedLayers.Perm p.layers.layers) := by
  have hnone (t : LayerTable) (d : Digest) : t.findTracked? d = none
      ↔ ∀ id ∈ t.ids, id ≠ "" → ¬id.toList <+: d.encoded.toList := by
    rw [LayerTable.findTracked?_eq_none]
    simp only [LayerTable.Abbreviates, not_and]
  refine ⟨?_, ?_, ?_⟩
  · intro t d
    refine ⟨fun l => LayerTable.findTracked?_eq_some, hnone t d, d.length_bytes_encoded, ?_⟩
    intro length hlength
    exact ⟨(d.bytes_short length).symm, LayerTable.length_short hlength⟩
  · intro m t
    exact ⟨m.map_correlate t, m.map_orderedLayers t⟩
  · intro p hbuilt
    have hnamed := hbuilt.empty_notMem_ids
    refine ⟨hnamed, ?_, orderedLayers_perm hbuilt.isKeyed hnamed⟩
    intro d
    rw [hnone]
    refine forall₂_congr fun id hid => ?_
    have hne : id ≠ "" := fun hempty => hnamed (hempty ▸ hid)
    exact ⟨fun h => h hne, fun h _ => h⟩

/-- A pull of an image of three layers. -/
def threeLayers : Context :=
  let described (encoded : String) (h : Digest.IsWord Digest.isEncodedChar encoded.toList) :
      Descriptor := ⟨.sha256 encoded h, 1, none⟩
  { podmanContext with
    manifest := { layers :=
      [described "b2c4" (by decide), described "b7d9" (by decide), described "a5e6" (by decide)] } }

/-- Two of the layers are tracked, and the first of them comes later in the manifest. -/
theorem correlation_is_exact_threeLayers :
    ∃ p : Pull, p.BuiltFrom PullEvent.IsClassified ∧ p.layers.ids = ["a5", "b2"]
      ∧ p.orderedLayers.map Layer.id = ["b2", "a5"] ∧ p.orderedLayers.Perm p.layers.layers := by
  have hread (line : String) (event : PullEvent)
      (h : (PullEvent.ofLine (Text.Utf8.bytes line)).toOption = some event) :
      event.IsClassified :=
    ⟨_, toOption_eq_some.mp h⟩
  have hfirst := hread "\x7b\"id\":\"a5\",\"status\":\"Already exists\"\x7d"
    (.layer "a5" .alreadyExists) (by decide +kernel)
  have hsecond := hread "\x7b\"id\":\"b2\",\"status\":\"Pulling fs layer\"\x7d"
    (.layer "b2" .pullingFsLayer) (by decide +kernel)
  have hview : (((start threeLayers (.layer "a5" .alreadyExists)).toOption.bind fun opened =>
        (opened.advance (.layer "b2" .pullingFsLayer)).toOption.map (opened, ·)).any
      fun (_, p) => p.layers.ids = ["a5", "b2"] ∧ p.orderedLayers.map Layer.id = ["b2", "a5"]
        ∧ p.layers.IsApart ∧ ∀ id ∈ p.layers.ids, p.context.manifest.ListsOnce id) = true := by
    decide +kernel
  obtain ⟨⟨opened, p⟩, hreached, hfacts⟩ := (Option.any_eq_true ..).mp hview
  obtain ⟨hids, hordered, hapart, honce⟩ := of_decide_eq_true hfacts
  obtain ⟨_, hopened, hnext⟩ := Option.bind_eq_some_iff.mp hreached
  obtain ⟨_, hadvance, hpair⟩ := Option.map_eq_some_iff.mp hnext
  cases hpair
  have hbuilt : p.BuiltFrom PullEvent.IsClassified :=
    .advance (.start hfirst (toOption_eq_some.mp hopened)) hsecond (toOption_eq_some.mp hadvance)
  exact ⟨p, hbuilt, hids, hordered, (correlation_is_exact.2.2 p hbuilt).2.2 hapart honce⟩

end Pull

end ImagePull
