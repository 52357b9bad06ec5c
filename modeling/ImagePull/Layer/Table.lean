import ImagePull.Layer.Basic

/-!
# Tables of layers

The layers of a pull, each under an id, in strictly increasing order of these ids.
The order is part of the table. `get?_insert` says what an insertion changes: the
layer under the given id, and nothing else.
-/

namespace ImagePull

/-- Layers under ids in strictly increasing order. -/
structure LayerTable where
  entries : List (String × Layer)
  increasing : entries.Pairwise fun a b => a.1 < b.1
deriving DecidableEq

namespace LayerTable

/-- The table without layers. -/
def empty : LayerTable := ⟨[], .nil⟩

/-- The layer under an id. -/
def get? (t : LayerTable) (id : String) : Option Layer :=
  (t.entries.find? fun e => e.1 == id).map Prod.snd

/-- Puts a layer in the place of its id, in place of one that is there. -/
def place (id : String) (l : Layer) : List (String × Layer) → List (String × Layer)
  | [] => [(id, l)]
  | e :: es =>
    if id < e.1 then (id, l) :: e :: es
    else if id = e.1 then (id, l) :: es
    else e :: place id l es

theorem mem_place {id : String} {l : Layer} {y : String × Layer} {es : List (String × Layer)}
    (h : y ∈ place id l es) : y = (id, l) ∨ y ∈ es := by
  induction es with
  | nil => simpa [place] using h
  | cons e es ih =>
    unfold place at h
    split at h
    · simpa using h
    · split at h
      · rcases List.mem_cons.mp h with rfl | h
        · exact .inl rfl
        · exact .inr (List.mem_cons_of_mem _ h)
      · rcases List.mem_cons.mp h with rfl | h
        · exact .inr List.mem_cons_self
        · exact (ih h).imp_right (List.mem_cons_of_mem _)

theorem place_increasing (id : String) (l : Layer) {es : List (String × Layer)}
    (h : es.Pairwise fun a b => a.1 < b.1) :
    (place id l es).Pairwise fun a b => a.1 < b.1 := by
  induction es with
  | nil => simp [place]
  | cons e es ih =>
    obtain ⟨he, hes⟩ := List.pairwise_cons.mp h
    unfold place
    split
    · next hlt =>
      refine List.pairwise_cons.mpr ⟨fun y hy => ?_, h⟩
      rcases List.mem_cons.mp hy with rfl | hy
      · exact hlt
      · exact String.lt_trans hlt (he y hy)
    · split
      · next heq => exact List.pairwise_cons.mpr ⟨fun y hy => heq ▸ he y hy, hes⟩
      · next hnlt hne =>
        refine List.pairwise_cons.mpr ⟨fun y hy => ?_, ih hes⟩
        rcases mem_place hy with rfl | hy
        · exact Decidable.by_contra fun hge =>
            hne (String.le_antisymm (String.not_lt.mp hge) (String.not_lt.mp hnlt))
        · exact he y hy

/-- The table with a layer put in under an id. -/
def insert (t : LayerTable) (id : String) (l : Layer) : LayerTable :=
  ⟨place id l t.entries, place_increasing id l t.increasing⟩

/-- The table of a sequence of layers under their own ids, of which the last under
an id stays. -/
def ofList (layers : List Layer) : LayerTable :=
  layers.foldl (fun t l => t.insert l.id l) empty

/-- The layers of the table, in increasing order of the ids they are under. -/
def layers (t : LayerTable) : List Layer := t.entries.map Prod.snd

/-- The ids of the table, in increasing order. -/
def ids (t : LayerTable) : List String := t.entries.map Prod.fst

/-- Ids in increasing order, each as often as it is given. -/
def sortIds (ids : List String) : List String :=
  ids.mergeSort fun a b => decide (a ≤ b)

/-- Ids in increasing order, each once. -/
def distinctIds (ids : List String) : List String :=
  (ofList (ids.map fun id => ⟨id, .pullingFsLayer⟩)).ids

/-- How many layers the table has. -/
def size (t : LayerTable) : Nat := t.entries.length

/-! ## Laws -/

@[ext]
theorem ext {s t : LayerTable} (h : s.entries = t.entries) : s = t := by
  cases s; cases t; cases h; rfl

@[simp]
theorem get?_empty (id : String) : empty.get? id = none := rfl

theorem find?_place (id : String) (l : Layer) (key : String) {es : List (String × Layer)}
    (h : es.Pairwise fun a b => a.1 < b.1) :
    (place id l es).find? (fun e => e.1 == key) =
      if id = key then some (id, l) else es.find? fun e => e.1 == key := by
  induction es with
  | nil => by_cases hl : id = key <;> simp [place, hl]
  | cons e es ih =>
    obtain ⟨he, hes⟩ := List.pairwise_cons.mp h
    unfold place
    split
    · by_cases hl : id = key <;> simp [hl]
    · split
      · next heq => by_cases hl : id = key <;> simp_all
      · next hne =>
        by_cases hkey : e.1 = key
        · have hl : id ≠ key := fun hl => hne (hl.trans hkey.symm)
          simp [hkey, hl]
        · simp [hkey, ih hes]

theorem get?_insert (t : LayerTable) (id : String) (l : Layer) (key : String) :
    (t.insert id l).get? key = if id = key then some l else t.get? key := by
  simp only [get?, insert, find?_place id l key t.increasing]
  split <;> rfl

end LayerTable

end ImagePull
