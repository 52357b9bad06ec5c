import ImagePull.Proofs.Json.Printing
import Mathlib.Data.List.Forall2

/-!
# Records as objects

An object carries the fields of a record if each of them stands in it at most once, holds a value
for its content where it stands, and has its default where it does not (`Carries`); what else the
object holds, the order of its members and the escapes of its keys are left open. The fields of such
an object are found (`Carries.exists_found`), and each is read as its content
(`IsFound.field?_of`). A record that is built from slots, of which those without a value are left
out (`present`), carries its fields (`carries_present`).
-/

namespace ImagePull.Json

/-! ## Names -/

/-- The keys of the members spell these names. -/
inductive SpellsNames : List (String × Json) → List (List UInt8 × Json) → Prop where
  | nil : SpellsNames [] []
  | cons {name : String} {key : List UInt8} {value : Json} {named : List (String × Json)}
    {members : List (List UInt8 × Json)} (first : SpellsChars name.toList key)
    (more : SpellsNames named members) :
    SpellsNames ((name, value) :: named) ((key, value) :: members)

variable {names : List String} {named : List (String × Json)} {members : List (List UInt8 × Json)}

theorem SpellsNames.mapM_bodyText? (h : SpellsNames named members) :
    members.mapM (fun m : List UInt8 × Json => (bodyText? m.1).map (·, m.2)) = some named := by
  induction h with
  | nil => rfl
  | cons first more ih =>
      rw [List.mapM_cons, first.bodyText?, ih]
      rfl

theorem spellsNames_escape (named : List (String × Json)) :
    SpellsNames named (named.map fun m => (escape m.1.toList, m.2)) := by
  induction named with
  | nil => exact .nil
  | cons m rest ih => exact .cons (spellsChars_escape _) ih

/-- The members with known names. -/
def known (names : List String) (named : List (String × Json)) : List (String × Json) :=
  named.filter fun m => names.contains m.1

/-- **Of an object the members with known names are found**, if none of them is there twice. -/
theorem fields?_of_spellsNames (h : SpellsNames named members)
    (once : ((known names named).map Prod.fst).Nodup) :
    (object members).fields? names = some (known names named) := by
  rw [fields?, h.mapM_bodyText?]
  exact if_pos once

theorem fields?_ofMembers {members : List (String × Json)}
    (h : ((members.filter fun m => names.contains m.1).map Prod.fst).Nodup) :
    (ofMembers members).fields? names = some (members.filter fun m => names.contains m.1) :=
  fields?_of_spellsNames (spellsNames_escape members) h

theorem lookup_known {name : String} (h : name ∈ names) (named : List (String × Json)) :
    (known names named).lookup name = named.lookup name := by
  induction named with
  | nil => rfl
  | cons m rest ih =>
      obtain ⟨other, value⟩ := m
      by_cases hsame : name = other
      · subst hsame
        have hhead : known names ((name, value) :: rest) = (name, value) :: known names rest :=
          List.filter_cons_of_pos (List.contains_iff_mem.mpr h)
        rw [hhead, List.lookup_cons_self, List.lookup_cons_self]
      · have hne : (name == other) = false := beq_false_of_ne hsame
        rw [List.lookup_cons, hne, ← ih, known, List.filter_cons]
        split
        · rw [List.lookup_cons, hne, known]
        · rw [known]

/-! ## Fields -/

/-- A field of a record: its name, and what may stand under that name, if anything does. -/
structure Field where
  name : String
  Allows : Option Json → Prop

/-- The field with this content: a value stands for the content, and no value for its default. -/
def Field.of {α : Type} (name : String) (IsValue : α → Json → Prop) (content default : α) :
    Field where
  name := name
  Allows
    | some value => IsValue content value
    | none => content = default

/-- The field with this content that has to be there. -/
def Field.required {α : Type} (name : String) (IsValue : α → Json → Prop) (content : α) :
    Field where
  name := name
  Allows
    | some value => IsValue content value
    | none => False

/-- Under each name stands what its field allows. -/
def IsFound (fields : List Field) (found : List (String × Json)) : Prop :=
  ∀ field ∈ fields, field.Allows (found.lookup field.name)

/-- The object carries the fields, whatever else it holds. -/
inductive Carries (fields : List Field) : Json → Prop where
  | object {named : List (String × Json)} {members : List (List UInt8 × Json)}
    (names : SpellsNames named members)
    (once : ((known (fields.map Field.name) named).map Prod.fst).Nodup)
    (found : IsFound fields named) : Carries fields (.object members)

variable {fields : List Field} {found : List (String × Json)}

/-- **The fields that an object carries are found.** -/
theorem Carries.exists_found {j : Json} (h : Carries fields j) :
    ∃ found, j.fields? (fields.map Field.name) = some found ∧ IsFound fields found := by
  cases h with
  | object names once found =>
      refine ⟨_, fields?_of_spellsNames names once, fun field hfield => ?_⟩
      rw [lookup_known (List.mem_map_of_mem hfield)]
      exact found field hfield

/-- **A field that is found is read as its content.** -/
theorem IsFound.field?_of {α : Type} {name : String} {content default : α}
    (h : IsFound fields found) (IsValue : α → Json → Prop)
    (hfield : .of name IsValue content default ∈ fields) {read? : Json → Option α}
    (hread : ∀ value, IsValue content value → read? value = some content) :
    field? found name default read? = some content := by
  have hallows : (Field.of name IsValue content default).Allows (found.lookup name) := h _ hfield
  rw [field?]
  cases hlookup : found.lookup name with
  | none =>
      rw [hlookup] at hallows
      exact congrArg some (Eq.symm hallows)
  | some value =>
      rw [hlookup] at hallows
      exact hread value hallows

/-- **A field that has to be there is read as its content.** -/
theorem IsFound.bind_of_required {α : Type} {name : String} {content : α}
    (h : IsFound fields found) (IsValue : α → Json → Prop)
    (hfield : .required name IsValue content ∈ fields) {read? : Json → Option α}
    (hread : ∀ value, IsValue content value → read? value = some content) :
    (found.lookup name).bind read? = some content := by
  have hallows : (Field.required name IsValue content).Allows (found.lookup name) := h _ hfield
  cases hlookup : found.lookup name with
  | none =>
      rw [hlookup] at hallows
      exact absurd hallows id
  | some value =>
      rw [hlookup] at hallows
      exact hread value hallows

/-! ## Values -/

/-- The string spells the text. -/
inductive IsText (s : String) : Json → Prop where
  | string {body : List UInt8} (h : SpellsChars s.toList body) : IsText s (.string body)

/-- The number of a count. -/
def IsWord (n : UInt64) (j : Json) : Prop :=
  j = .ofWord n

/-- The truth value. -/
def IsFlag (b : Bool) (j : Json) : Prop :=
  j = .bool b

/-- The value stands for the content, and null for none. -/
inductive IsOptional {α : Type} (IsValue : α → Json → Prop) : Option α → Json → Prop where
  | null : IsOptional IsValue none .null
  | value {a : α} {j : Json} (h : IsValue a j) : IsOptional IsValue (some a) j

/-- The elements of the array stand for the contents, in their order. -/
inductive IsList {α : Type} (IsValue : α → Json → Prop) : List α → Json → Prop where
  | array {contents : List α} {items : List Json} (h : List.Forall₂ IsValue contents items) :
    IsList IsValue contents (.array items)

theorem IsText.text? {s : String} {j : Json} (h : IsText s j) : j.text? = some s := by
  cases h with
  | string h => exact h.bodyText?

theorem isText_ofString (s : String) : IsText s (ofString s) :=
  .string (spellsChars_escape _)

/-- **What may be absent is read, absent or not.** -/
theorem IsOptional.nullable? {α : Type} {IsValue : α → Json → Prop} {read? : Json → Option α}
    {content : Option α} {j : Json} (h : IsOptional IsValue content j)
    (hnull : ∀ a, ¬IsValue a .null) (hread : ∀ a value, IsValue a value → read? value = some a) :
    nullable? read? j = some content := by
  cases h with
  | null => rfl
  | @value a j h =>
      have hvalue : (read? j).map some = some (some a) := congrArg (Option.map some) (hread a j h)
      cases j with
      | null => exact absurd h (hnull a)
      | _ => exact hvalue

theorem IsOptional.nullable?_text? {s : Option String} {j : Json} (h : IsOptional IsText s j) :
    Json.nullable? Json.text? j = some s :=
  h.nullable? nofun fun _ _ => IsText.text?

/-- **A list is read element by element.** -/
theorem IsList.list? {α : Type} {IsValue : α → Json → Prop} {read? : Json → Option α}
    {contents : List α} {j : Json} (h : IsList IsValue contents j)
    (hread : ∀ a value, IsValue a value → read? value = some a) :
    Json.list? read? j = some contents := by
  obtain ⟨h⟩ := h
  rw [Json.list?]
  induction h with
  | nil => rfl
  | cons first _ ih =>
      rw [List.mapM_cons, hread _ _ first, ih]
      rfl

theorem isList_map {α : Type} {IsValue : α → Json → Prop} {write : α → Json}
    (h : ∀ a, IsValue a (write a)) (contents : List α) :
    IsList IsValue contents (.array (contents.map write)) :=
  .array (List.forall₂_map_right_iff.mpr (List.forall₂_same.mpr fun a _ => h a))

theorem nullable?_ofString (s : String) : nullable? text? (ofString s) = some (some s) :=
  (IsOptional.value (isText_ofString s)).nullable?_text?

/-! ## Records that leave out what is absent -/

/-- The members of a record: what is absent is left out. -/
def present (slots : List (String × Option Json)) : List (String × Json) :=
  slots.flatMap fun slot => member? slot.1 slot.2

variable {slots : List (String × Option Json)}

theorem present_cons (name : String) (value : Option Json) (slots : List (String × Option Json)) :
    present ((name, value) :: slots) = member? name value ++ present slots :=
  List.flatMap_cons

theorem mem_present {m : String × Json} : m ∈ present slots ↔ (m.1, some m.2) ∈ slots := by
  obtain ⟨name, value⟩ := m
  induction slots with
  | nil => simp [present]
  | cons slot rest ih =>
      obtain ⟨other, held⟩ := slot
      rw [present_cons, List.mem_append, ih, List.mem_cons]
      refine or_congr_left ?_
      cases held <;> simp [member?]

theorem map_fst_present (slots : List (String × Option Json)) :
    ((present slots).map Prod.fst).Sublist (slots.map Prod.fst) := by
  induction slots with
  | nil => exact List.Sublist.slnil
  | cons slot rest ih =>
      obtain ⟨name, value⟩ := slot
      rw [present_cons, List.map_append, List.map_cons]
      cases value with
      | none => exact ih.cons _
      | some value => exact ih.cons_cons _

/-- The slots hold what the fields allow. -/
def Fill (slots : List (String × Option Json)) (fields : List Field) : Prop :=
  List.Forall₂ (fun slot field => slot.1 = field.name ∧ field.Allows slot.2) slots fields

theorem Fill.map_fst (h : Fill slots fields) : slots.map Prod.fst = fields.map Field.name := by
  induction h with
  | nil => rfl
  | cons first _ ih => rw [List.map_cons, List.map_cons, first.1, ih]

/-- **Under each name stands what its slot holds.** -/
theorem Fill.isFound (h : Fill slots fields) (once : (slots.map Prod.fst).Nodup) :
    IsFound fields (present slots) := by
  induction h with
  | nil => exact List.forall_mem_nil _
  | @cons slot field slots fields first rest ih =>
      obtain ⟨name, value⟩ := slot
      obtain ⟨rfl, hallows⟩ := first
      obtain ⟨hnot, hnodup⟩ := List.nodup_cons.mp once
      refine List.forall_mem_cons.mpr ⟨?_, fun other hother => ?_⟩
      · -- the names are distinct: what stands under this one is in the first slot or nowhere
        have hnone : (present slots).lookup field.name = none := by
          refine List.lookup_eq_none_iff.mpr fun m hm => bne_iff_ne.mpr fun heq => hnot ?_
          exact heq ▸ (map_fst_present slots).subset (List.mem_map_of_mem hm)
        rw [present_cons, List.lookup_append, hnone]
        cases value <;> simpa [member?] using hallows
      · have hname : other.name ∈ slots.map Prod.fst := by
          rw [Fill.map_fst rest]
          exact List.mem_map_of_mem hother
        have hne : (other.name == field.name) = false :=
          beq_false_of_ne fun heq => hnot (heq ▸ hname)
        have hskip : (member? field.name value).lookup other.name = none := by
          cases value <;> simp [member?, List.lookup_cons, hne]
        rw [present_cons, List.lookup_append, hskip, Option.none_or]
        exact ih hnodup other hother

/-- **A record carries the fields that its slots fill.** -/
theorem carries_present (h : Fill slots fields) (once : (slots.map Prod.fst).Nodup) :
    Carries fields (ofMembers (present slots)) := by
  refine .object (spellsNames_escape _) ?_ (h.isFound once)
  exact (once.sublist (map_fst_present slots)).sublist (List.Sublist.map _ List.filter_sublist)

/-- What may be absent fills a slot, absent or not. -/
theorem allows_map {α : Type} {name : String} {IsValue : α → Json → Prop} {write : α → Json}
    (h : ∀ a, IsValue a (write a)) (content : Option α) :
    (Field.of name (IsOptional IsValue) content none).Allows (content.map write) := by
  cases content with
  | none => rfl
  | some a => exact .value (h a)

theorem wellFormed_present (h : ∀ slot ∈ slots, ∀ value ∈ slot.2, WellFormed value) :
    WellFormed (ofMembers (present slots)) :=
  wellFormed_ofMembers fun _ hm => h _ (mem_present.mp hm) _ rfl

end ImagePull.Json
