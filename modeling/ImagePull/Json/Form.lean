import ImagePull.Json.Basic

/-!
# Forms of JSON values

Who takes over a whole document needs each part of it to have a certain form, also the
parts that nobody looks at. A form is a test on values; forms of collections are made
from those of their parts. `Form.fields?` reads a record and keeps it only if each of
its fields has its form.
-/

namespace ImagePull.Json

/-- A test that the values of a form pass. -/
abbrev Form := Json → Bool

namespace Form

/-- Every value. -/
def any : Form :=
  fun _ => true

/-- The texts. -/
def text : Form :=
  fun j => j.text?.isSome

/-- The truth values. -/
def flag : Form :=
  fun j => j.flag?.isSome

/-- The bound on the magnitude of whole numbers of 64 bits with a sign. -/
def wholeBound : Nat := 9223372036854775808

/-- The whole numbers of 64 bits with a sign; there is no negative zero. -/
def whole : Form
  | .number lexeme =>
    match lexeme.map fun b => Char.ofNat b.toNat with
    | '-' :: digits => (Text.value? digits).any fun n => 0 < n && n ≤ wholeBound
    | digits => (Text.value? digits).any (· < wholeBound)
  | _ => false

/-- The texts of a list; a choice may also be the only key of an object, over null. -/
def choice (names : List String) : Form
  | .string body => (bodyText? body).any names.contains
  | .object [(key, .null)] => (bodyText? key).any names.contains
  | _ => false

/-- The values of a form, and null. -/
def orNull (f : Form) : Form
  | .null => true
  | j => f j

/-- Fields that share a form and may be null. -/
def nullable (f : Form) (names : List String) : List (String × Form) :=
  names.map (·, orNull f)

/-- The arrays whose elements have a form. -/
def list (f : Form) : Form
  | .array items => items.all f
  | _ => false

/-- The objects whose members have a form, under any keys that are texts. -/
def table (f : Form) : Form
  | .object members => members.all fun m => (bodyText? m.1).isSome && f m.2
  | _ => false

/-- The fields of a record, if each has its form. A field that is missing counts as
null; in an array none is missing. -/
def fields? (forms : List (String × Form)) (j : Json) : Option (List (String × Json)) := do
  let fields ← j.fields? (forms.map Prod.fst)
  let isComplete := match j with
    | .array items => items.length = forms.length
    | _ => true
  let isFormed (named : String × Form) : Bool :=
    named.2 ((fields.lookup named.1).getD .null)
  if isComplete && forms.all isFormed then some fields else none

/-- The records whose fields have their forms. -/
def record (forms : List (String × Form)) : Form :=
  fun j => (fields? forms j).isSome

end Form

end ImagePull.Json
