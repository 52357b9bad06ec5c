import ImagePull.Yaml.Document
import ImagePull.Number.Decimal
import ImagePull.Text.Trim

/-!
# Values of YAML scalars

A reader that knows what it wants takes a scalar's text as it is, or asks whether
a plain scalar spells null, a truth value or a count. A reader that does not know
lets the scalar decide: a plain one is null, a truth value or a number if it is
spelled like one, and a text otherwise.
-/

namespace ImagePull.Yaml

/-- The spellings of null. -/
def spellsNull (s : String) : Bool :=
  ["null", "Null", "NULL", "~"].contains s

/-- The truth value that a text spells. -/
def flagOf? (s : String) : Option Bool :=
  if ["true", "True", "TRUE"].contains s then some true
  else if ["false", "False", "FALSE"].contains s then some false
  else none

/-- The bases of whole numbers other than ten, with what stands before the digits. -/
def bases : List (List Char × Nat) :=
  [(['0', 'x'], 16), (['0', 'o'], 8), (['0', 'b'], 2)]

/-- A number in one of the bases other than ten. -/
def basedValue? (cs : List Char) : Option Nat :=
  bases.findSome? fun (start, base) =>
    (Text.afterStart? start cs).bind (Text.valueIn? base)

/-- Whether the text has a zero before other digits, which makes it no number. -/
def hasLeadingZero (cs : List Char) : Bool :=
  match cs with
  | '0' :: rest => !rest.isEmpty && rest.all Char.isDigit
  | _ => false

/-- The magnitude of a whole number without a sign. -/
def magnitude? (cs : List Char) : Option Nat :=
  basedValue? cs <|> if hasLeadingZero cs then none else Text.value? cs

/-- The whole number that a text spells: whether it has a minus sign, and its
magnitude. -/
def integer? (cs : List Char) : Option (Bool × Nat) :=
  match cs with
  | '-' :: rest => (magnitude? rest).map (true, ·)
  | '+' :: rest => (magnitude? rest).map (false, ·)
  | _ => (magnitude? cs).map (false, ·)

/-- The count that a text spells, which may have a plus sign and fits 64 bits. -/
def wordOf? (s : String) : Option UInt64 :=
  let cs := s.toList
  let n := match cs with
    | '+' :: rest => magnitude? rest
    | _ => magnitude? cs
  n.bind fun n => if n < UInt64.size then some (UInt64.ofNat n) else none

/-- Whether the text spells a number with a point or a power of ten, an infinity, or
a value that is no number. What is too large for a number is a text. -/
def spellsReal (s : String) : Bool :=
  let cs := s.toList
  let unsigned := match cs with
    | '-' :: rest => rest
    | '+' :: rest => rest
    | _ => cs
  [".inf", ".Inf", ".INF"].contains (String.ofList unsigned) ||
    [".nan", ".NaN", ".NAN"].contains s ||
    (Number.Decimal.ofUnsigned? unsigned).any Number.Decimal.isFinite

/-- What a scalar decides to be. A whole number with a minus sign is negative, also
zero. -/
inductive Value where
  | null
  | flag (value : Bool)
  | word (value : UInt64)
  | negative
  | real
  | text (value : String)
deriving DecidableEq, Repr

/-- The bound on the magnitude of negative numbers of 128 bits. -/
def wideBound : Nat := 170141183460469231731687303715884105728

/-- The value of a whole number; those between 64 and 128 bits have none. -/
def Value.ofInteger? : Bool × Nat → Option (Option Value)
  | (false, n) =>
    if n < UInt64.size then some (some (.word (UInt64.ofNat n)))
    else if n < 2 * wideBound then none
    else some none
  | (true, n) =>
    if 2 * n ≤ UInt64.size then some (some .negative)
    else if n ≤ wideBound then none
    else some none

/-- The value of a plain scalar without a tag. -/
def Value.ofPlain? (s : String) : Option Value :=
  let cs := s.toList
  let unsigned := match cs with
    | '-' :: rest => rest
    | '+' :: rest => rest
    | _ => cs
  let other : Option Value :=
    if !hasLeadingZero unsigned && spellsReal s then some .real else some (.text s)
  if s = "" ∨ spellsNull s then some .null
  else match flagOf? s with
    | some b => some (.flag b)
    | none => match integer? cs with
      | none => other
      | some n => match Value.ofInteger? n with
        | some (some v) => some v
        | some none => other
        | none => none

/-- The value of a scalar. A scalar with the tag of a core type has to spell a value
of that type, and one with a name for a tag has no value here. -/
def Value.ofScalar? (tag : Option Tag) (style : Style) (s : String) : Option Value :=
  match tag with
  | none => if style = .plain then ofPlain? s else some (.text s)
  | some t =>
    if t.name?.isSome then none
    else if t = .core "bool" then (flagOf? s).map .flag
    else if t = .core "int" then ((integer? s.toList).bind ofInteger?).join
    else if t = .core "float" then if spellsReal s then some .real else none
    else if t = .core "null" then if spellsNull s then some .null else none
    else if t.isLocal ∧ style = .plain then ofPlain? s
    else some (.text s)

namespace Node

/-- The text of a scalar, however it is written. -/
def text? : Node → Option String
  | .scalar _ _ s => some s
  | _ => none

/-- Whether a scalar means its value only where it is plain, or literal with this
tag. -/
def isBare (name : String) (tag : Option Tag) (style : Style) : Bool :=
  style = .plain || (style = .literal && tag = some (.core name))

/-- The truth value of a plain scalar. -/
def flag? : Node → Option Bool
  | .scalar tag style s => if isBare "bool" tag style then flagOf? s else none
  | _ => none

/-- The count of a plain scalar. -/
def word? : Node → Option UInt64
  | .scalar tag style s => if isBare "int" tag style then wordOf? s else none
  | _ => none

/-- A value that may be left out: `none` for an empty or null plain scalar. A scalar
tagged as null has to spell it. -/
def nullable? {α : Type} (read? : Node → Option α) (n : Node) : Option (Option α) :=
  match n with
  | .scalar none .plain s => if s = "" ∨ spellsNull s then some none else (read? n).map some
  | .scalar (some tag) .plain s =>
    if tag = .core "null" then if spellsNull s then some none else none
    else (read? n).map some
  | _ => (read? n).map some

/-- The name of one of several choices: the text of a scalar, or a name for its tag
before nothing. -/
def choice? : Node → Option String
  | .scalar tag style s =>
    match tag.bind Tag.name? with
    | none => some s
    | some name => if style = .plain ∧ (s = "" ∨ spellsNull s) then some name else none
  | _ => none

/-- The pairs of a mapping; where nothing is written there are none. -/
def pairs? : Node → Option (List (Node × Node))
  | .mapping _ pairs => some pairs
  | .scalar _ .plain "" => some []
  | _ => none

/-- The fields of a record: the keys are names it knows, and no two are the same. -/
def fields? (names : List String) (n : Node) : Option (List (String × Node)) := do
  let pairs ← n.pairs?
  let fields ← pairs.mapM fun p => p.1.text?.map (·, p.2)
  let keys := fields.map Prod.fst
  if keys.all names.contains ∧ keys.Nodup then some fields else none

/-- A field that may be missing. -/
def field? {α : Type} (fields : List (String × Node)) (name : String) (missing : α)
    (read? : Node → Option α) : Option α :=
  match fields.lookup name with
  | none => some missing
  | some n => read? n

mutual

/-- Whether every scalar in a node has a value. -/
def hasValues : Node → Bool
  | .scalar tag style s => (Value.ofScalar? tag style s).isSome
  | .sequence tag items => (tag.bind Tag.name?).isNone && allHaveValues items
  | .mapping tag pairs => (tag.bind Tag.name?).isNone && pairsHaveValues pairs

/-- Whether every scalar in a list of nodes has a value. -/
def allHaveValues : List Node → Bool
  | [] => true
  | n :: rest => hasValues n && allHaveValues rest

/-- Whether every scalar in a list of pairs has a value. -/
def pairsHaveValues : List (Node × Node) → Bool
  | [] => true
  | (k, v) :: rest => hasValues k && hasValues v && pairsHaveValues rest

end

end Node

end ImagePull.Yaml
