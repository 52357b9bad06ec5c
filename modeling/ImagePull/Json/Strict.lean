import ImagePull.Json.Basic
import ImagePull.Number.Approximation

/-!
# Documents that can be read in full

A reader that keeps everything decodes every string, needs every number to be
finite as it reads numbers, and goes only so deep into nested collections.
-/

namespace ImagePull.Json

/-- Whether a number is finite as it is read. -/
def isReadableNumber (lexeme : List UInt8) : Bool :=
  let unsigned := match lexeme.map fun b => Char.ofNat b.toNat with
    | '-' :: rest => rest
    | literal => literal
  (Number.Decimal.ofLeading? unsigned).any fun x => !x.exceeds

mutual

/-- Whether a document can be read in full, with collections nested at most `depth`
deep. -/
def isReadable (depth : Nat) : Json → Bool
  | .null => true
  | .bool _ => true
  | .number lexeme => isReadableNumber lexeme
  | .string body => (bodyText? body).isSome
  | .array items => match depth with
    | 0 => false
    | d + 1 => itemsAreReadable d items
  | .object members => match depth with
    | 0 => false
    | d + 1 => membersAreReadable d members

/-- Whether every element of an array can be read in full. -/
def itemsAreReadable (depth : Nat) : List Json → Bool
  | [] => true
  | item :: rest => isReadable depth item && itemsAreReadable depth rest

/-- Whether every member of an object can be read in full. -/
def membersAreReadable (depth : Nat) : List (List UInt8 × Json) → Bool
  | [] => true
  | (key, value) :: rest =>
    (bodyText? key).isSome && isReadable depth value && membersAreReadable depth rest

end

/-- The deepest nesting that is read in full. -/
def readableDepth : Nat := 127

/-- The last member of an object under a name. -/
def lastMember? (name : String) : Json → Option Json
  | .object members =>
    (members.reverse.find? fun m => bodyText? m.1 = some name).map Prod.snd
  | _ => none

end ImagePull.Json
