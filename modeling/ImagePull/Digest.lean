import ImagePull.Text.Blank

/-!
# Content digests

A digest names content by an algorithm and an encoded value, written
`algorithm:encoded`. The algorithm uses lower-case letters, digits and `+._-`,
the encoded value letters, digits and `=_-`; neither is empty. `Digest.parse`
takes a text with blanks around it; its parts are cut at the first colon.
-/

namespace ImagePull

/-- Why a text is no digest. -/
inductive DigestError where
  | empty
  | missingAlgorithm (text : String)
  | invalidAlgorithm (algorithm : String)
  | invalidEncoded (encoded : String)
deriving DecidableEq, Repr

/-- The wording of an error. -/
def DigestError.message : DigestError → String
  | .empty => "digest cannot be empty"
  | .missingAlgorithm text => "digest is missing an algorithm prefix: " ++ text
  | .invalidAlgorithm algorithm => "invalid digest algorithm: " ++ algorithm
  | .invalidEncoded encoded => "invalid digest encoding: " ++ encoded

namespace Digest

/-- A character of an algorithm. -/
def isAlgorithmChar (c : Char) : Bool :=
  c.isLower || c.isDigit || c == '+' || c == '.' || c == '_' || c == '-'

/-- A character of an encoded value. -/
def isEncodedChar (c : Char) : Bool :=
  c.isAlphanum || c == '=' || c == '_' || c == '-'

/-- A non-empty sequence whose characters all belong to a class. -/
def IsWord (inClass : Char → Bool) (cs : List Char) : Prop :=
  cs ≠ [] ∧ cs.all inClass = true

instance (inClass : Char → Bool) (cs : List Char) : Decidable (IsWord inClass cs) :=
  inferInstanceAs (Decidable (_ ∧ _))

end Digest

/-- A content digest. -/
structure Digest where
  algorithm : String
  encoded : String
  algorithm_word : Digest.IsWord Digest.isAlgorithmChar algorithm.toList
  encoded_word : Digest.IsWord Digest.isEncodedChar encoded.toList
deriving DecidableEq

namespace Digest

/-- The digest of two parts, each checked in turn. -/
def ofParts (algorithm encoded : List Char) : Except DigestError Digest :=
  if ha : IsWord isAlgorithmChar algorithm then
    if he : IsWord isEncodedChar encoded then
      .ok ⟨String.ofList algorithm, String.ofList encoded, by simpa using ha, by simpa using he⟩
    else .error (.invalidEncoded (String.ofList encoded))
  else .error (.invalidAlgorithm (String.ofList algorithm))

/-- Reads a digest that may have blanks around it. -/
def parse (s : String) : Except DigestError Digest :=
  let text := Text.trim Text.isBlank s.toList
  if text = [] then .error .empty
  else match Text.cutFirst? ':' text with
    | none => .error (.missingAlgorithm (String.ofList text))
    | some parts => ofParts parts.1 parts.2

/-- The digest as it is written. -/
def text (d : Digest) : String :=
  d.algorithm ++ ":" ++ d.encoded

/-- The first characters of the encoded value, all of them if there are fewer. -/
def short (d : Digest) (length : Nat) : String :=
  String.ofList (d.encoded.toList.take length)

/-- The order of digests: by algorithm, then by encoded value. -/
def order (d e : Digest) : Ordering :=
  (compare d.algorithm e.algorithm).then (compare d.encoded e.encoded)

end Digest

end ImagePull
