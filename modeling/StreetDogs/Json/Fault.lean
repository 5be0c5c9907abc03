/-!
# Faults of documents

Why a text does not decode.  Only faults of fields and variants name their
details to clients; all others are told in words that may change.
-/

namespace StreetDogs.Json

inductive Fault where
  /-- The text breaks off or is no document. -/
  | malformed
  | unexpectedType
  | loneSurrogate
  | numberOutOfRange
  | tooDeep
  /-- An array in place of an object has too few or too many items. -/
  | wrongLength
  /-- Something follows the value. -/
  | trailingText
  | missingField (field : String)
  | duplicateField (field : String)
  | unknownVariant (name : String) (known : List String)
  /-- A fault found elsewhere, in its own words. -/
  | other (text : String)
deriving DecidableEq, Repr

namespace Fault

/-- A name between grave accents. -/
def ticked (name : String) : String := "`" ++ name ++ "`"

/-- The known variants: two are joined by "or", more are listed. -/
def knownVariants : List String → String
  | [first, second] => "expected " ++ ticked first ++ " or " ++ ticked second
  | known => "expected one of " ++ ", ".intercalate (known.map ticked)

/-- The details that are told to clients. -/
def detail? : Fault → Option String
  | missingField field => some ("missing field " ++ ticked field)
  | duplicateField field => some ("duplicate field " ++ ticked field)
  | unknownVariant name known =>
    some ("unknown variant " ++ ticked name ++ ", " ++ knownVariants known)
  | _ => none

def message (fault : Fault) : String :=
  match fault with
  | malformed => "malformed document"
  | unexpectedType => "unexpected type of value"
  | loneSurrogate => "unpaired surrogate in a string"
  | numberOutOfRange => "number out of range"
  | tooDeep => "document nested too deeply"
  | wrongLength => "wrong number of items"
  | trailingText => "text after the end of the document"
  | other text => text
  | missingField _ | duplicateField _ | unknownVariant _ _ => fault.detail?.getD ""

end Fault

end StreetDogs.Json
