import StreetDogs.Json.Number
import StreetDogs.Json.Lexeme

/-!
# Values of a document

The values that documents are written from and that requests carry.  An object
keeps its members in order, so a value determines its text.
-/

namespace StreetDogs.Json

inductive Value where
  | null
  | bool (value : Bool)
  | number (number : Number)
  | string (content : String)
  | array (items : List Value)
  | object (members : List (String × Value))

namespace Value

def int (n : Int) : Value := .number (.integer n)

def real (x : Float) : Value := .number (.real x)

/-! ## Writing -/

/-- The lexeme of a number; one that is not finite is written as `null`. -/
def numberLexeme (number : Number) : Lexeme :=
  match number.numeral? with
  | some numeral => .number numeral
  | none => .null

mutual

def lexemes : Value → List Lexeme
  | null => [.null]
  | bool value => [.bool value]
  | number n => [numberLexeme n]
  | string content => [.string (some content)]
  | array [] => [.openBracket, .closeBracket]
  | array (item :: items) => .openBracket :: (item.lexemes ++ moreItems items)
  | object [] => [.openBrace, .closeBrace]
  | object (member :: members) => .openBrace :: (memberLexemes member ++ moreMembers members)

/-- The lexemes of the items behind the first, with the closing bracket. -/
def moreItems : List Value → List Lexeme
  | [] => [.closeBracket]
  | item :: items => .comma :: (item.lexemes ++ moreItems items)

/-- The lexemes of the members behind the first, with the closing brace. -/
def moreMembers : List (String × Value) → List Lexeme
  | [] => [.closeBrace]
  | member :: members => .comma :: (memberLexemes member ++ moreMembers members)

def memberLexemes : String × Value → List Lexeme
  | (key, value) => .string (some key) :: .colon :: value.lexemes

end

/-- The text of a value, without blanks. -/
def text (value : Value) : String := String.ofList (value.lexemes.flatMap Lexeme.chars)

/-! ## Sorted objects -/

/-- The members in ascending order of their keys, the last of several members
with one key. -/
def insertMember (key : String) (value : Value) :
    List (String × Value) → List (String × Value)
  | [] => [(key, value)]
  | (other, old) :: members =>
    if key < other then (key, value) :: (other, old) :: members
    else if key = other then (key, value) :: members
    else (other, old) :: insertMember key value members

mutual

/-- The value with the members of all its objects in ascending order. -/
def sorted : Value → Value
  | null => null
  | bool value => bool value
  | number n => number n
  | string content => string content
  | array items => array (sortedItems items)
  | object members => object (sortedMembers [] members)

def sortedItems : List Value → List Value
  | [] => []
  | item :: items => item.sorted :: sortedItems items

/-- Adds members, each sorted, to sorted members. -/
def sortedMembers (done : List (String × Value)) :
    List (String × Value) → List (String × Value)
  | [] => done
  | member :: members => sortedMembers (sortedMember done member) members

def sortedMember (done : List (String × Value)) : String × Value → List (String × Value)
  | (key, value) => insertMember key value.sorted done

end

/-- The value as a number of 64 bits without sign. -/
def natural? : Value → Option Nat
  | number (.integer n) => if 0 ≤ n ∧ n < UInt64.size then some n.toNat else none
  | _ => none

end Value

end StreetDogs.Json
