import StreetDogs.Text.Printable
import StreetDogs.Text.Hex

/-!
# Quoted text

The form in which messages show a text they were given: between double quotes,
with everything escaped that would not be seen.
-/

namespace StreetDogs.Text

/-- A character inside quotes.  Six characters have escapes of their own, others
that are not printable are written by their code point. -/
def quotedChar (c : Char) : List Char :=
  match c with
  | '"' => ['\\', '"']
  | '\\' => ['\\', '\\']
  | '\n' => ['\\', 'n']
  | '\r' => ['\\', 'r']
  | '\t' => ['\\', 't']
  | '\x00' => ['\\', '0']
  | c => if isPrintable c then [c] else ['\\', 'u', '{'] ++ hexCharsOnto c.toNat ['}']

def quoted (text : String) : String :=
  String.ofList ('"' :: (text.toList.flatMap quotedChar ++ ['"']))

end StreetDogs.Text
