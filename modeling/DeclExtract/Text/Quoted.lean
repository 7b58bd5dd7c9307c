import DeclExtract.Text.Hexadecimal
import DeclExtract.Text.Unprintable

/-!
# Quoted names

The form in which a message names a declaration: between double quotes, on one line, and with every
character visible. A quote and a backslash get a backslash before them, four control characters have
a letter, and every other character that cannot stand alone in print is written by number.
-/

namespace DeclExtract.Text

/-- One character of a quoted name. -/
def quotedChar (c : Char) : List Char :=
  if c = '"' then ['\\', '"']
  else if c = '\\' then ['\\', '\\']
  else if c = '\x00' then ['\\', '0']
  else if c = '\t' then ['\\', 't']
  else if c = '\n' then ['\\', 'n']
  else if c = '\r' then ['\\', 'r']
  else if isUnprintable c then ['\\', 'u', '\x7b'] ++ Hexadecimal.digits c.toNat ++ ['\x7d']
  else [c]

/-- A name as a message shows it. -/
def quoted (name : String) : String :=
  String.ofList ('"' :: name.toList.flatMap quotedChar ++ ['"'])

end DeclExtract.Text
