import MethodTracing.Text.Printable
import MethodTracing.Text.Numeral

/-!
# Quoted texts

How a text is shown inside a message or a listing: in double quotes, on one line, with every
character visible.  A list of texts is shown in square brackets.
-/

namespace MethodTracing
namespace Text

/-- One character between double quotes. -/
def quoteChar (char : Char) : List Char :=
  if char = '\x00' then ['\\', '0']
  else if char = '\t' then ['\\', 't']
  else if char = '\r' then ['\\', 'r']
  else if char = '\n' then ['\\', 'n']
  else if char = '"' then ['\\', '"']
  else if char = '\\' then ['\\', '\\']
  else if isPrintable char then [char]
  else ['\\', 'u', '\x7b'] ++ (hexadecimal char.toNat).toList ++ ['\x7d']

/-- A text in double quotes, with its invisible characters written as escapes. -/
def quote (text : String) : String :=
  String.ofList ('"' :: text.toList.flatMap quoteChar ++ ['"'])

/-- Quoted texts in square brackets, separated by commas. -/
def quoteList (texts : List String) : String :=
  "[" ++ String.intercalate ", " (texts.map quote) ++ "]"

end Text
end MethodTracing
