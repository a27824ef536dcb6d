import TokenCrypto.Text.Ascii
import TokenCrypto.Text.Printable

/-!
# Quoted text

How a diagnosis shows a text: between quotes, with escapes for the quote, the backslash and every
character that is not shown as it is. Single quotes are used unless the text has a single quote and
no double quote.
-/

namespace TokenCrypto.Quoted

def delimiter (text : List Char) : Char :=
  if text.contains '\'' && !text.contains '"' then '"' else '\''

/-- One character of a text between the given quotes. -/
def escape (quote c : Char) : String :=
  if c = quote ∨ c = '\\' then "\\" ++ c.toString
  else if c = '\n' then "\\n"
  else if c = '\r' then "\\r"
  else if c = '\t' then "\\t"
  else if Printable.isShown c then c.toString
  else NonAscii.escape c

def quote (text : String) : String :=
  let q := delimiter text.toList
  q.toString ++ String.join (text.toList.map (escape q)) ++ q.toString

end TokenCrypto.Quoted
