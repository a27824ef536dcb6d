import TokenCrypto.Json.Value

/-!
# JSON tokens

The words of a JSON text. A text is cut into words from left to right; where no word begins, the cut
ends with `Token.junk`, so that a reader meets the fault where it stands and not before.

Between words there may be spaces, tabs, line feeds and carriage returns, and nothing else.
-/

namespace TokenCrypto.Json

/-- A word of a JSON text. An integer keeps its digits: how many there are is a question of its own.
-/
inductive Token where
  | listOpen
  | listClose
  | objectOpen
  | objectClose
  | colon
  | comma
  | null
  | bool (value : Bool)
  | integer (negative : Bool) (digits : List Char)
  | real (text : String)
  | text (value : Text)
  | junk
  deriving DecidableEq, Repr

namespace Token

/-- The four characters that may stand between words. -/
def isBlank (c : Char) : Bool := c = ' ' || c = '\t' || c = '\n' || c = '\r'

/-! ## Texts -/

/-- The value of a hexadecimal digit of either case. -/
def hexDigit? (c : Char) : Option Nat :=
  if '0' ≤ c ∧ c ≤ '9' then some (c.toNat - '0'.toNat)
  else if 'a' ≤ c ∧ c ≤ 'f' then some (c.toNat - 'a'.toNat + 10)
  else if 'A' ≤ c ∧ c ≤ 'F' then some (c.toNat - 'A'.toNat + 10)
  else none

/-- The UTF-16 unit that four hexadecimal digits name. -/
def unit? (a b c d : Char) : Option Nat := do
  let a ← hexDigit? a
  let b ← hexDigit? b
  let c ← hexDigit? c
  let d ← hexDigit? d
  return a * 4096 + b * 256 + c * 16 + d

/-- The code point that a letter after a backslash stands for. -/
def shortEscape? (c : Char) : Option Nat :=
  if c = '"' ∨ c = '\\' ∨ c = '/' then some c.toNat
  else if c = 'b' then some 8
  else if c = 'f' then some 12
  else if c = 'n' then some 10
  else if c = 'r' then some 13
  else if c = 't' then some 9
  else none

/-- The characters and units of a text whose opening quote has been read, and what follows the
closing quote. Control characters have to be escaped. -/
def units? : List Char → Option (List Nat × List Char)
  | [] => none
  | '"' :: rest => some ([], rest)
  | '\\' :: 'u' :: a :: b :: c :: d :: rest => do
    let u ← unit? a b c d
    let (us, rest) ← units? rest
    return (u :: us, rest)
  | '\\' :: c :: rest => do
    let u ← shortEscape? c
    let (us, rest) ← units? rest
    return (u :: us, rest)
  | c :: rest =>
    if c.toNat < 0x20 ∨ c = '\\' then none
    else do
      let (us, rest) ← units? rest
      return (c.toNat :: us, rest)

/-! ## Numbers -/

/-- The digits at the front of a text, and what follows them. -/
def spanDigits (cs : List Char) : List Char × List Char := cs.span Char.isDigit

/-- A point and digits, if the text begins with both. -/
def fraction (cs : List Char) : List Char × List Char :=
  match cs with
  | '.' :: rest =>
    match spanDigits rest with
    | ([], _) => ([], cs)
    | (digits, rest) => ('.' :: digits, rest)
  | _ => ([], cs)

/-- The letter e, a sign that may be missing, and digits, if the text begins with all of them. -/
def exponent (cs : List Char) : List Char × List Char :=
  match cs with
  | e :: rest =>
    if e = 'e' ∨ e = 'E' then
      let (sign, rest) := match rest with
        | '+' :: rest => (['+'], rest)
        | '-' :: rest => (['-'], rest)
        | rest => ([], rest)
      match spanDigits rest with
      | ([], _) => ([], cs)
      | (digits, rest) => (e :: (sign ++ digits), rest)
    else ([], cs)
  | [] => ([], cs)

/-- The number with the given sign whose whole part is `digits` and which goes on in `rest`. -/
def number (negative : Bool) (digits rest : List Char) : Token × List Char :=
  let (frac, rest) := fraction rest
  let (exp, rest) := exponent rest
  if frac.isEmpty && exp.isEmpty then (.integer negative digits, rest)
  else
    let sign := if negative then ['-'] else []
    (.real (String.ofList (sign ++ digits ++ frac ++ exp)), rest)

/-- The number at the front of a text, its sign read already: a zero stands alone in front of a
point, an exponent or the end. -/
def unsigned? (negative : Bool) : List Char → Option (Token × List Char)
  | '0' :: rest => some (number negative ['0'] rest)
  | c :: rest =>
    if c.isDigit then
      let (more, rest) := spanDigits rest
      some (number negative (c :: more) rest)
    else none
  | [] => none

/-! ## Words -/

def spelled : List (List Char × Token) :=
  [("null".toList, .null), ("true".toList, .bool true), ("false".toList, .bool false),
   ("NaN".toList, .real "NaN"), ("Infinity".toList, .real "Infinity"),
   ("-Infinity".toList, .real "-Infinity")]

/-- The spelled word at the front of a text. -/
def spelled? (cs : List Char) : Option (Token × List Char) :=
  (spelled.find? fun entry => entry.1.isPrefixOf cs).map fun entry =>
    (entry.2, cs.drop entry.1.length)

/-- The word at the front of a text that has no blank there, and what follows it. -/
def next? (cs : List Char) : Option (Token × List Char) :=
  match cs with
  | [] => none
  | '[' :: rest => some (.listOpen, rest)
  | ']' :: rest => some (.listClose, rest)
  | '\x7b' :: rest => some (.objectOpen, rest)
  | '\x7d' :: rest => some (.objectClose, rest)
  | ':' :: rest => some (.colon, rest)
  | ',' :: rest => some (.comma, rest)
  | '"' :: rest => (units? rest).map fun (us, rest) => (.text (Text.ofUnits us), rest)
  | cs =>
    match spelled? cs with
    | some found => some found
    | none =>
      match cs with
      | '-' :: rest => unsigned? true rest
      | cs => unsigned? false cs

/-- The words of a text. -/
def scan (cs : List Char) : List Token :=
  match cs.dropWhile isBlank with
  | [] => []
  | front =>
    match next? front with
    | some (token, rest) =>
      if rest.length < cs.length then token :: scan rest else [.junk]
    | none => [.junk]
termination_by cs.length

end Token

end TokenCrypto.Json
