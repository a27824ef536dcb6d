import TokenCrypto.Json.Text

/-!
# JSON values

Header parameters and the context of an error are JSON values. The members of an object keep their
order; a name may occur more than once, and then its last value counts.

`Value.compact` is the written form without blanks and in ASCII; `Value.display` is the form in
which a diagnosis shows a value.
-/

namespace TokenCrypto.Json

/-- A JSON value. A number with a fraction or an exponent, and the three that are not finite, are
known by their text. -/
inductive Value where
  | null
  | bool (value : Bool)
  | integer (value : Int)
  | real (text : String)
  | text (value : Text)
  | list (items : List Value)
  | object (members : List (String × Value))
  deriving Inhabited, BEq, Repr

/-! ## The compact form -/

/-- The four hexadecimal digits of a UTF-16 unit, after a backslash and the letter u. -/
def unitEscape (unit : Nat) : List Char :=
  ['\\', 'u', Nat.digitChar (unit / 4096 % 16), Nat.digitChar (unit / 256 % 16),
    Nat.digitChar (unit / 16 % 16), Nat.digitChar (unit % 16)]

/-- One character of a text. A character that is not printable ASCII is written as its UTF-16
units. -/
def escape (c : Char) : List Char :=
  if c = '"' then ['\\', '"']
  else if c = '\\' then ['\\', '\\']
  else if c = '\n' then ['\\', 'n']
  else if c = '\r' then ['\\', 'r']
  else if c = '\t' then ['\\', 't']
  else if c.toNat = 8 then ['\\', 'b']
  else if c.toNat = 12 then ['\\', 'f']
  else if 0x20 ≤ c.toNat ∧ c.toNat < 0x7f then [c]
  else if c.toNat < 0x10000 then unitEscape c.toNat
  else
    unitEscape (0xd800 + (c.toNat - 0x10000) / 0x400)
      ++ unitEscape (0xdc00 + (c.toNat - 0x10000) % 0x400)

/-- A code point of a text; half of a pair is written as the unit it is. -/
def escapePoint (p : Nat) : List Char :=
  if Text.isHalf p then unitEscape p else escape (Char.ofNat p)

def stringLiteral (value : String) : List Char :=
  '"' :: (value.toList.flatMap escape ++ ['"'])

def Text.literal : Text → List Char
  | string value => stringLiteral value
  | broken points => '"' :: (points.flatMap escapePoint ++ ['"'])

/-- The parts of a list, a comma between each two. -/
def commaSeparated : List (List Char) → List Char
  | [] => []
  | [part] => part
  | part :: rest => part ++ ',' :: commaSeparated rest

mutual

/-- The written form without blanks, in ASCII, members in their order. -/
def Value.compact : Value → List Char
  | .null => "null".toList
  | .bool true => "true".toList
  | .bool false => "false".toList
  | .integer n => (toString n).toList
  | .real t => t.toList
  | .text t => t.literal
  | .list items => '[' :: (commaSeparated (compactItems items) ++ [']'])
  | .object members => '\x7b' :: (commaSeparated (compactMembers members) ++ ['\x7d'])

/-- The written forms of the items of a list. -/
def compactItems : List Value → List (List Char)
  | [] => []
  | item :: rest => item.compact :: compactItems rest

/-- The written forms of the members of an object. -/
def compactMembers : List (String × Value) → List (List Char)
  | [] => []
  | (name, value) :: rest => (stringLiteral name ++ ':' :: value.compact) :: compactMembers rest

end

/-! ## The form shown in a diagnosis -/

mutual

/-- The form in which a diagnosis shows a value: texts are quoted, and the items of lists and
objects are set apart by a comma and a space. -/
def Value.display : Value → String
  | .null => "None"
  | .bool true => "True"
  | .bool false => "False"
  | .integer n => toString n
  | .real t => t
  | .text t => t.display
  | .list items => "[" ++ String.intercalate ", " (displayItems items) ++ "]"
  | .object members => "\x7b" ++ String.intercalate ", " (displayMembers members) ++ "\x7d"

/-- The items of a list as a diagnosis shows them. -/
def displayItems : List Value → List String
  | [] => []
  | item :: rest => item.display :: displayItems rest

/-- The members of an object as a diagnosis shows them. -/
def displayMembers : List (String × Value) → List String
  | [] => []
  | (name, value) :: rest => (Quoted.quote name ++ ": " ++ value.display) :: displayMembers rest

end

/-! ## Members -/

/-- The value of a name in an object: the last one given for it. -/
def member? (members : List (String × Value)) (name : String) : Option Value :=
  (members.reverse.find? (·.1 == name)).map (·.2)

end TokenCrypto.Json
