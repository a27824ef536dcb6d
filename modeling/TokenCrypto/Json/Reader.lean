import TokenCrypto.Json.Token

/-!
# Reading JSON

A reader over the words of a text: it expects something (`Mode`) inside a stack of open lists and
objects (`Frame`), and each word moves it on. A text is refused at the first word that does not fit,
at an integer of too many digits, or where lists and objects are nested too deep. A name with half a
surrogate pair in it is kept as it is shown.
-/

namespace TokenCrypto.Json

/-- Why a text is refused. -/
inductive ReadError where
  | malformed
  | integerTooLong (digits : Nat)
  | nestedTooDeep
  deriving DecidableEq, Repr

/-- A list or object that is still open, with what it holds so far, the last first; an object waits
for the value of `name`. -/
inductive Frame where
  | list (items : List Value)
  | object (members : List (String × Value)) (name : String)

/-- What the reader expects next. -/
inductive Mode where
  /-- A value. -/
  | value
  /-- A value or the end of the list that has just been opened. -/
  | firstItem
  /-- A name or the end of the object that has just been opened. -/
  | firstName
  /-- A name in an object with the given members. -/
  | name (members : List (String × Value))
  /-- The colon after a name. -/
  | colon (members : List (String × Value)) (name : String)
  /-- What may follow the given value. -/
  | after (value : Value)

/-- How many lists and objects may be open at once. No format fixes this: the limit depends on the
interpreter that the reader runs on, and is its recursion limit less what is already on the stack.
Here it is that recursion limit, 1000, as if the stack were empty. -/
def depthLimit : Nat := 1000

/-- How many digits an integer may have. -/
def digitLimit : Nat := 4300

namespace Reader

def decimal (digits : List Char) : Nat :=
  digits.foldl (fun n c => 10 * n + (c.toNat - '0'.toNat)) 0

/-- The integer that a sign and digits spell. -/
def integer (negative : Bool) (digits : List Char) : Int :=
  if negative then -(decimal digits : Int) else decimal digits

/-- A word where a value is expected. -/
def beginValue (stack : List Frame) : Token → Except ReadError (Mode × List Frame)
  | .null => .ok (.after .null, stack)
  | .bool b => .ok (.after (.bool b), stack)
  | .real t => .ok (.after (.real t), stack)
  | .text t => .ok (.after (.text t), stack)
  | .integer negative digits =>
    if digits.length ≤ digitLimit then .ok (.after (.integer (integer negative digits)), stack)
    else .error (.integerTooLong digits.length)
  | .listOpen =>
    if stack.length < depthLimit then .ok (.firstItem, .list [] :: stack)
    else .error .nestedTooDeep
  | .objectOpen =>
    if stack.length < depthLimit then .ok (.firstName, stack) else .error .nestedTooDeep
  | _ => .error .malformed

/-- A word after a value. -/
def endValue (value : Value) (stack : List Frame) (token : Token) :
    Except ReadError (Mode × List Frame) :=
  match stack, token with
  | .list items :: stack, .comma => .ok (.value, .list (value :: items) :: stack)
  | .list items :: stack, .listClose => .ok (.after (.list (value :: items).reverse), stack)
  | .object members name :: stack, .comma => .ok (.name ((name, value) :: members), stack)
  | .object members name :: stack, .objectClose =>
    .ok (.after (.object ((name, value) :: members).reverse), stack)
  | _, _ => .error .malformed

/-- One word. -/
def step (mode : Mode) (stack : List Frame) (token : Token) :
    Except ReadError (Mode × List Frame) :=
  match mode with
  | .value => beginValue stack token
  | .firstItem =>
    match token, stack with
    | .listClose, .list [] :: stack => .ok (.after (.list []), stack)
    | token, stack => beginValue stack token
  | .firstName =>
    match token with
    | .objectClose => .ok (.after (.object []), stack)
    | .text name => .ok (.colon [] name.shown, stack)
    | _ => .error .malformed
  | .name members =>
    match token with
    | .text name => .ok (.colon members name.shown, stack)
    | _ => .error .malformed
  | .colon members name =>
    match token with
    | .colon => .ok (.value, .object members name :: stack)
    | _ => .error .malformed
  | .after value => endValue value stack token

/-- All words of a text, from a given state on. -/
def run : Mode → List Frame → List Token → Except ReadError Value
  | .after value, [], [] => .ok value
  | _, _, [] => .error .malformed
  | mode, stack, token :: rest =>
    match step mode stack token with
    | .ok (mode, stack) => run mode stack rest
    | .error e => .error e

end Reader

/-- The value that a text spells. -/
def read (text : String) : Except ReadError Value :=
  Reader.run .value [] (Token.scan text.toList)

end TokenCrypto.Json
