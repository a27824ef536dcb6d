import TokenCrypto.Material.Octets
import TokenCrypto.Text.Utf8

/-!
# Token headers

A header names the algorithms of a token: alg, and in an encrypted token enc and zip. It travels as
the Base64URL text of a JSON object, and that text is authenticated as it stands: a header that has
been read keeps the text it was read from, one that is made gets the canonical text, members in the
order of their names and without blanks.

* `JweHeader.serialized_create`: a header that is made without a text gets its canonical text.
-/

namespace TokenCrypto

/-- The text of an object whose members are given in the order of their names. -/
def canonicalText (members : List (String × Json.Value)) : String :=
  Base64Url.encode (Utf8.encode (String.ofList (Json.Value.object members).compact))

/-- A value that must be a text and not an empty one. -/
def nonemptyText (otherwise : Rejection) : Json.Value → Except Error Json.Text
  | .text text => if text = .string "" then reject otherwise else .ok text
  | _ => reject otherwise

/-! ## Signed tokens -/

/-- The header of a signed token, with its alg. -/
structure JwsHeader where
  algorithm : Json.Text
  deriving DecidableEq, Repr

namespace JwsHeader

/-- A header with the given algorithm, which has to be a text and not empty. -/
def create (algorithm : Json.Value) : Except Error JwsHeader :=
  (nonemptyText .emptyAlgorithm algorithm).map JwsHeader.mk

def serialized (header : JwsHeader) : String := canonicalText [("alg", .text header.algorithm)]

end JwsHeader

/-! ## Encrypted tokens -/

/-- The header of an encrypted token: the key management (alg), the encryption method (enc), the
compression (zip), what key derivation takes in about the two parties (`partyU` is epu, `partyV` is
epv), and the text on the wire. -/
structure JweHeader where
  algorithm : Json.Text
  method : Json.Text
  compression : Option Json.Text
  partyU : Option Bytes
  partyV : Option Bytes
  serialized : String
  deriving DecidableEq, Repr

namespace JweHeader

/-- The parameters that are given, in the order of their names. -/
def parameters (header : JweHeader) : List (String × Json.Value) :=
  [("alg", .text header.algorithm), ("enc", .text header.method)]
    ++ (header.partyU.map fun info => ("epu", Json.Value.text (Base64Url.encode info))).toList
    ++ (header.partyV.map fun info => ("epv", Json.Value.text (Base64Url.encode info))).toList
    ++ (header.compression.map fun name => ("zip", Json.Value.text name)).toList

def canonical (header : JweHeader) : String := canonicalText header.parameters

/-- Whether two headers say the same; the texts on the wire may differ. -/
def agrees (a b : JweHeader) : Bool :=
  a.algorithm == b.algorithm && a.method == b.method && a.compression == b.compression
    && a.partyU == b.partyU && a.partyV == b.partyV

/-- The octets of a party's information (epu or epv), if there is any. -/
def partyInfo (role : Role) : Option Material → Except Error (Option Bytes)
  | none => .ok none
  | some m => (m.fixedBytes role).map some

/-- A header with the given text. The algorithm (alg) and the method (enc) have to be texts and not
empty, the information about the parties (epu and epv) octets. -/
def withText (text : String) (algorithm method : Json.Value) (compression : Option Json.Text)
    (partyU partyV : Option Material) : Except Error JweHeader := do
  let algorithm ← nonemptyText .emptyAlgorithm algorithm
  let method ← nonemptyText .emptyMethod method
  let partyU ← partyInfo .partyU partyU
  let partyV ← partyInfo .partyV partyV
  return { algorithm, method, compression, partyU, partyV, serialized := text }

def create (algorithm method : Json.Value) (compression : Option Json.Text)
    (partyU partyV : Option Material) : Except Error JweHeader :=
  (withText "" algorithm method compression partyU partyV).map fun header =>
    { header with serialized := header.canonical }

/-! ## Reading -/

/-- The members of the object that a text stands for. -/
def members (serialized : String) : Except Error (List (String × Json.Value)) := do
  let bytes ← wireBytes serialized
  match Utf8.decode? bytes with
  | none => reject (.malformedHeader .notUtf8)
  | some text =>
    match Json.read text with
    | .ok (.object members) => .ok members
    | .ok _ => reject (.malformedHeader .notObject)
    | .error .malformed => reject (.malformedHeader .notJson)
    | .error (.integerTooLong digits) => fail (.integerTooLong digits)
    | .error .nestedTooDeep => fail .nestedTooDeep

/-- A member that must be a text or missing; a null is as good as missing. -/
def optionalText (otherwise : Rejection) : Option Json.Value → Except Error (Option Json.Text)
  | none => .ok none
  | some .null => .ok none
  | some (.text text) => .ok (some text)
  | some _ => reject otherwise

def requiredText (otherwise : Rejection) (value : Option Json.Value) : Except Error Json.Text := do
  match ← optionalText otherwise value with
  | some text => .ok text
  | none => reject otherwise

/-- The octets of a member that may be missing. A text that is no string is no Base64URL. -/
def optionalBytes : Option Json.Text → Except Error (Option Bytes)
  | none => .ok none
  | some (.string text) => (wireBytes text).map some
  | some (.broken _) => reject .malformedText

/-- The header that a text stands for; it keeps the text. -/
def parse (serialized : String) : Except Error JweHeader := do
  let members ← members serialized
  let algorithm ← requiredText .missingAlgorithmOrMethod (Json.member? members "alg")
  let method ← requiredText .missingAlgorithmOrMethod (Json.member? members "enc")
  let compression ← optionalText .compressionNotText (Json.member? members "zip")
  let partyU ← optionalText .partyInfoNotText (Json.member? members "epu")
  let partyV ← optionalText .partyInfoNotText (Json.member? members "epv")
  let partyU ← optionalBytes partyU
  let partyV ← optionalBytes partyV
  withText serialized (.text algorithm) (.text method) compression
    (partyU.map .octets) (partyV.map .octets)

/-- The text on the wire is no parameter. -/
theorem parameters_serialized (header : JweHeader) (text : String) :
    { header with serialized := text }.parameters = header.parameters := rfl

/-- A header that is made without a text gets its canonical text. -/
theorem serialized_create {algorithm method : Json.Value} {compression : Option Json.Text}
    {partyU partyV : Option Material} {header : JweHeader}
    (h : create algorithm method compression partyU partyV = .ok header) :
    header.serialized = header.canonical := by
  unfold create at h
  cases hw : withText "" algorithm method compression partyU partyV with
  | error e => simp [hw, Except.map] at h
  | ok base =>
    simp only [hw, Except.map, Except.ok.injEq] at h
    rw [← h]
    exact congrArg canonicalText (parameters_serialized base base.canonical).symm

end JweHeader

/-! ## Headers of either sort -/

/-- The header of a signed or of an encrypted token. -/
inductive Header where
  | signed (header : JwsHeader)
  | encrypted (header : JweHeader)

/-- Whether two headers are of one sort and say the same. -/
def Header.agrees : Header → Header → Bool
  | signed a, signed b => a == b
  | encrypted a, encrypted b => a.agrees b
  | _, _ => false

end TokenCrypto
