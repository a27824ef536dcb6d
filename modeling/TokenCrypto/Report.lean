import TokenCrypto.Json.Value

/-!
# Reports

What is told about a token or key that is refused: a category, a message, the algorithm at issue,
and further context. Nothing secret is part of a report.
-/

namespace TokenCrypto

/-- The categories of refusals: `JOSEError` is the general one. -/
inductive Category where
  | general
  | validation
  | keyType
  | keyLength
  | unsupportedAlgorithm
  | integrity
  | compression
  | decryption
  deriving DecidableEq, Repr

namespace Category

/-- The name of a category. -/
def name : Category → String
  | general => "JOSEError"
  | validation => "ValidationError"
  | keyType => "KeyTypeError"
  | keyLength => "KeyLengthError"
  | unsupportedAlgorithm => "UnsupportedAlgorithmError"
  | integrity => "IntegrityError"
  | compression => "CompressionError"
  | decryption => "DecryptionError"

/-- A category and the wider ones it belongs to, the narrowest first. -/
def lineage : Category → List Category
  | general => [general]
  | keyLength => [keyLength, keyType, general]
  | other => [other, general]

end Category

/-- A report. -/
structure Report where
  category : Category
  message : String
  algorithm : Option String := none
  context : List (String × Json.Value) := []
  deriving BEq, Repr

namespace Report

/-- A text that may be missing, as a diagnosis shows it. -/
def displayOption (text : Option String) : String :=
  match text with
  | some text => Quoted.quote text
  | none => Json.Value.null.display

def display (report : Report) : String :=
  report.category.name ++ "(message=" ++ Quoted.quote report.message
    ++ ", algorithm=" ++ displayOption report.algorithm
    ++ ", context=" ++ (Json.Value.object report.context).display ++ ")"

end Report

/-! ## Keys that do not go with an algorithm -/

/-- A key of the wrong type: what was expected and what was found, as far as it is told. -/
structure KeyMismatch where
  message : String
  algorithm : Option String := none
  expected : Option String := none
  actual : Option String := none

/-- The report of a key of the wrong type. -/
def KeyMismatch.report (m : KeyMismatch) : Report where
  category := .keyType
  message := m.message
  algorithm := m.algorithm
  context :=
    (m.expected.map fun text => ("expected", Json.Value.text text)).toList
      ++ (m.actual.map fun text => ("actual", Json.Value.text text)).toList

/-- A key of the wrong length for an algorithm, whose expected length may be a least one. -/
structure KeyLength where
  algorithm : String
  expectedBits : Int
  actualBits : Int
  atLeast : Bool := false
  deriving DecidableEq, Repr

namespace KeyLength

def expected (l : KeyLength) : String :=
  (if l.atLeast then "at least " else "") ++ s!"{l.expectedBits} bits"

def actual (l : KeyLength) : String := s!"{l.actualBits} bits"

/-- The report of a key of the wrong length. -/
def report (l : KeyLength) : Report where
  category := .keyLength
  message := s!"Invalid key length for {l.algorithm}: expected {l.expected}, got {l.actual}"
  algorithm := some l.algorithm
  context := [("expected", .text l.expected), ("actual", .text l.actual)]

end KeyLength

end TokenCrypto
