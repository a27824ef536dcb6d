import TokenCrypto.Deflate.Code

/-!
# Literals and copies

Inside a block a stream is a sequence of tokens: an octet as it is, or a stretch of what came
before. A length or a distance is written as a symbol, which selects a range, and further bits that
select a number in it.
-/

namespace TokenCrypto.Deflate

/-- A literal octet, or `length` octets copied from `distance` octets back. -/
inductive Token where
  | literal (octet : UInt8)
  | copy (length distance : Nat)
  deriving DecidableEq, Repr

/-- The codes that a block is written in. -/
structure Codes where
  literal : Code
  distance : Code

def Codes.fixed : Codes := ⟨Code.fixedLiteral, Code.fixedDistance⟩

namespace Token

def endSymbol : Nat := 256

/-- The least length and the number of further bits of each length symbol, from symbol 257 on. -/
def lengthRanges : List (Nat × Nat) := [
  (3, 0), (4, 0), (5, 0), (6, 0), (7, 0), (8, 0), (9, 0), (10, 0),
  (11, 1), (13, 1), (15, 1), (17, 1), (19, 2), (23, 2), (27, 2), (31, 2),
  (35, 3), (43, 3), (51, 3), (59, 3), (67, 4), (83, 4), (99, 4), (115, 4),
  (131, 5), (163, 5), (195, 5), (227, 5), (258, 0)]

/-- The least distance and the number of further bits of each distance symbol. -/
def distanceRanges : List (Nat × Nat) := [
  (1, 0), (2, 0), (3, 0), (4, 0), (5, 1), (7, 1), (9, 2), (13, 2),
  (17, 3), (25, 3), (33, 4), (49, 4), (65, 5), (97, 5), (129, 6), (193, 6),
  (257, 7), (385, 7), (513, 8), (769, 8), (1025, 9), (1537, 9), (2049, 10), (3073, 10),
  (4097, 11), (6145, 11), (8193, 12), (12289, 12), (16385, 13), (24577, 13)]

/-! ## Reading -/

/-- The number of the range that a symbol selects. -/
def readRange (ranges : List (Nat × Nat)) (missing : Damage) (symbol : Nat) : Reader Nat :=
  match ranges[symbol]? with
  | some (least, width) => (Reader.number width).bind fun n => .done (least + n)
  | none => .damaged missing

/-- What a literal or length symbol stands for, with all that belongs to it; none for the end of the
block. -/
def readAfter (codes : Codes) (symbol : Nat) : Reader (Option Token) :=
  if symbol < endSymbol then .done (some (.literal (UInt8.ofNat symbol)))
  else if symbol = endSymbol then .done none
  else
    (readRange lengthRanges .literalCode (symbol - 257)).bind fun length =>
      (codes.distance.read .distanceCode).bind fun symbol =>
        (readRange distanceRanges .distanceCode symbol).bind fun distance =>
          .done (some (.copy length distance))

/-- The next token; none for the end of the block. -/
def read (codes : Codes) : Reader (Option Token) :=
  (codes.literal.read .literalCode).bind (readAfter codes)

/-- Reading a token takes a bit at least. -/
theorem length_rest_read_lt {codes : Codes} {place : Nat} {bits : Bits} {t : Option Token}
    {rest : Cursor} (h : (read codes).runFrom place bits = .ok t rest) :
    rest.bits.length < bits.length :=
  Reader.length_rest_lt h

/-! ## Writing in the fixed codes -/

/-- The symbol and the further bits of a number: the last range that begins at or below it. -/
def rangeOf (ranges : List (Nat × Nat)) (n : Nat) : Nat × Bits :=
  let symbol := (ranges.takeWhile (·.1 ≤ n)).length - 1
  let range := ranges.getD symbol (0, 0)
  (symbol, Bits.ofNat range.2 (n - range.1))

def writeSymbol (code : Code) (symbol : Nat) : Bits := (code.tree.path? symbol).getD []

def write : Token → Bits
  | literal octet => writeSymbol Code.fixedLiteral octet.toNat
  | copy length distance =>
    let l := rangeOf lengthRanges length
    let d := rangeOf distanceRanges distance
    writeSymbol Code.fixedLiteral (257 + l.1) ++ l.2
      ++ writeSymbol Code.fixedDistance d.1 ++ d.2

end Token

end TokenCrypto.Deflate
