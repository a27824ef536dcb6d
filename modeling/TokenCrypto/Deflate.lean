import TokenCrypto.Deflate.Expansion
import TokenCrypto.Deflate.Match
import TokenCrypto.Deflate.Stream

/-!
# DEFLATE

The codec for the zip `DEF`: raw DEFLATE, without a frame around it. Compressing writes one block in
the fixed Huffman codes. Decompressing takes any stream and a bound on the size of the plaintext
(`max_size`), which the stream cannot lift.
-/

namespace TokenCrypto.Deflate

/-- Why a stream is not decompressed. -/
inductive InflateError where
  /-- The stream is damaged. -/
  | damaged (why : Damage)
  /-- The stream ends too early. -/
  | truncated
  /-- The text is longer than the bound. -/
  | tooLong (bound : Int)
  /-- The bound leaves room for less than nothing. -/
  | negativeRoom
  /-- The bound is outside the numbers that a size may be. -/
  | boundOutOfRange
  deriving DecidableEq, Repr

/-- The diagnosis of a stream that is not taken. -/
def InflateError.message : InflateError → String
  | .damaged why => "Error -3 while decompressing data: " ++ why.message
  | .truncated => "Truncated DEFLATE stream"
  | .tooLong bound => s!"Decompressed size exceeds {bound} bytes"
  | .negativeRoom => "max_length must be non-negative"
  | .boundOutOfRange => "Python int too large to convert to C ssize_t"

/-- One more than the greatest size that can be asked for. -/
def sizeLimit : Int := 0x8000000000000000

/-- The sizes that can be asked for are those of 64 bits with a sign. -/
def isSize (n : Int) : Bool := -sizeLimit ≤ n && n < sizeLimit

def compress (text : Bytes) : Bytes :=
  let tokens := tokensOf text
  Bits.toBytes (true :: Bits.ofNat 2 1 ++ tokens.flatMap Token.write
    ++ Token.writeSymbol Code.fixedLiteral Token.endSymbol)

/-- The text of a stream, at most `bound` octets of it. There is room for one octet more than that,
which tells a text that is too long; room for no octet counts as room without end. -/
def decompress (stream : Bytes) (bound : Int) : Except InflateError Bytes :=
  let capacity := bound + 1
  if !isSize capacity then .error .boundOutOfRange
  else if capacity < 0 then .error .negativeRoom
  else
    let read := Stream.ofBytes stream
    let expansion := expand (if capacity = 0 then none else some capacity.toNat) #[] read.tokens
    match expansion.stop, read.ending with
    | .tooFarBack, _ => .error (.damaged .tooFarBack)
    | .full, _ => .error (.tooLong bound)
    | .ended, .damaged why => .error (.damaged why)
    | .ended, ending =>
      if bound < expansion.text.size then .error (.tooLong bound)
      else if ending = .finished then .ok expansion.text.toList
      else .error .truncated

end TokenCrypto.Deflate
