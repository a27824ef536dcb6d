import TokenCrypto.Deflate.Token

/-!
# Compressed streams

A stream is a sequence of blocks: octets as they are, tokens in the fixed codes, or tokens in codes
that the block itself describes. Reading a stream gives its tokens and how it ended; it does not ask
how long the text becomes, and it looks no further than the end of the last block.

* `Stream.ofBytes`: the tokens of a stream and its ending.
-/

namespace TokenCrypto.Deflate

/-- How a stream ended: with its last block, in the middle of something, or with damage. -/
inductive Ending where
  | finished
  | truncated
  | damaged (why : Damage)
  deriving DecidableEq, Repr

/-- The tokens of a stream up to its ending. -/
structure Stream where
  tokens : List Token
  ending : Ending
  deriving DecidableEq, Repr

/-- Where reading a block has come to: to its end, or to the end of all reading. The tokens so far
are given last first. -/
inductive Progress where
  | blockEnd (tokens : List Token) (rest : Cursor)
  | stopped (tokens : List Token) (ending : Ending)

namespace Stream

/-! ## Octets as they are -/

def align (c : Cursor) : Cursor :=
  let skipped := (8 - c.place % 8) % 8
  ⟨c.place + skipped, c.bits.drop skipped⟩

def storedOctets : Nat → List Token → Cursor → Progress
  | 0, tokens, c => .blockEnd tokens c
  | count + 1, tokens, c =>
    match (Reader.number 8).run c with
    | .ok octet rest => storedOctets count (.literal (UInt8.ofNat octet) :: tokens) rest
    | .truncated => .stopped tokens .truncated
    | .damaged why => .stopped tokens (.damaged why)

/-- The number of octets of a stored block, given twice, the second time with every bit turned over.
-/
def storedCount : Reader Nat := do
  let count ← Reader.number 16
  let check ← Reader.number 16
  if count + check = 0xffff then .done count else .damaged .storedLengths

def storedBlock (tokens : List Token) (c : Cursor) : Progress :=
  match storedCount.run (align c) with
  | .ok count rest => storedOctets count tokens rest
  | .truncated => .stopped tokens .truncated
  | .damaged why => .stopped tokens (.damaged why)

/-! ## Tokens in codes -/

/-- Tokens up to the end of the block. -/
def tokensFrom (codes : Codes) (tokens : List Token) (c : Cursor) : Progress :=
  match _h : (Token.read codes).runFrom c.place c.bits with
  | .ok none rest => .blockEnd tokens rest
  | .ok (some token) rest => tokensFrom codes (token :: tokens) rest
  | .truncated => .stopped tokens .truncated
  | .damaged why => .stopped tokens (.damaged why)
termination_by c.bits.length
decreasing_by exact Token.length_rest_read_lt _h

/-! ## Codes that a block describes -/

/-- The order in which the lengths of the code for lengths are given. -/
def lengthOrder : List Nat := [16, 17, 18, 0, 8, 7, 9, 6, 10, 5, 11, 4, 12, 3, 13, 2, 14, 1, 15]

def triples : Nat → Reader (List Nat)
  | 0 => .done []
  | count + 1 => do
    let n ← Reader.number 3
    let rest ← triples count
    .done (n :: rest)

/-- The lengths of the code for lengths, by symbol; those that are not given are zero. -/
def inOrder (given : List Nat) : List Nat :=
  (List.range 19).map fun symbol => given.getD (lengthOrder.idxOf symbol) 0

/-- What a symbol of the code for lengths stands for: a length and how often it comes. Symbol 16
repeats the length before it, symbols 17 and 18 repeat zero. -/
def lengthRun (before : Option Nat) (symbol : Nat) : Reader (Nat × Nat) :=
  if symbol < 16 then .done (symbol, 1)
  else if symbol = 16 then do
    let more ← Reader.number 2
    match before with
    | some length => .done (length, 3 + more)
    | none => .damaged .lengthRepeat
  else if symbol = 17 then do
    let more ← Reader.number 3
    .done (0, 3 + more)
  else do
    let more ← Reader.number 7
    .done (0, 11 + more)

/-- So many lengths of strings, of which `pending` repeat the one before. A repetition may not go on
past the end. -/
def codeLengths (code : Code) : Nat → Nat → Option Nat → Reader (List Nat)
  | 0, _, _ => .done []
  | count + 1, pending + 1, before => do
    let rest ← codeLengths code count pending before
    .done (before.getD 0 :: rest)
  | count + 1, 0, before => do
    let symbol ← code.read .lengthRepeat
    let (length, times) ← lengthRun before symbol
    if count + 1 < times then .damaged .lengthRepeat
    else do
      let rest ← codeLengths code count (times - 1) (some length)
      .done (length :: rest)

/-- The codes that a block describes. -/
def describedCodes : Reader Codes := do
  let literals := (← Reader.number 5) + 257
  let distances := (← Reader.number 5) + 1
  let given := (← Reader.number 4) + 4
  if 286 < literals ∨ 30 < distances then .damaged .tooManySymbols
  else do
    let lengths ← triples given
    match Code.forLengths? (inOrder lengths) with
    | none => .damaged .lengthCode
    | some code => do
      let all ← codeLengths code (literals + distances) 0 none
      let literalLengths := all.take literals
      if literalLengths.getD Token.endSymbol 0 = 0 then .damaged .noEndOfBlock
      else
        match Code.ofLengths? literalLengths with
        | none => .damaged .literalSet
        | some literal =>
          match Code.ofLengths? (all.drop literals) with
          | none => .damaged .distanceSet
          | some distance => .done ⟨literal, distance⟩

/-- A block in codes of its own, after its type. -/
def describedBlock (tokens : List Token) (c : Cursor) : Progress :=
  match describedCodes.run c with
  | .ok codes rest => tokensFrom codes tokens rest
  | .truncated => .stopped tokens .truncated
  | .damaged why => .stopped tokens (.damaged why)

/-! ## Blocks -/

/-- Whether a block is the last one, and its type. -/
def blockHeader : Reader (Bool × Nat) :=
  .bit fun last => (Reader.number 2).bind fun type => .done (last, type)

def block (type : Nat) (tokens : List Token) (c : Cursor) : Progress :=
  if type = 0 then storedBlock tokens c
  else if type = 1 then tokensFrom Codes.fixed tokens c
  else if type = 2 then describedBlock tokens c
  else .stopped tokens (.damaged .blockType)

/-- Blocks up to the last one. `budget` bounds their number. -/
def blocks : Nat → List Token → Cursor → Stream
  | 0, tokens, _ => ⟨tokens.reverse, .truncated⟩
  | budget + 1, tokens, c =>
    match blockHeader.run c with
    | .truncated => ⟨tokens.reverse, .truncated⟩
    | .damaged why => ⟨tokens.reverse, .damaged why⟩
    | .ok (last, type) rest =>
      match block type tokens rest with
      | .stopped tokens ending => ⟨tokens.reverse, ending⟩
      | .blockEnd tokens rest =>
        if last then ⟨tokens.reverse, .finished⟩ else blocks budget tokens rest

/-- The stream that octets hold. A block takes a bit at least, so as many blocks as there are bits
are enough. -/
def ofBytes (bytes : Bytes) : Stream :=
  let bits := Bits.ofBytes bytes
  blocks (bits.length + 1) [] ⟨0, bits⟩

end Stream

end TokenCrypto.Deflate
