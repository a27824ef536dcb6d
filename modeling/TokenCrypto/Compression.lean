import TokenCrypto.Deflate

/-!
# Compression codecs

A codec compresses a plaintext and decompresses it again, within a bound on the size of the
plaintext (`max_size`). Codecs are looked up by the name that a header gives as its `zip`. A codec
may raise anything. Most of it is a failure, which can be told in words; but some exceptions escape
those who handle failures.
-/

namespace TokenCrypto

/-- A failure of a codec. -/
inductive CodecError where
  /-- A compressed stream was not taken. -/
  | inflate (why : Deflate.InflateError)
  /-- Any other reason, in words. -/
  | failed (why : String)
  deriving DecidableEq, Repr

def CodecError.message : CodecError → String
  | .inflate why => why.message
  | .failed why => why

/-- An exception of a codec that escapes those who handle its failures, by the kind of what is seen
in the end. -/
inductive Escape where
  /-- It is no failure but asks for an end, as an interruption does, and is let through. -/
  | interruption (kind : String)
  /-- It cannot be put into words, and what is seen is raised by the attempt. -/
  | untold (kind : String)
  deriving DecidableEq, Repr

/-- What a codec raises. -/
inductive Raised where
  | failure (why : CodecError)
  | escape (why : Escape)
  deriving DecidableEq, Repr

/-- A codec. Decompressing takes a bound on the size of the plaintext, which a codec need not heed.
-/
structure Codec where
  compress : Bytes → Except Raised Bytes
  decompress : Bytes → Int → Except Raised Bytes

namespace Codec

/-- The codec named `DEF`. -/
def deflate : Codec where
  compress text := .ok (Deflate.compress text)
  decompress stream bound := (Deflate.decompress stream bound).mapError (.failure <| .inflate ·)

end Codec

/-- Codecs by the names that headers give them. -/
abbrev Codecs := List (String × Codec)

namespace Codecs

/-- The codecs that are there from the start. -/
def standard : Codecs := [("DEF", Codec.deflate)]

def find? (codecs : Codecs) (name : String) : Option Codec := codecs.lookup name

end Codecs

end TokenCrypto
