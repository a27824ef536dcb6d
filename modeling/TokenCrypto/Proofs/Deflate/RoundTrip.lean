import TokenCrypto.Compression
import TokenCrypto.Proofs.Deflate.Bound
import TokenCrypto.Proofs.Deflate.Expansion

/-!
# Compressed texts are decompressed

The stream of a compressed text is one block in the fixed codes. Reading it gives the tokens that
the text was cut into, and they expand to the text. So the bound alone decides what comes out.

* `Stream.ofBytes_write`: a block of written tokens is read as those tokens.
* `decompress_compress`: the text comes back under every bound that it keeps.
* `Codec.decompress_deflate_compress`: the same for the codec, whatever stream the text is written
  as.
-/

namespace TokenCrypto

namespace Deflate

namespace Stream

open Token

theorem tokensFrom_token {codes : Codes} {c next : Cursor} {t : Token}
    (h : (Token.read codes).runFrom c.place c.bits = .ok (some t) next) (before : List Token) :
    tokensFrom codes before c = tokensFrom codes (t :: before) next := by
  rw [tokensFrom]
  split <;> simp_all

theorem tokensFrom_end {codes : Codes} {c next : Cursor}
    (h : (Token.read codes).runFrom c.place c.bits = .ok none next) (before : List Token) :
    tokensFrom codes before c = .blockEnd before next := by
  rw [tokensFrom]
  split <;> simp_all

theorem tokensFrom_write {tokens : List Token} (h : ∀ t ∈ tokens, Writable t)
    (before : List Token) (place : Nat) (rest : Bits) :
    ∃ after, tokensFrom Codes.fixed before
      ⟨place, tokens.flatMap write ++ (writeSymbol Code.fixedLiteral endSymbol ++ rest)⟩ =
        .blockEnd (tokens.reverse ++ before) ⟨after, rest⟩ := by
  induction tokens generalizing before place with
  | nil =>
    have last := reads_endSymbol place rest
    refine ⟨place + (writeSymbol Code.fixedLiteral endSymbol).length, ?_⟩
    rw [List.flatMap_nil, List.nil_append, tokensFrom_end (c := ⟨place, _⟩) last,
      List.reverse_nil, List.nil_append]
  | cons t tokens ih =>
    have first := reads_write (h t List.mem_cons_self) place
      (tokens.flatMap write ++ (writeSymbol Code.fixedLiteral endSymbol ++ rest))
    obtain ⟨after, others⟩ := ih (fun u hu => h u (List.mem_cons_of_mem t hu)) (t :: before)
      (place + (write t).length)
    refine ⟨after, ?_⟩
    rw [List.flatMap_cons, List.append_assoc, tokensFrom_token first before, others]
    simp

theorem reads_blockHeader : blockHeader.Reads (true :: Bits.ofNat 2 1) (true, 1) :=
  ((Reader.reads_number (show 1 < 1 <<< 2 by decide)).bind_done
    (f := fun type => .done (true, type)) rfl).bit

/-- A block of written tokens is read as those tokens, and nothing is missing. -/
theorem ofBytes_write {tokens : List Token} (h : ∀ t ∈ tokens, Writable t) :
    ofBytes (Bits.toBytes (true :: Bits.ofNat 2 1 ++ tokens.flatMap write
      ++ writeSymbol Code.fixedLiteral endSymbol)) = ⟨tokens, .finished⟩ := by
  obtain ⟨fill, bits⟩ := Bits.ofBytes_toBytes (true :: Bits.ofNat 2 1 ++ tokens.flatMap write
    ++ writeSymbol Code.fixedLiteral endSymbol)
  obtain ⟨after, body⟩ := tokensFrom_write h [] 3 (List.replicate fill false)
  have header := reads_blockHeader 0 (tokens.flatMap write
    ++ (writeSymbol Code.fixedLiteral endSymbol ++ List.replicate fill false))
  have place : 0 + (true :: Bits.ofNat 2 1).length = 3 := rfl
  have type : block 1 [] = tokensFrom Codes.fixed [] := rfl
  rw [ofBytes, bits]
  simp only [List.append_assoc, blocks, Reader.run, header, place, type, body, List.append_nil,
    List.reverse_reverse, if_true]

end Stream

/-- The stream of a compressed text holds the text. -/
theorem holds_compress (text : Bytes) : Holds (compress text) text := by
  have stream : Stream.ofBytes (compress text) = ⟨tokensOf text, .finished⟩ :=
    Stream.ofBytes_write (writable_of_mem_tokensOf text)
  have fills := fills_tokensOf text text.toArray.size
  rw [Fills, if_pos (Nat.le_refl _)] at fills
  have whole := ((endsAlike_expand (Nat.zero_le _) (tokensOf text) _).1 fills).1
  unfold Holds
  rw [stream]
  exact ⟨rfl, whole⟩

/-- A compressed text comes back under every bound that it keeps, and is refused under every other
one. -/
theorem decompress_compress (text : Bytes) {bound : Int} (h : 0 ≤ bound) :
    decompress (compress text) bound =
      if sizeLimit ≤ bound + 1 then .error .boundOutOfRange
      else if text.length ≤ bound then .ok text
      else .error (.tooLong bound) := by
  by_cases large : sizeLimit ≤ bound + 1
  · rw [if_pos large, decompress_of_out_of_range large]
  · rw [if_neg large, decompress_of_holds h (Int.not_le.1 large) (holds_compress text)]

end Deflate

/-! ## The codec -/

/-- Every stream that holds a text gives the text, or is told to be too long. -/
theorem Codec.decompress_deflate_of_holds {stream text : Bytes} (holds : Deflate.Holds stream text)
    {bound : Int} (nonneg : 0 ≤ bound) (inRange : bound ≤ 0x7ffffffffffffffe) :
    Codec.deflate.decompress stream bound =
      if (text.length : Int) ≤ bound then .ok text
      else .error (.failure (.inflate (.tooLong bound))) := by
  have below : bound + 1 < Deflate.sizeLimit := by
    simp only [Deflate.sizeLimit]
    omega
  show (Deflate.decompress stream bound).mapError _ = _
  rw [Deflate.decompress_of_holds nonneg below holds]
  split
  · rfl
  · rfl

/-- What is compressed comes back under every bound that the text keeps, and is told to be too long
under every other one. A text is as long as a size can be at most, so that a bound below its length
is within the bounds that can be asked for. How the text is written does not matter: every stream
that holds it gives the same. -/
theorem Codec.decompress_deflate_compress (text : Bytes) :
    ∃ stream, Codec.deflate.compress text = .ok stream
      ∧ (∀ bound : Int, text.length ≤ bound → bound ≤ 0x7ffffffffffffffe →
        Codec.deflate.decompress stream bound = .ok text)
      ∧ ((text.length : Int) ≤ 0x7fffffffffffffff →
        ∀ bound : Int, 0 ≤ bound → bound < text.length →
          Codec.deflate.decompress stream bound = .error (.failure (.inflate (.tooLong bound)))
          ∧ (CodecError.inflate (.tooLong bound)).message =
            "Decompressed size exceeds " ++ toString bound ++ " bytes")
      ∧ ∀ other, Deflate.Holds other text →
        ∀ bound : Int, 0 ≤ bound → bound ≤ 0x7ffffffffffffffe →
          Codec.deflate.decompress other bound = Codec.deflate.decompress stream bound := by
  have held := Deflate.holds_compress text
  refine ⟨Deflate.compress text, rfl, ?_, ?_, ?_⟩
  · intro bound short inRange
    rw [decompress_deflate_of_holds held (by omega) inRange, if_pos short]
  · intro sized bound nonneg long
    refine ⟨?_, rfl⟩
    rw [decompress_deflate_of_holds held nonneg (by omega), if_neg (Int.not_le.2 long)]
  · intro other holds bound nonneg inRange
    rw [decompress_deflate_of_holds holds nonneg inRange,
      decompress_deflate_of_holds held nonneg inRange]

/-- Three equal octets, under the bound that they just keep and under the one below it. -/
theorem Codec.decompress_deflate_compress_three :
    ∃ stream, Codec.deflate.compress [65, 65, 65] = .ok stream
      ∧ ((([65, 65, 65] : Bytes).length : Int) ≤ 3 ∧ (3 : Int) ≤ 0x7ffffffffffffffe)
      ∧ Codec.deflate.decompress stream 3 = .ok [65, 65, 65]
      ∧ ((([65, 65, 65] : Bytes).length : Int) ≤ 0x7fffffffffffffff ∧ (0 : Int) ≤ 2
        ∧ (2 : Int) < ([65, 65, 65] : Bytes).length)
      ∧ Codec.deflate.decompress stream 2 = .error (.failure (.inflate (.tooLong 2))) := by
  obtain ⟨stream, made, kept, refused, -⟩ := Codec.decompress_deflate_compress [65, 65, 65]
  have short : (([65, 65, 65] : Bytes).length : Int) ≤ 3 := by decide
  have sized : (([65, 65, 65] : Bytes).length : Int) ≤ 0x7fffffffffffffff := by decide
  have long : (2 : Int) < ([65, 65, 65] : Bytes).length := by decide
  exact ⟨stream, made, ⟨short, by decide⟩, kept 3 short (by decide), ⟨sized, by decide, long⟩,
    (refused sized 2 (by decide) long).1⟩

end TokenCrypto
