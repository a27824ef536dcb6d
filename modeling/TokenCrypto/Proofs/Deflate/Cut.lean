import TokenCrypto.Proofs.Deflate.Bound

/-!
# Streams that go on and streams that are cut off

The bits of a stream are looked at one after the other, and none behind the last block. So what
follows a stream changes nothing, unless the stream alone runs out of bits. In that case its tokens
are the first ones of the longer stream, and the text that they make is no longer than the other.

* `Reader.run_append`: one reader, with more bits behind those that it is given.
* `Stream.continues_ofBytes`: a whole stream, with more octets behind it.
* `decompress_within`: a text that comes out under one bound, under other bounds and of a stream
  that goes on or is cut off.
-/

namespace TokenCrypto.Deflate

variable {α : Type} {more : Bits}

/-! ## Readers -/

def Cursor.append (c : Cursor) (more : Bits) : Cursor := ⟨c.place, c.bits ++ more⟩

def Outcome.append : Outcome α → Bits → Outcome α
  | .ok a rest, more => .ok a (rest.append more)
  | .truncated, _ => .truncated
  | .damaged why, _ => .damaged why

/-- More bits change nothing, unless a reader runs out of bits without them. -/
theorem Reader.run_append (r : Reader α) (c : Cursor) (more : Bits) :
    r.run c = .truncated ∨ r.run (c.append more) = (r.run c).append more := by
  unfold run Cursor.append
  cases h : r.runFrom c.place c.bits with
  | ok a rest => exact .inr (run_ok_append h more)
  | truncated => exact .inl rfl
  | damaged why => exact .inr (run_damaged_append h more)

/-! ## What is read with more bits behind it -/

namespace Progress

/-- The tokens so far, last first. -/
def tokens : Progress → List Token
  | blockEnd tokens _ => tokens
  | stopped tokens _ => tokens

def append : Progress → Bits → Progress
  | blockEnd tokens rest, more => .blockEnd tokens (rest.append more)
  | stopped tokens ending, _ => .stopped tokens ending

/-- What a part of a stream has to do with the whole: it comes to the same, or it runs out of bits
with the first of its tokens. -/
inductive Continues (more : Bits) : Progress → Progress → Prop
  | same (p : Progress) : Continues more p (p.append more)
  | cut {tokens : List Token} {whole : Progress} (first : tokens <:+ whole.tokens) :
    Continues more (.stopped tokens .truncated) whole

/-- What comes of a reader, and of what goes on with its value. -/
def after (r : Reader α) (tokens : List Token) (next : α → Cursor → Progress) (c : Cursor) :
    Progress :=
  match r.run c with
  | .ok a rest => next a rest
  | .truncated => .stopped tokens .truncated
  | .damaged why => .stopped tokens (.damaged why)

variable {r : Reader α} {tokens : List Token} {next : α → Cursor → Progress}

theorem suffix_after (kept : ∀ a rest, tokens <:+ (next a rest).tokens) (c : Cursor) :
    tokens <:+ (after r tokens next c).tokens := by
  unfold after
  split
  · exact kept _ _
  · exact List.suffix_refl tokens
  · exact List.suffix_refl tokens

theorem continues_after (kept : ∀ a rest, tokens <:+ (next a rest).tokens) {c : Cursor}
    (later : ∀ a rest, r.run c = .ok a rest →
      Continues more (next a rest) (next a (rest.append more))) :
    Continues more (after r tokens next c) (after r tokens next (c.append more)) := by
  rcases r.run_append c more with short | same
  · have cut : after r tokens next c = .stopped tokens .truncated := by
      rw [after, short]
    rw [cut]
    exact .cut (suffix_after kept _)
  · cases read : r.run c with
    | ok a rest =>
      rw [read] at same
      simp only [after, read, same]
      exact later a rest read
    | truncated =>
      rw [after, read]
      exact .cut (suffix_after kept _)
    | damaged why =>
      rw [read] at same
      simp only [after, read, same]
      exact .same _

end Progress

namespace Stream

open Progress

/-! ## Octets as they are -/

theorem storedOctets_succ (count : Nat) (tokens : List Token) (c : Cursor) :
    storedOctets (count + 1) tokens c =
      after (Reader.number 8) tokens
        (fun octet rest => storedOctets count (.literal (UInt8.ofNat octet) :: tokens) rest) c := by
  rw [storedOctets, after]
  cases (Reader.number 8).run c <;> rfl

theorem storedBlock_eq (tokens : List Token) (c : Cursor) :
    storedBlock tokens c =
      after storedCount tokens (fun count rest => storedOctets count tokens rest) (align c) := by
  rw [storedBlock, after]
  cases storedCount.run (align c) <;> rfl

theorem suffix_storedOctets (count : Nat) (tokens : List Token) (c : Cursor) :
    tokens <:+ (storedOctets count tokens c).tokens := by
  induction count generalizing tokens c with
  | zero => exact List.suffix_refl tokens
  | succ count ih =>
    rw [storedOctets_succ]
    exact suffix_after (fun octet rest => (List.suffix_cons _ tokens).trans (ih _ rest)) c

theorem continues_storedOctets (count : Nat) (tokens : List Token) (c : Cursor) :
    Continues more (storedOctets count tokens c) (storedOctets count tokens (c.append more)) := by
  induction count generalizing tokens c with
  | zero => exact .same (.blockEnd tokens c)
  | succ count ih =>
    rw [storedOctets_succ, storedOctets_succ]
    refine continues_after ?_ (fun octet rest _ => ih _ rest)
    exact fun octet rest => (List.suffix_cons _ tokens).trans (suffix_storedOctets count _ rest)

theorem continues_storedBlock (tokens : List Token) (c : Cursor) :
    Continues more (storedBlock tokens c) (storedBlock tokens (c.append more)) := by
  have kept (count : Nat) (rest : Cursor) := suffix_storedOctets count tokens rest
  rw [storedBlock_eq, storedBlock_eq]
  by_cases enough : (8 - c.place % 8) % 8 ≤ c.bits.length
  · have aligned : align (c.append more) = (align c).append more := by
      simp only [align, Cursor.append, List.drop_append_of_le_length enough]
    rw [aligned]
    exact continues_after kept (fun count rest _ => continues_storedOctets count tokens rest)
  · -- The bits end within the octet that is skipped, so that none is left for the count.
    have none_left : (align c).bits = [] := List.drop_eq_nil_of_le (by omega)
    have short : storedCount.run (align c) = .truncated := by
      rw [Reader.run, none_left]
      rfl
    have cut : after storedCount tokens (fun count rest => storedOctets count tokens rest)
        (align c) = .stopped tokens .truncated := by
      rw [after, short]
    rw [cut]
    exact .cut (suffix_after kept _)

/-! ## Tokens in codes -/

/-- What becomes of a token that has been read; none is the end of the block. -/
def onward (codes : Codes) (tokens : List Token) : Option Token → Cursor → Progress
  | none, rest => .blockEnd tokens rest
  | some token, rest => tokensFrom codes (token :: tokens) rest

theorem tokensFrom_eq (codes : Codes) (tokens : List Token) (c : Cursor) :
    tokensFrom codes tokens c = after (Token.read codes) tokens (onward codes tokens) c := by
  rw [tokensFrom, after, Reader.run]
  split <;> rename_i read <;> rw [read] <;> rfl

theorem suffix_tokensFrom (codes : Codes) (tokens : List Token) (c : Cursor) :
    tokens <:+ (tokensFrom codes tokens c).tokens := by
  fun_induction tokensFrom codes tokens c with
  | case1 => exact List.suffix_refl _
  | case2 tokens c token rest read ih => exact (List.suffix_cons token tokens).trans ih
  | case3 => exact List.suffix_refl _
  | case4 => exact List.suffix_refl _

theorem suffix_onward (codes : Codes) (tokens : List Token) (token : Option Token)
    (rest : Cursor) : tokens <:+ (onward codes tokens token rest).tokens := by
  cases token with
  | none => exact List.suffix_refl tokens
  | some token => exact (List.suffix_cons token tokens).trans (suffix_tokensFrom codes _ rest)

theorem continues_tokensFrom (codes : Codes) (tokens : List Token) (c : Cursor) :
    Continues more (tokensFrom codes tokens c) (tokensFrom codes tokens (c.append more)) := by
  -- Each token takes a bit, so the induction is on the bits that are left.
  induction left_eq : c.bits.length using Nat.strongRecOn generalizing tokens c with
  | ind left ih =>
    rw [tokensFrom_eq, tokensFrom_eq]
    refine continues_after (suffix_onward codes tokens) ?_
    intro token rest read
    cases token with
    | none => exact .same (.blockEnd tokens rest)
    | some token =>
      have shorter : rest.bits.length < left := left_eq ▸ Token.length_rest_read_lt read
      exact ih _ shorter (token :: tokens) rest rfl

theorem describedBlock_eq (tokens : List Token) (c : Cursor) :
    describedBlock tokens c =
      after describedCodes tokens (fun codes rest => tokensFrom codes tokens rest) c := by
  rw [describedBlock, after]
  cases describedCodes.run c <;> rfl

theorem continues_describedBlock (tokens : List Token) (c : Cursor) :
    Continues more (describedBlock tokens c) (describedBlock tokens (c.append more)) := by
  rw [describedBlock_eq, describedBlock_eq]
  exact continues_after (fun codes rest => suffix_tokensFrom codes tokens rest)
    (fun codes rest _ => continues_tokensFrom codes tokens rest)

/-! ## Blocks -/

theorem suffix_block (type : Nat) (tokens : List Token) (c : Cursor) :
    tokens <:+ (block type tokens c).tokens := by
  unfold block
  split
  · rw [storedBlock_eq]
    exact suffix_after (fun count rest => suffix_storedOctets count tokens rest) _
  · split
    · exact suffix_tokensFrom Codes.fixed tokens c
    · split
      · rw [describedBlock_eq]
        exact suffix_after (fun codes rest => suffix_tokensFrom codes tokens rest) c
      · exact List.suffix_refl tokens

theorem continues_block (type : Nat) (tokens : List Token) (c : Cursor) :
    Continues more (block type tokens c) (block type tokens (c.append more)) := by
  unfold block
  split
  · exact continues_storedBlock tokens c
  · split
    · exact continues_tokensFrom Codes.fixed tokens c
    · split
      · exact continues_describedBlock tokens c
      · exact .same _

/-- What a stream has to do with one that goes on behind it: the longer one is the same, or the
shorter one runs out of bits with the first of the tokens. -/
def Continues (short long : Stream) : Prop :=
  long = short ∨ (short.ending = .truncated ∧ short.tokens <+: long.tokens)

/-- The stream whose reading has come to the end of a block, with so many blocks to come at most. -/
def behind (last : Bool) (budget : Nat) : Progress → Stream
  | .stopped tokens ending => ⟨tokens.reverse, ending⟩
  | .blockEnd tokens rest =>
    if last then ⟨tokens.reverse, .finished⟩ else blocks budget tokens rest

theorem blocks_of_ok {budget : Nat} {tokens : List Token} {c rest : Cursor} {last : Bool}
    {type : Nat} (header : blockHeader.run c = .ok (last, type) rest) :
    blocks (budget + 1) tokens c = behind last budget (block type tokens rest) := by
  rw [blocks, header]
  rfl

theorem prefix_behind {budget : Nat}
    (kept : ∀ tokens c, tokens.reverse <+: (blocks budget tokens c).tokens) (last : Bool)
    (p : Progress) : p.tokens.reverse <+: (behind last budget p).tokens := by
  cases p with
  | stopped tokens ending => exact List.prefix_refl _
  | blockEnd tokens rest =>
    simp only [behind]
    split
    · exact List.prefix_refl _
    · exact kept tokens rest

theorem prefix_blocks (budget : Nat) (tokens : List Token) (c : Cursor) :
    tokens.reverse <+: (blocks budget tokens c).tokens := by
  induction budget generalizing tokens c with
  | zero => exact List.prefix_refl _
  | succ budget ih =>
    cases header : blockHeader.run c with
    | ok found rest =>
      rw [blocks_of_ok header]
      have block_kept := List.reverse_prefix.2 (suffix_block found.2 tokens rest)
      exact block_kept.trans (prefix_behind ih found.1 _)
    | truncated =>
      have cut : (blocks (budget + 1) tokens c).tokens = tokens.reverse := by rw [blocks, header]
      exact cut ▸ List.prefix_refl _
    | damaged why =>
      have cut : (blocks (budget + 1) tokens c).tokens = tokens.reverse := by rw [blocks, header]
      exact cut ▸ List.prefix_refl _

theorem continues_behind {budget larger : Nat}
    (next : ∀ tokens c, Continues (blocks budget tokens c) (blocks larger tokens (c.append more)))
    (last : Bool) {short long : Progress} (h : Progress.Continues more short long) :
    Continues (behind last budget short) (behind last larger long) := by
  cases h with
  | same =>
    cases short with
    | stopped tokens ending => exact .inl rfl
    | blockEnd tokens rest =>
      cases last with
      | true => exact .inl rfl
      | false => exact next tokens rest
  | cut first =>
    have kept := prefix_behind (prefix_blocks larger) last long
    exact .inr ⟨rfl, (List.reverse_prefix.2 first).trans kept⟩

theorem continues_blocks {budget larger : Nat} (le : budget ≤ larger) (tokens : List Token)
    (c : Cursor) : Continues (blocks budget tokens c) (blocks larger tokens (c.append more)) := by
  induction budget generalizing larger tokens c with
  | zero => exact .inr ⟨rfl, prefix_blocks larger tokens _⟩
  | succ budget ih =>
    obtain ⟨larger, rfl⟩ : ∃ n, larger = n + 1 := ⟨larger - 1, by omega⟩
    rcases blockHeader.run_append c more with short | same
    · have cut : blocks (budget + 1) tokens c = ⟨tokens.reverse, .truncated⟩ := by
        rw [blocks, short]
      rw [cut]
      exact .inr ⟨rfl, prefix_blocks (larger + 1) tokens _⟩
    · cases header : blockHeader.run c with
      | truncated =>
        rw [blocks, header]
        exact .inr ⟨rfl, prefix_blocks (larger + 1) tokens _⟩
      | damaged why =>
        rw [header] at same
        rw [blocks, header, blocks, same]
        exact .inl rfl
      | ok found rest =>
        rw [header] at same
        rw [blocks_of_ok header, blocks_of_ok same]
        exact continues_behind (ih (Nat.le_of_succ_le_succ le)) found.1
          (continues_block found.2 tokens rest)

/-- What follows a stream changes nothing, unless the stream alone runs out of bits. -/
theorem continues_ofBytes (bytes more : Bytes) :
    Continues (ofBytes bytes) (ofBytes (bytes ++ more)) := by
  have bits : Bits.ofBytes (bytes ++ more) = Bits.ofBytes bytes ++ Bits.ofBytes more :=
    List.flatMap_append
  have le : (Bits.ofBytes bytes).length + 1 ≤ (Bits.ofBytes (bytes ++ more)).length + 1 := by
    rw [bits, List.length_append]
    omega
  have whole : Continues (ofBytes bytes) (blocks _ [] (Cursor.append ⟨0, _⟩ (Bits.ofBytes more))) :=
    continues_blocks le [] ⟨0, Bits.ofBytes bytes⟩
  rw [Cursor.append, ← bits] at whole
  exact whole

end Stream

/-! ## Texts -/

/-- Tokens are expanded one after the other, as far as it goes. -/
theorem expand_append (capacity : Option Nat) (text : Array UInt8) (front back : List Token) :
    expand capacity text (front ++ back) =
      if (expand capacity text front).stop = .ended then
        expand capacity (expand capacity text front).text back
      else expand capacity text front := by
  fun_induction expand capacity text front with
  | case1 text => rfl
  | case2 text octet rest full =>
    rw [List.cons_append, expand, if_pos full]
    rfl
  | case3 text octet rest free ih => rw [List.cons_append, expand, if_neg free, ih]
  | case4 text length distance rest fits full =>
    rw [List.cons_append, expand, if_pos full]
    rfl
  | case5 text length distance rest fits free back_too_far =>
    rw [List.cons_append, expand, if_neg free, if_pos back_too_far]
    rfl
  | case6 text length distance rest fits free near short =>
    rw [List.cons_append, expand, if_neg free, if_neg near, if_pos short]
    rfl
  | case7 text length distance rest fits free near whole ih =>
    rw [List.cons_append, expand, if_neg free, if_neg near, if_neg whole, ih]

/-- The first of some tokens make the beginning of their text. -/
theorem exists_expand_of_prefix {capacity : Option Nat} {text out : Array UInt8}
    {front tokens : List Token} (first : front <+: tokens)
    (ended : expand capacity text tokens = ⟨out, .ended⟩) :
    ∃ start, expand capacity text front = ⟨start, .ended⟩ ∧ start.size ≤ out.size := by
  obtain ⟨back, rfl⟩ := first
  rw [expand_append] at ended
  split at ended
  · next stop =>
    refine ⟨(expand capacity text front).text, by rw [← stop], ?_⟩
    have grown := size_le_size_expand capacity (expand capacity text front).text back
    rw [ended] at grown
    exact grown
  · next stop =>
    rw [ended] at stop
    exact absurd rfl stop

/-- A stream that holds a text still does so with more octets behind it. -/
theorem Holds.append {stream text : Bytes} (h : Holds stream text) (more : Bytes) :
    Holds (stream ++ more) text := by
  rcases Stream.continues_ofBytes stream more with same | ⟨cut, -⟩
  · unfold Holds
    rw [same]
    exact h
  · rw [h.1] at cut
    cases cut

/-- A stream that is cut off gives the text of the whole, or it is told to be truncated. -/
theorem decompress_of_cut {start more text : Bytes} {bound : Int} (nonneg : 0 ≤ bound)
    (inRange : bound + 1 < sizeLimit) (holds : Holds (start ++ more) text)
    (short : (text.length : Int) ≤ bound) :
    decompress start bound = .ok text ∨ decompress start bound = .error .truncated := by
  rcases Stream.continues_ofBytes start more with same | ⟨cut, first⟩
  · have held : Holds start text := by
      unfold Holds at holds ⊢
      rwa [same] at holds
    exact .inl ((decompress_eq_ok_iff nonneg inRange).2 ⟨held, short⟩)
  · -- There is room for the whole text, so none of the first tokens stops the expansion.
    obtain ⟨-, whole⟩ := holds
    have size_eq : text.toArray.size = text.length := List.size_toArray
    have fits : text.toArray.size ≤ (bound + 1).toNat := by omega
    have bounded := (endsAlike_expand (Nat.zero_le _) _ _).2 ⟨whole, fits⟩
    obtain ⟨part, ended, smaller⟩ := exists_expand_of_prefix first bounded
    refine .inr ?_
    have within : ¬ bound < (part.size : Int) := by omega
    rw [decompress_eq nonneg inRange, ended, cut]
    simp only [Expansion.settle, if_neg within]
    rfl

/-- A bound never changes a text or cuts it. Take two bounds, the first no greater than the second.
What comes out under the first is no longer than it and comes out under the second, too; it comes
out with any octets behind the stream, and wherever the stream is cut off, it comes out still or the
stream is told to be truncated. What comes out under the second comes out under the first if it is
no longer than that, and is told to be too long if it is. -/
theorem decompress_within {m n : Int} (nonneg : 0 ≤ m) (le : m ≤ n)
    (inRange : n ≤ 0x7ffffffffffffffe) (stream : Bytes) :
    (∀ out, decompress stream m = .ok out →
      (out.length : Int) ≤ m
      ∧ decompress stream n = .ok out
      ∧ (∀ more, decompress (stream ++ more) m = .ok out)
      ∧ ∀ start, start <+: stream →
        decompress start m = .ok out ∨ decompress start m = .error .truncated)
    ∧ (∀ out, decompress stream n = .ok out →
      ((out.length : Int) ≤ m → decompress stream m = .ok out)
      ∧ (m < out.length → decompress stream m = .error (.tooLong m)))
    ∧ InflateError.truncated.message = "Truncated DEFLATE stream"
    ∧ (InflateError.tooLong m).message = "Decompressed size exceeds " ++ toString m ++ " bytes" := by
  have below : n + 1 < sizeLimit := by
    simp only [sizeLimit]
    omega
  have below' : m + 1 < sizeLimit := Int.lt_of_le_of_lt (Int.add_le_add_right le 1) below
  have nonneg' : 0 ≤ n := Int.le_trans nonneg le
  refine ⟨?_, ?_, rfl, rfl⟩
  · intro out h
    obtain ⟨holds, short⟩ := (decompress_eq_ok_iff nonneg below').1 h
    refine ⟨short, (decompress_eq_ok_iff nonneg' below).2 ⟨holds, Int.le_trans short le⟩, ?_, ?_⟩
    · intro more
      exact (decompress_eq_ok_iff nonneg below').2 ⟨holds.append more, short⟩
    · rintro start ⟨more, rfl⟩
      exact decompress_of_cut nonneg below' holds short
  · intro out h
    obtain ⟨holds, -⟩ := (decompress_eq_ok_iff nonneg' below).1 h
    have told := decompress_of_holds nonneg below' holds
    refine ⟨fun short => told.trans (if_pos short), fun long => ?_⟩
    exact told.trans (if_neg (Int.not_le.2 long))

/-- A stored block with one octet, and a last block that copies it three times. -/
theorem decompress_within_two_blocks :
    ∃ stream : Bytes, stream = [0, 1, 0, 254, 255, 65, 3, 2, 0]
      ∧ ((0 : Int) ≤ 4 ∧ (4 : Int) ≤ 0x7ffffffffffffffe)
      ∧ decompress stream 4 = .ok [65, 65, 65, 65]
      ∧ decompress stream 0x7ffffffffffffffe = .ok [65, 65, 65, 65]
      ∧ decompress (stream ++ [255]) 4 = .ok [65, 65, 65, 65]
      ∧ decompress (stream.take 8) 4 = .error .truncated
      ∧ decompress stream 3 = .error (.tooLong 3) := by
  refine ⟨_, rfl, ⟨by decide, by decide⟩, ?_⟩
  generalize hs : ([0, 1, 0, 254, 255, 65, 3, 2, 0] : Bytes) = stream
  have read : Stream.ofBytes stream = ⟨[.literal 65, .copy 3 1], .finished⟩ := by
    subst hs
    decide +kernel
  have read_cut : Stream.ofBytes (stream.take 8) = ⟨[.literal 65, .copy 3 1], .truncated⟩ := by
    subst hs
    decide +kernel
  have out : decompress stream 4 = .ok [65, 65, 65, 65] := by
    rw [decompress_eq (by decide) (by decide), read]
    rfl
  have cut : decompress (stream.take 8) 4 ≠ .ok [65, 65, 65, 65] := by
    rw [decompress_eq (by decide) (by decide), read_cut]
    exact nofun
  obtain ⟨-, large, longer, shorter⟩ := (@decompress_within 4 0x7ffffffffffffffe (by decide)
    (by decide) (by decide) stream).1 _ out
  obtain ⟨-, small, -⟩ := @decompress_within 3 4 (by decide) (by decide) (by decide) stream
  exact ⟨out, large, longer [255], (shorter _ (List.take_prefix 8 stream)).resolve_left cut,
    (small _ out).2 (by decide)⟩

end TokenCrypto.Deflate
