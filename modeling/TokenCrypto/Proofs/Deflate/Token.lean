import TokenCrypto.Deflate.Token
import TokenCrypto.Proofs.Deflate.Reading

/-!
# Written tokens are read back

A token is written as symbols of the fixed codes and further bits. Every symbol that a token needs
is in its code, and every length and distance in range is selected by exactly one entry of its
table, so that reading the bits of a token gives the token.

* `Token.getElem?_rangeOf`: the entry that is selected for a number holds the number.
* `Token.reads_write`: reading a written token gives the token.
-/

namespace TokenCrypto.Deflate

/-! ## Symbols -/

namespace Tree

/-- The symbols of a tree, from left to right. -/
def symbols : Tree → List Nat
  | empty => []
  | leaf symbol => [symbol]
  | node zero one => zero.symbols ++ one.symbols

theorem path?_of_mem {symbol : Nat} {t : Tree} (h : symbol ∈ t.symbols) :
    ∃ path, t.path? symbol = some path := by
  induction t with
  | empty => cases h
  | leaf s =>
    obtain rfl := List.mem_singleton.1 h
    exact ⟨[], if_pos rfl⟩
  | node zero one ihz iho =>
    cases hz : zero.path? symbol with
    | some path => exact ⟨false :: path, by rw [path?, hz]⟩
    | none =>
      rcases List.mem_append.1 h with h | h
      · obtain ⟨path, found⟩ := ihz h
        rw [hz] at found
        cases found
      · obtain ⟨path, found⟩ := iho h
        exact ⟨true :: path, by rw [path?, hz, found]; rfl⟩

end Tree

theorem Code.symbols_fixedLiteral :
    Code.fixedLiteral.tree.symbols =
      List.range' 256 24 ++ List.range' 0 144 ++ List.range' 280 8 ++ List.range' 144 112 := by
  decide +kernel

theorem Code.symbols_fixedDistance : Code.fixedDistance.tree.symbols = List.range' 0 32 := by
  decide +kernel

namespace Token

open Reader

theorem reads_symbol {code : Code} {symbol : Nat} (h : symbol ∈ code.tree.symbols)
    (missing : Damage) : (code.read missing).Reads (writeSymbol code symbol) symbol := by
  obtain ⟨path, found⟩ := Tree.path?_of_mem h
  intro place rest
  rw [writeSymbol, found, Option.getD_some]
  exact Tree.read_path found missing place rest

theorem reads_literalSymbol {symbol : Nat} (h : symbol < 288) (missing : Damage) :
    (Code.fixedLiteral.read missing).Reads (writeSymbol Code.fixedLiteral symbol) symbol := by
  refine reads_symbol ?_ missing
  rw [Code.symbols_fixedLiteral]
  simp only [List.mem_append, List.mem_range'_1]
  omega

theorem reads_distanceSymbol {symbol : Nat} (h : symbol < 32) (missing : Damage) :
    (Code.fixedDistance.read missing).Reads (writeSymbol Code.fixedDistance symbol) symbol := by
  refine reads_symbol ?_ missing
  rw [Code.symbols_fixedDistance, List.mem_range'_1]
  omega

/-! ## Ranges -/

/-- Whether each range of a table reaches to the next, and the last one to `stop`. -/
def contiguous (stop : Nat) : List (Nat × Nat) → Bool
  | [] => true
  | [last] => stop ≤ last.1 + 1 <<< last.2
  | range :: next :: rest => next.1 ≤ range.1 + 1 <<< range.2 && contiguous stop (next :: rest)

/-- The entry of a contiguous table that is selected for a number holds the number. -/
theorem getElem?_rangeOf {n stop : Nat} {range : Nat × Nat} {rest : List (Nat × Nat)}
    (hr : contiguous stop (range :: rest) = true) (low : range.1 ≤ n) (high : n < stop) :
    ∃ found, (range :: rest)[(rangeOf (range :: rest) n).1]? = some found ∧ found.1 ≤ n
      ∧ n - found.1 < 1 <<< found.2 := by
  induction rest generalizing range with
  | nil =>
    have : stop ≤ range.1 + 1 <<< range.2 := by simpa [contiguous] using hr
    refine ⟨range, ?_, low, by omega⟩
    simp [rangeOf, low]
  | cons next rest ih =>
    simp only [contiguous, Bool.and_eq_true, decide_eq_true_eq] at hr
    by_cases further : next.1 ≤ n
    · obtain ⟨found, selected, bounds⟩ := ih hr.2 further
      refine ⟨found, ?_, bounds⟩
      simp only [rangeOf, List.takeWhile_cons, further, low, decide_true, if_true,
        List.length_cons, Nat.add_sub_cancel] at selected ⊢
      rw [List.getElem?_cons_succ]
      exact selected
    · refine ⟨range, ?_, low, by omega⟩
      simp [rangeOf, low, further]

theorem reads_range {ranges : List (Nat × Nat)} {n : Nat} {found : Nat × Nat}
    (h : ranges[(rangeOf ranges n).1]? = some found) (low : found.1 ≤ n)
    (high : n - found.1 < 1 <<< found.2) (missing : Damage) :
    (readRange ranges missing (rangeOf ranges n).1).Reads (rangeOf ranges n).2 n := by
  have bits : (rangeOf ranges n).2 = Bits.ofNat found.2 (n - found.1) := by
    have entry : ranges.getD (rangeOf ranges n).1 (0, 0) = found := by
      rw [List.getD_eq_getElem?_getD, h, Option.getD_some]
    rw [← entry]
    rfl
  rw [readRange, h, bits]
  exact (reads_number high).bind_done (congrArg done (Nat.add_sub_cancel' low))

/-! ## Tokens -/

/-- Whether a token can be written: the length and the distance of a copy have to be in range. -/
def Writable : Token → Prop
  | literal _ => True
  | copy length distance => 3 ≤ length ∧ length ≤ 258 ∧ 1 ≤ distance ∧ distance ≤ 0x8000

theorem reads_literal (octet : UInt8) :
    (read Codes.fixed).Reads (write (.literal octet)) (some (.literal octet)) := by
  have small : octet.toNat < endSymbol := octet.toNat_lt
  have symbol : (Code.fixedLiteral.read .literalCode).Reads (write (.literal octet))
      octet.toNat :=
    reads_literalSymbol (Nat.lt_trans small (by decide)) .literalCode
  refine symbol.bind_done ?_
  rw [readAfter, if_pos small, UInt8.ofNat_toNat]

theorem reads_endSymbol :
    (read Codes.fixed).Reads (writeSymbol Code.fixedLiteral endSymbol) none :=
  (reads_literalSymbol (by decide) .literalCode).bind_done rfl

theorem reads_distance (length : Nat) {distance : Nat} (near : 1 ≤ distance)
    (far : distance ≤ 0x8000) :
    ((Code.fixedDistance.read .distanceCode).bind fun symbol =>
      (readRange distanceRanges .distanceCode symbol).bind fun distance =>
        done (some (copy length distance))).Reads
      (writeSymbol Code.fixedDistance (rangeOf distanceRanges distance).1
        ++ (rangeOf distanceRanges distance).2) (some (copy length distance)) := by
  obtain ⟨found, hf, low, high⟩ :=
    getElem?_rangeOf (show contiguous 0x8001 distanceRanges = true by decide) near (by omega)
  change distanceRanges[(rangeOf distanceRanges distance).1]? = some found at hf
  -- a symbol that selects an entry of its table is one of the code
  have listed : (rangeOf distanceRanges distance).1 < 30 := (List.getElem?_eq_some_iff.1 hf).1
  have symbol := reads_distanceSymbol (Nat.lt_trans listed (by decide)) .distanceCode
  have number := (reads_range hf low high .distanceCode).bind_done
    (f := fun distance => done (some (copy length distance))) rfl
  exact symbol.bind number

theorem reads_copy {length distance : Nat} (h : Writable (.copy length distance)) :
    (read Codes.fixed).Reads (write (.copy length distance)) (some (.copy length distance)) := by
  obtain ⟨least, most, near, far⟩ := h
  obtain ⟨found, hf, low, high⟩ :=
    getElem?_rangeOf (show contiguous 259 lengthRanges = true by decide) least (by omega)
  change lengthRanges[(rangeOf lengthRanges length).1]? = some found at hf
  have listed : (rangeOf lengthRanges length).1 < 29 := (List.getElem?_eq_some_iff.1 hf).1
  have symbol := @reads_literalSymbol (257 + (rangeOf lengthRanges length).1) (by omega)
    .literalCode
  have after : (readAfter Codes.fixed (257 + (rangeOf lengthRanges length).1)).Reads
      ((rangeOf lengthRanges length).2
        ++ (writeSymbol Code.fixedDistance (rangeOf distanceRanges distance).1
          ++ (rangeOf distanceRanges distance).2)) (some (copy length distance)) := by
    rw [readAfter, if_neg (by simp only [endSymbol]; omega),
      if_neg (by simp only [endSymbol]; omega), Nat.add_sub_cancel_left]
    exact (reads_range hf low high .literalCode).bind (reads_distance length near far)
  have whole := symbol.bind after
  simp only [← List.append_assoc] at whole
  exact whole

/-- Reading a written token gives the token. -/
theorem reads_write {token : Token} (h : Writable token) :
    (read Codes.fixed).Reads (write token) (some token) := by
  cases token with
  | literal octet => exact reads_literal octet
  | copy length distance => exact reads_copy h

end Token

end TokenCrypto.Deflate
