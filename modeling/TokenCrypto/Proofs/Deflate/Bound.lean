import TokenCrypto.Deflate

/-!
# Bounds on a decompressed text

A bound decides whether a stream is decompressed, but not into what. The reason is that expanding
tokens with little room goes the way of expanding them with more room as long as it goes on at all,
and the text only grows.

* `endsAlike_expand`: expanding with little room ends just as with room without end, or is stopped.
* `decompress_eq_ok_iff`: what comes out of a stream is what it holds, if the bound allows for it.
* `decompress_of_holds`: and if the bound does not, it is the bound that is told about.
* `decompress_of_out_of_range`: the bounds under which no stream is decompressed.
-/

namespace TokenCrypto.Deflate

/-! ## Room -/

theorem size_le_size_expand (capacity : Option Nat) (text : Array UInt8) (tokens : List Token) :
    text.size ≤ (expand capacity text tokens).text.size := by
  fun_induction expand capacity text tokens with
  | case1 text => exact Nat.le_refl _
  | case2 text octet rest full => exact Nat.le_refl _
  | case3 text octet rest free ih =>
    rw [Array.size_push] at ih
    omega
  | case4 text length distance rest fits full => exact Nat.le_refl _
  | case5 text length distance rest fits free back => exact Nat.le_refl _
  | case6 text length distance rest fits free near short =>
    rw [size_repeatBack]
    omega
  | case7 text length distance rest fits free near whole ih =>
    rw [size_repeatBack] at ih
    omega

section

variable {capacity : Option Nat} {text : Array UInt8} {length distance : Nat} {rest : List Token}

/-- A copy for which there is room. -/
theorem expand_copy_of_room (whole : room capacity text.size length = length) :
    expand capacity text (.copy length distance :: rest) =
      if length = 0 then ⟨text, .full⟩
      else if text.size < distance then ⟨text, .tooFarBack⟩
      else expand capacity (repeatBack distance length text) rest := by
  simp only [expand, whole, if_neg (Nat.lt_irrefl length)]

/-- A copy for which there is not room enough stops the expansion. -/
theorem stop_expand_copy_of_room (short : room capacity text.size length < length) :
    (expand capacity text (.copy length distance :: rest)).stop ≠ .ended := by
  simp only [expand, if_pos short]
  split
  · exact nofun
  · split
    · exact nofun
    · exact nofun

end

/-! ## Expanding with little room -/

/-- What expanding with little room has to do with expanding with room without end: where it ends,
both end with one text, and there is room for all of it. -/
def EndsAlike (capacity : Nat) (bounded unbounded : Expansion) : Prop :=
  ∀ out, bounded = ⟨out, .ended⟩ ↔ unbounded = ⟨out, .ended⟩ ∧ out.size ≤ capacity

section

variable {capacity : Nat} {text : Array UInt8} {rest : List Token}

theorem endsAlike_of_ne_ended {bounded unbounded : Expansion} (stopped : bounded.stop ≠ .ended)
    (stopped' : unbounded.stop ≠ .ended) : EndsAlike capacity bounded unbounded := by
  intro out
  constructor
  · rintro rfl
    exact absurd rfl stopped
  · rintro ⟨rfl, -⟩
    exact absurd rfl stopped'

/-- Where the bounded expansion stops for want of room, the other one comes to a longer text. -/
theorem endsAlike_of_long {bounded unbounded : Expansion} (stopped : bounded.stop ≠ .ended)
    (long : capacity < unbounded.text.size) : EndsAlike capacity bounded unbounded := by
  intro out
  constructor
  · rintro rfl
    exact absurd rfl stopped
  · rintro ⟨rfl, short⟩
    exact absurd short (Nat.not_le.2 long)

theorem endsAlike_literal (octet : UInt8) (fits : text.size ≤ capacity)
    (ih : (text.push octet).size ≤ capacity →
      EndsAlike capacity (expand (some capacity) (text.push octet) rest)
        (expand none (text.push octet) rest)) :
    EndsAlike capacity (expand (some capacity) text (.literal octet :: rest))
      (expand none text (.literal octet :: rest)) := by
  have grown : (text.push octet).size = text.size + 1 := Array.size_push octet
  rw [expand_literal, expand, room]
  rcases Nat.eq_or_lt_of_le fits with full | free
  · rw [if_pos (by omega)]
    have longer := size_le_size_expand none (text.push octet) rest
    exact endsAlike_of_long nofun (by omega)
  · rw [if_neg (by omega)]
    exact ih (by omega)

theorem endsAlike_copy (length distance : Nat) (fits : text.size ≤ capacity)
    (ih : (repeatBack distance length text).size ≤ capacity →
      EndsAlike capacity (expand (some capacity) (repeatBack distance length text) rest)
        (expand none (repeatBack distance length text) rest)) :
    EndsAlike capacity (expand (some capacity) text (.copy length distance :: rest))
      (expand none text (.copy length distance :: rest)) := by
  have grown : (repeatBack distance length text).size = text.size + length :=
    size_repeatBack distance length text
  have unbounded : room none text.size length = length := rfl
  have bounded : room (some capacity) text.size length = min length (capacity - text.size) := rfl
  rw [expand_copy_of_room unbounded]
  by_cases free : text.size + length ≤ capacity
  · rw [expand_copy_of_room (by omega)]
    split
    · exact endsAlike_of_ne_ended nofun nofun
    · split
      · exact endsAlike_of_ne_ended nofun nofun
      · exact ih (by omega)
  · have stopped := @stop_expand_copy_of_room (some capacity) text length distance rest (by omega)
    split
    · exact endsAlike_of_ne_ended stopped nofun
    · split
      · exact endsAlike_of_ne_ended stopped nofun
      · have longer := size_le_size_expand none (repeatBack distance length text) rest
        exact endsAlike_of_long stopped (by omega)

end

theorem endsAlike_expand {capacity : Nat} {text : Array UInt8} (fits : text.size ≤ capacity)
    (tokens : List Token) :
    EndsAlike capacity (expand (some capacity) text tokens) (expand none text tokens) := by
  induction tokens generalizing text with
  | nil =>
    intro out
    refine ⟨fun ended => ⟨ended, ?_⟩, fun ended => ended.1⟩
    obtain rfl : text = out := congrArg Expansion.text ended
    exact fits
  | cons token rest ih =>
    cases token with
    | literal octet => exact endsAlike_literal octet fits ih
    | copy length distance => exact endsAlike_copy length distance fits ih

/-- Expanding with little room goes the way of expanding with room without end, unless it stops for
want of room. -/
theorem stop_expand_eq_full_or (capacity : Nat) (text : Array UInt8) (tokens : List Token) :
    (expand (some capacity) text tokens).stop = .full
      ∨ expand (some capacity) text tokens = expand none text tokens := by
  fun_induction expand (some capacity) text tokens with
  | case1 text => exact .inr rfl
  | case2 text octet rest full => exact .inl rfl
  | case3 text octet rest free ih => exact ih
  | case4 text length distance rest fits full => exact .inl rfl
  | case5 text length distance rest fits free back =>
    -- What lies too far back is looked at in either case, for a copy that is not empty.
    have some_wanted : room none text.size length ≠ 0 := by
      simp only [fits, room] at free ⊢
      omega
    exact .inr (by rw [expand, if_neg some_wanted, if_pos back])
  | case6 text length distance rest fits free near short => exact .inl rfl
  | case7 text length distance rest fits free near whole ih =>
    have some_wanted : length ≠ 0 := by
      simp only [fits, room] at free
      omega
    rw [expand_copy_of_room (show room none text.size length = length from rfl),
      if_neg some_wanted, if_neg near]
    exact ih

/-! ## Streams -/

/-- The text that a stream holds, however long it is. -/
def Holds (stream text : Bytes) : Prop :=
  (Stream.ofBytes stream).ending = .finished
  ∧ expand none #[] (Stream.ofBytes stream).tokens = ⟨text.toArray, .ended⟩

theorem isSize_iff {n : Int} (nonneg : 0 ≤ n) : isSize n = true ↔ n < sizeLimit := by
  have lower : -sizeLimit ≤ n := Int.le_trans (by decide) nonneg
  unfold isSize
  rw [decide_eq_true lower, Bool.true_and, decide_eq_true_iff]

/-- No stream is decompressed under a bound that leaves no number for one octet more. -/
theorem decompress_of_out_of_range {bound : Int} (h : sizeLimit ≤ bound + 1) (stream : Bytes) :
    decompress stream bound = .error .boundOutOfRange := by
  have nonneg : 0 ≤ bound + 1 := Int.le_trans (by decide) h
  have outside : isSize (bound + 1) = false :=
    Bool.eq_false_iff.2 fun inside => Int.not_lt.2 h ((isSize_iff nonneg).1 inside)
  unfold decompress
  simp only [outside, Bool.not_false, if_true]

/-- What an expansion with room for one octet more than the bound comes to, with the ending of its
stream. -/
def Expansion.settle (e : Expansion) (bound : Int) (ending : Ending) : Except InflateError Bytes :=
  match e.stop, ending with
  | .tooFarBack, _ => .error (.damaged .tooFarBack)
  | .full, _ => .error (.tooLong bound)
  | .ended, .damaged why => .error (.damaged why)
  | .ended, ending =>
    if bound < e.text.size then .error (.tooLong bound)
    else if ending = .finished then .ok e.text.toList
    else .error .truncated

/-- Under every other bound the tokens of a stream are expanded, with room for one octet more. -/
theorem decompress_eq {bound : Int} (nonneg : 0 ≤ bound) (inRange : bound + 1 < sizeLimit)
    (stream : Bytes) :
    decompress stream bound =
      (expand (some (bound + 1).toNat) #[] (Stream.ofBytes stream).tokens).settle bound
        (Stream.ofBytes stream).ending := by
  have inside : isSize (bound + 1) = true := (isSize_iff (by omega)).2 inRange
  unfold decompress
  simp only [inside, Bool.not_true, if_neg (show ¬ bound + 1 < 0 by omega),
    if_neg (show bound + 1 ≠ 0 by omega), Bool.false_eq_true, if_false]
  rfl

/-- What comes out of a stream is what it holds, if the bound allows for it. -/
theorem decompress_eq_ok_iff {stream text : Bytes} {bound : Int} (nonneg : 0 ≤ bound)
    (inRange : bound + 1 < sizeLimit) :
    decompress stream bound = .ok text ↔ Holds stream text ∧ (text.length : Int) ≤ bound := by
  have ends :=
    @endsAlike_expand (bound + 1).toNat #[] (Nat.zero_le _) (Stream.ofBytes stream).tokens
  rw [decompress_eq nonneg inRange]
  unfold Expansion.settle Holds
  generalize expand (some (bound + 1).toNat) #[] (Stream.ofBytes stream).tokens = e at ends ⊢
  constructor
  · intro out
    split at out
    · cases out
    · cases out
    · cases out
    · next stopped _ =>
      split at out
      · cases out
      · split at out
        · next finished =>
          obtain rfl := Except.ok.inj out
          refine ⟨⟨finished, ?_⟩, ?_⟩
          · rw [Array.toArray_toList]
            exact ((ends e.text).1 (by rw [← stopped])).1
          · rw [Array.length_toList]
            omega
        · cases out
  · rintro ⟨⟨finished, ended⟩, short⟩
    obtain rfl := (ends text.toArray).2 ⟨ended, by rw [List.size_toArray]; omega⟩
    simp only [finished, List.size_toArray, if_neg (Int.not_lt.2 short), if_true]

/-- A stream that holds a text gives the text if the bound allows for it, and is told to be too long
if not. -/
theorem decompress_of_holds {stream text : Bytes} {bound : Int} (nonneg : 0 ≤ bound)
    (inRange : bound + 1 < sizeLimit) (holds : Holds stream text) :
    decompress stream bound =
      if (text.length : Int) ≤ bound then .ok text else .error (.tooLong bound) := by
  by_cases short : (text.length : Int) ≤ bound
  · rw [if_pos short]
    exact (decompress_eq_ok_iff nonneg inRange).2 ⟨holds, short⟩
  · obtain ⟨finished, whole⟩ := holds
    rw [if_neg short, decompress_eq nonneg inRange]
    rcases stop_expand_eq_full_or (bound + 1).toNat #[] (Stream.ofBytes stream).tokens with
      full | same
    · simp only [Expansion.settle, full]
    · -- There is room for all of it, and so for one octet too many.
      simp only [Expansion.settle, same, whole, finished, List.size_toArray,
        if_pos (Int.not_le.1 short)]

/-- What comes out of a stream is what it holds, and no longer than the bound. -/
theorem holds_of_decompress {stream text : Bytes} {bound : Int} (nonneg : 0 ≤ bound)
    (h : decompress stream bound = .ok text) : Holds stream text ∧ (text.length : Int) ≤ bound := by
  by_cases inRange : bound + 1 < sizeLimit
  · exact (decompress_eq_ok_iff nonneg inRange).1 h
  · rw [decompress_of_out_of_range (Int.not_lt.1 inRange)] at h
    cases h

end TokenCrypto.Deflate
