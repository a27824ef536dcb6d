import Mathlib.Data.List.TakeDrop
import Mathlib.Tactic.IntervalCases
import TokenCrypto.Json.Reader
import TokenCrypto.Proofs.Json.Escape

/-!
# Written words

A text is cut into the words it was written in. Blanks may stand around a word, and change nothing;
an integer is cut off in front of whatever cannot go on with it, a text at its closing quote.

* `Token.scan_cons`: a text is cut behind its first word.
* `Token.scan_blank`: blanks between words change nothing.
* `Token.scan_writesInteger`, `Token.scan_writesText`: what is written for an integer or a text is
  one word.
-/

namespace TokenCrypto.Json

/-! ## Ways to write -/

/-- What is written for a text: its characters between quotes, and blanks around them. -/
inductive WritesText (value : String) : List Char → Prop
  | quoted {cs : List Char} (chars : WritesChars value.toList cs) :
    WritesText value ('"' :: (cs ++ ['"']))
  | before {blank : Char} {cs : List Char} (hb : Token.isBlank blank = true)
    (written : WritesText value cs) : WritesText value (blank :: cs)
  | behind {blank : Char} {cs : List Char} (hb : Token.isBlank blank = true)
    (written : WritesText value cs) : WritesText value (cs ++ [blank])

/-- What is written for an integer of not too many digits. -/
inductive WritesInteger : Int → List Char → Prop
  | natural (n : Nat) (short : (Nat.toDigits 10 n).length ≤ digitLimit) :
    WritesInteger n (Nat.toDigits 10 n)
  | negative (n : Nat) (short : (Nat.toDigits 10 n).length ≤ digitLimit) :
    WritesInteger (-n) ('-' :: Nat.toDigits 10 n)

namespace Token

/-! ## The first word -/

theorem length_units? {cs rest : List Char} {us : List Nat} (h : units? cs = some (us, rest)) :
    rest.length < cs.length := by
  fun_induction units? cs generalizing us rest with
  | case1 => cases h
  | case2 after =>
    cases h
    exact Nat.lt_succ_self _
  | case3 a b c d after ih =>
    obtain ⟨u, -, h⟩ := Option.bind_eq_some_iff.1 h
    obtain ⟨⟨vs, found⟩, read, h⟩ := Option.bind_eq_some_iff.1 h
    cases h
    have := ih read
    simp only [List.length_cons]
    omega
  | case4 c after no_unit ih =>
    obtain ⟨u, -, h⟩ := Option.bind_eq_some_iff.1 h
    obtain ⟨⟨vs, found⟩, read, h⟩ := Option.bind_eq_some_iff.1 h
    cases h
    have := ih read
    simp only [List.length_cons]
    omega
  | case5 => cases h
  | case6 c after no_quote no_unit no_escape visible ih =>
    obtain ⟨⟨vs, found⟩, read, h⟩ := Option.bind_eq_some_iff.1 h
    cases h
    have := ih read
    simp only [List.length_cons]
    omega

theorem length_spanDigits (cs : List Char) : (spanDigits cs).2.length ≤ cs.length := by
  rw [spanDigits, List.span_eq_takeWhile_dropWhile]
  exact (List.dropWhile_sublist _).length_le

theorem length_fraction (cs : List Char) : (fraction cs).2.length ≤ cs.length := by
  unfold fraction
  split
  · next rest =>
    have shorter := length_spanDigits rest
    split
    · exact Nat.le_refl _
    · next digits after _ h =>
      rw [h] at shorter
      exact Nat.le_succ_of_le shorter
  · exact Nat.le_refl _

theorem length_exponent (cs : List Char) : (exponent cs).2.length ≤ cs.length := by
  unfold exponent
  split
  · next e rest =>
    split
    · split
      next sign unsigned signed =>
      have le : unsigned.length ≤ rest.length := by
        split at signed
        all_goals
          obtain ⟨-, rfl⟩ := Prod.mk.inj signed
          simp
      have shorter := length_spanDigits unsigned
      split
      · exact Nat.le_refl _
      · next digits after _ h =>
        have shorter : after.length ≤ unsigned.length := by simpa only [h] using shorter
        exact Nat.le_succ_of_le (Nat.le_trans shorter le)
    · exact Nat.le_refl _
  · exact Nat.le_refl _

theorem length_number (negative : Bool) (digits rest : List Char) :
    (number negative digits rest).2.length ≤ rest.length := by
  have frac := length_fraction rest
  have exp := length_exponent (fraction rest).2
  unfold number
  simp only
  split
  · exact Nat.le_trans exp frac
  · exact Nat.le_trans exp frac

theorem length_unsigned? {negative : Bool} {cs rest : List Char} {token : Token}
    (h : unsigned? negative cs = some (token, rest)) : rest.length < cs.length := by
  unfold unsigned? at h
  split at h
  · next after =>
    have shorter := length_number negative ['0'] after
    rw [Option.some.inj h] at shorter
    exact Nat.lt_succ_of_le shorter
  · next c after _ =>
    split at h
    · have shorter := length_number negative (c :: (spanDigits after).1) (spanDigits after).2
      have token_eq : number negative (c :: (spanDigits after).1) (spanDigits after).2
          = (token, rest) := Option.some.inj h
      rw [token_eq] at shorter
      exact Nat.lt_succ_of_le (Nat.le_trans shorter (length_spanDigits after))
    · cases h
  · cases h

theorem length_spelled? {cs rest : List Char} {token : Token}
    (h : spelled? cs = some (token, rest)) : rest.length < cs.length := by
  obtain ⟨entry, found, h⟩ := Option.map_eq_some_iff.1 h
  obtain ⟨-, rfl⟩ := Prod.mk.inj h
  have some_letters : ∀ entry ∈ spelled, 0 < entry.1.length := by decide
  have front := List.find?_some found
  have le := (List.isPrefixOf_iff_prefix.1 front).length_le
  have := some_letters entry (List.mem_of_find?_eq_some found)
  rw [List.length_drop]
  omega

/-- A word takes a character at least. -/
theorem length_next? {cs rest : List Char} {token : Token} (h : next? cs = some (token, rest)) :
    rest.length < cs.length := by
  unfold next? at h
  split at h
  case h_1 => cases h
  case h_8 after =>
    obtain ⟨found, read, h⟩ := Option.map_eq_some_iff.1 h
    obtain ⟨-, rfl⟩ := Prod.mk.inj h
    exact Nat.lt_succ_of_lt (length_units? read)
  case h_9 =>
    split at h
    · next found read =>
      cases h
      exact length_spelled? read
    · split at h
      · exact Nat.lt_succ_of_lt (length_unsigned? h)
      · exact length_unsigned? h
  -- a mark is a word of one character
  all_goals
    cases h
    exact Nat.lt_succ_self _

/-- A text without a blank in front is cut behind its first word. -/
theorem scan_cons {c : Char} {cs rest : List Char} {token : Token} (no_blank : isBlank c = false)
    (h : next? (c :: cs) = some (token, rest)) : scan (c :: cs) = token :: scan rest := by
  have front : (c :: cs).dropWhile isBlank = c :: cs := by simp [no_blank]
  rw [scan, front]
  simp only [h]
  exact if_pos (length_next? h)

theorem scan_colon (rest : List Char) : scan (':' :: rest) = .colon :: scan rest :=
  scan_cons rfl rfl

theorem scan_comma (rest : List Char) : scan (',' :: rest) = .comma :: scan rest :=
  scan_cons rfl rfl

theorem scan_objectOpen (rest : List Char) : scan ('\x7b' :: rest) = .objectOpen :: scan rest :=
  scan_cons rfl rfl

theorem scan_objectClose (rest : List Char) : scan ('\x7d' :: rest) = .objectClose :: scan rest :=
  scan_cons rfl rfl

theorem scan_listOpen (rest : List Char) : scan ('[' :: rest) = .listOpen :: scan rest :=
  scan_cons rfl rfl

theorem scan_listClose (rest : List Char) : scan (']' :: rest) = .listClose :: scan rest :=
  scan_cons rfl rfl

/-! ## Blanks -/

/-- Blanks between words change nothing. -/
theorem scan_blank {blank : Char} (hb : isBlank blank = true) (cs : List Char) :
    scan (blank :: cs) = scan cs := by
  have same : (blank :: cs).dropWhile isBlank = cs.dropWhile isBlank := by simp [hb]
  have le := (List.dropWhile_sublist (p := isBlank) (l := cs)).length_le
  rw [scan, same]
  conv => rhs; rw [scan]
  cases front : cs.dropWhile isBlank with
  | nil => rfl
  | cons c rest =>
    rw [front] at le
    cases word : next? (c :: rest) with
    | none => simp only [word]
    | some found =>
      have lt := Nat.lt_of_lt_of_le (length_next? word) le
      have lt_succ : found.2.length < (blank :: cs).length := Nat.lt_succ_of_lt lt
      simp only [word]
      rw [if_pos lt, if_pos lt_succ]

theorem scan_blanks {blanks : List Char} (hb : ∀ c ∈ blanks, isBlank c = true) (cs : List Char) :
    scan (blanks ++ cs) = scan cs := by
  induction blanks with
  | nil => rfl
  | cons blank blanks ih =>
    rw [List.forall_mem_cons] at hb
    rw [List.cons_append, scan_blank hb.1, ih hb.2]

/-! ## Integers -/

/-- What may follow an integer: nothing that would go on with it. -/
def Ends : List Char → Prop
  | [] => True
  | c :: _ => c.isDigit = false ∧ c ≠ '.' ∧ c ≠ 'e' ∧ c ≠ 'E'

theorem ends_cons {c : Char} (h : c ∈ [' ', '\t', '\n', '\r', ',', ']', '\x7d'])
    (rest : List Char) : Ends (c :: rest) := by
  have all : [' ', '\t', '\n', '\r', ',', ']', '\x7d'].all
      (fun c => !c.isDigit && c != '.' && c != 'e' && c != 'E') = true := by decide
  simpa [Ends, and_assoc] using List.all_eq_true.1 all c h

theorem ends_blank {blank : Char} (hb : isBlank blank = true) (rest : List Char) :
    Ends (blank :: rest) := by
  simp only [isBlank, Bool.or_eq_true, decide_eq_true_eq] at hb
  obtain ((rfl | rfl) | rfl) | rfl := hb
  all_goals exact ends_cons (by decide) rest

theorem spanDigits_append {digits : List Char} (all : ∀ c ∈ digits, c.isDigit = true)
    {rest : List Char} (ends : Ends rest) : spanDigits (digits ++ rest) = (digits, rest) := by
  have stop : rest.takeWhile Char.isDigit = [] ∧ rest.dropWhile Char.isDigit = rest := by
    cases rest with
    | nil => exact ⟨rfl, rfl⟩
    | cons c rest => simp [ends.1]
  rw [spanDigits, List.span_eq_takeWhile_dropWhile, List.takeWhile_append_of_pos all,
    List.dropWhile_append_of_pos all, stop.1, stop.2, List.append_nil]

theorem number_of_ends (negative : Bool) (digits : List Char) {rest : List Char}
    (ends : Ends rest) : number negative digits rest = (.integer negative digits, rest) := by
  cases rest with
  | nil => rfl
  | cons c rest =>
    obtain ⟨-, no_point, no_e, no_E⟩ := ends
    have frac : fraction (c :: rest) = ([], c :: rest) := by
      unfold fraction
      split
      · next h => exact absurd (List.cons.inj h).1 no_point
      · rfl
    have exp : exponent (c :: rest) = ([], c :: rest) :=
      if_neg (not_or.2 ⟨no_e, no_E⟩)
    simp only [number, frac, exp]
    rfl

/-- The digits of a number begin with a zero only for the number zero. -/
theorem toDigits_eq_cons (n : Nat) :
    ∃ d digits, Nat.toDigits 10 n = Nat.digitChar d :: digits ∧ d < 10 ∧ (d = 0 → n = 0) := by
  induction n using Nat.strongRecOn with
  | ind n ih =>
    by_cases small : n < 10
    · exact ⟨n, [], Nat.toDigits_of_lt_base small, small, id⟩
    · obtain ⟨d, digits, shape, digit, alone⟩ := ih (n / 10) (by omega)
      refine ⟨d, digits ++ [Nat.digitChar (n % 10)], ?_, digit, ?_⟩
      · rw [Nat.toDigits_of_base_le (by decide) (by omega), shape, List.cons_append]
      · intro zero
        have := alone zero
        omega

theorem unsigned?_digits (negative : Bool) {c : Char} {digits rest : List Char}
    (digit : c.isDigit = true) (no_zero : c ≠ '0') (all : ∀ d ∈ digits, d.isDigit = true)
    (ends : Ends rest) :
    unsigned? negative (c :: (digits ++ rest)) = some (.integer negative (c :: digits), rest) := by
  rw [unsigned?]
  · rw [if_pos digit, spanDigits_append all ends]
    exact congrArg some (number_of_ends negative _ ends)
  · exact no_zero

theorem unsigned?_toDigits (negative : Bool) (n : Nat) {rest : List Char} (ends : Ends rest) :
    unsigned? negative (Nat.toDigits 10 n ++ rest) =
      some (.integer negative (Nat.toDigits 10 n), rest) := by
  by_cases zero : n = 0
  · subst zero
    exact congrArg some (number_of_ends negative ['0'] ends)
  · obtain ⟨d, digits, shape, -, alone⟩ := toDigits_eq_cons n
    have all (c : Char) (hc : c ∈ Nat.toDigits 10 n) : c.isDigit = true :=
      Nat.isDigit_of_mem_toDigits (by decide) (by decide) hc
    have no_zero : Nat.digitChar d ≠ '0' := fun h => zero (alone (Nat.digitChar_eq_zero.1 h))
    rw [shape, List.forall_mem_cons] at all
    rw [shape]
    exact unsigned?_digits negative all.1 no_zero all.2 ends

/-- No digit begins a word of letters or a mark. -/
theorem next?_digitChar {d : Nat} (h : d < 10) (rest : List Char) :
    next? (Nat.digitChar d :: rest) = unsigned? false (Nat.digitChar d :: rest)
      ∧ next? ('-' :: Nat.digitChar d :: rest) = unsigned? true (Nat.digitChar d :: rest) := by
  interval_cases d <;> exact ⟨rfl, rfl⟩

theorem scan_toDigits (n : Nat) {rest : List Char} (ends : Ends rest) :
    scan (Nat.toDigits 10 n ++ rest) = .integer false (Nat.toDigits 10 n) :: scan rest
      ∧ scan ('-' :: (Nat.toDigits 10 n ++ rest)) =
        .integer true (Nat.toDigits 10 n) :: scan rest := by
  obtain ⟨d, digits, shape, digit, -⟩ := toDigits_eq_cons n
  have natural := unsigned?_toDigits false n ends
  have negative := unsigned?_toDigits true n ends
  have no_blank : isBlank (Nat.digitChar d) = false := by
    interval_cases d <;> rfl
  rw [shape, List.cons_append] at natural negative ⊢
  rw [← (next?_digitChar digit _).1] at natural
  rw [← (next?_digitChar digit _).2] at negative
  exact ⟨scan_cons no_blank natural, scan_cons rfl negative⟩

end Token

namespace Reader

theorem integer_toDigits (n : Nat) :
    integer false (Nat.toDigits 10 n) = n ∧ integer true (Nat.toDigits 10 n) = -n := by
  have value : decimal (Nat.toDigits 10 n) = n := Nat.ofDigitChars_ten_toDigits
  constructor
  · exact congrArg Int.ofNat value
  · exact congrArg (fun n : Nat => -(n : Int)) value

end Reader

/-- An integer is cut off with its digits, and these are the digits of it. -/
theorem Token.scan_writesInteger {n : Int} {cs rest : List Char} (written : WritesInteger n cs)
    (ends : Ends rest) :
    ∃ negative digits, scan (cs ++ rest) = .integer negative digits :: scan rest
      ∧ digits.length ≤ digitLimit ∧ Reader.integer negative digits = n := by
  cases written with
  | natural n short =>
    exact ⟨false, _, (scan_toDigits n ends).1, short, (Reader.integer_toDigits n).1⟩
  | negative n short =>
    exact ⟨true, _, (scan_toDigits n ends).2, short, (Reader.integer_toDigits n).2⟩

/-! ## Texts -/

namespace Token

/-- What is written for a text is one word. -/
theorem scan_writesText {value : String} {cs : List Char} (written : WritesText value cs)
    (rest : List Char) : scan (cs ++ rest) = .text value :: scan rest := by
  induction written generalizing rest with
  | @quoted cs chars =>
    obtain ⟨us, read, joined⟩ := units?_writesChars chars
    have word : next? ('"' :: (cs ++ '"' :: rest)) = some (.text value, rest) := by
      simp only [next?, read, Option.map_some, Text.ofUnits, joined, Text.ofPoints_toNat]
    rw [List.cons_append, List.append_assoc, List.singleton_append]
    exact scan_cons rfl word
  | before hb written ih => rw [List.cons_append, scan_blank hb, ih]
  | behind hb written ih => rw [List.append_assoc, ih, List.singleton_append, scan_blank hb]

end Token

end TokenCrypto.Json
