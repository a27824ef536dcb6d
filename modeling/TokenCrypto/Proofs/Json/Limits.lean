import TokenCrypto.Proofs.Json.Words

/-!
# Texts beyond the limits of reading

There are two reasons to give up on a text that may yet be well formed: an integer of too many
digits, and a list or object inside too many others. Whether a text goes beyond a limit is told by
its words: they fit one after the other, up to a word that is too large where it stands.

* `Reader.depth_of_reaches`: where a value is expected, as many lists and objects are open as words
  have opened and not closed.
* `Reader.run_eq_error_iff`: the reader gives up exactly at a word that is too large.
* `read_eq_error_iff`: the same for whole texts.
-/

namespace TokenCrypto.Json

/-! ## Words that are too large -/

namespace Token

def isOpening : Token → Bool
  | listOpen => true
  | objectOpen => true
  | _ => false

def isClosing : Token → Bool
  | listClose => true
  | objectClose => true
  | _ => false

/-- How many lists and objects words leave open. -/
def depth (words : List Token) : Nat := words.countP isOpening - words.countP isClosing

end Token

/-- A word that is too large where so many lists and objects are open, and what is told of it. -/
inductive Oversized (depth : Nat) : Token → ReadError → Prop
  | integer {negative : Bool} {digits : List Char} (h : digitLimit < digits.length) :
    Oversized depth (.integer negative digits) (.integerTooLong digits.length)
  | list (h : depthLimit ≤ depth) : Oversized depth .listOpen .nestedTooDeep
  | object (h : depthLimit ≤ depth) : Oversized depth .objectOpen .nestedTooDeep

/-- Whether a value may come next. -/
inductive Mode.ExpectsValue : Mode → Prop
  | value : ExpectsValue .value
  | firstItem : ExpectsValue .firstItem

namespace Reader

/-! ## One word -/

theorem beginValue_eq_error_iff {stack : List Frame} {word : Token} {why : ReadError}
    (large : why ≠ .malformed) :
    beginValue stack word = .error why ↔ Oversized stack.length word why := by
  constructor
  · intro h
    cases word with
    | integer negative digits =>
      simp only [beginValue] at h
      split at h
      · cases h
      · next long =>
        obtain rfl := Except.error.inj h
        exact .integer (Nat.lt_of_not_le long)
    | listOpen =>
      simp only [beginValue] at h
      split at h
      · cases h
      · next deep =>
        obtain rfl := Except.error.inj h
        exact .list (Nat.le_of_not_lt deep)
    | objectOpen =>
      simp only [beginValue] at h
      split at h
      · cases h
      · next deep =>
        obtain rfl := Except.error.inj h
        exact .object (Nat.le_of_not_lt deep)
    | listClose | objectClose | colon | comma | junk => exact absurd (Except.error.inj h).symm large
    | null | bool | real | text => cases h
  · intro h
    cases h with
    | integer long => exact if_neg (Nat.not_le.2 long)
    | list deep => exact if_neg (Nat.not_lt.2 deep)
    | object deep => exact if_neg (Nat.not_lt.2 deep)

/-- Where no value may come next, a word that does not fit is told to be no JSON. -/
theorem eq_malformed_of_step {mode : Mode} (no_value : ¬ mode.ExpectsValue) {stack : List Frame}
    {word : Token} {why : ReadError} (h : step mode stack word = .error why) :
    why = .malformed := by
  cases mode with
  | value => exact absurd .value no_value
  | firstItem => exact absurd .firstItem no_value
  | firstName | name members | colon members name =>
    simp only [step] at h
    split at h
    all_goals cases h
    all_goals rfl
  | after value =>
    simp only [step, endValue] at h
    split at h
    all_goals cases h
    all_goals rfl

theorem step_firstItem_eq_error_iff {stack : List Frame} {word : Token} {why : ReadError}
    (large : why ≠ .malformed) :
    step .firstItem stack word = .error why ↔ beginValue stack word = .error why := by
  simp only [step]
  split
  · -- The end of the list is no value, so that neither side tells of a limit.
    constructor
    · intro h
      cases h
    · intro h
      exact absurd (Except.error.inj h).symm large
  · exact Iff.rfl

/-- A word is too large only where a value may come next. -/
theorem step_eq_error_iff {mode : Mode} {stack : List Frame} {word : Token} {why : ReadError}
    (large : why ≠ .malformed) :
    step mode stack word = .error why ↔ mode.ExpectsValue ∧ Oversized stack.length word why := by
  rw [← beginValue_eq_error_iff large]
  by_cases next_value : mode.ExpectsValue
  · rw [and_iff_right next_value]
    cases next_value with
    | value => exact Iff.rfl
    | firstItem => exact step_firstItem_eq_error_iff large
  · constructor
    · intro h
      exact absurd (eq_malformed_of_step next_value h) large
    · rintro ⟨awaits, -⟩
      exact absurd awaits next_value

/-! ## Words one after the other -/

/-- Words that fit take the reader from one state to another. -/
inductive Reaches : Mode → List Frame → List Token → Mode → List Frame → Prop
  | here {mode : Mode} {stack : List Frame} : Reaches mode stack [] mode stack
  | word {mode next last : Mode} {stack behind lastStack : List Frame} {word : Token}
    {rest : List Token} (fits : step mode stack word = .ok (next, behind))
    (others : Reaches next behind rest last lastStack) :
    Reaches mode stack (word :: rest) last lastStack

theorem run_of_step {mode next : Mode} {stack behind : List Frame} {word : Token}
    (fits : step mode stack word = .ok (next, behind)) (rest : List Token) :
    run mode stack (word :: rest) = run next behind rest := by
  rw [run, fits]

theorem run_of_step_error {mode : Mode} {stack : List Frame} {word : Token} {why : ReadError}
    (h : step mode stack word = .error why) (rest : List Token) :
    run mode stack (word :: rest) = .error why := by
  rw [run, h]

/-- The reader gives up exactly at a word that is too large behind words that fit. -/
theorem run_eq_error_iff {mode : Mode} {stack : List Frame} {words : List Token}
    {why : ReadError} (large : why ≠ .malformed) :
    run mode stack words = .error why ↔
      ∃ before word after last lastStack, words = before ++ word :: after
        ∧ Reaches mode stack before last lastStack ∧ last.ExpectsValue
        ∧ Oversized lastStack.length word why := by
  constructor
  · intro h
    induction words generalizing mode stack with
    | nil =>
      unfold run at h
      split at h
      · cases h
      · exact absurd (Except.error.inj h).symm large
      · next none_left => cases none_left
    | cons word rest ih =>
      cases fits : step mode stack word with
      | error other =>
        rw [run_of_step_error fits] at h
        obtain rfl := Except.error.inj h
        obtain ⟨awaits, oversized⟩ := (step_eq_error_iff large).1 fits
        exact ⟨[], word, rest, mode, stack, rfl, .here, awaits, oversized⟩
      | ok state =>
        obtain ⟨next, behind⟩ := state
        rw [run_of_step fits] at h
        obtain ⟨before, long, after, last, lastStack, rfl, reached, awaits, oversized⟩ := ih h
        exact ⟨word :: before, long, after, last, lastStack, rfl, .word fits reached, awaits,
          oversized⟩
  · rintro ⟨before, word, after, last, lastStack, rfl, reached, awaits, oversized⟩
    induction reached with
    | here => exact run_of_step_error ((step_eq_error_iff large).2 ⟨awaits, oversized⟩) after
    | word fits others ih =>
      rw [List.cons_append, run_of_step fits]
      exact ih awaits oversized

/-! ## What is open -/

/-- How many lists and objects are open. An object whose next value has no name yet is on no frame.
-/
def openCount (mode : Mode) (stack : List Frame) : Nat :=
  match mode with
  | .firstName => stack.length + 1
  | .name _ => stack.length + 1
  | .colon _ _ => stack.length + 1
  | _ => stack.length

theorem openCount_of_expectsValue {mode : Mode} (awaits : mode.ExpectsValue)
    (stack : List Frame) : openCount mode stack = stack.length := by
  cases awaits <;> rfl

theorem openCount_beginValue {mode : Mode} {stack behind : List Frame} {word : Token}
    (fits : beginValue stack word = .ok (mode, behind)) :
    openCount mode behind + [word].countP Token.isClosing =
      stack.length + [word].countP Token.isOpening := by
  cases word with
  | null | bool | real | text =>
    obtain ⟨rfl, rfl⟩ := Prod.mk.inj (Except.ok.inj fits)
    rfl
  | integer negative digits =>
    simp only [beginValue] at fits
    split at fits
    · obtain ⟨rfl, rfl⟩ := Prod.mk.inj (Except.ok.inj fits)
      rfl
    · cases fits
  | listOpen | objectOpen =>
    simp only [beginValue] at fits
    split at fits
    · obtain ⟨rfl, rfl⟩ := Prod.mk.inj (Except.ok.inj fits)
      rfl
    · cases fits
  | listClose | objectClose | colon | comma | junk => cases fits

theorem openCount_endValue {mode : Mode} {value : Value} {stack behind : List Frame}
    {word : Token} (fits : endValue value stack word = .ok (mode, behind)) :
    openCount mode behind + [word].countP Token.isClosing =
      stack.length + [word].countP Token.isOpening := by
  unfold endValue at fits
  split at fits
  · obtain ⟨rfl, rfl⟩ := Prod.mk.inj (Except.ok.inj fits)
    rfl
  · obtain ⟨rfl, rfl⟩ := Prod.mk.inj (Except.ok.inj fits)
    rfl
  · obtain ⟨rfl, rfl⟩ := Prod.mk.inj (Except.ok.inj fits)
    rfl
  · obtain ⟨rfl, rfl⟩ := Prod.mk.inj (Except.ok.inj fits)
    rfl
  · cases fits

/-- A word opens or closes what it says. -/
theorem openCount_step {mode next : Mode} {stack behind : List Frame} {word : Token}
    (fits : step mode stack word = .ok (next, behind)) :
    openCount next behind + [word].countP Token.isClosing =
      openCount mode stack + [word].countP Token.isOpening := by
  cases mode with
  | value => exact openCount_beginValue fits
  | firstItem =>
    simp only [step] at fits
    split at fits
    · obtain ⟨rfl, rfl⟩ := Prod.mk.inj (Except.ok.inj fits)
      rfl
    · exact openCount_beginValue fits
  | firstName =>
    simp only [step] at fits
    split at fits
    · obtain ⟨rfl, rfl⟩ := Prod.mk.inj (Except.ok.inj fits)
      rfl
    · obtain ⟨rfl, rfl⟩ := Prod.mk.inj (Except.ok.inj fits)
      rfl
    · cases fits
  | name members =>
    simp only [step] at fits
    split at fits
    · obtain ⟨rfl, rfl⟩ := Prod.mk.inj (Except.ok.inj fits)
      rfl
    · cases fits
  | colon members name =>
    simp only [step] at fits
    split at fits
    · obtain ⟨rfl, rfl⟩ := Prod.mk.inj (Except.ok.inj fits)
      rfl
    · cases fits
  | after value => exact openCount_endValue fits

/-- Words open and close what they say. -/
theorem openCount_reaches {mode last : Mode} {stack lastStack : List Frame} {words : List Token}
    (reached : Reaches mode stack words last lastStack) :
    openCount last lastStack + words.countP Token.isClosing =
      openCount mode stack + words.countP Token.isOpening := by
  induction reached with
  | here => rfl
  | @word mode next last stack behind lastStack word rest fits others ih =>
    have one := openCount_step fits
    have closing := @List.countP_append _ Token.isClosing [word] rest
    have opening := @List.countP_append _ Token.isOpening [word] rest
    rw [List.singleton_append] at closing opening
    omega

/-- Where a value is expected, as many lists and objects are open as the words leave open. -/
theorem depth_of_reaches {mode : Mode} {stack : List Frame} {words : List Token}
    (reached : Reaches .value [] words mode stack) (awaits : mode.ExpectsValue) :
    Token.depth words = stack.length := by
  have counted := openCount_reaches reached
  rw [openCount_of_expectsValue awaits] at counted
  have nothing : openCount .value [] = 0 := rfl
  unfold Token.depth
  omega

end Reader

/-! ## Whole texts -/

/-- A text whose words fit up to one that is too large, and what is told of that word. -/
def Overlarge (text : String) (why : ReadError) : Prop :=
  ∃ before word after mode stack, Token.scan text.toList = before ++ word :: after
    ∧ Reader.Reaches .value [] before mode stack ∧ mode.ExpectsValue
    ∧ Oversized (Token.depth before) word why

theorem Overlarge.ne_malformed {text : String} {why : ReadError} (h : Overlarge text why) :
    why ≠ .malformed := by
  obtain ⟨before, word, after, mode, stack, -, -, -, oversized⟩ := h
  intro malformed
  subst malformed
  cases oversized

/-- A text is given up exactly if it goes beyond a limit. -/
theorem read_eq_error_iff {text : String} {why : ReadError} (large : why ≠ .malformed) :
    read text = .error why ↔ Overlarge text why := by
  rw [read, Reader.run_eq_error_iff large]
  constructor
  · rintro ⟨before, word, after, mode, stack, words, reached, awaits, oversized⟩
    refine ⟨before, word, after, mode, stack, words, reached, awaits, ?_⟩
    rw [Reader.depth_of_reaches reached awaits]
    exact oversized
  · rintro ⟨before, word, after, mode, stack, words, reached, awaits, oversized⟩
    refine ⟨before, word, after, mode, stack, words, reached, awaits, ?_⟩
    rw [← Reader.depth_of_reaches reached awaits]
    exact oversized

/-! ## One long number, and lists inside lists -/

namespace Token

theorem next?_replicate_one (n : Nat) :
    next? (List.replicate (n + 1) '1') =
      some (.integer false (List.replicate (n + 1) '1'), []) := by
  have all (d : Char) (hd : d ∈ List.replicate n '1') : d.isDigit = true := by
    rw [List.eq_of_mem_replicate hd]
    decide
  have digits := @unsigned?_digits false '1' (List.replicate n '1') [] (by decide) (by decide) all
    trivial
  rw [List.append_nil] at digits
  rw [List.replicate_succ]
  exact digits

theorem scan_replicate_one (n : Nat) :
    scan (List.replicate (n + 1) '1') = [.integer false (List.replicate (n + 1) '1')] := by
  have next := next?_replicate_one n
  rw [List.replicate_succ] at next ⊢
  rw [scan_cons rfl next, scan]
  rfl

theorem scan_replicate_open (n : Nat) :
    scan (List.replicate n '[') = List.replicate n .listOpen := by
  induction n with
  | zero =>
    rw [scan.eq_1]
    rfl
  | succ n ih =>
    rw [List.replicate_succ, scan_cons rfl rfl, ih, List.replicate_succ]

end Token

/-- Lists that are opened one inside the other, as far as the limit goes. -/
theorem Reader.reaches_replicate_open {n : Nat} {mode : Mode} {stack : List Frame}
    (awaits : mode.ExpectsValue) (within : stack.length + n ≤ depthLimit) :
    ∃ last lastStack, Reaches mode stack (List.replicate n .listOpen) last lastStack
      ∧ last.ExpectsValue := by
  induction n generalizing mode stack with
  | zero => exact ⟨mode, stack, .here, awaits⟩
  | succ n ih =>
    have room : stack.length < depthLimit := by omega
    have fits : step mode stack .listOpen = .ok (.firstItem, .list [] :: stack) := by
      cases awaits with
      | value => exact if_pos room
      | firstItem => exact if_pos room
    have within' : (Frame.list [] :: stack).length + n ≤ depthLimit := by
      rw [List.length_cons]
      omega
    obtain ⟨last, lastStack, reached, awaits'⟩ := ih .firstItem within'
    exact ⟨last, lastStack, .word fits reached, awaits'⟩

theorem overlarge_replicate_one {n : Nat} (long : digitLimit ≤ n) :
    Overlarge (String.ofList (List.replicate (n + 1) '1')) (.integerTooLong (n + 1)) := by
  have digits : digitLimit < (List.replicate (n + 1) '1').length := by
    rw [List.length_replicate]
    omega
  have oversized : Oversized (Token.depth []) (.integer false (List.replicate (n + 1) '1')) _ :=
    .integer digits
  rw [List.length_replicate] at oversized
  refine ⟨[], _, [], .value, [], ?_, .here, .value, oversized⟩
  rw [String.toList_ofList, Token.scan_replicate_one]
  rfl

theorem Token.depth_replicate_open (n : Nat) : depth (List.replicate n .listOpen) = n := by
  rw [depth, List.countP_replicate, List.countP_replicate]
  rfl

theorem overlarge_replicate_open {n : Nat} (deep : depthLimit < n) :
    Overlarge (String.ofList (List.replicate n '[')) .nestedTooDeep := by
  obtain ⟨mode, stack, reached, awaits⟩ :=
    @Reader.reaches_replicate_open depthLimit .value [] .value (Nat.le_of_eq (Nat.zero_add _))
  have oversized := Oversized.list (Nat.le_of_eq (Token.depth_replicate_open depthLimit).symm)
  obtain ⟨more, total⟩ : ∃ more, n = depthLimit + (more + 1) := ⟨n - depthLimit - 1, by omega⟩
  have words : List.replicate n Token.listOpen =
      List.replicate depthLimit .listOpen ++ .listOpen :: List.replicate more .listOpen := by
    rw [total, ← List.replicate_append_replicate, List.replicate_succ]
  refine ⟨_, .listOpen, List.replicate more .listOpen, mode, stack, ?_, reached, awaits, oversized⟩
  rw [String.toList_ofList, Token.scan_replicate_open, words]

end TokenCrypto.Json
