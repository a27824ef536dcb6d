import TokenCrypto.Proofs.Json.Limits

/-!
# Written JSON

The ways to write a value, told without a reader: blanks may stand around every word, a character
of a text may stand as it is or in any of its escapes, and the members of an object come in their
order, under names that need not differ. Reading a text that is written for a value gives the value,
as long as lists and objects are not inside too many others.

* `Writes`: a text that is written for a value.
* `Reader.run_writes`: what is written for a value takes the reader behind that value.
* `read_writes`: reading what is written for a value gives the value.
-/

namespace TokenCrypto.Json

/-! ## Ways to write -/

mutual

/-- What is written for a value in which so many lists and objects are inside each other at most. -/
inductive Writes : Nat → Value → List Char → Prop
  | null {depth : Nat} : Writes depth .null "null".toList
  | yes {depth : Nat} : Writes depth (.bool true) "true".toList
  | no {depth : Nat} : Writes depth (.bool false) "false".toList
  | integer {depth : Nat} {n : Int} {cs : List Char} (written : WritesInteger n cs) :
    Writes depth (.integer n) cs
  | text {depth : Nat} {value : String} {cs : List Char} (written : WritesText value cs) :
    Writes depth (.text value) cs
  | emptyList {depth : Nat} {blanks : List Char} (hb : ∀ c ∈ blanks, Token.isBlank c = true) :
    Writes (depth + 1) (.list []) ('[' :: (blanks ++ [']']))
  | list {depth : Nat} {items : List Value} {cs : List Char}
    (written : WritesItems depth items cs) :
    Writes (depth + 1) (.list items) ('[' :: (cs ++ [']']))
  | emptyObject {depth : Nat} {blanks : List Char} (hb : ∀ c ∈ blanks, Token.isBlank c = true) :
    Writes (depth + 1) (.object []) ('\x7b' :: (blanks ++ ['\x7d']))
  | object {depth : Nat} {members : List (String × Value)} {cs : List Char}
    (written : WritesMembers depth members cs) :
    Writes (depth + 1) (.object members) ('\x7b' :: (cs ++ ['\x7d']))
  | before {depth : Nat} {value : Value} {blank : Char} {cs : List Char}
    (hb : Token.isBlank blank = true) (written : Writes depth value cs) :
    Writes depth value (blank :: cs)
  | behind {depth : Nat} {value : Value} {blank : Char} {cs : List Char}
    (hb : Token.isBlank blank = true) (written : Writes depth value cs) :
    Writes depth value (cs ++ [blank])

/-- What is written for the items of a list, a comma between each two. -/
inductive WritesItems : Nat → List Value → List Char → Prop
  | last {depth : Nat} {item : Value} {cs : List Char} (written : Writes depth item cs) :
    WritesItems depth [item] cs
  | more {depth : Nat} {item : Value} {items : List Value} {cs rest : List Char}
    (written : Writes depth item cs) (others : WritesItems depth items rest) :
    WritesItems depth (item :: items) (cs ++ ',' :: rest)

/-- What is written for the members of an object, a colon behind each name and a comma between each
two members. -/
inductive WritesMembers : Nat → List (String × Value) → List Char → Prop
  | last {depth : Nat} {name : String} {value : Value} {ns cs : List Char}
    (named : WritesText name ns) (written : Writes depth value cs) :
    WritesMembers depth [(name, value)] (ns ++ ':' :: cs)
  | more {depth : Nat} {name : String} {value : Value} {members : List (String × Value)}
    {ns cs rest : List Char} (named : WritesText name ns) (written : Writes depth value cs)
    (others : WritesMembers depth members rest) :
    WritesMembers depth ((name, value) :: members) (ns ++ ':' :: (cs ++ ',' :: rest))

end

/-! ## Reading -/

/-- Whether a name may come next, in an object that has the given members so far, the last first. -/
inductive Mode.ExpectsName : Mode → List (String × Value) → Prop
  | first : ExpectsName .firstName []
  | another {members : List (String × Value)} : ExpectsName (.name members) members

namespace Reader

open Token

/-- Where a value may come next, every word but the end of a list is taken as a value's. -/
theorem step_of_expectsValue {mode : Mode} (awaits : mode.ExpectsValue) {word : Token}
    (no_end : word ≠ .listClose) (stack : List Frame) :
    step mode stack word = beginValue stack word := by
  cases awaits with
  | value => rfl
  | firstItem =>
    simp only [step]
    split
    · exact absurd rfl no_end
    · rfl

/-- A word that is a value by itself. -/
theorem run_word {mode : Mode} (awaits : mode.ExpectsValue) {stack : List Frame} {word : Token}
    {value : Value} (no_end : word ≠ .listClose)
    (taken : beginValue stack word = .ok (.after value, stack)) {cs rest : List Char}
    (cut : scan cs = word :: scan rest) :
    run mode stack (scan cs) = run (.after value) stack (scan rest) := by
  rw [cut]
  exact run_of_step ((step_of_expectsValue awaits no_end stack).trans taken) _

theorem run_listOpen {mode : Mode} (awaits : mode.ExpectsValue) {stack : List Frame}
    (room : stack.length < depthLimit) (rest : List Char) :
    run mode stack (scan ('[' :: rest)) = run .firstItem (.list [] :: stack) (scan rest) := by
  rw [scan_listOpen]
  refine run_of_step ((step_of_expectsValue awaits Token.noConfusion stack).trans ?_) _
  exact if_pos room

theorem run_objectOpen {mode : Mode} (awaits : mode.ExpectsValue) {stack : List Frame}
    (room : stack.length < depthLimit) (rest : List Char) :
    run mode stack (scan ('\x7b' :: rest)) = run .firstName stack (scan rest) := by
  rw [scan_objectOpen]
  refine run_of_step ((step_of_expectsValue awaits Token.noConfusion stack).trans ?_) _
  exact if_pos room

/-- A name and the colon behind it. -/
theorem run_name {mode : Mode} {members : List (String × Value)} (awaits : mode.ExpectsName members)
    {name : String} {ns : List Char} (named : WritesText name ns) (stack : List Frame)
    (rest : List Char) :
    run mode stack (scan (ns ++ ':' :: rest)) =
      run .value (.object members name :: stack) (scan rest) := by
  rw [scan_writesText named, scan_colon]
  cases awaits with
  | first => rfl
  | another => rfl

mutual

/-- What is written for a value takes the reader behind that value. -/
theorem run_writes {depth : Nat} {value : Value} {cs : List Char} (written : Writes depth value cs)
    {mode : Mode} (awaits : mode.ExpectsValue) {stack : List Frame}
    (room : stack.length + depth ≤ depthLimit) {rest : List Char} (ends : Ends rest) :
    run mode stack (scan (cs ++ rest)) = run (.after value) stack (scan rest) :=
  match written with
  | .null => run_word awaits Token.noConfusion rfl (scan_cons rfl rfl)
  | .yes => run_word awaits Token.noConfusion rfl (scan_cons rfl rfl)
  | .no => run_word awaits Token.noConfusion rfl (scan_cons rfl rfl)
  | .integer written => by
    obtain ⟨negative, digits, cut, short, rfl⟩ := scan_writesInteger written ends
    have taken : beginValue stack (.integer negative digits) =
        .ok (.after (.integer (integer negative digits)), stack) := if_pos short
    exact run_word awaits Token.noConfusion taken cut
  | .text written => run_word awaits Token.noConfusion rfl (scan_writesText written rest)
  | .emptyList hb => by
    rw [List.cons_append, List.append_assoc, run_listOpen awaits (by omega), scan_blanks hb,
      List.singleton_append, scan_listClose]
    rfl
  | .list written => by
    rw [List.cons_append, List.append_assoc, run_listOpen awaits (by omega), List.singleton_append]
    exact run_writesItems written .firstItem (by omega)
  | .emptyObject hb => by
    rw [List.cons_append, List.append_assoc, run_objectOpen awaits (by omega), scan_blanks hb,
      List.singleton_append, scan_objectClose]
    rfl
  | .object written => by
    rw [List.cons_append, List.append_assoc, run_objectOpen awaits (by omega),
      List.singleton_append]
    exact run_writesMembers written .first (by omega)
  | .before hb written => by
    rw [List.cons_append, scan_blank hb]
    exact run_writes written awaits room ends
  | .behind hb written => by
    rw [List.append_assoc, List.singleton_append,
      run_writes written awaits room (ends_blank hb rest), scan_blank hb]

/-- What is written for items, and the end of the list, closes the list with its items. -/
theorem run_writesItems {depth : Nat} {items : List Value} {cs : List Char}
    (written : WritesItems depth items cs) {mode : Mode} (awaits : mode.ExpectsValue)
    {before : List Value} {stack : List Frame} (room : stack.length + 1 + depth ≤ depthLimit)
    {rest : List Char} :
    run mode (.list before :: stack) (scan (cs ++ ']' :: rest)) =
      run (.after (.list (before.reverse ++ items))) stack (scan rest) :=
  match written with
  | .last written => by
    have inside (frame : Frame) : (frame :: stack).length + depth ≤ depthLimit := room
    rw [run_writes written awaits (inside _) (ends_cons (by decide) _), scan_listClose]
    show run (.after (.list (_ :: before).reverse)) stack (scan rest) = _
    rw [List.reverse_cons]
  | .more written others => by
    have inside (frame : Frame) : (frame :: stack).length + depth ≤ depthLimit := room
    rw [List.append_assoc, List.cons_append,
      run_writes written awaits (inside _) (ends_cons (by decide) _), scan_comma]
    show run .value (.list (_ :: before) :: stack) (scan (_ ++ ']' :: rest)) = _
    rw [run_writesItems others .value room, List.reverse_cons, List.append_assoc,
      List.singleton_append]

/-- What is written for members, and the end of the object, closes the object with its members. -/
theorem run_writesMembers {depth : Nat} {members : List (String × Value)} {cs : List Char}
    (written : WritesMembers depth members cs) {mode : Mode} {before : List (String × Value)}
    (awaits : mode.ExpectsName before) {stack : List Frame}
    (room : stack.length + 1 + depth ≤ depthLimit) {rest : List Char} :
    run mode stack (scan (cs ++ '\x7d' :: rest)) =
      run (.after (.object (before.reverse ++ members))) stack (scan rest) :=
  match written with
  | .last named written => by
    have inside (frame : Frame) : (frame :: stack).length + depth ≤ depthLimit := room
    rw [List.append_assoc, List.cons_append, run_name awaits named,
      run_writes written .value (inside _) (ends_cons (by decide) _), scan_objectClose]
    show run (.after (.object (_ :: before).reverse)) stack (scan rest) = _
    rw [List.reverse_cons]
  | .more named written others => by
    have inside (frame : Frame) : (frame :: stack).length + depth ≤ depthLimit := room
    rw [List.append_assoc, List.cons_append, run_name awaits named, List.append_assoc,
      List.cons_append, run_writes written .value (inside _) (ends_cons (by decide) _), scan_comma]
    show run (.name (_ :: before)) stack (scan (_ ++ '\x7d' :: rest)) = _
    rw [run_writesMembers others .another room, List.reverse_cons, List.append_assoc,
      List.singleton_append]

end

end Reader

/-- Reading what is written for a value gives the value, as long as no more lists and objects are
inside each other than may be. -/
theorem read_writes {depth : Nat} {value : Value} {cs : List Char} (written : Writes depth value cs)
    (room : depth ≤ depthLimit) : read (String.ofList cs) = .ok value := by
  have within : ([] : List Frame).length + depth ≤ depthLimit := by
    rw [List.length_nil]
    omega
  have all := @Reader.run_writes depth value cs written .value .value [] within [] trivial
  rw [List.append_nil] at all
  rw [read, String.toList_ofList, all, Token.scan]
  rfl

end TokenCrypto.Json
