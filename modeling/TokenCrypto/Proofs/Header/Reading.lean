import TokenCrypto.Proofs.Categories
import TokenCrypto.Proofs.Header.Canonical
import TokenCrypto.Proofs.Json.Limits

/-!
# Headers from anywhere

A header may come from anyone. Whatever its text is, reading it gives a header or a rejection of the
text as not valid, with one exception: where the JSON in it goes beyond a limit of reading, there is
a fault instead.

* `JweHeader.parse_answers_iff`: the texts that are answered.
* `JweHeader.Received.plain`: a header that was read or made has a text within ASCII.
-/

namespace TokenCrypto.JweHeader

open Json (Text Value)

/-! ## One parameter -/

theorem told_nonemptyText {otherwise : Rejection} (h : otherwise.report.category = .validation)
    (value : Value) : Told [.validation] (nonemptyText otherwise value) := by
  have known : otherwise.report.category ∈ [Category.validation] := by simp [h]
  unfold nonemptyText
  split
  · split
    · exact .reject known
    · exact .ok _
  · exact .reject known

theorem told_optionalText {otherwise : Rejection} (h : otherwise.report.category = .validation)
    (value : Option Value) : Told [.validation] (optionalText otherwise value) := by
  unfold optionalText
  split
  · exact .ok _
  · exact .ok _
  · exact .ok _
  · exact .reject (by simp [h])

theorem told_requiredText {otherwise : Rejection} (h : otherwise.report.category = .validation)
    (value : Option Value) : Told [.validation] (requiredText otherwise value) := by
  unfold requiredText
  refine (told_optionalText h value).bind ?_
  intro text _
  cases text with
  | none => exact .reject (by simp [h])
  | some text => exact .ok text

theorem told_optionalBytes (text : Option Text) : Told [.validation] (optionalBytes text) := by
  unfold optionalBytes
  split
  · exact .ok _
  · exact (told_wireBytes _).map some
  · exact .reject List.mem_cons_self

theorem told_withText (text : String) (algorithm method : Value) (compression : Option Text)
    (partyU partyV : Option Bytes) :
    Told [.validation] (withText text algorithm method compression (partyU.map .octets)
      (partyV.map .octets)) := by
  unfold withText
  refine (told_nonemptyText rfl algorithm).bind ?_
  intro algorithm _
  refine (told_nonemptyText rfl method).bind ?_
  intro method _
  -- What was read about the parties is octets, so that no value of a wrong kind is met here.
  rw [partyInfo_octets, ok_bind, partyInfo_octets, ok_bind]
  exact .ok _

/-! ## Whole texts -/

/-- The JSON that a text stands for. -/
def Spells (text json : String) : Prop :=
  ∃ bytes, Base64Url.decode? text = some bytes ∧ Utf8.decode? bytes = some json

/-- A text whose JSON goes beyond a limit of reading, and what is told of it. -/
inductive Overlarge (text : String) : Fault → Prop
  | integer {json : String} {digits : Nat} (spelled : Spells text json)
    (large : Json.Overlarge json (.integerTooLong digits)) :
    Overlarge text (.integerTooLong digits)
  | nested {json : String} (spelled : Spells text json)
    (large : Json.Overlarge json .nestedTooDeep) : Overlarge text .nestedTooDeep

theorem members_of_overlarge {text : String} {why : Fault} (h : Overlarge text why) :
    members text = fail why := by
  unfold members
  cases h with
  | integer spelled large =>
    obtain ⟨bytes, octets, characters⟩ := spelled
    rw [wireBytes_eq_ok_iff.2 octets, ok_bind]
    simp only [characters, (Json.read_eq_error_iff large.ne_malformed).2 large]
  | nested spelled large =>
    obtain ⟨bytes, octets, characters⟩ := spelled
    rw [wireBytes_eq_ok_iff.2 octets, ok_bind]
    simp only [characters, (Json.read_eq_error_iff large.ne_malformed).2 large]

theorem parse_of_overlarge {text : String} {why : Fault} (h : Overlarge text why) :
    parse text = fail why := by
  unfold parse
  rw [members_of_overlarge h, fail_bind]

theorem told_members {text : String} (within : ∀ why, ¬ Overlarge text why) :
    Told [.validation] (members text) := by
  unfold members
  refine (told_wireBytes text).bind ?_
  intro bytes octets
  split
  · exact .reject List.mem_cons_self
  · next json characters =>
    have spelled : Spells text json := ⟨bytes, wireBytes_eq_ok_iff.1 octets, characters⟩
    split
    · exact .ok _
    · exact .reject List.mem_cons_self
    · exact .reject List.mem_cons_self
    · next digits given_up =>
      have large : Json.ReadError.integerTooLong digits ≠ .malformed := nofun
      exact absurd (.integer spelled ((Json.read_eq_error_iff large).1 given_up)) (within _)
    · next given_up =>
      have large : Json.ReadError.nestedTooDeep ≠ .malformed := nofun
      exact absurd (.nested spelled ((Json.read_eq_error_iff large).1 given_up)) (within _)

theorem told_parse {text : String} (within : ∀ why, ¬ Overlarge text why) :
    Told [.validation] (parse text) := by
  unfold parse
  refine (told_members within).bind ?_
  intro members _
  refine (told_requiredText rfl _).bind ?_
  intro algorithm _
  refine (told_requiredText rfl _).bind ?_
  intro method _
  refine (told_optionalText rfl _).bind ?_
  intro compression _
  refine (told_optionalText rfl _).bind ?_
  intro partyU _
  refine (told_optionalText rfl _).bind ?_
  intro partyV _
  refine (told_optionalBytes partyU).bind ?_
  intro partyU _
  refine (told_optionalBytes partyV).bind ?_
  intro partyV _
  exact told_withText text _ _ compression partyU partyV

theorem serialized_of_withText {text : String} {algorithm method : Value}
    {compression : Option Text} {partyU partyV : Option Material} {header : JweHeader}
    (h : withText text algorithm method compression partyU partyV = .ok header) :
    header.serialized = text := by
  obtain ⟨_, -, h⟩ := bind_eq_ok_iff.1 h
  obtain ⟨_, -, h⟩ := bind_eq_ok_iff.1 h
  obtain ⟨_, -, h⟩ := bind_eq_ok_iff.1 h
  obtain ⟨_, -, h⟩ := bind_eq_ok_iff.1 h
  rw [← Except.ok.inj h]

/-- A header that was read keeps its text, and that text stands for octets. -/
theorem octets_of_parse {text : String} {header : JweHeader} (h : parse text = .ok header) :
    header.serialized = text ∧ ∃ bytes, Base64Url.decode? text = some bytes := by
  obtain ⟨members, opened, h⟩ := bind_eq_ok_iff.1 h
  obtain ⟨bytes, octets, -⟩ := bind_eq_ok_iff.1 opened
  refine ⟨?_, bytes, wireBytes_eq_ok_iff.1 octets⟩
  obtain ⟨_, -, h⟩ := bind_eq_ok_iff.1 h
  obtain ⟨_, -, h⟩ := bind_eq_ok_iff.1 h
  obtain ⟨_, -, h⟩ := bind_eq_ok_iff.1 h
  obtain ⟨_, -, h⟩ := bind_eq_ok_iff.1 h
  obtain ⟨_, -, h⟩ := bind_eq_ok_iff.1 h
  obtain ⟨_, -, h⟩ := bind_eq_ok_iff.1 h
  obtain ⟨_, -, h⟩ := bind_eq_ok_iff.1 h
  exact serialized_of_withText h

/-- Reading a text gives a header, which keeps the text, or a rejection of the text as not valid,
exactly if its JSON goes beyond no limit; and if it does, the fault tells which. -/
theorem parse_answers_iff (text : String) :
    (((∃ header, parse text = .ok header ∧ header.serialized = text)
        ∨ ∃ why, parse text = reject why ∧ why.report.category = .validation) ↔
      ∀ why, ¬ Overlarge text why)
    ∧ ∀ why, Overlarge text why → parse text = fail why := by
  refine ⟨⟨?_, ?_⟩, fun why large => parse_of_overlarge large⟩
  · intro answered why large
    rw [parse_of_overlarge large] at answered
    rcases answered with ⟨header, read, -⟩ | ⟨other, rejected, -⟩
    · exact fail_ne_ok why header read
    · cases rejected
  · intro within
    rcases told_iff.1 (told_parse within) with ⟨header, read⟩ | ⟨why, rejected, known⟩
    · exact .inl ⟨header, read, (octets_of_parse read).1⟩
    · exact .inr ⟨why, rejected, List.mem_singleton.1 known⟩

/-! ## Headers with a text within ASCII -/

/-- A header that was read, or that was made without a given text. -/
def Received (header : JweHeader) : Prop :=
  (∃ text, parse text = .ok header)
  ∨ ∃ algorithm method compression partyU partyV,
      create algorithm method compression partyU partyV = .ok header

/-- The text of such a header is Base64URL, whatever is in its parameters. -/
theorem Received.plain {header : JweHeader} (h : header.Received) :
    Ascii.Plain header.serialized := by
  rcases h with ⟨text, read⟩ | ⟨algorithm, method, compression, partyU, partyV, made⟩
  · obtain ⟨same, bytes, octets⟩ := octets_of_parse read
    rw [same]
    exact Base64Url.plain_of_decode? octets
  · rw [serialized_create made]
    exact Base64Url.plain_encode _

/-! ## Texts beyond the limits -/

theorem spells_encode (json : String) : Spells (Base64Url.encode (Utf8.encode json)) json :=
  ⟨_, Base64Url.decode?_encode _, Utf8.decode?_encode json⟩

/-- A number of 4301 digits, and three thousand lists one inside the other: neither text is a
header, and neither is rejected. -/
theorem parse_beyond_limits :
    ∃ long deep : String,
      long = Base64Url.encode (Utf8.encode (String.ofList (List.replicate 4301 '1')))
      ∧ deep = Base64Url.encode (Utf8.encode (String.ofList (List.replicate 3000 '[')))
      ∧ parse long = fail (.integerTooLong 4301) ∧ parse deep = fail .nestedTooDeep
      ∧ ¬ ∀ text, (∃ header, parse text = .ok header)
          ∨ ∃ why, parse text = reject why ∧ why.report.category = .validation := by
  have long := parse_of_overlarge
    (.integer (spells_encode _) (Json.overlarge_replicate_one (Nat.le_refl Json.digitLimit)))
  have deep := parse_of_overlarge
    (.nested (spells_encode _) (Json.overlarge_replicate_open (by decide : Json.depthLimit < 3000)))
  refine ⟨_, _, rfl, rfl, long, deep, ?_⟩
  intro answered
  rcases answered _ with ⟨header, read⟩ | ⟨why, rejected, -⟩
  · rw [deep] at read
    exact fail_ne_ok _ _ read
  · rw [deep] at rejected
    cases rejected

end TokenCrypto.JweHeader
