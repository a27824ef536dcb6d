import TokenCrypto.Proofs.Header.Reading
import TokenCrypto.Proofs.Json.Written

/-!
# Headers in any writing

A header is read from a JSON object, which may be written in many ways: members in any order, names
given more than once, members of other names with any values, blanks between the words. Of all this
only the last value of each of the five parameters counts.

* `JweHeader.parse_eq_ok_iff`: the headers that members describe.
* `JweHeader.parse_of_same`: nothing but the last values of the parameters counts.
* `JweHeader.parse_written`: both for every writing of an object.
-/

namespace TokenCrypto

/-! ## Last values -/

namespace Json

/-- The last value that members in their order give for a name. -/
def LastGiven (members : List (String × Value)) (name : String) (value : Value) : Prop :=
  ∃ before after, members = before ++ (name, value) :: after ∧ ∀ m ∈ after, m.1 ≠ name

theorem member?_eq_some_iff {members : List (String × Value)} {name : String} {value : Value} :
    member? members name = some value ↔ LastGiven members name value := by
  unfold member?
  rw [Option.map_eq_some_iff]
  constructor
  · rintro ⟨⟨found, _⟩, h, rfl⟩
    obtain ⟨same, after, before, reversed, others⟩ := List.find?_eq_some_iff_append.1 h
    obtain rfl : found = name := by simpa using same
    refine ⟨before.reverse, after.reverse, ?_, ?_⟩
    · rw [← List.reverse_reverse members, reversed]
      simp
    · simpa using others
  · rintro ⟨before, after, rfl, others⟩
    refine ⟨(name, value), ?_, rfl⟩
    rw [List.find?_eq_some_iff_append]
    exact ⟨by simp, after.reverse, before.reverse, by simp, by simpa using others⟩

theorem member?_eq_none_iff {members : List (String × Value)} {name : String} :
    member? members name = none ↔ ∀ m ∈ members, m.1 ≠ name := by
  simp [member?]

end Json

namespace JweHeader

open Json (LastGiven Text Value member?)

/-! ## What members say -/

/-- What members say of a parameter that may be missing. It is missing where its name is not given
and where null is the last value given for it; else that value is a text, which means what is said.
-/
inductive Says {α : Type} (members : List (String × Value)) (name : String)
    (means : Text → α → Prop) : Option α → Prop
  | absent (none_given : ∀ m ∈ members, m.1 ≠ name) : Says members name means none
  | null (given : LastGiven members name .null) : Says members name means none
  | value {text : Text} {a : α} (given : LastGiven members name (.text text))
    (meaning : means text a) : Says members name means (some a)

/-- The octets that a text is the Base64URL of. -/
def IsBase64Url (text : Text) (octets : Bytes) : Prop :=
  ∃ value, text = .string value ∧ Base64Url.decode? value = some octets

/-- What members say of the five parameters. -/
structure Describes (members : List (String × Value)) (header : JweHeader) : Prop where
  algorithm : LastGiven members "alg" (.text header.algorithm)
  some_algorithm : header.algorithm ≠ .string ""
  method : LastGiven members "enc" (.text header.method)
  some_method : header.method ≠ .string ""
  compression : Says members "zip" Eq header.compression
  partyU : Says members "epu" IsBase64Url header.partyU
  partyV : Says members "epv" IsBase64Url header.partyV

/-! ## One parameter -/

theorem requiredText_eq_ok_iff {otherwise : Rejection} {value : Option Value} {text : Text} :
    requiredText otherwise value = .ok text ↔ value = some (.text text) := by
  constructor
  · intro h
    obtain ⟨found, read, h⟩ := bind_eq_ok_iff.1 h
    cases found with
    | none => exact absurd h (reject_ne_ok _ _)
    | some found =>
      obtain rfl := Except.ok.inj h
      unfold optionalText at read
      split at read
      · cases read
      · cases read
      · rw [Option.some.inj (Except.ok.inj read)]
      · exact absurd read (reject_ne_ok _ _)
  · intro h
    rw [h, requiredText_some]

theorem optionalText_eq_ok_iff {otherwise : Rejection} {members : List (String × Value)}
    {name : String} {text : Option Text} :
    optionalText otherwise (member? members name) = .ok text ↔ Says members name Eq text := by
  constructor
  · intro h
    unfold optionalText at h
    split at h
    · next missing =>
      obtain rfl := Except.ok.inj h
      exact .absent (Json.member?_eq_none_iff.1 missing)
    · next found =>
      obtain rfl := Except.ok.inj h
      exact .null (Json.member?_eq_some_iff.1 found)
    · next found =>
      obtain rfl := Except.ok.inj h
      exact .value (Json.member?_eq_some_iff.1 found) rfl
    · exact absurd h (reject_ne_ok _ _)
  · intro h
    cases h with
    | absent none_given => rw [Json.member?_eq_none_iff.2 none_given, optionalText]
    | null given => rw [Json.member?_eq_some_iff.2 given, optionalText]
    | value given meaning =>
      subst meaning
      rw [Json.member?_eq_some_iff.2 given, optionalText]

theorem optionalBytes_eq_ok_iff {members : List (String × Value)} {name : String}
    {info : Option Bytes} :
    (∃ text, Says members name Eq text ∧ optionalBytes text = .ok info) ↔
      Says members name IsBase64Url info := by
  constructor
  · rintro ⟨text, said, h⟩
    cases said with
    | absent none_given =>
      obtain rfl := Except.ok.inj h
      exact .absent none_given
    | null given =>
      obtain rfl := Except.ok.inj h
      exact .null given
    | @value text other given same =>
      subst same
      cases text with
      | string value =>
        cases octets : wireBytes value with
        | error why =>
          rw [optionalBytes, octets] at h
          cases h
        | ok bytes =>
          rw [optionalBytes, octets] at h
          obtain rfl := Except.ok.inj h
          exact .value given ⟨value, rfl, wireBytes_eq_ok_iff.1 octets⟩
      | broken points => exact absurd h (reject_ne_ok _ _)
  · intro h
    cases h with
    | absent none_given => exact ⟨none, .absent none_given, rfl⟩
    | null given => exact ⟨none, .null given, rfl⟩
    | value given meaning =>
      obtain ⟨value, rfl, octets⟩ := meaning
      refine ⟨some (.string value), .value given rfl, ?_⟩
      rw [optionalBytes, wireBytes_eq_ok_iff.2 octets]
      rfl

theorem nonemptyText_eq_ok_iff {otherwise : Rejection} {text found : Text} :
    nonemptyText otherwise (.text text) = .ok found ↔ text ≠ .string "" ∧ text = found := by
  unfold nonemptyText
  by_cases empty : text = .string ""
  · simp [empty]
  · simp [empty]

/-! ## All parameters -/

/-- Where a text stands for an object, its members describe the header that is read from it, and no
other header. -/
theorem parse_eq_ok_iff {text : String} {members : List (String × Value)}
    (opened : JweHeader.members text = .ok members) {header : JweHeader} :
    parse text = .ok header ↔ Describes members header ∧ header.serialized = text := by
  unfold parse
  rw [opened, ok_bind]
  constructor
  · intro h
    obtain ⟨algorithm, alg, h⟩ := bind_eq_ok_iff.1 h
    obtain ⟨method, enc, h⟩ := bind_eq_ok_iff.1 h
    obtain ⟨compression, zip, h⟩ := bind_eq_ok_iff.1 h
    obtain ⟨partyUText, epu, h⟩ := bind_eq_ok_iff.1 h
    obtain ⟨partyVText, epv, h⟩ := bind_eq_ok_iff.1 h
    obtain ⟨partyU, octetsU, h⟩ := bind_eq_ok_iff.1 h
    obtain ⟨partyV, octetsV, h⟩ := bind_eq_ok_iff.1 h
    obtain ⟨_, letters, h⟩ := bind_eq_ok_iff.1 h
    obtain ⟨some_algorithm, rfl⟩ := nonemptyText_eq_ok_iff.1 letters
    obtain ⟨_, letters, h⟩ := bind_eq_ok_iff.1 h
    obtain ⟨some_method, rfl⟩ := nonemptyText_eq_ok_iff.1 letters
    rw [partyInfo_octets, ok_bind, partyInfo_octets, ok_bind] at h
    obtain rfl := Except.ok.inj h
    refine ⟨?_, rfl⟩
    constructor
    case algorithm => exact Json.member?_eq_some_iff.1 (requiredText_eq_ok_iff.1 alg)
    case some_algorithm => exact some_algorithm
    case method => exact Json.member?_eq_some_iff.1 (requiredText_eq_ok_iff.1 enc)
    case some_method => exact some_method
    case compression => exact optionalText_eq_ok_iff.1 zip
    case partyU => exact optionalBytes_eq_ok_iff.1 ⟨_, optionalText_eq_ok_iff.1 epu, octetsU⟩
    case partyV => exact optionalBytes_eq_ok_iff.1 ⟨_, optionalText_eq_ok_iff.1 epv, octetsV⟩
  · rintro ⟨described, rfl⟩
    obtain ⟨partyUText, epu, octetsU⟩ := optionalBytes_eq_ok_iff.2 described.partyU
    obtain ⟨partyVText, epv, octetsV⟩ := optionalBytes_eq_ok_iff.2 described.partyV
    rw [Json.member?_eq_some_iff.2 described.algorithm, requiredText_some, ok_bind,
      Json.member?_eq_some_iff.2 described.method, requiredText_some, ok_bind,
      optionalText_eq_ok_iff.2 described.compression, ok_bind, optionalText_eq_ok_iff.2 epu,
      ok_bind, optionalText_eq_ok_iff.2 epv, ok_bind, octetsU, ok_bind, octetsV, ok_bind, withText,
      nonemptyText_eq_ok_iff.2 ⟨described.some_algorithm, rfl⟩, ok_bind,
      nonemptyText_eq_ok_iff.2 ⟨described.some_method, rfl⟩, ok_bind, partyInfo_octets, ok_bind,
      partyInfo_octets, ok_bind]
    rfl

/-- Where a text stands for an object whose members describe no header, it is rejected as not valid.
-/
theorem parse_of_not_described {text : String} {members : List (String × Value)}
    (opened : JweHeader.members text = .ok members)
    (none_described : ∀ header, ¬ Describes members header) :
    ∃ why, parse text = reject why ∧ why.report.category = .validation := by
  have within (why : Fault) : ¬ Overlarge text why := by
    intro large
    rw [members_of_overlarge large] at opened
    exact fail_ne_ok _ _ opened
  rcases told_iff.1 (told_parse within) with ⟨header, read⟩ | ⟨why, rejected, known⟩
  · exact absurd ((parse_eq_ok_iff opened).1 read).1 (none_described header)
  · exact ⟨why, rejected, List.mem_singleton.1 known⟩

/-- The names of the parameters. -/
def parameterNames : List String := ["alg", "enc", "zip", "epu", "epv"]

theorem bind_eq_map {α β : Type} {first : Except Error α} {next next' : α → Except Error β}
    {f : β → β} (h : ∀ a, next' a = (next a).map f) :
    (first >>= next') = (first >>= next).map f := by
  cases first with
  | error why => rfl
  | ok a => exact h a

theorem withText_eq_map (text other : String) (algorithm method : Value)
    (compression : Option Text) (partyU partyV : Option Material) :
    withText other algorithm method compression partyU partyV =
      (withText text algorithm method compression partyU partyV).map
        fun header => { header with serialized := other } := by
  refine bind_eq_map fun algorithm => ?_
  refine bind_eq_map fun method => ?_
  refine bind_eq_map fun partyU => ?_
  refine bind_eq_map fun partyV => ?_
  rfl

/-- Nothing but the last values of the parameters counts. -/
theorem parse_of_same {text other : String} {members others : List (String × Value)}
    (opened : JweHeader.members text = .ok members) (opened' : JweHeader.members other = .ok others)
    (same : ∀ name ∈ parameterNames, member? others name = member? members name) :
    parse other = (parse text).map fun header => { header with serialized := other } := by
  simp only [parameterNames, List.forall_mem_cons] at same
  obtain ⟨alg, enc, zip, epu, epv, -⟩ := same
  unfold parse
  rw [opened, opened', ok_bind, ok_bind, alg, enc, zip, epu, epv]
  refine bind_eq_map fun algorithm => ?_
  refine bind_eq_map fun method => ?_
  refine bind_eq_map fun compression => ?_
  refine bind_eq_map fun partyUText => ?_
  refine bind_eq_map fun partyVText => ?_
  refine bind_eq_map fun partyU => ?_
  refine bind_eq_map fun partyV => ?_
  exact withText_eq_map text other _ _ _ _ _

/-! ## Written objects -/

/-- The text on the wire for a written object. -/
def wireText (cs : List Char) : String := Base64Url.encode (Utf8.encode (String.ofList cs))

theorem members_wireText {depth : Nat} {members : List (String × Value)} {cs : List Char}
    (written : Json.Writes depth (.object members) cs) (room : depth ≤ Json.depthLimit) :
    JweHeader.members (wireText cs) = .ok members := by
  rw [JweHeader.members, wireText, wireBytes_encode, ok_bind, Utf8.decode?_encode]
  simp only [Json.read_writes written room]

/-- However an object is written whose values are not nested more than 200 deep: the header that
its members describe is read from it, and keeps the text; if they describe none, the text is
rejected as not valid. Every other writing of members with the same last values of the parameters
is read as the same header, or is rejected for the same reason. -/
theorem parse_written {members : List (String × Value)} {cs : List Char}
    (written : Json.Writes (200 + 1) (.object members) cs) :
    (∀ header, parse (wireText cs) = .ok header ↔
      Describes members header ∧ header.serialized = wireText cs)
    ∧ ((¬ ∃ header, Describes members header) →
      ∃ why, parse (wireText cs) = reject why ∧ why.report.category = .validation)
    ∧ ∀ others cs', Json.Writes (200 + 1) (.object others) cs' →
      (∀ name ∈ parameterNames, ∀ value,
        LastGiven others name value ↔ LastGiven members name value) →
      parse (wireText cs') =
        (parse (wireText cs)).map fun header => { header with serialized := wireText cs' } := by
  have opened := members_wireText written (by decide)
  refine ⟨fun header => parse_eq_ok_iff opened, ?_, ?_⟩
  · intro none_described
    exact parse_of_not_described opened (not_exists.1 none_described)
  · intro others cs' written' same
    refine parse_of_same opened (members_wireText written' (by decide)) fun name known => ?_
    apply Option.ext
    intro value
    rw [Json.member?_eq_some_iff, Json.member?_eq_some_iff]
    exact same name known value

/-- The algorithm is given twice, with a blank in front of the second colon and an escape in the
second value; a list goes by a name that is no parameter. Without the second value the text is
rejected. -/
theorem parse_written_repeated :
    ∃ json short : String,
      json = "\x7b\"alg\":7,\"x\":[-0],\"alg\" :\"d\\u0069r\",\"enc\":\"A\",\"zip\":null\x7d"
      ∧ short = "\x7b\"alg\":7,\"enc\":\"A\"\x7d"
      ∧ Json.Writes (200 + 1) (.object [("alg", .integer 7), ("x", .list [.integer 0]),
          ("alg", .text "dir"), ("enc", .text "A"), ("zip", .null)]) json.toList
      ∧ Json.Writes (200 + 1) (.object [("alg", .integer 7), ("enc", .text "A")]) short.toList
      ∧ parse (wireText json.toList) = .ok
          { algorithm := "dir", method := "A", compression := none, partyU := none, partyV := none,
            serialized := wireText json.toList }
      ∧ ∃ why, parse (wireText short.toList) = reject why
        ∧ why.report.category = .validation := by
  have named := Json.writesText_stringLiteral
  have seven {depth : Nat} : Json.Writes depth (.integer 7) ['7'] :=
    .integer (.natural 7 (by decide))
  have zeros {depth : Nat} : Json.Writes (depth + 1) (.list [.integer 0]) "[-0]".toList :=
    .list (.last (.integer (.negative 0 (by decide))))
  have method {depth : Nat} : Json.Writes depth (.text "A") "\"A\"".toList := .text (named "A")
  have plain {c : Char} (h : 0x20 ≤ c.toNat ∧ c ≠ '"' ∧ c ≠ '\\') : Json.WritesChar c [c] :=
    .plain h.1 h.2.1 h.2.2
  have escaped : Json.WritesChar 'i' "\\u0069".toList :=
    .unit (by decide) (.digits ⟨by decide, .inl rfl⟩ ⟨by decide, .inl rfl⟩ ⟨by decide, .inl rfl⟩
      ⟨by decide, .inl rfl⟩)
  have letters : Json.WritesChars "dir".toList "d\\u0069r".toList :=
    .cons (@plain 'd' (by decide)) (.cons escaped (.cons (@plain 'r' (by decide)) .nil))
  have direct {depth : Nat} : Json.Writes depth (.text "dir") "\"d\\u0069r\"".toList :=
    .text (.quoted letters)
  have spaced : Json.WritesText "alg" "\"alg\" ".toList :=
    .behind (by decide) (named "alg")
  have written : Json.Writes (200 + 1) _ _ :=
    .object (.more (named "alg") seven (.more (named "x") zeros (.more spaced direct
      (.more (named "enc") method (.last (named "zip") .null)))))
  have written_short : Json.Writes (200 + 1) _ _ :=
    .object (.more (named "alg") seven (.last (named "enc") method))
  refine ⟨_, _, rfl, rfl, written, written_short, ?_, ?_⟩
  · refine ((parse_written written).1 _).2 ⟨?_, rfl⟩
    constructor
    case algorithm => exact Json.member?_eq_some_iff.1 rfl
    case some_algorithm => decide
    case method => exact Json.member?_eq_some_iff.1 rfl
    case some_method => decide
    case compression => exact .null (Json.member?_eq_some_iff.1 rfl)
    case partyU => exact .absent (Json.member?_eq_none_iff.1 rfl)
    case partyV => exact .absent (Json.member?_eq_none_iff.1 rfl)
  · apply (parse_written written_short).2.1
    rintro ⟨header, described⟩
    have last := Json.member?_eq_some_iff.2 described.algorithm
    cases Option.some.inj last

end JweHeader

end TokenCrypto
