import TokenCrypto.Proofs.ContentEncryption
import TokenCrypto.Proofs.Text.Base64Url

/-!
# What is authenticated tells its texts

The AAD of AES-GCM and the MAC input of a composite method are texts one behind the other, with a
point between two and no lengths. In all but the first no point stands, so they are told apart from
the end, whatever points stand in the first.

* `Segment.of_wireBytes`: a text that stands for octets has no point.
* `eq_of_append_point_eq`: the last point tells what is behind it and what is in front.
* `asciiBytes_pointed`: texts with points between them are told from the end, by induction.
* `authenticated_tells_texts`: what is authenticated tells its texts, in both ways of encrypting.
-/

namespace TokenCrypto

/-! ## Texts without a point -/

/-- A text within ASCII in which no point stands. -/
structure Segment (text : String) : Prop where
  plain : Ascii.Plain text
  no_point : '.' ∉ text.toList

namespace Segment

theorem empty : Segment "" := ⟨.empty, List.not_mem_nil⟩

/-- A text that stands for octets has no point. -/
theorem of_wireBytes {text : String} {bytes : Bytes} (h : wireBytes text = .ok bytes) :
    Segment text := by
  have read := wireBytes_eq_ok_iff.1 h
  have letters := (Base64Url.exists_decode?_iff.1 ⟨bytes, read⟩).1
  have no_letter : '.' ∉ Base64Url.alphabet := by decide
  exact ⟨Base64Url.plain_of_decode? read, fun point => no_letter (letters '.' point)⟩

end Segment

/-! ## Points between texts -/

/-- Where one point stands first and no other behind it, a cut in front of a point is at the
beginning. -/
theorem eq_nil_of_cut_at_point {behind front rest : List Char} (no_point : '.' ∉ behind)
    (h : '.' :: behind = front ++ '.' :: rest) : front = [] ∧ behind = rest := by
  cases front with
  | nil => exact ⟨rfl, (List.cons.inj h).2⟩
  | cons c front =>
    obtain ⟨-, rfl⟩ := List.cons.inj h
    exact absurd (List.mem_append_right _ List.mem_cons_self) no_point

/-- The last point tells what is behind it, and what is in front. -/
theorem eq_of_append_point_eq {a b a' b' : String} (hb : '.' ∉ b.toList) (hb' : '.' ∉ b'.toList)
    (h : a ++ "." ++ b = a' ++ "." ++ b') : a = a' ∧ b = b' := by
  have lists : a.toList ++ '.' :: b.toList = a'.toList ++ '.' :: b'.toList := by
    simpa using congrArg String.toList h
  simp only [← String.toList_inj]
  -- One of the two fronts begins with the other, and what is left of it is in front of a point.
  rcases List.append_eq_append_iff.1 lists with
    ⟨rest, front_eq, behind_eq⟩ | ⟨rest, front_eq, behind_eq⟩
  · obtain ⟨rfl, same⟩ := eq_nil_of_cut_at_point hb behind_eq
    exact ⟨by rw [front_eq, List.append_nil], same⟩
  · obtain ⟨rfl, same⟩ := eq_nil_of_cut_at_point hb' behind_eq
    exact ⟨by rw [front_eq, List.append_nil], same.symm⟩

/-- A text and the segments behind it, with a point in front of each. -/
def pointed (text : String) (segments : List String) : String :=
  segments.foldl (fun text segment => text ++ "." ++ segment) text

section

variable {segments : List String} (separate : ∀ segment ∈ segments, Segment segment)

include separate

theorem plain_pointed {text : String} (plain : Ascii.Plain text) :
    Ascii.Plain (pointed text segments) := by
  induction segments generalizing text with
  | nil => exact plain
  | cons segment segments ih =>
    obtain ⟨first, others⟩ := List.forall_mem_cons.1 separate
    exact ih others ((plain.append .point).append first.plain)

/-- Each of as many segments is told, and so is the text in front of them. -/
theorem eq_of_pointed_eq {segments' : List String}
    (separate' : ∀ segment ∈ segments', Segment segment)
    (length_eq : segments.length = segments'.length) {text text' : String}
    (h : pointed text segments = pointed text' segments') :
    text = text' ∧ segments = segments' := by
  induction segments generalizing segments' text text' with
  | nil =>
    obtain rfl := List.eq_nil_of_length_eq_zero length_eq.symm
    exact ⟨h, rfl⟩
  | cons segment segments ih =>
    obtain ⟨segment', segments', rfl⟩ := List.exists_cons_of_length_eq_add_one length_eq.symm
    obtain ⟨first, others⟩ := List.forall_mem_cons.1 separate
    obtain ⟨first', others'⟩ := List.forall_mem_cons.1 separate'
    -- The rest of the segments is behind a text that ends with the first one.
    obtain ⟨fronts_eq, rfl⟩ := ih others others' (Nat.succ.inj length_eq) h
    obtain ⟨rfl, rfl⟩ := eq_of_append_point_eq first.no_point first'.no_point fronts_eq
    exact ⟨rfl, rfl⟩

end

/-- Octets of texts with points between them tell the texts. -/
theorem asciiBytes_pointed {text text' : String} (plain : Ascii.Plain text)
    (plain' : Ascii.Plain text') {segments segments' : List String}
    (separate : ∀ segment ∈ segments, Segment segment)
    (separate' : ∀ segment ∈ segments', Segment segment)
    (length_eq : segments.length = segments'.length) :
    ∃ bytes bytes', asciiBytes (pointed text segments) = .ok bytes
      ∧ asciiBytes (pointed text' segments') = .ok bytes'
      ∧ (bytes = bytes' ↔ text = text' ∧ segments = segments') := by
  obtain ⟨bytes, written⟩ := asciiBytes_of_plain (plain_pointed separate plain)
  obtain ⟨bytes', written'⟩ := asciiBytes_of_plain (plain_pointed separate' plain')
  refine ⟨bytes, bytes', written, written', ?_, ?_⟩
  · rintro rfl
    exact eq_of_pointed_eq separate separate' length_eq (asciiBytes_inj written written')
  · rintro ⟨rfl, rfl⟩
    exact Except.ok.inj (written.symm.trans written')

/-! ## What is authenticated -/

/-- The texts of the MAC input of a composite method. -/
structure SealedTexts where
  header : String
  encryptedKey : String
  iv : String
  ciphertext : String

namespace SealedTexts

def macInput (texts : SealedTexts) : Except Error Bytes :=
  CompositeMethod.macInput texts.header texts.encryptedKey texts.iv texts.ciphertext

/-- All are within ASCII, and no point stands but in the header. -/
structure Separate (texts : SealedTexts) : Prop where
  header : Ascii.Plain texts.header
  encryptedKey : Segment texts.encryptedKey
  iv : Segment texts.iv
  ciphertext : Segment texts.ciphertext

/-- The texts behind the header. -/
def segments (texts : SealedTexts) : List String := [texts.encryptedKey, texts.iv, texts.ciphertext]

theorem Separate.segments {texts : SealedTexts} (h : texts.Separate) :
    ∀ segment ∈ texts.segments, Segment segment := by
  simp only [SealedTexts.segments, List.forall_mem_cons]
  exact ⟨h.encryptedKey, h.iv, h.ciphertext, nofun⟩

theorem eq_iff {texts texts' : SealedTexts} :
    texts = texts' ↔ texts.header = texts'.header ∧ texts.segments = texts'.segments := by
  obtain ⟨header, encryptedKey, iv, ciphertext⟩ := texts
  obtain ⟨header', encryptedKey', iv', ciphertext'⟩ := texts'
  simp [SealedTexts.segments]

end SealedTexts

/-- What is authenticated tells its texts, as long as no point stands in any but the header; and no
text that stands for octets has one. The MAC input of a composite method tells four texts, the AAD
of AES-GCM two. -/
theorem authenticated_tells_texts :
    (∀ text bytes, wireBytes text = .ok bytes → Segment text)
    ∧ (∀ texts texts' : SealedTexts, texts.Separate → texts'.Separate →
        ∃ input input', texts.macInput = .ok input ∧ texts'.macInput = .ok input'
          ∧ (input = input' ↔ texts = texts'))
    ∧ ∀ header header' encryptedKey encryptedKey', Ascii.Plain header → Ascii.Plain header' →
        Segment encryptedKey → Segment encryptedKey' →
        ∃ data data', Aead.additionalData header encryptedKey = .ok data
          ∧ Aead.additionalData header' encryptedKey' = .ok data'
          ∧ (data = data' ↔ header = header' ∧ encryptedKey = encryptedKey') := by
  refine ⟨fun _ _ => Segment.of_wireBytes, ?_, ?_⟩
  · intro texts texts' separate separate'
    obtain ⟨input, input', written, written', told⟩ := asciiBytes_pointed separate.header
      separate'.header separate.segments separate'.segments rfl
    exact ⟨input, input', written, written', told.trans SealedTexts.eq_iff.symm⟩
  · intro header header' encryptedKey encryptedKey' plain plain' segment segment'
    obtain ⟨data, data', written, written', told⟩ := asciiBytes_pointed plain plain'
      (List.forall_mem_singleton.2 segment) (List.forall_mem_singleton.2 segment') rfl
    rw [List.cons.injEq, and_iff_left rfl] at told
    exact ⟨data, data', written, written', told⟩

/-- A point at the end of a header leaves the texts apart. One in an encrypted key would not. -/
theorem authenticated_tells_texts_points_in_header :
    ∃ texts texts' : SealedTexts, texts = ⟨"a.", "", "AA", ""⟩ ∧ texts' = ⟨"a", "", "AA", ""⟩
      ∧ texts.macInput ≠ texts'.macInput
      ∧ Aead.additionalData "a." "AA" ≠ Aead.additionalData "a" "AA"
      ∧ Aead.additionalData "a." "AA" = Aead.additionalData "a" ".AA" := by
  have pointed_ascii : asciiBytes "a." = .ok [97, 46] := rfl
  have letter_ascii : asciiBytes "a" = .ok [97] := rfl
  have pointed_plain := (asciiBytes_eq_ok_iff.1 pointed_ascii).1
  have letter_plain := (asciiBytes_eq_ok_iff.1 letter_ascii).1
  obtain ⟨segments, four, two⟩ := authenticated_tells_texts
  have read : wireBytes "AA" = .ok [0] := rfl
  have segment := segments "AA" [0] read
  have headers_ne : "a." ≠ "a" := by decide
  refine ⟨_, _, rfl, rfl, ?_, ?_, rfl⟩
  · obtain ⟨input, input', written, written', told⟩ := four ⟨"a.", "", "AA", ""⟩
      ⟨"a", "", "AA", ""⟩ ⟨pointed_plain, .empty, segment, .empty⟩
      ⟨letter_plain, .empty, segment, .empty⟩
    rw [written, written', ne_eq, Except.ok.injEq, told]
    exact fun same => headers_ne (congrArg SealedTexts.header same)
  · obtain ⟨data, data', written, written', told⟩ :=
      two "a." "a" "AA" "AA" pointed_plain letter_plain segment segment
    rw [written, written', ne_eq, Except.ok.injEq, told]
    exact fun same => headers_ne same.1

end TokenCrypto
