import TokenCrypto.Error

/-!
# Texts within ASCII

What is authenticated is a text written in ASCII. Every Base64URL text is within ASCII, whatever
octets it stands for, so of the texts that travel only that of a header may be outside.

* `asciiBytes_eq_ok_iff`: a text has octets if it is within ASCII, one for each character.
* `asciiBytes_inj`: texts that have the same octets are equal.
* `Base64Url.plain_of_decode?`: a text that stands for octets is within ASCII.
-/

namespace TokenCrypto

/-! ## Texts within ASCII have octets -/

/-- A text within ASCII. -/
def Ascii.Plain (text : String) : Prop := ∀ c ∈ text.toList, isMember c = true

namespace Ascii.Plain

theorem append {a b : String} (ha : Plain a) (hb : Plain b) : Plain (a ++ b) := by
  intro c hc
  rw [String.toList_append, List.mem_append] at hc
  rcases hc with hc | hc
  · exact ha c hc
  · exact hb c hc

theorem point : Plain "." := by
  intro c hc
  rw [show c = '.' from by simpa using hc]
  rfl

theorem empty : Plain "" := by
  intro c hc
  simp at hc

theorem ofList_replicate {c : Char} (member : isMember c = true) (n : Nat) :
    Plain (String.ofList (List.replicate n c)) := by
  intro c' hc
  rw [String.toList_ofList] at hc
  rwa [List.eq_of_mem_replicate hc]

end Ascii.Plain

theorem asciiBytes_eq_ok_iff {text : String} {bytes : Bytes} :
    asciiBytes text = .ok bytes ↔ Ascii.Plain text ∧ bytes = text.toList.map Ascii.octet := by
  unfold Ascii.Plain
  rw [← Ascii.encode_eq_ok_iff, asciiBytes]
  cases Ascii.encode text with
  | ok written =>
    show (Except.ok written : Except Error Bytes) = .ok bytes ↔ _
    rw [Except.ok.injEq, Except.ok.injEq]
  | error run => exact ⟨nofun, nofun⟩

theorem asciiBytes_of_plain {text : String} (h : Ascii.Plain text) :
    ∃ bytes, asciiBytes text = .ok bytes := ⟨_, asciiBytes_eq_ok_iff.2 ⟨h, rfl⟩⟩

theorem length_of_asciiBytes {text : String} {bytes : Bytes} (h : asciiBytes text = .ok bytes) :
    bytes.length = text.length := by
  obtain ⟨-, rfl⟩ := asciiBytes_eq_ok_iff.1 h
  rw [List.length_map, String.length_toList]

theorem Ascii.ofNat_toNat_octet {c : Char} (h : isMember c = true) :
    Char.ofNat (octet c).toNat = c := by
  have low : c.toNat < 128 := of_decide_eq_true h
  rw [octet, UInt8.toNat_ofNat', Nat.mod_eq_of_lt (by omega), Char.ofNat_toNat]

/-- Texts that have the same octets are equal. -/
theorem asciiBytes_inj {a b : String} {bytes : Bytes} (ha : asciiBytes a = .ok bytes)
    (hb : asciiBytes b = .ok bytes) : a = b := by
  have back {text : String} (h : asciiBytes text = .ok bytes) :
      text.toList = bytes.map fun octet => Char.ofNat octet.toNat := by
    obtain ⟨plain, rfl⟩ := asciiBytes_eq_ok_iff.1 h
    rw [List.map_map, List.map_congr_left (g := id), List.map_id]
    exact fun c hc => Ascii.ofNat_toNat_octet (plain c hc)
  exact String.toList_inj.1 ((back ha).trans (back hb).symm)

/-! ## Base64URL texts -/

theorem wireBytes_eq_ok_iff {text : String} {bytes : Bytes} :
    wireBytes text = .ok bytes ↔ Base64Url.decode? text = some bytes := by
  unfold wireBytes
  cases Base64Url.decode? text with
  | none => simp [reject]
  | some read => simp

namespace Base64Url

theorem isMember_of_sextet? {c : Char} {n : Nat} (h : sextet? c = some n) :
    Ascii.isMember c = true := by
  by_cases low : c.toNat < 128
  · exact decide_eq_true low
  · -- Every class of letters is below 128, and so are the two signs.
    have not_dash : c ≠ '-' := by
      rintro rfl
      exact low (by decide)
    have not_line : c ≠ '_' := by
      rintro rfl
      exact low (by decide)
    rw [sextet?, if_neg (by omega), if_neg (by omega), if_neg (by omega), if_neg not_dash,
      if_neg not_line] at h
    cases h

theorem sextet?_of_mapM {text : List Char} {ns : List Nat} (h : text.mapM sextet? = some ns) :
    ∀ c ∈ text, ∃ n, sextet? c = some n := by
  induction text generalizing ns with
  | nil => simp
  | cons c rest ih =>
    rw [List.mapM_cons] at h
    obtain ⟨n, first, h⟩ := Option.bind_eq_some_iff.1 h
    obtain ⟨others, read, -⟩ := Option.bind_eq_some_iff.1 h
    intro c' hc'
    rcases List.mem_cons.1 hc' with rfl | hc'
    · exact ⟨n, first⟩
    · exact ih read c' hc'

/-- A text that stands for octets is within ASCII. -/
theorem plain_of_decode? {text : String} {bytes : Bytes} (h : decode? text = some bytes) :
    Ascii.Plain text := by
  obtain ⟨ns, read, -⟩ := Option.bind_eq_some_iff.1 h
  intro c hc
  obtain ⟨n, letter⟩ := sextet?_of_mapM read c hc
  exact isMember_of_sextet? letter

theorem plain_encode (bytes : Bytes) : Ascii.Plain (encode bytes) :=
  plain_of_decode? (decode?_encode bytes)

end Base64Url

end TokenCrypto
