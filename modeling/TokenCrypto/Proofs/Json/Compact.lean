import TokenCrypto.Proofs.Json.Written

/-!
# Compact objects are read back

The compact form of an object whose values are strings is one of the ways to write the object, so
that it is read back, members in their order. The names may be any strings, and need not differ.

* `read_compact`: reading the compact form of such an object gives the object.
-/

namespace TokenCrypto.Json

/-- Members whose values are strings. -/
def textMembers (members : List (String × String)) : List (String × Value) :=
  members.map fun m => (m.1, .text m.2)

theorem writesText_stringLiteral (value : String) : WritesText value (stringLiteral value) :=
  .quoted (writesChars_flatMap_escape value.toList)

theorem writesMembers_compactMembers (depth : Nat) (first : String × String)
    (others : List (String × String)) :
    WritesMembers depth (textMembers (first :: others))
      (commaSeparated (compactMembers (textMembers (first :: others)))) := by
  have named := writesText_stringLiteral first.1
  have written : Writes depth (.text first.2) (stringLiteral first.2) :=
    .text (writesText_stringLiteral first.2)
  induction others generalizing first with
  | nil => exact .last named written
  | cons second others ih =>
    have rest := ih second (writesText_stringLiteral second.1)
      (.text (writesText_stringLiteral second.2))
    have more := WritesMembers.more named written rest
    rw [← List.cons_append, ← List.append_assoc] at more
    exact more

/-- The compact form of an object of strings is one of the ways to write the object. -/
theorem writes_compact (depth : Nat) (members : List (String × String)) :
    Writes (depth + 1) (.object (textMembers members))
      (Value.object (textMembers members)).compact := by
  cases members with
  | nil => exact .emptyObject (List.forall_mem_nil _)
  | cons first others => exact .object (writesMembers_compactMembers depth first others)

/-- Reading the compact form of an object of strings gives the object. -/
theorem read_compact (members : List (String × String)) :
    read (String.ofList (Value.object (textMembers members)).compact) =
      .ok (.object (textMembers members)) :=
  read_writes (writes_compact 0 members) (by decide)

end TokenCrypto.Json
