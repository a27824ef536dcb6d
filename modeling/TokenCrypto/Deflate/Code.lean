import TokenCrypto.Deflate.Reader

/-!
# Codes of DEFLATE

The canonical Huffman codes. A code gives symbols to bit strings such that no string begins another.
It is known by the length of each symbol's string: among strings of one length the symbols come in
order, and shorter strings come before longer ones that begin alike. The tree of such a code is
built from its deepest level up.

* `Tree.read_path`: reading the path of a symbol gives the symbol.
-/

namespace TokenCrypto.Deflate

/-- A binary tree with symbols at its leaves. -/
inductive Tree where
  | empty
  | leaf (symbol : Nat)
  | node (zero one : Tree)
  deriving DecidableEq, Repr, Inhabited

namespace Tree

/-- Reads down to a leaf; `missing` is the damage where there is none. -/
def read (missing : Damage) : Tree → Reader Nat
  | empty => .damaged missing
  | leaf symbol => .done symbol
  | node zero one => .bit fun b => if b then one.read missing else zero.read missing

def path? (symbol : Nat) : Tree → Option Bits
  | empty => none
  | leaf s => if s = symbol then some [] else none
  | node zero one =>
    match zero.path? symbol with
    | some bits => some (false :: bits)
    | none => (one.path? symbol).map (true :: ·)

/-- Reading the path of a symbol gives the symbol and leaves what comes after. -/
theorem read_path {symbol : Nat} {t : Tree} {path : Bits} (h : t.path? symbol = some path)
    (missing : Damage) (place : Nat) (rest : Bits) :
    (t.read missing).runFrom place (path ++ rest) = .ok symbol ⟨place + path.length, rest⟩ := by
  induction t generalizing place path with
  | empty => cases h
  | leaf s =>
    simp only [path?] at h
    split at h
    · next hs => cases h; subst hs; rfl
    · cases h
  | node zero one ihz iho =>
    simp only [path?] at h
    split at h
    · next bits hz =>
      cases h
      have := ihz hz (place + 1)
      simp only [read, List.cons_append, Reader.runFrom, List.length_cons]
      rw [Nat.add_comm bits.length 1, ← Nat.add_assoc]
      simpa using this
    · obtain ⟨bits, ho, rfl⟩ := Option.map_eq_some_iff.1 h
      have := iho ho (place + 1)
      simp only [read, List.cons_append, Reader.runFrom, List.length_cons]
      rw [Nat.add_comm bits.length 1, ← Nat.add_assoc]
      simpa using this

/-- Neighbours joined; one without a neighbour is dropped. -/
def joinPairs : List Tree → List Tree
  | zero :: one :: rest => node zero one :: joinPairs rest
  | _ => []

end Tree

/-- A code: what follows a first bit of zero, and what follows a one. -/
structure Code where
  zero : Tree
  one : Tree
  deriving DecidableEq, Repr, Inhabited

namespace Code

def tree (c : Code) : Tree := .node c.zero c.one

/-- Reads a symbol; `missing` is the damage where no symbol has the bits. -/
def read (c : Code) (missing : Damage) : Reader Nat := c.tree.read missing

/-- The longest string that a code may have. -/
def maxLength : Nat := 15

def leaves (lengths : List Nat) (length : Nat) : List Tree :=
  (lengths.zipIdx.filter (·.1 = length)).map fun entry => .leaf entry.2

/-- The trees `depth` levels down, given those one level further down for each of `below` levels. -/
def level (lengths : List Nat) (depth : Nat) : Nat → List Tree
  | 0 => leaves lengths depth
  | below + 1 => leaves lengths depth ++ Tree.joinPairs (level lengths (depth + 1) below)

/-- How much of all strings a code leaves without a symbol, counted in strings of the longest
length; below zero if the lengths ask for more strings than there are. -/
def slack (lengths : List Nat) : Int :=
  (lengths.filter (· ≠ 0)).foldl
    (fun left length => left - (1 <<< (maxLength - length) : Nat)) (1 <<< maxLength : Nat)

/-- The code with strings of the given lengths, zero for a symbol without one. -/
def build (lengths : List Nat) : Code :=
  match level lengths 1 (maxLength - 1) with
  | [] => ⟨.empty, .empty⟩
  | [zero] => ⟨zero, .empty⟩
  | zero :: one :: _ => ⟨zero, one⟩

/-- The code for literals and lengths or for distances: every string has to begin with a symbol's,
unless no symbol has a string longer than one bit. -/
def ofLengths? (lengths : List Nat) : Option Code :=
  if slack lengths = 0 ∨ (0 < slack lengths ∧ lengths.all (· ≤ 1)) then some (build lengths)
  else none

/-- The code for the lengths of other codes: every string has to begin with a symbol's. If no symbol
has a string, then each bit stands for the length zero. -/
def forLengths? (lengths : List Nat) : Option Code :=
  if lengths.all (· = 0) then some ⟨.leaf 0, .leaf 0⟩
  else if slack lengths = 0 then some (build lengths)
  else none

/-! ## The fixed codes -/

def fixedLiteral : Code :=
  build (List.replicate 144 8 ++ List.replicate 112 9 ++ List.replicate 24 7 ++ List.replicate 8 8)

def fixedDistance : Code := build (List.replicate 32 5)

end Code

end TokenCrypto.Deflate
