import TokenPatterns.Pattern
import TokenPatterns.Text.Characters

/-!
# What a pattern is matched against

A text with the way in which its characters are compared. Here is what a leaf of a pattern asks of
the text at a place.
-/
namespace TokenPatterns

structure Subject where
  mapping : CaseMapping
  flags : Flags
  input : Array Char

namespace Subject

def agree (s : Subject) (a b : Char) : Bool := s.mapping.agree s.flags.ignoreCase a b

def accepts (s : Subject) (set : CharClass) (c : Char) : Bool :=
  set.accepts s.mapping s.flags.ignoreCase c

def acceptsAny (s : Subject) (c : Char) : Bool := s.flags.dotAll || !isLineTerminator c

def charBefore? (s : Subject) : (pos : Nat) → Option Char
  | 0 => none
  | pos + 1 => s.input[pos]?

def isWordBoundary (s : Subject) (pos : Nat) : Bool :=
  (s.charBefore? pos).any isWordChar != s.input[pos]?.any isWordChar

def holds (s : Subject) (pos : Nat) : Anchor → Bool
  | .start => pos == 0 || (s.flags.multiline && (s.charBefore? pos).any isLineTerminator)
  | .finish => pos == s.input.size || (s.flags.multiline && s.input[pos]?.any isLineTerminator)
  | .wordBoundary => s.isWordBoundary pos
  | .nonWordBoundary => !s.isWordBoundary pos

/-- Whether the text at `start` and the text at `pos` agree on `length` characters. -/
def sameText (s : Subject) (start pos : Nat) : (length : Nat) → Bool
  | 0 => true
  | length + 1 =>
    match s.input[start]?, s.input[pos]? with
    | some a, some b => s.agree a b && s.sameText (start + 1) (pos + 1) length
    | _, _ => false

/-- Where the text of a group ends if it is repeated at `pos`. A group that took no part in the
match so far stands for the empty text. -/
def repeatSpan? (s : Subject) (span? : Option (Nat × Nat)) (pos : Nat) : Option Nat :=
  match span? with
  | some (start, stop) =>
    let length := stop - start
    if pos + length ≤ s.input.size && s.sameText start pos length then some (pos + length)
    else none
  | none => some pos

theorem repeatSpan?_le {s : Subject} {span? : Option (Nat × Nat)} {pos stop : Nat}
    (hpos : pos ≤ s.input.size) (h : s.repeatSpan? span? pos = some stop) :
    pos ≤ stop ∧ stop ≤ s.input.size := by
  unfold repeatSpan? at h
  split at h
  · dsimp only at h
    split at h
    · next hlength =>
      simp only [Bool.and_eq_true, decide_eq_true_eq] at hlength
      cases h
      omega
    · cases h
  · cases h
    exact ⟨Nat.le_refl _, hpos⟩

end Subject
end TokenPatterns
