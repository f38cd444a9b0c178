import TokenPatterns.Pattern.Flags
import TokenPatterns.Regex.WellFormed

/-!
# Patterns

A pattern is a tree with the flags that it is matched under. It is read from the text of a regular
expression, or stands for a plain text, character by character.
-/
namespace TokenPatterns

structure Pattern where
  root : Node
  flags : Flags
  isRoot : root.IsRoot
deriving DecidableEq

inductive PatternSource where
  | regex (text : String)
  | literal (text : String)
deriving DecidableEq

namespace Pattern

theorem isRoot_literals (text : List Char) : (Node.concat (text.map .literal)).IsRoot := by
  have hcaptures : Node.capturesAll (text.map .literal) = [] := by
    induction text with
    | nil => rfl
    | cons c text ih => simp [Node.capturesAll, Node.captures, ih]
  have hwellFormed : ∀ count, Node.allWellFormed count (text.map .literal) = true := by
    intro count
    induction text with
    | nil => rfl
    | cons c text ih =>
      simp only [List.map_cons, Node.capturesAll, Node.captures, List.nil_append] at hcaptures
      simp [Node.allWellFormed, Node.isWellFormed, ih hcaptures]
  constructor
  · simp [Node.captures, hcaptures]
  · exact hwellFormed _

def literal (text : String) (flags : Flags := {}) : Pattern :=
  ⟨.concat (text.toList.map .literal), flags, isRoot_literals text.toList⟩

def ofSource? (source : PatternSource) (flags : Flags) : Except PatternError Pattern :=
  match source with
  | .regex text =>
    match h : Regex.parse text with
    | .ok root => .ok ⟨root, flags, Regex.isRoot_of_parse h⟩
    | .error mistake => .error mistake
  | .literal text => .ok (literal text flags)

theorem ofSource?_regex_iff {text : String} {flags : Flags} {root : Node} :
    (∃ pattern, ofSource? (.regex text) flags = .ok pattern ∧ pattern.root = root ∧
      pattern.flags = flags) ↔ Regex.parse text = .ok root := by
  simp only [ofSource?]
  constructor
  · rintro ⟨pattern, h, rfl, -⟩
    split at h
    · next hparse =>
      cases h
      exact hparse
    · cases h
  · intro hparse
    split
    · next root' hroot =>
      rw [hparse] at hroot
      cases hroot
      exact ⟨_, rfl, rfl, rfl⟩
    · next mistake hmistake =>
      rw [hparse] at hmistake
      cases hmistake

theorem ofSource?_of_parse_eq_error {text : String} {mistake : PatternError}
    (h : Regex.parse text = .error mistake) (flags : Flags) :
    ofSource? (.regex text) flags = .error mistake := by
  simp only [ofSource?]
  split
  · next hroot =>
    rw [h] at hroot
    cases hroot
  · next hmistake =>
    rw [h] at hmistake
    cases hmistake
    rfl

/-- The pattern of a regular expression and the letters of its flags, which are read first. -/
def regex? (text flags : String) : Except PatternError Pattern := do
  ofSource? (.regex text) (← Flags.ofString? flags)

/-- The largest number of a capturing group. Groups are numbered in order, so it is their count. -/
def captureCount (pattern : Pattern) : Nat := pattern.root.lastCapture

theorem isWellFormed_root (pattern : Pattern) :
    pattern.root.isWellFormed pattern.captureCount = true := by
  rw [captureCount, pattern.isRoot.lastCapture_eq]
  exact pattern.isRoot.isWellFormed

end Pattern
end TokenPatterns
