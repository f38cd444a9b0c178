import TokenPatterns.CaseMapping

/-!
# Character classes

A class is a list of code points and ranges of them, in the order in which they were put in,
and may be inverted as a whole. A shorthand such as `\d` adds the ranges it stands for, and its
uppercase form the gaps between these ranges. Two readings of a class under ignored case are kept
apart: the analyses ask for a code point or its variant, the matcher for a letter.
-/
namespace TokenPatterns

inductive ClassItem where
  | single (code : Nat)
  /-- Both ends belong to the range. -/
  | range (first last : Nat)
deriving DecidableEq

namespace ClassItem

def contains (code : Nat) : ClassItem → Bool
  | single c => c == code
  | range first last => first ≤ code && code ≤ last

/-- The code points of an item, in ascending order. -/
def codes : ClassItem → List Nat
  | single c => [c]
  | range first last => List.range' first (last + 1 - first)

theorem mem_codes {item : ClassItem} {code : Nat} :
    code ∈ item.codes ↔ item.contains code = true := by
  cases item with
  | single c =>
    rw [codes, contains, List.mem_singleton, beq_iff_eq]
    exact eq_comm
  | range first last =>
    simp only [codes, contains, List.mem_range'_1, Bool.and_eq_true, decide_eq_true_eq]
    omega

/-- A range of one code point is kept as that code point. -/
def ofRange (range : Nat × Nat) : ClassItem :=
  if range.1 = range.2 then single range.1 else .range range.1 range.2

@[simp] theorem contains_ofRange (range : Nat × Nat) (code : Nat) :
    (ofRange range).contains code = (range.1 ≤ code && code ≤ range.2) := by
  unfold ofRange
  split
  · next h =>
    rw [Bool.eq_iff_iff, contains, beq_iff_eq, Bool.and_eq_true, decide_eq_true_eq,
      decide_eq_true_eq]
    omega
  · rfl

end ClassItem

namespace CodeGaps

/-- What is left of the range `gap` without the codes of `range`. -/
def outside (range gap : Nat × Nat) : List (Nat × Nat) :=
  (if gap.1 < range.1 then [(gap.1, min gap.2 (range.1 - 1))] else []) ++
    (if range.2 < gap.2 then [(max gap.1 (range.2 + 1), gap.2)] else [])

end CodeGaps

/-- The code space without the given ranges, as ascending ranges. -/
def gaps (ranges : List (Nat × Nat)) : List (Nat × Nat) :=
  ranges.foldl (fun left range => left.flatMap (CodeGaps.outside range)) [(0, Unicode.maxCode)]

namespace Shorthand

def digitRanges : List (Nat × Nat) := [(0x30, 0x39)]

def wordRanges : List (Nat × Nat) := [(0x61, 0x7A), (0x41, 0x5A), (0x30, 0x39), (0x5F, 0x5F)]

def spaceRanges : List (Nat × Nat) :=
  [(0x09, 0x0D), (0x20, 0x20), (0xA0, 0xA0), (0x1680, 0x1680), (0x2000, 0x200A),
    (0x2028, 0x2029), (0x202F, 0x202F), (0x205F, 0x205F), (0x3000, 0x3000), (0xFEFF, 0xFEFF)]

/-- The ranges that the lowercase form of a shorthand letter stands for. -/
def ranges? (letter : Char) : Option (List (Nat × Nat)) :=
  match letter.toLower with
  | 'd' => some digitRanges
  | 'w' => some wordRanges
  | 's' => some spaceRanges
  | _ => none

def isLetter (c : Char) : Bool := (ranges? c).isSome

end Shorthand

/-- The ends of a range that is written with the larger one first. -/
structure RangeError where
  first : Char
  last : Char
deriving DecidableEq

structure CharClass where
  items : Array ClassItem := #[]
  negated : Bool := false
  /-- Whether the gaps of a shorthand are among the items. -/
  hasGaps : Bool := false
deriving DecidableEq

namespace CharClass

def empty : CharClass := {}

private def addRanges (set : CharClass) (ranges : List (Nat × Nat)) : CharClass :=
  { set with items := set.items ++ ranges.map ClassItem.ofRange }

def addChar (set : CharClass) (c : Char) : CharClass :=
  { set with items := set.items.push (.single c.toNat) }

def addRange (set : CharClass) (first last : Char) : Except RangeError CharClass :=
  if first.toNat ≤ last.toNat then
    .ok { set with items := set.items.push (.range first.toNat last.toNat) }
  else .error ⟨first, last⟩

/-- Adds what a shorthand letter stands for, or nothing if it names none. -/
def addShorthand? (set : CharClass) (letter : Char) : Option CharClass :=
  (Shorthand.ranges? letter).map fun ranges =>
    if letter.isUpper then { set.addRanges (gaps ranges) with hasGaps := true }
    else set.addRanges ranges

/-- The class of a shorthand that stands alone. Its uppercase form inverts the class. -/
def shorthand? (letter : Char) : Option CharClass :=
  (Shorthand.ranges? letter).map fun ranges =>
    { empty.addRanges ranges with negated := letter.isUpper }

def invert (set : CharClass) : CharClass := { set with negated := !set.negated }

/-- Whether the class covers most of the code space, so that its codes are not listed. -/
def isUnbounded (set : CharClass) : Bool := set.negated || set.hasGaps

theorem negated_of_not_isUnbounded {set : CharClass} (h : ¬ set.isUnbounded = true) :
    set.negated = false := by
  rw [isUnbounded, Bool.or_eq_true, not_or, Bool.not_eq_true] at h
  exact h.1

/-- Whether `code` is among the items, whatever the inversion. -/
def contains (set : CharClass) (code : Nat) : Bool := set.items.any (·.contains code)

/-- Whether `code` belongs to the class, or with `ignoreCase` its variant does. -/
def matchesCode (mapping : CaseMapping) (ignoreCase : Bool) (set : CharClass) (code : Nat) :
    Bool :=
  (set.contains code || (ignoreCase && (mapping.variant? code).any set.contains)) != set.negated

/-- Whether the canonical form of `c`, or the lowercase of that form if it is the same letter, is
among the items. -/
def containsLetter (mapping : CaseMapping) (set : CharClass) (c : Char) : Bool :=
  let canonical := mapping.canonical c
  [canonical, mapping.simpleLower canonical].any fun other =>
    mapping.canonical other == canonical && set.contains other.toNat

/-- Whether the class accepts the character `c` of a text, with `ignoreCase` as a letter. -/
def accepts (mapping : CaseMapping) (ignoreCase : Bool) (set : CharClass) (c : Char) : Bool :=
  (set.contains c.toNat || (ignoreCase && set.containsLetter mapping c)) != set.negated

@[simp] theorem matchesCode_false (mapping : CaseMapping) (set : CharClass) (code : Nat) :
    set.matchesCode mapping false code = (set.contains code != set.negated) := by
  simp [matchesCode]

@[simp] theorem accepts_false (mapping : CaseMapping) (set : CharClass) (c : Char) :
    set.accepts mapping false c = (set.contains c.toNat != set.negated) := by
  simp [accepts]

/-- A class that is not inverted accepts the letters of which it has a form. -/
theorem exists_contains_of_accepts {mapping : CaseMapping} {ignoreCase : Bool} {set : CharClass}
    {c : Char} (hnegated : set.negated = false) (h : set.accepts mapping ignoreCase c = true) :
    ∃ other : Char, set.contains other.toNat = true ∧
      mapping.agree ignoreCase other c = true := by
  simp only [accepts, hnegated, Bool.bne_false, Bool.or_eq_true, Bool.and_eq_true] at h
  rcases h with hself | ⟨rfl, hletter⟩
  · exact ⟨c, hself, CaseMapping.agree_self mapping ignoreCase c⟩
  · rw [containsLetter, List.any_eq_true] at hletter
    obtain ⟨other, -, hother⟩ := hletter
    rw [Bool.and_eq_true, beq_iff_eq] at hother
    exact ⟨other, hother.2, CaseMapping.agree_true_iff.mpr hother.1⟩

end CharClass
end TokenPatterns
