/-!
# Bounds of repetitions
-/
namespace TokenPatterns

/-- How often a part of a pattern is repeated. Without `max` there is no upper bound. A greedy
repetition prefers another lap to leaving. -/
structure Quantifier where
  min : Nat
  max : Option Nat
  greedy : Bool := true
deriving DecidableEq

namespace Quantifier

def star : Quantifier := ⟨0, none, true⟩

def plus : Quantifier := ⟨1, none, true⟩

def question : Quantifier := ⟨0, some 1, true⟩

def lazy (quantifier : Quantifier) : Quantifier := { quantifier with greedy := false }

def isOptional (quantifier : Quantifier) : Bool := quantifier.min == 0

theorem min_pos {quantifier : Quantifier} (h : quantifier.isOptional = false) :
    0 < quantifier.min :=
  Nat.pos_of_ne_zero (by simpa [isOptional] using h)

/-- Whether the upper bound, if there is one, is not below the lower one. -/
def inOrder (quantifier : Quantifier) : Bool := quantifier.max.all (quantifier.min ≤ ·)

/-- Whether there may be another lap after `count` of them. -/
def allowsMore (quantifier : Quantifier) (count : Nat) : Bool :=
  quantifier.max.all (count < ·)

end Quantifier
end TokenPatterns
