import TokenPatterns.Pattern
import TokenPatterns.Text.Characters

/-!
# Questions about candidates

Whether one of finitely many code points can be the first character of a match, or stand anywhere
in one. These questions always have an answer: an inverted class is asked for each candidate. A
reference repeats what a group matched, and a lookaround reads text outside of the match, so
neither adds a candidate.
-/
namespace TokenPatterns

/-- The code points asked for, and what a leaf of the tree is read under. -/
structure Candidates where
  codes : List Nat
  mapping : CaseMapping
  flags : Flags

namespace Candidates

def hasLiteral (candidates : Candidates) (c : Char) : Bool :=
  let variant? := if candidates.flags.ignoreCase then candidates.mapping.variant? c.toNat else none
  candidates.codes.any fun code => code == c.toNat || variant? == some code

def hasMember (candidates : Candidates) (set : CharClass) : Bool :=
  candidates.codes.any (set.matchesCode candidates.mapping candidates.flags.ignoreCase)

def hasAnyChar (candidates : Candidates) : Bool :=
  candidates.codes.any fun code => candidates.flags.dotAll || !lineTerminators.contains code

end Candidates

/-- Whether a candidate can come first, and whether the match may be empty. -/
structure FirstHit where
  hit : Bool
  nullable : Bool
deriving DecidableEq

namespace Node

mutual

/-- Whether a candidate can stand anywhere in a match of the node. -/
def mayContain (candidates : Candidates) : Node → Bool
  | literal c => candidates.hasLiteral c
  | charClass set => candidates.hasMember set
  | anyChar => candidates.hasAnyChar
  | anchor _ => false
  | look .. => false
  | backreference _ => false
  | group _ inner => mayContain candidates inner
  | repetition _ inner => mayContain candidates inner
  | concat items => anyMayContain candidates items
  | alternation branches => anyMayContain candidates branches

def anyMayContain (candidates : Candidates) : List Node → Bool
  | [] => false
  | node :: nodes => mayContain candidates node || anyMayContain candidates nodes

end

mutual

/-- Whether a candidate can be the first character of a match of the node. A hit is not looked
past, and what it says of the empty match then does not count. -/
def firstHit (candidates : Candidates) : Node → FirstHit
  | literal c => ⟨candidates.hasLiteral c, false⟩
  | charClass set => ⟨candidates.hasMember set, false⟩
  | anyChar => ⟨candidates.hasAnyChar, false⟩
  | anchor _ => ⟨false, true⟩
  | look .. => ⟨false, true⟩
  | backreference _ => ⟨false, false⟩
  | group _ inner => firstHit candidates inner
  | concat items => firstHitOfSequence candidates items
  | alternation branches => firstHitOfBranches candidates branches
  | repetition quantifier inner =>
    let first := firstHit candidates inner
    { first with nullable := first.nullable || quantifier.isOptional }

def firstHitOfSequence (candidates : Candidates) : List Node → FirstHit
  | [] => ⟨false, true⟩
  | item :: items =>
    let first := firstHit candidates item
    if first.hit then first
    else if first.nullable then firstHitOfSequence candidates items
    else ⟨false, false⟩

def firstHitOfBranches (candidates : Candidates) : List Node → FirstHit
  | [] => ⟨false, false⟩
  | branch :: branches =>
    let first := firstHit candidates branch
    if first.hit then first
    else
      let others := firstHitOfBranches candidates branches
      if others.hit then others else ⟨false, first.nullable || others.nullable⟩

end

end Node

namespace Pattern

def canStartWith (mapping : CaseMapping) (codes : List Nat) (pattern : Pattern) : Bool :=
  (pattern.root.firstHit ⟨codes, mapping, pattern.flags⟩).hit

def canContain (mapping : CaseMapping) (codes : List Nat) (pattern : Pattern) : Bool :=
  pattern.root.mayContain ⟨codes, mapping, pattern.flags⟩

end Pattern
end TokenPatterns
