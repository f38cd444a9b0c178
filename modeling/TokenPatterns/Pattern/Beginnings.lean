import TokenPatterns.Pattern.Node

/-!
# Where a match can begin

A match begins in the first item of a sequence, and in the next one too if the first may be empty.
-/
namespace TokenPatterns
namespace Node

mutual

/-- Whether the node can match without taking up text, if assertions hold and references repeat
nothing. -/
def mayBeEmpty : Node → Bool
  | literal _ => false
  | charClass _ => false
  | anyChar => false
  | anchor _ => true
  | look .. => true
  | backreference _ => true
  | group _ inner => mayBeEmpty inner
  | concat items => allMayBeEmpty items
  | alternation branches => anyMayBeEmpty branches
  | repetition quantifier inner => mayBeEmpty inner || quantifier.isOptional

def allMayBeEmpty : List Node → Bool
  | [] => true
  | node :: nodes => mayBeEmpty node && allMayBeEmpty nodes

def anyMayBeEmpty : List Node → Bool
  | [] => false
  | node :: nodes => mayBeEmpty node || anyMayBeEmpty nodes

end

mutual

/-- The classes that the first character of a match can belong to. -/
def leadingClasses : Node → List CharClass
  | literal _ => []
  | charClass set => [set]
  | anyChar => []
  | anchor _ => []
  | look .. => []
  | backreference _ => []
  | group _ inner => leadingClasses inner
  | concat items => leadingClassesOfSequence items
  | alternation branches => leadingClassesOfBranches branches
  | repetition _ inner => leadingClasses inner

def leadingClassesOfSequence : List Node → List CharClass
  | [] => []
  | item :: items =>
    leadingClasses item ++ if mayBeEmpty item then leadingClassesOfSequence items else []

def leadingClassesOfBranches : List Node → List CharClass
  | [] => []
  | branch :: branches => leadingClasses branch ++ leadingClassesOfBranches branches

end

end Node
end TokenPatterns
