import TokenPatterns.Pattern.Node

/-!
# Leaves

The leaves of a tree that take up the text of a match, and those of them that a question about the
first character gets to. A question of either kind is put to each of these leaves.
-/
namespace TokenPatterns
namespace Node

mutual

/-- The leaves outside of lookarounds. -/
def leaves : Node → List Node
  | literal c => [literal c]
  | charClass set => [charClass set]
  | anyChar => [anyChar]
  | anchor _ => []
  | look .. => []
  | backreference _ => []
  | group _ inner => leaves inner
  | concat items => leavesAll items
  | alternation branches => leavesAll branches
  | repetition _ inner => leaves inner

def leavesAll : List Node → List Node
  | [] => []
  | node :: nodes => leaves node ++ leavesAll nodes

end

mutual

/-- Whether the search for a first character goes on behind the node, if nothing is found in it. It
does not go on behind a reference. -/
def isPassed : Node → Bool
  | literal _ => false
  | charClass _ => false
  | anyChar => false
  | anchor _ => true
  | look .. => true
  | backreference _ => false
  | group _ inner => isPassed inner
  | concat items => allPassed items
  | alternation branches => anyPassed branches
  | repetition quantifier inner => isPassed inner || quantifier.isOptional

def allPassed : List Node → Bool
  | [] => true
  | node :: nodes => isPassed node && allPassed nodes

def anyPassed : List Node → Bool
  | [] => false
  | node :: nodes => isPassed node || anyPassed nodes

end

mutual

/-- The leaves that the search for a first character gets to, as long as nothing is found. -/
def leadingLeaves : Node → List Node
  | literal c => [literal c]
  | charClass set => [charClass set]
  | anyChar => [anyChar]
  | anchor _ => []
  | look .. => []
  | backreference _ => []
  | group _ inner => leadingLeaves inner
  | concat items => leadingLeavesOfSequence items
  | alternation branches => leadingLeavesOfBranches branches
  | repetition _ inner => leadingLeaves inner

def leadingLeavesOfSequence : List Node → List Node
  | [] => []
  | item :: items =>
    leadingLeaves item ++ if isPassed item then leadingLeavesOfSequence items else []

def leadingLeavesOfBranches : List Node → List Node
  | [] => []
  | branch :: branches => leadingLeaves branch ++ leadingLeavesOfBranches branches

end

mutual

theorem leadingLeaves_subset : ∀ node : Node, node.leadingLeaves ⊆ node.leaves
  | literal _ => List.Subset.refl _
  | charClass _ => List.Subset.refl _
  | anyChar => List.Subset.refl _
  | anchor _ => List.Subset.refl _
  | look .. => List.Subset.refl _
  | backreference _ => List.Subset.refl _
  | group _ inner => leadingLeaves_subset inner
  | concat items => leadingLeavesOfSequence_subset items
  | alternation branches => leadingLeavesOfBranches_subset branches
  | repetition _ inner => leadingLeaves_subset inner

theorem leadingLeavesOfSequence_subset : ∀ items : List Node,
    leadingLeavesOfSequence items ⊆ leavesAll items
  | [] => List.Subset.refl _
  | item :: items => by
    intro leaf hleaf
    rw [leadingLeavesOfSequence, List.mem_append] at hleaf
    rw [leavesAll, List.mem_append]
    rcases hleaf with hfirst | hothers
    · exact .inl (leadingLeaves_subset item hfirst)
    · split at hothers
      · exact .inr (leadingLeavesOfSequence_subset items hothers)
      · cases hothers

theorem leadingLeavesOfBranches_subset : ∀ branches : List Node,
    leadingLeavesOfBranches branches ⊆ leavesAll branches
  | [] => List.Subset.refl _
  | branch :: branches => by
    intro leaf hleaf
    rw [leadingLeavesOfBranches, List.mem_append] at hleaf
    rw [leavesAll, List.mem_append]
    exact hleaf.imp (fun h => leadingLeaves_subset branch h)
      (fun h => leadingLeavesOfBranches_subset branches h)

end

end Node
end TokenPatterns
