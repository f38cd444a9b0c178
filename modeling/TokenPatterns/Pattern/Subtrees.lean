import TokenPatterns.Pattern.Node

/-!
# Subtrees

What is asked of a whole tree is often asked of each node in it, however deep it is nested.
-/
namespace TokenPatterns
namespace Node

mutual

/-- The trees within a tree, itself included. -/
def subtrees : Node → List Node
  | literal c => [literal c]
  | charClass set => [charClass set]
  | anyChar => [anyChar]
  | anchor kind => [anchor kind]
  | backreference number => [backreference number]
  | look kind inner => look kind inner :: subtrees inner
  | group capture inner => group capture inner :: subtrees inner
  | concat items => concat items :: subtreesAll items
  | alternation branches => alternation branches :: subtreesAll branches
  | repetition quantifier inner => repetition quantifier inner :: subtrees inner

def subtreesAll : List Node → List Node
  | [] => []
  | node :: nodes => subtrees node ++ subtreesAll nodes

end

theorem mem_subtrees_self (node : Node) : node ∈ node.subtrees := by
  cases node <;> exact List.mem_cons_self

section WellFormed

variable {count : Nat} {part : Node}

mutual

theorem isWellFormed_of_mem_subtrees : ∀ (node : Node), node.isWellFormed count = true →
    part ∈ node.subtrees → part.isWellFormed count = true
  | literal _, h, hpart => List.mem_singleton.mp hpart ▸ h
  | charClass _, h, hpart => List.mem_singleton.mp hpart ▸ h
  | anyChar, h, hpart => List.mem_singleton.mp hpart ▸ h
  | anchor _, h, hpart => List.mem_singleton.mp hpart ▸ h
  | backreference _, h, hpart => List.mem_singleton.mp hpart ▸ h
  | look _ inner, h, hpart => by
    rcases List.mem_cons.mp hpart with rfl | hinner
    · exact h
    · exact isWellFormed_of_mem_subtrees inner h hinner
  | group _ inner, h, hpart => by
    rcases List.mem_cons.mp hpart with rfl | hinner
    · exact h
    · exact isWellFormed_of_mem_subtrees inner (isWellFormed_of_group h) hinner
  | concat items, h, hpart => by
    rcases List.mem_cons.mp hpart with rfl | hitems
    · exact h
    · exact isWellFormed_of_mem_subtreesAll items h hitems
  | alternation branches, h, hpart => by
    rcases List.mem_cons.mp hpart with rfl | hbranches
    · exact h
    · exact isWellFormed_of_mem_subtreesAll branches (isWellFormed_of_alternation h).2 hbranches
  | repetition _ inner, h, hpart => by
    rcases List.mem_cons.mp hpart with rfl | hinner
    · exact h
    · exact isWellFormed_of_mem_subtrees inner (isWellFormed_of_repetition h).2 hinner

theorem isWellFormed_of_mem_subtreesAll : ∀ (nodes : List Node),
    allWellFormed count nodes = true → part ∈ subtreesAll nodes → part.isWellFormed count = true
  | node :: nodes, h, hpart => by
    obtain ⟨hnode, hnodes⟩ := allWellFormed_cons.mp h
    rcases List.mem_append.mp hpart with hfirst | hothers
    · exact isWellFormed_of_mem_subtrees node hnode hfirst
    · exact isWellFormed_of_mem_subtreesAll nodes hnodes hothers

end

end WellFormed

/-- Whether the node asks something of the text around a match, and takes up none of it. -/
def isAssertion : Node → Bool
  | anchor _ => true
  | look .. => true
  | _ => false

end Node
end TokenPatterns
