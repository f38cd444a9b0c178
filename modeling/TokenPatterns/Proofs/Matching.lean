import TokenPatterns.Machine.Run

/-!
# Matching is the direct search

The instructions of a pattern find what the search through its tree finds, unless its lookarounds
nest deeper than the machine goes.
-/
namespace TokenPatterns
namespace Pattern

theorem matchAt?_eq_search? (pattern : Pattern) (hdepth : pattern.root.lookDepth ≤ maxNesting)
    (mapping : CaseMapping) (input : Array Char) (start : Nat) :
    pattern.program.matchAt? mapping input start = pattern.search? mapping input start := by
  rw [Program.matchAt?_eq, search?]
  simp only [Pattern.program]
  rw [Node.ways_of_lookDepth_le _ hdepth]

/-- A character that no `b` follows. -/
theorem matchAt?_eq_search?_of_negated_look :
    let pattern : Pattern :=
      ⟨.concat [.anyChar, .look ⟨false, true⟩ (.literal 'b')], {}, ⟨rfl, rfl⟩⟩
    pattern.root.lookDepth ≤ maxNesting ∧
      pattern.program.matchAt? .ascii #['a', 'c'] 0 = pattern.search? .ascii #['a', 'c'] 0 ∧
      pattern.search? .ascii #['a', 'c'] 0 = some 1 := by
  intro pattern
  have hdepth : pattern.root.lookDepth ≤ maxNesting := by decide
  exact ⟨hdepth, matchAt?_eq_search? pattern hdepth .ascii #['a', 'c'] 0, by decide⟩

end Pattern
end TokenPatterns
