import TokenPatterns.Pattern
import TokenPatterns.Regex.Completeness

/-!
# Regular expressions are read as the grammar says
-/
namespace TokenPatterns
namespace Pattern

/-- A text is a regular expression with a given tree if the lexer gets through it and its tokens
derive the tree, and in no other case. -/
theorem ofSource?_iff_derivesTree (text : String) (flags : Flags) (tree : Node) :
    (∃ pattern, ofSource? (.regex text) flags = .ok pattern ∧ pattern.root = tree ∧
      pattern.flags = flags) ↔
      (Regex.lex text).mistake = none ∧
        Regex.DerivesTree ((Regex.lex text).tokens.map Regex.PlacedToken.token) tree := by
  rw [ofSource?_regex_iff]
  constructor
  · intro h
    exact Regex.derivesTree_of_parse h
  · rintro ⟨hmistake, htree⟩
    exact Regex.parse_of_derivesTree hmistake htree

end Pattern
end TokenPatterns
