import TokenPatterns.CharClass

/-!
# How classes are put together

A class is put together step by step from the empty one. A step that is refused leaves it as it is.
-/
namespace TokenPatterns

inductive ClassEdit where
  | char (c : Char)
  | range (first last : Char)
  /-- Add what a shorthand letter stands for. -/
  | shorthand (letter : Char)
  | invert
deriving DecidableEq

namespace CharClass

def edit (set : CharClass) : ClassEdit → CharClass
  | .char c => set.addChar c
  | .range first last => (set.addRange first last).toOption.getD set
  | .shorthand letter => (set.addShorthand? letter).getD set
  | .invert => set.invert

def ofEdits (edits : List ClassEdit) : CharClass := edits.foldl edit empty

end CharClass
end TokenPatterns
