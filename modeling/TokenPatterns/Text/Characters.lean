/-!
# Kinds of characters in a text
-/
namespace TokenPatterns

def lineTerminators : List Nat := [0x0A, 0x0D, 0x2028, 0x2029]

def isLineTerminator (c : Char) : Bool := lineTerminators.contains c.toNat

theorem isLineTerminator_iff {c : Char} : isLineTerminator c = true ↔
    c = '\n' ∨ c = '\r' ∨ c = '\u2028' ∨ c = '\u2029' := by
  simp only [isLineTerminator, lineTerminators, List.contains_iff_mem, List.mem_cons,
    List.not_mem_nil, or_false, ← Char.toNat_inj]
  rfl

/-- Letters and digits of ASCII, and the underscore. -/
def isWordChar (c : Char) : Bool := c.isAlphanum || c == '_'

end TokenPatterns
