import TokenPatterns.Unicode.Bisection

/-!
# Sets of code points as ranges

A property of characters is listed as closed ranges of code points, ascending and apart.
-/
namespace TokenPatterns
namespace Unicode

structure CodeRanges where
  ranges : Array (Nat × Nat)

namespace CodeRanges

def contains (set : CodeRanges) (code : Nat) : Bool :=
  (lastStarting? set.ranges Prod.fst code).any fun range => range.1 ≤ code && code ≤ range.2

end CodeRanges
end Unicode
end TokenPatterns
