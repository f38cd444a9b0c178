import TokenPatterns.Regex.Error
import TokenPatterns.Pattern.Quantifier

/-!
# Trees of patterns
-/
namespace TokenPatterns

/-- A condition on a place in the text that takes up no characters. -/
inductive Anchor where
  | start
  | finish
  | wordBoundary
  | nonWordBoundary
deriving DecidableEq

inductive Node where
  | literal (c : Char)
  | charClass (set : CharClass)
  | anyChar
  | anchor (kind : Anchor)
  | look (kind : Look) (inner : Node)
  /-- A group. If it captures it has the number of its opening parenthesis, from 1. -/
  | group (capture : Option Nat) (inner : Node)
  | concat (items : List Node)
  | alternation (branches : List Node)
  | repetition (quantifier : Quantifier) (inner : Node)
  | backreference (group : Nat)

namespace Node

mutual

def same : Node → Node → Bool
  | literal c, literal d => c == d
  | charClass s, charClass t => s == t
  | anyChar, anyChar => true
  | anchor a, anchor b => a == b
  | look l a, look m b => l == m && same a b
  | group g a, group h b => g == h && same a b
  | concat as, concat bs => sameAll as bs
  | alternation as, alternation bs => sameAll as bs
  | repetition p a, repetition q b => p == q && same a b
  | backreference g, backreference h => g == h
  | _, _ => false

def sameAll : List Node → List Node → Bool
  | [], [] => true
  | a :: as, b :: bs => same a b && sameAll as bs
  | _, _ => false

end

mutual

theorem same_iff : ∀ a b : Node, same a b = true ↔ a = b
  | literal _, b => by cases b <;> simp [same]
  | charClass _, b => by cases b <;> simp [same]
  | anyChar, b => by cases b <;> simp [same]
  | anchor _, b => by cases b <;> simp [same]
  | look _ a, b => by cases b <;> simp [same, same_iff a]
  | group _ a, b => by cases b <;> simp [same, same_iff a]
  | concat as, b => by cases b <;> simp [same, sameAll_iff as]
  | alternation as, b => by cases b <;> simp [same, sameAll_iff as]
  | repetition _ a, b => by cases b <;> simp [same, same_iff a]
  | backreference _, b => by cases b <;> simp [same]

theorem sameAll_iff : ∀ as bs : List Node, sameAll as bs = true ↔ as = bs
  | [], bs => by cases bs <;> simp [sameAll]
  | a :: as, bs => by cases bs <;> simp [sameAll, same_iff a, sameAll_iff as]

end

instance : DecidableEq Node := fun a b => decidable_of_iff _ (same_iff a b)

/-- Whether a quantifier may follow the node. -/
def isRepeatable : Node → Bool
  | anchor _ => false
  | look kind _ => !kind.behind
  | repetition .. => false
  | _ => true

mutual

/-- The largest number of a capture in the tree, or zero. -/
def lastCapture : Node → Nat
  | look _ inner => lastCapture inner
  | group capture inner => Nat.max (capture.getD 0) (lastCapture inner)
  | concat items => lastCaptureAll items
  | alternation branches => lastCaptureAll branches
  | repetition _ inner => lastCapture inner
  | _ => 0

def lastCaptureAll : List Node → Nat
  | [] => 0
  | node :: nodes => Nat.max (lastCapture node) (lastCaptureAll nodes)

end

mutual

/-- The numbers of the captures in the tree, in the order of their opening parentheses. -/
def captures : Node → List Nat
  | look _ inner => captures inner
  | group capture inner => capture.toList ++ captures inner
  | concat items => capturesAll items
  | alternation branches => capturesAll branches
  | repetition _ inner => captures inner
  | _ => []

def capturesAll : List Node → List Nat
  | [] => []
  | node :: nodes => captures node ++ capturesAll nodes

end

mutual

/-- How deep lookarounds nest in the tree. -/
def lookDepth : Node → Nat
  | look _ inner => lookDepth inner + 1
  | group _ inner => lookDepth inner
  | concat items => lookDepthAll items
  | alternation branches => lookDepthAll branches
  | repetition _ inner => lookDepth inner
  | _ => 0

def lookDepthAll : List Node → Nat
  | [] => 0
  | node :: nodes => Nat.max (lookDepth node) (lookDepthAll nodes)

end

mutual

/-- Whether the tree can be part of a pattern with so many captures: it names no others, no
capture holds itself, every alternation has a branch and the bounds of repetitions are in order. -/
def isWellFormed (captureCount : Nat) : Node → Bool
  | look _ inner => isWellFormed captureCount inner
  | group capture inner =>
    capture.all (fun number => number ≤ captureCount && !inner.captures.contains number) &&
      isWellFormed captureCount inner
  | concat items => allWellFormed captureCount items
  | alternation branches => !branches.isEmpty && allWellFormed captureCount branches
  | repetition quantifier inner => quantifier.inOrder && isWellFormed captureCount inner
  | backreference number => number ≤ captureCount
  | _ => true

def allWellFormed (captureCount : Nat) : List Node → Bool
  | [] => true
  | node :: nodes => isWellFormed captureCount node && allWellFormed captureCount nodes

end

mutual

theorem lastCapture_eq_foldr : ∀ node : Node, node.lastCapture = node.captures.foldr Nat.max 0
  | literal _ => rfl
  | charClass _ => rfl
  | anyChar => rfl
  | anchor _ => rfl
  | backreference _ => rfl
  | look _ inner => lastCapture_eq_foldr inner
  | group none inner => by simp [lastCapture, captures, lastCapture_eq_foldr inner]
  | group (some number) inner => by simp [lastCapture, captures, lastCapture_eq_foldr inner]
  | concat items => lastCaptureAll_eq_foldr items
  | alternation branches => lastCaptureAll_eq_foldr branches
  | repetition _ inner => lastCapture_eq_foldr inner

theorem lastCaptureAll_eq_foldr : ∀ nodes : List Node,
    lastCaptureAll nodes = (capturesAll nodes).foldr Nat.max 0
  | [] => rfl
  | node :: nodes => by
    have hmax : ∀ (xs ys : List Nat), (xs ++ ys).foldr Nat.max 0 =
        Nat.max (xs.foldr Nat.max 0) (ys.foldr Nat.max 0) := by
      intro xs ys
      induction xs with
      | nil => simp
      | cons x xs ih => simp [ih, Nat.max_assoc]
    rw [lastCaptureAll, capturesAll, hmax, lastCapture_eq_foldr node, lastCaptureAll_eq_foldr nodes]

end

section WellFormed

variable {count number : Nat} {inner node : Node} {nodes : List Node}

theorem isWellFormed_of_group {capture : Option Nat}
    (h : (group capture inner).isWellFormed count = true) : inner.isWellFormed count = true := by
  rw [isWellFormed, Bool.and_eq_true] at h
  exact h.2

theorem isWellFormed_of_capture (h : (group (some number) inner).isWellFormed count = true) :
    number ≤ count ∧ number ∉ inner.captures := by
  simp only [isWellFormed, Option.all_some, Bool.and_eq_true, decide_eq_true_eq,
    Bool.not_eq_true', List.contains_eq_mem, decide_eq_false_iff_not] at h
  exact h.1

theorem isWellFormed_of_alternation (h : (alternation nodes).isWellFormed count = true) :
    nodes ≠ [] ∧ allWellFormed count nodes = true := by
  simpa [isWellFormed] using h

theorem isWellFormed_of_repetition {quantifier : Quantifier}
    (h : (repetition quantifier inner).isWellFormed count = true) :
    quantifier.inOrder = true ∧ inner.isWellFormed count = true := by
  rwa [isWellFormed, Bool.and_eq_true] at h

theorem allWellFormed_cons : allWellFormed count (node :: nodes) = true ↔
    node.isWellFormed count = true ∧ allWellFormed count nodes = true := by
  rw [allWellFormed, Bool.and_eq_true]

mutual

theorem le_of_mem_captures : ∀ (node : Node), node.isWellFormed count = true →
    number ∈ node.captures → number ≤ count
  | look _ inner, h, hmem => le_of_mem_captures inner h hmem
  | group none inner, h, hmem => le_of_mem_captures inner (isWellFormed_of_group h) hmem
  | group (some other) inner, h, hmem => by
    rw [captures, Option.toList_some, List.singleton_append, List.mem_cons] at hmem
    rcases hmem with rfl | hinner
    · exact (isWellFormed_of_capture h).1
    · exact le_of_mem_captures inner (isWellFormed_of_group h) hinner
  | concat items, h, hmem => le_of_mem_capturesAll items h hmem
  | alternation branches, h, hmem =>
    le_of_mem_capturesAll branches (isWellFormed_of_alternation h).2 hmem
  | repetition _ inner, h, hmem => le_of_mem_captures inner (isWellFormed_of_repetition h).2 hmem

theorem le_of_mem_capturesAll : ∀ (nodes : List Node), allWellFormed count nodes = true →
    number ∈ capturesAll nodes → number ≤ count
  | node :: nodes, h, hmem => by
    obtain ⟨hnode, hnodes⟩ := allWellFormed_cons.mp h
    rcases List.mem_append.mp hmem with hfirst | hothers
    · exact le_of_mem_captures node hnode hfirst
    · exact le_of_mem_capturesAll nodes hnodes hothers

end

end WellFormed

/-- The tree of a whole pattern. Its captures are numbered from 1, and nothing in it names
another. -/
structure IsRoot (root : Node) : Prop where
  captures_eq : root.captures = List.range' 1 root.captures.length
  isWellFormed : root.isWellFormed root.captures.length = true

theorem allWellFormed_append (count : Nat) (first second : List Node) :
    allWellFormed count (first ++ second) =
      (allWellFormed count first && allWellFormed count second) := by
  induction first with
  | nil => rfl
  | cons node nodes ih => simp [allWellFormed, ih, Bool.and_assoc]

theorem foldr_max_range' (start count : Nat) :
    (List.range' (start + 1) count).foldr Nat.max 0 = if count = 0 then 0 else start + count := by
  induction count generalizing start with
  | zero => rfl
  | succ count ih =>
    rw [List.range'_succ, List.foldr_cons, ih (start + 1), if_neg (Nat.succ_ne_zero _)]
    by_cases hzero : count = 0
    · simp [hzero]
    · rw [if_neg hzero]
      exact (Nat.max_eq_right (by omega)).trans (by omega)

theorem IsRoot.lastCapture_eq {root : Node} (h : root.IsRoot) :
    root.lastCapture = root.captures.length := by
  rw [lastCapture_eq_foldr, h.captures_eq, List.length_range', foldr_max_range' 0]
  split <;> omega

end Node
end TokenPatterns
