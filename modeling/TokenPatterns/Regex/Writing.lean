import TokenPatterns.Regex.Openings

/-!
# Trees written as text

A text for every tree of the form in which regular expressions are read. Each character is written
as an escape, so that none of them is taken for anything else.
-/
namespace TokenPatterns

def escapeOf (code : Nat) : List Char :=
  '\\' :: 'u' :: '\x7b' :: (Nat.toDigits 16 code ++ ['\x7d'])

namespace ClassItem

def written : ClassItem → List Char
  | single code => escapeOf code
  | range first last => escapeOf first ++ '-' :: escapeOf last

def isNormal : ClassItem → Bool
  | single code => (Unicode.scalar? code).isSome
  | range first last =>
    (Unicode.scalar? first).isSome && (Unicode.scalar? last).isSome && first ≤ last

theorem isNormal_cases {item : ClassItem} (h : item.isNormal = true) :
    (∃ c : Char, item = single c.toNat) ∨
      ∃ c d : Char, item = range c.toNat d.toNat ∧ c.toNat ≤ d.toNat := by
  cases item with
  | single code =>
    obtain ⟨c, hc⟩ := Option.isSome_iff_exists.mp h
    exact .inl ⟨c, by rw [Unicode.scalar?_eq_some_iff.mp hc]⟩
  | range first last =>
    simp only [isNormal, Bool.and_eq_true, decide_eq_true_eq] at h
    obtain ⟨c, hc⟩ := Option.isSome_iff_exists.mp h.1.1
    obtain ⟨d, hd⟩ := Option.isSome_iff_exists.mp h.1.2
    rw [← Unicode.scalar?_eq_some_iff.mp hc, ← Unicode.scalar?_eq_some_iff.mp hd] at h ⊢
    exact .inr ⟨c, d, rfl, h.2⟩

end ClassItem

namespace CharClass

def written (set : CharClass) : List Char :=
  let mark := if set.negated then ['^'] else []
  '[' :: (mark ++ set.items.toList.flatMap ClassItem.written ++ [']'])

def isNormal (set : CharClass) : Bool := !set.hasGaps && set.items.all ClassItem.isNormal

end CharClass

namespace Quantifier

def written (quantifier : Quantifier) : List Char :=
  '\x7b' :: (Nat.toDigits 10 quantifier.min ++
    ',' :: ((quantifier.max.map (Nat.toDigits 10)).getD [] ++
      '\x7d' :: if quantifier.greedy then [] else ['?']))

/-- Whether the bounds are in order, and small enough to be read as they are. -/
def isNormal (quantifier : Quantifier) : Bool :=
  quantifier.inOrder && quantifier.min ≤ Regex.maxCount && quantifier.max.all (· ≤ Regex.maxCount)

end Quantifier

def Anchor.written : Anchor → List Char
  | start => ['^']
  | finish => ['$']
  | wordBoundary => ['\\', 'b']
  | nonWordBoundary => ['\\', 'B']

/-- What stands behind the parenthesis that opens a group. -/
def Regex.GroupKind.mark : GroupKind → List Char
  | capture => []
  | nonCapture => ['?', ':']
  | look ⟨false, false⟩ => ['?', '=']
  | look ⟨false, true⟩ => ['?', '!']
  | look ⟨true, false⟩ => ['?', '<', '=']
  | look ⟨true, true⟩ => ['?', '<', '!']

namespace Node

/-- A group of the given kind around a text. -/
def inGroup (kind : Regex.GroupKind) (text : List Char) : List Char :=
  '(' :: (kind.mark ++ text ++ [')'])

mutual

def written : Node → List Char
  | literal c => escapeOf c.toNat
  | charClass set => set.written
  | anyChar => ['.']
  | anchor kind => kind.written
  | look kind inner => inGroup (.look kind) (written inner)
  | group none inner => inGroup .nonCapture (written inner)
  | group (some _) inner => inGroup .capture (written inner)
  | concat items => writtenAll items
  | alternation branches => writtenBranches branches
  | repetition quantifier inner => written inner ++ quantifier.written
  | backreference number => '\\' :: Nat.toDigits 10 number

def writtenAll : List Node → List Char
  | [] => []
  | item :: items => written item ++ writtenAll items

def writtenBranches : List Node → List Char
  | [] => []
  | [branch] => written branch
  | branch :: branches => written branch ++ '|' :: writtenBranches branches

end

def isAlternation : Node → Bool
  | alternation _ => true
  | _ => false

/-- Whether the node can stand in a sequence as it is. -/
def isItem : Node → Bool
  | concat _ => false
  | alternation _ => false
  | _ => true

mutual

/-- Whether the tree has the form in which trees are read: sequences and alternations of one node
are that node, sequences stand in no other sequences and alternations in no branches, and what is
repeated may have a quantifier behind it. -/
def isNormal : Node → Bool
  | charClass set => set.isNormal
  | look _ inner => isNormal inner
  | group _ inner => isNormal inner
  | concat items => items.length != 1 && items.all isItem && allNormal items
  | alternation branches =>
    2 ≤ branches.length && !branches.any isAlternation && allNormal branches
  | repetition quantifier inner =>
    quantifier.isNormal && inner.isItem && inner.isRepeatable && isNormal inner
  | _ => true

def allNormal : List Node → Bool
  | [] => true
  | node :: nodes => isNormal node && allNormal nodes

end

/-- A normal tree whose captures are numbered from 1 in the order of their parentheses, and which
refers to no others. -/
structure IsNormalRoot (root : Node) : Prop where
  isNormal : root.isNormal = true
  captures_eq : root.captures = List.range' 1 root.captures.length
  references_within : ∀ number ∈ root.references, 1 ≤ number ∧ number ≤ root.captures.length

instance : DecidablePred IsNormalRoot := fun root =>
  decidable_of_iff (root.isNormal = true ∧
      root.captures = List.range' 1 root.captures.length ∧
      ∀ number ∈ root.references, 1 ≤ number ∧ number ≤ root.captures.length)
    ⟨fun h => ⟨h.1, h.2.1, h.2.2⟩, fun h => ⟨h.1, h.2, h.3⟩⟩

end Node
end TokenPatterns
