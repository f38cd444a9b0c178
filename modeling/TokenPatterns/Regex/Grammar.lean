import TokenPatterns.Pattern.Node

/-!
# The grammar of regular expressions

Which trees a list of tokens can be read as. A pattern is an alternation of sequences of items, and
an item is a base that a quantifier may follow. The grammar is over tokens, since what a character
means depends on where it stands, and it counts the captures that were opened before.
-/
namespace TokenPatterns
namespace Regex

/-- The character that a token stands for in a class. A hyphen that makes no range is one, too. -/
def Token.classChar? : Token → Option Char
  | literal c => some c
  | escaped c => some c
  | minus => some '-'
  | _ => none

/-- Whether the tokens after a character of a class make it the lower end of a range. -/
def startsRange : List Token → Bool
  | .minus :: last :: _ => last.classChar?.isSome
  | _ => false

/-- The members between the brackets of a class, which are read from left to right and turn the
first class into the second. -/
inductive Members : CharClass → List Token → CharClass → Prop
  | done (set) : Members set [] set
  | shorthand {set next result letter tokens} : set.addShorthand? letter = some next →
      Members next tokens result → Members set (.shorthand letter :: tokens) result
  | range {set next result first last c d tokens} : first.classChar? = some c →
      last.classChar? = some d → set.addRange c d = .ok next → Members next tokens result →
      Members set (first :: .minus :: last :: tokens) result
  | char {set result token c tokens} : token.classChar? = some c → startsRange tokens = false →
      Members (set.addChar c) tokens result → Members set (token :: tokens) result

inductive IsClass : List Token → CharClass → Prop
  | plain {tokens set} : Members .empty tokens set → IsClass tokens set
  | inverted {tokens set} : Members .empty tokens set → IsClass (.caret :: tokens) set.invert

section Between

variable {P : Token → Prop} {tokens : List Token} {set result : CharClass}
  (hchar : ∀ token c, token.classChar? = some c → P token)
  (hshorthand : ∀ letter, P (.shorthand letter))
include hchar hshorthand

theorem Members.forall_tokens (h : Members set tokens result) : ∀ token ∈ tokens, P token := by
  induction h with
  | done => exact nofun
  | shorthand _ _ ih => exact List.forall_mem_cons.mpr ⟨hshorthand _, ih⟩
  | range hfirst hlast _ _ ih =>
    exact List.forall_mem_cons.mpr ⟨hchar _ _ hfirst, List.forall_mem_cons.mpr ⟨hchar _ '-' rfl,
      List.forall_mem_cons.mpr ⟨hchar _ _ hlast, ih⟩⟩⟩
  | char htoken _ _ ih => exact List.forall_mem_cons.mpr ⟨hchar _ _ htoken, ih⟩

theorem IsClass.forall_tokens (hcaret : P .caret) (h : IsClass tokens set) :
    ∀ token ∈ tokens, P token := by
  cases h with
  | plain hmembers => exact hmembers.forall_tokens hchar hshorthand
  | inverted hmembers =>
    exact List.forall_mem_cons.mpr ⟨hcaret, hmembers.forall_tokens hchar hshorthand⟩

end Between

/-- The tokens that are a base on their own. -/
inductive IsLeaf : Token → Node → Prop
  | literal (c) : IsLeaf (.literal c) (.literal c)
  | escaped (c) : IsLeaf (.escaped c) (.literal c)
  | any : IsLeaf .any .anyChar
  | shorthand {letter set} : CharClass.shorthand? letter = some set →
      IsLeaf (.shorthand letter) (.charClass set)
  | caret : IsLeaf .caret (.anchor .start)
  | dollar : IsLeaf .dollar (.anchor .finish)
  | wordBoundary : IsLeaf .wordBoundary (.anchor .wordBoundary)
  | nonWordBoundary : IsLeaf .nonWordBoundary (.anchor .nonWordBoundary)
  | backreference (index) : IsLeaf (.backreference index) (.backreference index)

inductive IsBounds : Token → Quantifier → Prop
  | star : IsBounds .star .star
  | plus : IsBounds .plus .plus
  | question : IsBounds .question .question
  | braces {min max} : Quantifier.inOrder ⟨min, max, true⟩ = true →
      IsBounds (.braces min max) ⟨min, max, true⟩

theorem IsBounds.inOrder {token : Token} {quantifier : Quantifier}
    (h : IsBounds token quantifier) : quantifier.inOrder = true := by
  cases h with
  | braces horder => exact horder
  | _ => rfl

/-- A quantifier, which a question mark behind it makes lazy. -/
inductive IsQuantifier : List Token → Quantifier → Prop
  | greedy {token quantifier} : IsBounds token quantifier → IsQuantifier [token] quantifier
  | lazy {token quantifier} : IsBounds token quantifier →
      IsQuantifier [token, .question] quantifier.lazy

theorem IsQuantifier.inOrder {marks : List Token} {quantifier : Quantifier}
    (h : IsQuantifier marks quantifier) : quantifier.inOrder = true := by
  cases h with
  | greedy hbounds => exact hbounds.inOrder
  | lazy hbounds => exact hbounds.inOrder

theorem IsQuantifier.forall_tokens {P : Token → Prop} {marks : List Token}
    {quantifier : Quantifier} (hbounds : ∀ token bounds, IsBounds token bounds → P token)
    (h : IsQuantifier marks quantifier) : ∀ token ∈ marks, P token := by
  cases h with
  | greedy hfirst => exact List.forall_mem_singleton.mpr (hbounds _ _ hfirst)
  | lazy hfirst =>
    exact List.forall_mem_cons.mpr ⟨hbounds _ _ hfirst,
      List.forall_mem_singleton.mpr (hbounds _ _ .question)⟩

/-- One item stands for itself. -/
def sequenceNode : List Node → Node
  | [item] => item
  | items => .concat items

/-- One branch stands for itself. -/
def alternationNode : List Node → Node
  | [branch] => branch
  | branches => .alternation branches

inductive Nonterminal where
  | base
  | item
  | sequence
  | alternation

/-- `Derives part before tokens nodes after` says that the tokens are such a part of a pattern and
stand for these nodes, where `before` captures were opened before it and `after` with it. A base or
an item stands for one node, a sequence for its items and an alternation for its branches. -/
inductive Derives : Nonterminal → Nat → List Token → List Node → Nat → Prop
  | leaf {n token node} : IsLeaf token node → Derives .base n [token] [node] n
  | charClass {n tokens set} : IsClass tokens set →
      Derives .base n (.classOpen :: (tokens ++ [.classClose])) [.charClass set] n
  | capture {n k tokens branches} : Derives .alternation (n + 1) tokens branches k →
      Derives .base n (.groupOpen .capture :: (tokens ++ [.groupClose]))
        [.group (some (n + 1)) (alternationNode branches)] k
  | nonCapture {n k tokens branches} : Derives .alternation n tokens branches k →
      Derives .base n (.groupOpen .nonCapture :: (tokens ++ [.groupClose]))
        [.group none (alternationNode branches)] k
  | look {n k tokens branches} (kind : Look) : Derives .alternation n tokens branches k →
      Derives .base n (.groupOpen (.look kind) :: (tokens ++ [.groupClose]))
        [.look kind (alternationNode branches)] k
  | bare {n k tokens node} : Derives .base n tokens [node] k → Derives .item n tokens [node] k
  | repeated {n k tokens marks node quantifier} : Derives .base n tokens [node] k →
      node.isRepeatable = true → IsQuantifier marks quantifier →
      Derives .item n (tokens ++ marks) [.repetition quantifier node] k
  | empty (n) : Derives .sequence n [] [] n
  | items {n k l first others node nodes} : Derives .item n first [node] k →
      Derives .sequence k others nodes l → Derives .sequence n (first ++ others) (node :: nodes) l
  | branch {n k tokens nodes} : Derives .sequence n tokens nodes k →
      Derives .alternation n tokens [sequenceNode nodes] k
  | branches {n k l first others nodes branches} : Derives .sequence n first nodes k →
      Derives .alternation k others branches l →
      Derives .alternation n (first ++ .pipe :: others) (sequenceNode nodes :: branches) l

/-- Whether the tokens are a whole pattern with the given tree. -/
def DerivesTree (tokens : List Token) (tree : Node) : Prop :=
  ∃ branches count, Derives .alternation 0 tokens branches count ∧ alternationNode branches = tree

end Regex
end TokenPatterns
