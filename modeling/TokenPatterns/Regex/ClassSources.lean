import Mathlib.Data.List.Forall2
import TokenPatterns.CharClass.Order
import TokenPatterns.Regex.Grammar

/-!
# What classes are read from

A class is read from a shorthand that stands alone, or from what stands between brackets. What the
items of the class are, and whether it has the gaps of a shorthand among them, is decided there.
-/
namespace TokenPatterns
namespace Regex

/-- Whether the token is one of `\D`, `\W` and `\S`. -/
def Token.isInvertedShorthand : Token → Bool
  | shorthand letter => ['D', 'W', 'S'].contains letter
  | _ => false

/-- Whether a class begins with the token, outside of brackets. -/
def Token.beginsClass : Token → Bool
  | classOpen => true
  | shorthand _ => true
  | _ => false

namespace Token

variable {token : Token} {c : Char}

theorem isInvertedShorthand_of_classChar? (h : token.classChar? = some c) :
    token.isInvertedShorthand = false := by
  cases token <;> first | rfl | cases h

theorem ne_classClose_of_classChar? (h : token.classChar? = some c) : token ≠ .classClose := by
  rintro rfl
  cases h

end Token

namespace Members

variable {set result : CharClass} {tokens : List Token}

theorem inOrder (h : Members set tokens result) (hset : set.InOrder) : result.InOrder := by
  induction h with
  | done => exact hset
  | shorthand hadd _ ih => exact ih (hset.addShorthand? hadd)
  | range _ _ hadd _ ih => exact ih (hset.addRange hadd)
  | char _ _ _ ih => exact ih (hset.addChar _)

theorem hasGaps_eq (h : Members set tokens result) :
    result.hasGaps = (set.hasGaps || tokens.any Token.isInvertedShorthand) := by
  induction h with
  | done => exact (Bool.or_false _).symm
  | shorthand hadd _ ih =>
    rw [ih, CharClass.hasGaps_addShorthand? hadd, List.any_cons, ← Bool.or_assoc]
    rfl
  | range hfirst hlast hadd _ ih =>
    have hminus : Token.minus.isInvertedShorthand = false := rfl
    rw [ih, CharClass.hasGaps_addRange hadd, List.any_cons, List.any_cons, List.any_cons, hminus,
      Token.isInvertedShorthand_of_classChar? hfirst,
      Token.isInvertedShorthand_of_classChar? hlast, Bool.false_or, Bool.false_or, Bool.false_or]
  | char htoken _ _ ih =>
    rw [ih, List.any_cons, Token.isInvertedShorthand_of_classChar? htoken, Bool.false_or]
    rfl

end Members

namespace IsClass

variable {tokens : List Token} {set : CharClass}

theorem inOrder (h : IsClass tokens set) : set.InOrder := by
  cases h with
  | plain hmembers => exact hmembers.inOrder .empty
  | inverted hmembers => exact (hmembers.inOrder .empty).invert

theorem hasGaps_eq (h : IsClass tokens set) :
    set.hasGaps = tokens.any Token.isInvertedShorthand := by
  cases h with
  | plain hmembers => exact hmembers.hasGaps_eq
  | inverted hmembers => exact hmembers.hasGaps_eq

theorem ne_classClose (h : IsClass tokens set) : ∀ token ∈ tokens, token ≠ .classClose :=
  h.forall_tokens (fun _ _ => Token.ne_classClose_of_classChar?) nofun nofun

end IsClass

/-- What a class is read from. -/
inductive ClassSource where
  | shorthand (letter : Char)
  /-- The tokens between brackets. -/
  | brackets (inside : List Token)
deriving DecidableEq

namespace ClassSource

def Denotes : ClassSource → CharClass → Prop
  | shorthand letter, set => CharClass.shorthand? letter = some set
  | brackets inside, set => IsClass inside set

def holdsInverted : ClassSource → Bool
  | shorthand _ => false
  | brackets inside => inside.any Token.isInvertedShorthand

namespace Denotes

variable {source : ClassSource} {set : CharClass}

theorem inOrder (h : source.Denotes set) : set.InOrder := by
  cases source with
  | shorthand letter => exact .shorthand? h
  | brackets inside => exact IsClass.inOrder h

theorem isUnbounded_iff (h : source.Denotes set) :
    set.isUnbounded = true ↔ set.negated = true ∨ source.holdsInverted = true := by
  have hgaps : set.hasGaps = source.holdsInverted := by
    cases source with
    | shorthand letter => exact CharClass.hasGaps_shorthand? h
    | brackets inside => exact IsClass.hasGaps_eq h
  rw [CharClass.isUnbounded, Bool.or_eq_true, hgaps]

end Denotes

/-- What the classes among the tokens are read from, in order. Between brackets `inside?` is what
was read there. -/
def ofTokens (inside? : Option (List Token)) : List Token → List ClassSource
  | [] => []
  | token :: tokens =>
    match inside?, token with
    | none, .classOpen => ofTokens (some []) tokens
    | none, .shorthand letter => shorthand letter :: ofTokens none tokens
    | none, _ => ofTokens none tokens
    | some inside, .classClose => brackets inside :: ofTokens none tokens
    | some inside, token => ofTokens (some (inside ++ [token])) tokens

theorem ofTokens_brackets {tokens : List Token} (h : ∀ token ∈ tokens, token ≠ .classClose)
    (inside rest : List Token) : ofTokens (some inside) (tokens ++ .classClose :: rest) =
      brackets (inside ++ tokens) :: ofTokens none rest := by
  induction tokens generalizing inside with
  | nil =>
    rw [List.append_nil]
    rfl
  | cons token tokens ih =>
    obtain ⟨htoken, htokens⟩ := List.forall_mem_cons.mp h
    have hnext : ofTokens (some inside) (token :: (tokens ++ .classClose :: rest)) =
        ofTokens (some (inside ++ [token])) (tokens ++ .classClose :: rest) := by
      cases token <;> first | rfl | exact absurd rfl htoken
    rw [List.cons_append, hnext, ih htokens, List.append_assoc]
    rfl

theorem ofTokens_of_not_beginsClass {tokens : List Token}
    (h : ∀ token ∈ tokens, token.beginsClass = false) (rest : List Token) :
    ofTokens none (tokens ++ rest) = ofTokens none rest := by
  induction tokens with
  | nil => rfl
  | cons token tokens ih =>
    obtain ⟨htoken, htokens⟩ := List.forall_mem_cons.mp h
    rw [← ih htokens]
    cases token <;> first | rfl | cases htoken

end ClassSource

/-- Whether the tokens hold the classes, in order, whatever follows on the tokens. -/
def HoldsClasses (tokens : List Token) (sets : List CharClass) : Prop :=
  ∃ sources, List.Forall₂ ClassSource.Denotes sources sets ∧
    ∀ rest, ClassSource.ofTokens none (tokens ++ rest) =
      sources ++ ClassSource.ofTokens none rest

namespace HoldsClasses

variable {tokens others : List Token} {sets more : List CharClass}

theorem of_not_beginsClass (h : ∀ token ∈ tokens, token.beginsClass = false) :
    HoldsClasses tokens [] :=
  ⟨[], .nil, ClassSource.ofTokens_of_not_beginsClass h⟩

theorem shorthand {letter : Char} {set : CharClass} (h : CharClass.shorthand? letter = some set) :
    HoldsClasses [.shorthand letter] [set] :=
  ⟨[.shorthand letter], .cons h .nil, fun _ => rfl⟩

theorem brackets {set : CharClass} (h : IsClass tokens set) :
    HoldsClasses (.classOpen :: (tokens ++ [.classClose])) [set] := by
  refine ⟨[.brackets tokens], .cons h .nil, fun rest => ?_⟩
  rw [List.cons_append, List.append_assoc]
  exact ClassSource.ofTokens_brackets h.ne_classClose [] rest

theorem append (h : HoldsClasses tokens sets) (hmore : HoldsClasses others more) :
    HoldsClasses (tokens ++ others) (sets ++ more) := by
  obtain ⟨sources, hsources, hread⟩ := h
  obtain ⟨further, hfurther, hreadMore⟩ := hmore
  refine ⟨sources ++ further, List.rel_append hsources hfurther, fun rest => ?_⟩
  rw [List.append_assoc, hread, hreadMore, List.append_assoc]

theorem cons {token : Token} (htoken : token.beginsClass = false) (h : HoldsClasses tokens sets) :
    HoldsClasses (token :: tokens) sets :=
  append (of_not_beginsClass (List.forall_mem_singleton.mpr htoken)) h

theorem followed (h : HoldsClasses tokens sets)
    (hothers : ∀ token ∈ others, token.beginsClass = false) :
    HoldsClasses (tokens ++ others) sets := by
  rw [← List.append_nil sets]
  exact append h (of_not_beginsClass hothers)

theorem forall₂_ofTokens (h : HoldsClasses tokens sets) :
    List.Forall₂ ClassSource.Denotes (ClassSource.ofTokens none tokens) sets := by
  obtain ⟨sources, hsources, hread⟩ := h
  have hall := hread []
  rw [List.append_nil] at hall
  rw [hall]
  exact (List.append_nil sources).symm ▸ hsources

end HoldsClasses

end Regex
end TokenPatterns
