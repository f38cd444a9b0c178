import TokenPatterns.Unicode.Scalar
import TokenPatterns.Unicode.Uppercase
import TokenPatterns.Unicode.Lowercase

/-!
# Letter case

Two characters count as the same letter if they have the same canonical form. Beside that, each
code point has at most one variant, the letter that the analyses of first characters pair it with.
Both are read off a case mapping: that of the ASCII letters alone, or that of all of Unicode.
-/
namespace TokenPatterns

inductive CaseMapping where
  | ascii
  | unicode
deriving DecidableEq

namespace CaseMapping

def upper : CaseMapping → Char → List Char
  | ascii, c => [c.toUpper]
  | unicode, c => Unicode.uppercaseTable.map c

def lower : CaseMapping → Char → List Char
  | ascii, c => [c.toLower]
  | unicode, c => Unicode.lowercaseTable.map c

/-- The first of the characters that `c` was mapped to, unless it was mapped to itself. -/
def change? (c : Char) : List Char → Option Char
  | [] => none
  | [image] => if image = c then none else some image
  | first :: _ => some first

/-- The code point that `code` pairs with: its uppercase if that differs from it, otherwise its
lowercase. Of an image of several characters the first counts. -/
def variant? (mapping : CaseMapping) (code : Nat) : Option Nat :=
  (Unicode.scalar? code).bind fun c =>
    ((change? c (mapping.upper c)).or (change? c (mapping.lower c))).map Char.toNat

/-- The character that stands for all cases of the letter `c`: its uppercase. It is `c` itself if
the uppercase has several characters, or is an ASCII one while `c` is not. -/
def canonical (mapping : CaseMapping) (c : Char) : Char :=
  match mapping.upper c with
  | [image] => if c.toNat < 128 ∨ 128 ≤ image.toNat then image else c
  | _ => c

/-- The lowercase of `c` if it is one character, otherwise `c`. -/
def simpleLower (mapping : CaseMapping) (c : Char) : Char :=
  match mapping.lower c with
  | [image] => image
  | _ => c

/-- Whether `a` and `b` are the same character, or with `ignoreCase` the same letter. -/
def agree (mapping : CaseMapping) (ignoreCase : Bool) (a b : Char) : Bool :=
  a == b || (ignoreCase && mapping.canonical a == mapping.canonical b)

@[simp] theorem agree_false (mapping : CaseMapping) (a b : Char) :
    mapping.agree false a b = (a == b) := by
  simp [agree]

@[simp] theorem agree_self (mapping : CaseMapping) (ignoreCase : Bool) (a : Char) :
    mapping.agree ignoreCase a a = true := by
  simp [agree]

theorem agree_true_iff {mapping : CaseMapping} {a b : Char} :
    mapping.agree true a b = true ↔ mapping.canonical a = mapping.canonical b := by
  simp only [agree, Bool.true_and, Bool.or_eq_true, beq_iff_eq]
  exact ⟨fun h => h.elim (congrArg _) id, Or.inr⟩

theorem agree_trans {mapping : CaseMapping} {ignoreCase : Bool} {a b c : Char}
    (hab : mapping.agree ignoreCase a b = true) (hbc : mapping.agree ignoreCase b c = true) :
    mapping.agree ignoreCase a c = true := by
  cases ignoreCase with
  | false =>
    rw [agree_false, beq_iff_eq] at hab hbc ⊢
    exact hab.trans hbc
  | true =>
    rw [agree_true_iff] at hab hbc ⊢
    exact hab.trans hbc

/-- Whether `other` is `code` or, with `ignoreCase`, its variant. -/
def Pairs (mapping : CaseMapping) (ignoreCase : Bool) (code other : Nat) : Prop :=
  other = code ∨ ignoreCase = true ∧ mapping.variant? code = some other

end CaseMapping
end TokenPatterns
