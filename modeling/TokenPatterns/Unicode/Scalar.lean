/-!
# Code points and characters

A code point is any natural number here. It is a character if it lies in the code space and is
no surrogate.
-/
namespace TokenPatterns
namespace Unicode

def maxCode : Nat := 0x10FFFF

theorem toNat_le_maxCode (c : Char) : c.toNat ≤ maxCode := by
  rcases c.valid with hlow | ⟨-, hhigh⟩
  · exact Nat.le_of_lt (Nat.lt_trans hlow (by decide))
  · exact Nat.le_of_lt_succ hhigh

def scalar? (code : Nat) : Option Char :=
  if h : code.isValidChar then some (Char.ofNatAux code h) else none

theorem scalar?_eq_some_iff {code : Nat} {c : Char} : scalar? code = some c ↔ c.toNat = code := by
  by_cases h : code.isValidChar
  · have hcode : (Char.ofNatAux code h).toNat = code := rfl
    rw [scalar?, dif_pos h, Option.some.injEq, ← Char.toNat_inj, hcode]
    exact eq_comm
  · rw [scalar?, dif_neg h]
    constructor
    · nofun
    · rintro rfl
      exact absurd c.valid h

/-- To cap codes above the code space makes no difference. -/
theorem scalar?_min {limit : Nat} (h : maxCode < limit) (code : Nat) :
    scalar? (min code limit) = scalar? code := by
  refine Option.ext fun c => ?_
  have hle := toNat_le_maxCode c
  rw [scalar?_eq_some_iff, scalar?_eq_some_iff]
  omega

@[simp] theorem scalar?_toNat (c : Char) : scalar? c.toNat = some c :=
  scalar?_eq_some_iff.mpr rfl

end Unicode
end TokenPatterns
