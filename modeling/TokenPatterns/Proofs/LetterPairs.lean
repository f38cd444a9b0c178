import Mathlib
import TokenPatterns.CaseMapping

/-!
# Letters in two cases

The ASCII letters come in pairs, so the variant of a letter is all that counts as the same. This is
what an analysis relies on that lists a letter with its variant alone.
-/
namespace TokenPatterns
namespace CaseMapping

section Ascii

variable {a b : Char}

theorem canonical_ascii : ascii.canonical a = a.toUpper := by
  simp only [canonical, upper]
  split
  · rfl
  · next hcode =>
    refine (Char.toUpper_eq_of_not_isLower fun hlower => hcode (.inl ?_)).symm
    simp only [Char.isLower, Bool.and_eq_true, decide_eq_true_eq, UInt32.le_iff_toNat_le] at hlower
    exact Nat.lt_of_le_of_lt hlower.2 (by decide)

theorem variant?_ascii : ascii.variant? a.toNat =
    if a.toUpper ≠ a then some a.toUpper.toNat
    else if a.toLower ≠ a then some a.toLower.toNat else none := by
  simp only [variant?, Unicode.scalar?_toNat, upper, lower, change?, Option.bind_some]
  by_cases hupper : a.toUpper = a
  · by_cases hlower : a.toLower = a
    · simp [hupper, hlower]
    · simp [hupper, hlower]
  · simp [hupper]

theorem toLower_toUpper_of_isLower (h : a.isLower = true) : a.toUpper.toLower = a := by
  rw [Char.toLower_toUpper_eq_toLower]
  exact Char.toLower_eq_of_not_isUpper (Char.not_isUpper_of_isLower h)

theorem variant?_ascii_of_canonical_eq (h : ascii.canonical a = ascii.canonical b) (hne : a ≠ b) :
    ascii.variant? a.toNat = some b.toNat := by
  rw [canonical_ascii, canonical_ascii] at h
  rw [variant?_ascii]
  by_cases ha : a.isLower = true
  · have hchange : a.toUpper ≠ a := by
      intro hsame
      have hlower := Char.isLower_toUpper_eq_false a
      rw [hsame, ha] at hlower
      cases hlower
    have hb : ¬ b.isLower = true := by
      intro hb
      apply hne
      rw [← toLower_toUpper_of_isLower ha, h, toLower_toUpper_of_isLower hb]
    rw [if_pos hchange, h, Char.toUpper_eq_of_not_isLower hb]
  · have hsame := Char.toUpper_eq_of_not_isLower ha
    have hb : b.isLower = true := by
      by_contra hb
      rw [hsame, Char.toUpper_eq_of_not_isLower hb] at h
      exact hne h
    have hlower : a.toLower = b := by
      rw [← hsame, h, toLower_toUpper_of_isLower hb]
    rw [if_neg (not_not_intro hsame), hlower, if_pos hne.symm]

theorem toLower_eq_of_toUpper_ne (h : a.toUpper ≠ a) : a.toLower = a := by
  apply Char.toLower_eq_of_not_isUpper
  apply Char.not_isUpper_of_isLower
  by_contra hlower
  exact h (Char.toUpper_eq_of_not_isLower hlower)

/-- The ASCII variant of a character is the one other that counts as the same letter. -/
theorem variant?_ascii_iff : ascii.variant? a.toNat = some b.toNat ↔
    ascii.canonical a = ascii.canonical b ∧ a ≠ b := by
  constructor
  · intro h
    rw [variant?_ascii] at h
    rw [canonical_ascii, canonical_ascii]
    split at h
    · next hupper =>
      obtain rfl := Char.toNat_inj.mp (Option.some.inj h)
      exact ⟨a.toUpper_toUpper_eq_toUpper.symm, hupper.symm⟩
    · split at h
      · next hlower =>
        obtain rfl := Char.toNat_inj.mp (Option.some.inj h)
        exact ⟨a.toUpper_toLower_eq_toUpper.symm, hlower.symm⟩
      · cases h
  · exact fun ⟨hcanonical, hne⟩ => variant?_ascii_of_canonical_eq hcanonical hne

theorem exists_chars_of_variant? {mapping : CaseMapping} {code other : Nat}
    (h : mapping.variant? code = some other) : ∃ a b : Char, a.toNat = code ∧ b.toNat = other := by
  obtain ⟨a, ha, hvariant⟩ := Option.bind_eq_some_iff.mp h
  obtain ⟨b, -, hb⟩ := Option.map_eq_some_iff.mp hvariant
  exact ⟨a, b, Unicode.scalar?_eq_some_iff.mp ha, hb⟩

theorem variant?_ascii_symm {code other : Nat} (h : ascii.variant? code = some other) :
    ascii.variant? other = some code := by
  obtain ⟨a, b, rfl, rfl⟩ := exists_chars_of_variant? h
  rw [variant?_ascii_iff] at h ⊢
  exact ⟨h.1.symm, h.2.symm⟩

end Ascii

/-- Whether `c` is the variant of all other characters that count as the same letter. -/
def PairedAt (mapping : CaseMapping) (c : Char) : Prop :=
  ∀ other, mapping.canonical other = mapping.canonical c →
    mapping.Pairs true other.toNat c.toNat

theorem pairedAt_ascii (c : Char) : ascii.PairedAt c := by
  intro other h
  by_cases heq : other = c
  · exact .inl (congrArg _ heq.symm)
  · exact .inr ⟨rfl, variant?_ascii_of_canonical_eq h heq⟩

theorem pairs_of_pairedAt {mapping : CaseMapping} {ignoreCase : Bool} {a b : Char}
    (hpaired : ignoreCase = true → mapping.PairedAt b) (h : mapping.agree ignoreCase a b = true) :
    mapping.Pairs ignoreCase a.toNat b.toNat := by
  cases ignoreCase with
  | false =>
    obtain rfl : a = b := by simpa using h
    exact .inl rfl
  | true => exact hpaired rfl a (agree_true_iff.mp h)

/-- Whether the variant of a letter is all that counts as the same. In Unicode some letters come
in three forms and more. -/
def IsPaired (mapping : CaseMapping) (ignoreCase : Bool) : Prop :=
  ignoreCase = true → mapping = ascii

theorem IsPaired.pairedAt {mapping : CaseMapping} {ignoreCase : Bool}
    (h : mapping.IsPaired ignoreCase) (hignore : ignoreCase = true) (c : Char) :
    mapping.PairedAt c := by
  obtain rfl := h hignore
  exact pairedAt_ascii c

theorem IsPaired.pairs_symm {mapping : CaseMapping} {ignoreCase : Bool} {code other : Nat}
    (hpaired : mapping.IsPaired ignoreCase) (h : mapping.Pairs ignoreCase code other) :
    mapping.Pairs ignoreCase other code := by
  rcases h with rfl | ⟨hignore, hvariant⟩
  · exact .inl rfl
  · obtain rfl := hpaired hignore
    exact .inr ⟨hignore, variant?_ascii_symm hvariant⟩

theorem pairs_of_agree {mapping : CaseMapping} {ignoreCase : Bool} {a b : Char}
    (hpaired : mapping.IsPaired ignoreCase) (h : mapping.agree ignoreCase a b = true) :
    mapping.Pairs ignoreCase a.toNat b.toNat :=
  pairs_of_pairedAt (fun hignore => hpaired.pairedAt hignore b) h

end CaseMapping
end TokenPatterns
