import TokenPatterns.CharClass.Edits
import TokenPatterns.Proofs.LetterForms

/-!
# Letters in classes

A class accepts a character of a text as a letter if it holds that letter in some form. Of the forms
only the character itself, its canonical form and the lowercase of that are looked up. So a class
may miss a letter that it holds in a further form, and for each letter with a further form some
class does. The letters of ASCII have none, in whatever way case is mapped.
-/
namespace TokenPatterns

namespace CaseMapping

/-- Whether all characters that count as the same letter as `c` are looked up in a class. -/
def LooksUpForms (mapping : CaseMapping) (c : Char) : Prop :=
  ∀ other, mapping.canonical other = mapping.canonical c →
    other = c ∨ other = mapping.canonical c ∨ other = mapping.simpleLower (mapping.canonical c)

variable {c : Char}

theorem looksUpForms_ascii (c : Char) : ascii.LooksUpForms c := by
  intro other hother
  refine .inr ?_
  rw [← hother, canonical_ascii]
  by_cases hlower : other.isLower = true
  · exact .inr (toLower_toUpper_of_isLower hlower).symm
  · exact .inl (Char.toUpper_eq_of_not_isLower hlower).symm

theorem simpleLower_unicode_eq_ascii (h : c.toNat < 128) :
    unicode.simpleLower c = ascii.simpleLower c :=
  of_lt (P := fun c => unicode.simpleLower c = ascii.simpleLower c) (by decide +kernel) h

theorem lt_of_canonical_eq {mapping : CaseMapping} {other : Char}
    (h : (mapping.canonical c).toNat < 128) (hother : mapping.canonical other = mapping.canonical c) :
    other.toNat < 128 := by
  by_contra hge
  have hcanonical := le_canonical mapping (Nat.not_lt.mp hge)
  rw [hother] at hcanonical
  omega

theorem looksUpForms_of_lt (mapping : CaseMapping) (h : c.toNat < 128) :
    mapping.LooksUpForms c := by
  cases mapping with
  | ascii => exact looksUpForms_ascii c
  | unicode =>
    intro other hother
    have hcanonical := canonical_unicode_lt h
    have hlt := lt_of_canonical_eq hcanonical hother
    rw [simpleLower_unicode_eq_ascii hcanonical, (unicode_eq_ascii h).1]
    rw [(unicode_eq_ascii h).1, (unicode_eq_ascii hlt).1] at hother
    exact looksUpForms_ascii c other hother

end CaseMapping

namespace CharClass

variable {mapping : CaseMapping} {set : CharClass} {c : Char}

/-- Whether the class holds a form of the letter `c`. -/
def HoldsLetter (set : CharClass) (mapping : CaseMapping) (c : Char) : Prop :=
  ∃ member : Char, set.contains member.toNat = true ∧
    mapping.canonical member = mapping.canonical c

/-- Whether the class accepts `c` in any case just if it holds the letter, or does not hold it if it
is inverted. -/
def DecidesLetter (set : CharClass) (mapping : CaseMapping) (c : Char) : Prop :=
  set.accepts mapping true c = true ↔ (set.HoldsLetter mapping c ↔ set.negated = false)

theorem containsLetter_iff : set.containsLetter mapping c = true ↔
    ∃ other : Char, (other = mapping.canonical c ∨ other = mapping.simpleLower (mapping.canonical c)) ∧
      mapping.canonical other = mapping.canonical c ∧ set.contains other.toNat = true := by
  simp [containsLetter]

theorem holdsLetter_of_lookup
    (h : set.contains c.toNat = true ∨ set.containsLetter mapping c = true) :
    set.HoldsLetter mapping c := by
  rcases h with hself | hletter
  · exact ⟨c, hself, rfl⟩
  · obtain ⟨other, -, hcanonical, hcontains⟩ := containsLetter_iff.mp hletter
    exact ⟨other, hcontains, hcanonical⟩

theorem lookup_of_holdsLetter (hforms : mapping.LooksUpForms c) (h : set.HoldsLetter mapping c) :
    set.contains c.toNat = true ∨ set.containsLetter mapping c = true := by
  obtain ⟨member, hcontains, hcanonical⟩ := h
  rcases hforms member hcanonical with rfl | hform
  · exact .inl hcontains
  · exact .inr (containsLetter_iff.mpr ⟨member, hform, hcanonical, hcontains⟩)

theorem accepts_true_iff : set.accepts mapping true c = true ↔
    ((set.contains c.toNat = true ∨ set.containsLetter mapping c = true) ↔ set.negated = false) := by
  simp only [accepts, Bool.true_and, ← Bool.or_eq_true]
  cases set.contains c.toNat || set.containsLetter mapping c <;> cases set.negated <;> simp

theorem decidesLetter_of_looksUpForms (hforms : mapping.LooksUpForms c) (set : CharClass) :
    set.DecidesLetter mapping c := by
  have hlookup : (set.contains c.toNat = true ∨ set.containsLetter mapping c = true) ↔
      set.HoldsLetter mapping c := ⟨holdsLetter_of_lookup, lookup_of_holdsLetter hforms⟩
  rw [DecidesLetter, accepts_true_iff, hlookup]

theorem contains_addChar_empty {member : Char} {code : Nat} :
    (empty.addChar member).contains code = true ↔ code = member.toNat := by
  have hitems : (empty.addChar member).contains code = (member.toNat == code) := by
    simp [empty, addChar, contains, ClassItem.contains]
  rw [hitems, beq_iff_eq]
  exact eq_comm

/-- A class of one form of a letter accepts no other form of it than is looked up. -/
theorem form_of_decidesLetter {other : Char}
    (hother : mapping.canonical other = mapping.canonical c)
    (h : (empty.addChar other).DecidesLetter mapping c) :
    other = c ∨ other = mapping.canonical c ∨ other = mapping.simpleLower (mapping.canonical c) := by
  have hholds : (empty.addChar other).HoldsLetter mapping c :=
    ⟨other, contains_addChar_empty.mpr rfl, hother⟩
  have haccepts := h.mpr (iff_of_true hholds rfl)
  rcases (accepts_true_iff.mp haccepts).mpr rfl with hself | hletter
  · exact .inl (Char.toNat_inj.mp (contains_addChar_empty.mp hself)).symm
  · obtain ⟨form, hform, -, hcontains⟩ := containsLetter_iff.mp hletter
    obtain rfl := Char.toNat_inj.mp (contains_addChar_empty.mp hcontains)
    exact .inr hform

/-- All classes that can be put together decide on a letter by whether they hold it if and only if
all forms of the letter are looked up. So they do for the letters of ASCII, and if these alone are
paired by case. -/
theorem decidesLetter_iff_looksUpForms (mapping : CaseMapping) (c : Char) :
    ((∀ edits, (ofEdits edits).DecidesLetter mapping c) ↔ mapping.LooksUpForms c) ∧
      (mapping = .ascii ∨ c.toNat < 128 → ∀ edits, (ofEdits edits).DecidesLetter mapping c) := by
  constructor
  · constructor
    · intro h other hother
      exact form_of_decidesLetter hother (h [.char other])
    · exact fun hforms edits => decidesLetter_of_looksUpForms hforms _
  · rintro (rfl | hlt) edits
    · exact decidesLetter_of_looksUpForms (CaseMapping.looksUpForms_ascii c) _
    · exact decidesLetter_of_looksUpForms (CaseMapping.looksUpForms_of_lt mapping hlt) _

/-- The micro sign is a form of the small mu, but neither its uppercase nor the lowercase of that. -/
theorem not_decidesLetter_of_mu :
    let set := ofEdits [.char 'µ']
    set.contains 'µ'.toNat = true ∧
      CaseMapping.unicode.canonical 'µ' = CaseMapping.unicode.canonical 'μ' ∧
      set.negated = false ∧ set.accepts .unicode true 'μ' = false ∧
      ¬ set.DecidesLetter .unicode 'μ' := by
  intro set
  have hcontains : set.contains 'µ'.toNat = true := by decide +kernel
  have hsame : CaseMapping.unicode.canonical 'µ' = CaseMapping.unicode.canonical 'μ' := by
    decide +kernel
  have haccepts : set.accepts .unicode true 'μ' = false := by decide +kernel
  refine ⟨hcontains, hsame, rfl, haccepts, fun h => ?_⟩
  have htrue := h.mpr (iff_of_true ⟨'µ', hcontains, hsame⟩ rfl)
  rw [haccepts] at htrue
  cases htrue

end CharClass
end TokenPatterns
