import Mathlib
import TokenPatterns.CharClass

/-!
# Classes with their items in order

What is added to a class names code points alone, and no range of it ends before it begins. That
holds of the ranges of a shorthand, and of the gaps between any ranges.
-/
namespace TokenPatterns

/-- Whether the range ends at a code point, and not before it begins. -/
def IsCodeRange (range : Nat × Nat) : Prop := range.1 ≤ range.2 ∧ range.2 ≤ Unicode.maxCode
deriving Decidable

section Gaps

theorem CodeGaps.isCodeRange_outside {range gap : Nat × Nat} (h : IsCodeRange gap) :
    ∀ part ∈ outside range gap, IsCodeRange part := by
  obtain ⟨hle, hmax⟩ := h
  intro part hpart
  rcases List.mem_append.mp hpart with hbelow | habove
  · split at hbelow
    · next hlt =>
      obtain rfl := List.mem_singleton.mp hbelow
      exact ⟨Nat.le_min.mpr ⟨hle, by omega⟩, Nat.le_trans (Nat.min_le_left _ _) hmax⟩
    · cases hbelow
  · split at habove
    · next hlt =>
      obtain rfl := List.mem_singleton.mp habove
      exact ⟨Nat.max_le.mpr ⟨hle, hlt⟩, hmax⟩
    · cases habove

theorem isCodeRange_gaps (ranges : List (Nat × Nat)) : ∀ part ∈ gaps ranges, IsCodeRange part := by
  have hfold : ∀ left : List (Nat × Nat), (∀ part ∈ left, IsCodeRange part) →
      ∀ part ∈ ranges.foldl (fun left range => left.flatMap (CodeGaps.outside range)) left,
        IsCodeRange part := by
    induction ranges with
    | nil => exact fun _ h => h
    | cons range ranges ih =>
      intro left h
      apply ih
      intro part hpart
      obtain ⟨gap, hgap, hpart⟩ := List.mem_flatMap.mp hpart
      exact CodeGaps.isCodeRange_outside (h gap hgap) part hpart
  exact hfold _ (List.forall_mem_singleton.mpr (by decide))

end Gaps

namespace Shorthand

variable {letter : Char} {ranges : List (Nat × Nat)}

theorem ranges?_cases (h : ranges? letter = some ranges) :
    (letter.toLower = 'd' ∧ ranges = digitRanges) ∨ (letter.toLower = 'w' ∧ ranges = wordRanges) ∨
      (letter.toLower = 's' ∧ ranges = spaceRanges) := by
  unfold ranges? at h
  split at h
  · next hletter => exact .inl ⟨hletter, (Option.some.inj h).symm⟩
  · next hletter => exact .inr (.inl ⟨hletter, (Option.some.inj h).symm⟩)
  · next hletter => exact .inr (.inr ⟨hletter, (Option.some.inj h).symm⟩)
  · cases h

theorem eq_or_eq_toUpper_of_toLower_eq {lower : Char} (h : letter.toLower = lower) :
    letter = lower ∨ letter = lower.toUpper := by
  by_cases hupper : letter.isUpper = true
  · right
    rw [← h, Char.toUpper_toLower_eq_toUpper,
      Char.toUpper_eq_of_not_isLower (Char.not_isLower_of_isUpper hupper)]
  · left
    rw [← h, Char.toLower_eq_of_not_isUpper hupper]

theorem letter_cases (h : ranges? letter = some ranges) :
    ((letter = 'd' ∨ letter = 'D') ∧ ranges = digitRanges) ∨
      ((letter = 'w' ∨ letter = 'W') ∧ ranges = wordRanges) ∨
      ((letter = 's' ∨ letter = 'S') ∧ ranges = spaceRanges) := by
  refine (ranges?_cases h).imp ?_ (Or.imp ?_ ?_)
  all_goals exact And.imp_left eq_or_eq_toUpper_of_toLower_eq

theorem isCodeRange_of_ranges? (h : ranges? letter = some ranges) :
    ∀ range ∈ ranges, IsCodeRange range := by
  rcases ranges?_cases h with ⟨-, rfl⟩ | ⟨-, rfl⟩ | ⟨-, rfl⟩ <;> decide

theorem isUpper_iff_of_ranges? (h : ranges? letter = some ranges) :
    letter.isUpper = true ↔ letter ∈ ['D', 'W', 'S'] := by
  rcases letter_cases h with ⟨rfl | rfl, -⟩ | ⟨rfl | rfl, -⟩ | ⟨rfl | rfl, -⟩ <;> decide

end Shorthand

namespace ClassItem

/-- Whether the item names code points, and a range of them does not end before it begins. -/
def InOrder : ClassItem → Prop
  | single code => code ≤ Unicode.maxCode
  | range first last => IsCodeRange (first, last)

theorem inOrder_ofRange {range : Nat × Nat} (h : IsCodeRange range) : (ofRange range).InOrder := by
  unfold ofRange
  split
  · exact Nat.le_trans h.1 h.2
  · exact h

end ClassItem

namespace CharClass

def InOrder (set : CharClass) : Prop := ∀ item ∈ set.items, item.InOrder

namespace InOrder

variable {set next : CharClass} {letter c d : Char}

theorem empty : empty.InOrder := nofun

theorem invert (h : set.InOrder) : set.invert.InOrder := h

theorem addChar (h : set.InOrder) (c : Char) : (set.addChar c).InOrder := by
  intro item hitem
  rcases Array.mem_push.mp hitem with hbefore | rfl
  · exact h item hbefore
  · exact Unicode.toNat_le_maxCode c

theorem addRange (h : set.InOrder) (hadd : set.addRange c d = .ok next) : next.InOrder := by
  unfold CharClass.addRange at hadd
  split at hadd
  · next hle =>
    cases hadd
    intro item hitem
    rcases Array.mem_push.mp hitem with hbefore | rfl
    · exact h item hbefore
    · exact ⟨hle, Unicode.toNat_le_maxCode d⟩
  · cases hadd

theorem addRanges (h : set.InOrder) {ranges : List (Nat × Nat)}
    (hranges : ∀ range ∈ ranges, IsCodeRange range) (negated hasGaps : Bool) :
    InOrder ⟨set.items ++ ranges.map ClassItem.ofRange, negated, hasGaps⟩ := by
  intro item hitem
  rw [← Array.mem_toList_iff, Array.toList_appendList, List.mem_append] at hitem
  rcases hitem with hbefore | hadded
  · exact h item (Array.mem_toList_iff.mp hbefore)
  · obtain ⟨range, hrange, rfl⟩ := List.mem_map.mp hadded
    exact ClassItem.inOrder_ofRange (hranges range hrange)

theorem addShorthand? (h : set.InOrder) (hadd : set.addShorthand? letter = some next) :
    next.InOrder := by
  obtain ⟨ranges, hranges, rfl⟩ := Option.map_eq_some_iff.mp hadd
  split
  · exact h.addRanges (isCodeRange_gaps ranges) _ _
  · exact h.addRanges (Shorthand.isCodeRange_of_ranges? hranges) _ _

theorem shorthand? (h : CharClass.shorthand? letter = some set) : set.InOrder := by
  obtain ⟨ranges, hranges, rfl⟩ := Option.map_eq_some_iff.mp h
  exact empty.addRanges (Shorthand.isCodeRange_of_ranges? hranges) _ _

end InOrder

section Gaps

variable {set next : CharClass} {letter c d : Char}

theorem hasGaps_addRange (h : set.addRange c d = .ok next) : next.hasGaps = set.hasGaps := by
  unfold addRange at h
  split at h
  · cases h
    rfl
  · cases h

theorem hasGaps_addShorthand? (h : set.addShorthand? letter = some next) :
    next.hasGaps = (set.hasGaps || ['D', 'W', 'S'].contains letter) := by
  obtain ⟨ranges, hranges, rfl⟩ := Option.map_eq_some_iff.mp h
  have hupper : letter.isUpper = ['D', 'W', 'S'].contains letter := by
    rw [Bool.eq_iff_iff, List.contains_iff_mem, Shorthand.isUpper_iff_of_ranges? hranges]
  rw [hupper]
  split
  · next hletter => rw [hletter, Bool.or_true]
  · next hletter =>
    rw [Bool.eq_false_of_not_eq_true hletter, Bool.or_false]
    rfl

theorem hasGaps_shorthand? (h : shorthand? letter = some set) : set.hasGaps = false := by
  obtain ⟨ranges, -, rfl⟩ := Option.map_eq_some_iff.mp h
  rfl

end Gaps

end CharClass
end TokenPatterns
