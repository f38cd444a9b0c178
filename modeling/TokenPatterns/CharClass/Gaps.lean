import Mathlib
import TokenPatterns.CharClass.Order

/-!
# What gaps hold

The gaps between ranges are carved out of the code space, one range after the other. Each step
leaves what was left before it without the codes of the range, and parts that were apart stay so.
-/
namespace TokenPatterns

def RangesHold (ranges : List (Nat × Nat)) (code : Nat) : Prop :=
  ∃ range ∈ ranges, range.1 ≤ code ∧ code ≤ range.2

/-- Whether the ranges ascend, with a code point at least between one and the next. -/
def AreApart (ranges : List (Nat × Nat)) : Prop :=
  ranges.Pairwise fun before after => before.2 + 1 < after.1

section Holding

variable {range gap : Nat × Nat} {ranges left : List (Nat × Nat)} {code : Nat}

theorem not_rangesHold_nil : ¬ RangesHold [] code := by
  rintro ⟨_, hrange, -⟩
  cases hrange

theorem rangesHold_cons : RangesHold (range :: ranges) code ↔
    (range.1 ≤ code ∧ code ≤ range.2) ∨ RangesHold ranges code :=
  List.exists_mem_cons_iff ..

theorem rangesHold_singleton : RangesHold [range] code ↔ range.1 ≤ code ∧ code ≤ range.2 := by
  rw [rangesHold_cons, or_iff_left not_rangesHold_nil]

theorem rangesHold_append {others : List (Nat × Nat)} :
    RangesHold (ranges ++ others) code ↔ RangesHold ranges code ∨ RangesHold others code := by
  simp only [RangesHold, List.mem_append, or_and_right, exists_or]

theorem rangesHold_flatMap {carve : Nat × Nat → List (Nat × Nat)} :
    RangesHold (left.flatMap carve) code ↔ ∃ gap ∈ left, RangesHold (carve gap) code := by
  constructor
  · rintro ⟨part, hpart, hcode⟩
    obtain ⟨gap, hgap, hpart⟩ := List.mem_flatMap.mp hpart
    exact ⟨gap, hgap, part, hpart, hcode⟩
  · rintro ⟨gap, hgap, part, hpart, hcode⟩
    exact ⟨part, List.mem_flatMap.mpr ⟨gap, hgap, hpart⟩, hcode⟩

theorem rangesHold_ite {condition : Prop} [Decidable condition] :
    RangesHold (if condition then [range] else []) code ↔
      condition ∧ range.1 ≤ code ∧ code ≤ range.2 := by
  by_cases h : condition
  · rw [if_pos h, rangesHold_singleton, and_iff_right h]
  · rw [if_neg h]
    exact iff_of_false not_rangesHold_nil fun hcode => h hcode.1

namespace CodeGaps

theorem rangesHold_outside (h : range.1 ≤ range.2) : RangesHold (outside range gap) code ↔
    (gap.1 ≤ code ∧ code ≤ gap.2) ∧ ¬ (range.1 ≤ code ∧ code ≤ range.2) := by
  obtain ⟨first, last⟩ := range
  dsimp only at h ⊢
  rw [outside, rangesHold_append, rangesHold_ite, rangesHold_ite]
  omega

theorem rangesHold_flatMap_outside (h : range.1 ≤ range.2) :
    RangesHold (left.flatMap (outside range)) code ↔
      RangesHold left code ∧ ¬ (range.1 ≤ code ∧ code ≤ range.2) := by
  rw [rangesHold_flatMap]
  constructor
  · rintro ⟨gap, hgap, hcode⟩
    obtain ⟨hwithin, hout⟩ := (rangesHold_outside h).mp hcode
    exact ⟨⟨gap, hgap, hwithin⟩, hout⟩
  · rintro ⟨⟨gap, hgap, hwithin⟩, hout⟩
    exact ⟨gap, hgap, (rangesHold_outside h).mpr ⟨hwithin, hout⟩⟩

theorem rangesHold_foldl (h : ∀ range ∈ ranges, range.1 ≤ range.2) :
    RangesHold (ranges.foldl (fun left range => left.flatMap (outside range)) left) code ↔
      RangesHold left code ∧ ¬ RangesHold ranges code := by
  induction ranges generalizing left with
  | nil => exact (and_iff_left not_rangesHold_nil).symm
  | cons range ranges ih =>
    obtain ⟨hrange, hranges⟩ := List.forall_mem_cons.mp h
    rw [List.foldl_cons, ih hranges, rangesHold_flatMap_outside hrange, rangesHold_cons, not_or,
      and_assoc]

end CodeGaps

/-- The gaps hold the code points that no range holds. -/
theorem rangesHold_gaps (h : ∀ range ∈ ranges, range.1 ≤ range.2) :
    RangesHold (gaps ranges) code ↔ code ≤ Unicode.maxCode ∧ ¬ RangesHold ranges code := by
  rw [gaps, CodeGaps.rangesHold_foldl h, rangesHold_singleton,
    and_iff_right (Nat.zero_le code)]

end Holding

section Apart

variable {range gap part : Nat × Nat} {ranges left : List (Nat × Nat)}

namespace CodeGaps

theorem mem_outside : part ∈ outside range gap ↔
    (gap.1 < range.1 ∧ part = (gap.1, min gap.2 (range.1 - 1))) ∨
      (range.2 < gap.2 ∧ part = (max gap.1 (range.2 + 1), gap.2)) := by
  simp only [outside, List.mem_append, List.mem_ite_nil_right, List.mem_singleton]

theorem within_of_mem_outside (h : part ∈ outside range gap) :
    gap.1 ≤ part.1 ∧ part.2 ≤ gap.2 := by
  rcases mem_outside.mp h with ⟨-, rfl⟩ | ⟨-, rfl⟩
  · exact ⟨Nat.le_refl _, Nat.min_le_left _ _⟩
  · exact ⟨Nat.le_max_left _ _, Nat.le_refl _⟩

theorem areApart_outside (h : range.1 ≤ range.2) : AreApart (outside range gap) := by
  unfold outside
  refine List.pairwise_append.mpr ⟨?_, ?_, ?_⟩
  · split <;> simp
  · split <;> simp
  · intro below hbelow above habove
    simp only [List.mem_ite_nil_right, List.mem_singleton] at hbelow habove
    obtain ⟨hlt, rfl⟩ := hbelow
    obtain ⟨-, rfl⟩ := habove
    dsimp only
    omega

theorem areApart_flatMap_outside (h : range.1 ≤ range.2) (hleft : AreApart left) :
    AreApart (left.flatMap (outside range)) := by
  refine List.pairwise_flatMap.mpr ⟨fun gap _ => areApart_outside h, ?_⟩
  refine hleft.imp fun hapart before hbefore after hafter => ?_
  have hbefore := (within_of_mem_outside hbefore).2
  have hafter := (within_of_mem_outside hafter).1
  omega

theorem areApart_foldl (h : ∀ range ∈ ranges, range.1 ≤ range.2) (hleft : AreApart left) :
    AreApart (ranges.foldl (fun left range => left.flatMap (outside range)) left) := by
  induction ranges generalizing left with
  | nil => exact hleft
  | cons range ranges ih =>
    obtain ⟨hrange, hranges⟩ := List.forall_mem_cons.mp h
    exact ih hranges (areApart_flatMap_outside hrange hleft)

end CodeGaps

theorem areApart_gaps (h : ∀ range ∈ ranges, range.1 ≤ range.2) : AreApart (gaps ranges) :=
  CodeGaps.areApart_foldl h (List.pairwise_singleton ..)

end Apart

end TokenPatterns
