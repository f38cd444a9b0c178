import TokenPatterns.CharClass.Gaps

/-!
# The gaps between ranges

What is left of the code space without some ranges is one list of ranges and no other, as long as
it ascends and no two of its ranges touch. The gaps are that list, in whatever order the ranges
come and however they overlap. So they are also what one sweep over the ranges finds, if these
ascend by where they begin.
-/
namespace TokenPatterns

variable {range part : Nat × Nat} {ranges parts others : List (Nat × Nat)} {code : Nat}

/-- Whether the parts are what is left of the code space without the ranges, in ascending order and
each as long as it can be. -/
structure AreGapsOf (ranges parts : List (Nat × Nat)) : Prop where
  inOrder : ∀ part ∈ parts, part.1 ≤ part.2
  apart : AreApart parts
  holds_iff : ∀ code, RangesHold parts code ↔ code ≤ Unicode.maxCode ∧ ¬ RangesHold ranges code

theorem areGapsOf_gaps (h : ∀ range ∈ ranges, IsCodeRange range) :
    AreGapsOf ranges (gaps ranges) := by
  have horder : ∀ range ∈ ranges, range.1 ≤ range.2 := fun range hrange => (h range hrange).1
  exact ⟨fun part hpart => (isCodeRange_gaps ranges part hpart).1, areApart_gaps horder,
    fun _ => rangesHold_gaps horder⟩

section Unique

theorem rangesHold_first (h : part.1 ≤ part.2) : RangesHold (part :: parts) part.1 :=
  rangesHold_cons.mpr (.inl ⟨Nat.le_refl _, h⟩)

theorem AreApart.lt_of_rangesHold (h : AreApart (part :: parts)) (hcode : RangesHold parts code) :
    part.2 + 1 < code := by
  obtain ⟨after, hafter, hfirst, -⟩ := hcode
  exact Nat.lt_of_lt_of_le ((List.pairwise_cons.mp h).1 after hafter) hfirst

theorem AreApart.rangesHold_tail_iff (h : AreApart (part :: parts)) :
    RangesHold parts code ↔ RangesHold (part :: parts) code ∧ part.2 < code := by
  rw [rangesHold_cons]
  constructor
  · intro hcode
    exact ⟨.inr hcode, Nat.lt_of_succ_lt (h.lt_of_rangesHold hcode)⟩
  · rintro ⟨hfirst | hcode, hlt⟩
    · exact absurd hfirst.2 (Nat.not_le.mpr hlt)
    · exact hcode

/-- The first range of a list begins no later than that of one that holds no more, and ends no
earlier if both begin together. -/
theorem AreApart.first_covers (h : AreApart (part :: parts)) (hpart : part.1 ≤ part.2)
    (hrange : range.1 ≤ range.2)
    (hholds : ∀ code, RangesHold (range :: ranges) code → RangesHold (part :: parts) code) :
    part.1 ≤ range.1 ∧ (range.1 ≤ part.1 → range.2 ≤ part.2) := by
  have hwithin : ∀ code, range.1 ≤ code → code ≤ range.2 →
      (part.1 ≤ code ∧ code ≤ part.2) ∨ part.2 + 1 < code := by
    intro code hfirst hlast
    rcases rangesHold_cons.mp (hholds code (rangesHold_cons.mpr (.inl ⟨hfirst, hlast⟩))) with
      hcode | hcode
    · exact .inl hcode
    · exact .inr (h.lt_of_rangesHold hcode)
  constructor
  · rcases hwithin range.1 (Nat.le_refl _) hrange with hcode | hlt
    · exact hcode.1
    · exact Nat.le_of_lt (Nat.lt_of_le_of_lt (Nat.le_succ_of_le hpart) hlt)
  · intro hfirst
    -- Else the code point right behind the part would be held, and no part may touch another.
    by_contra hlast
    have hnext := hwithin (part.2 + 1) (by omega) (by omega)
    omega

theorem AreApart.eq_of_rangesHold_iff (hapart : AreApart parts) (happart : AreApart others)
    (hparts : ∀ part ∈ parts, part.1 ≤ part.2) (hothers : ∀ part ∈ others, part.1 ≤ part.2)
    (hholds : ∀ code, RangesHold parts code ↔ RangesHold others code) : parts = others := by
  induction parts generalizing others with
  | nil =>
    cases others with
    | nil => rfl
    | cons other others =>
      have hheld : RangesHold (other :: others) other.1 :=
        rangesHold_first (hothers other List.mem_cons_self)
      exact absurd ((hholds other.1).mpr hheld) not_rangesHold_nil
  | cons part parts ih =>
    obtain ⟨hpart, hrest⟩ := List.forall_mem_cons.mp hparts
    cases others with
    | nil => exact absurd ((hholds part.1).mp (rangesHold_first hpart)) not_rangesHold_nil
    | cons other others =>
      obtain ⟨hother, hotherRest⟩ := List.forall_mem_cons.mp hothers
      have hbefore := hapart.first_covers hpart hother fun code => (hholds code).mpr
      have hafter := happart.first_covers hother hpart fun code => (hholds code).mp
      have hsame : part = other := Prod.ext (Nat.le_antisymm hbefore.1 hafter.1)
        (Nat.le_antisymm (hafter.2 hbefore.1) (hbefore.2 hafter.1))
      subst hsame
      congr 1
      refine ih hapart.tail happart.tail hrest hotherRest fun code => ?_
      rw [hapart.rangesHold_tail_iff, happart.rangesHold_tail_iff, hholds code]

theorem AreGapsOf.unique (h : AreGapsOf ranges parts) (hother : AreGapsOf ranges others) :
    parts = others := by
  refine h.apart.eq_of_rangesHold_iff hother.apart h.inOrder hother.inOrder fun code => ?_
  rw [h.holds_iff, hother.holds_iff]

end Unique

section Sweep

/-- The gaps from a code point on, between ranges that ascend by where they begin. -/
def CodeGaps.sweep (next : Nat) : List (Nat × Nat) → List (Nat × Nat)
  | [] => if next ≤ Unicode.maxCode then [(next, Unicode.maxCode)] else []
  | range :: ranges =>
    (if next < range.1 then [(next, range.1 - 1)] else []) ++
      sweep (max next (range.2 + 1)) ranges

namespace CodeGaps

variable {next : Nat}

theorem mem_sweep_cons : part ∈ sweep next (range :: ranges) ↔
    (next < range.1 ∧ part = (next, range.1 - 1)) ∨
      part ∈ sweep (max next (range.2 + 1)) ranges := by
  rw [sweep, List.mem_append, List.mem_ite_nil_right, List.mem_singleton]

theorem le_of_mem_sweep (h : part ∈ sweep next ranges) : next ≤ part.1 ∧ part.1 ≤ part.2 := by
  induction ranges generalizing next with
  | nil =>
    rw [sweep, List.mem_ite_nil_right, List.mem_singleton] at h
    obtain ⟨hle, rfl⟩ := h
    exact ⟨Nat.le_refl _, hle⟩
  | cons range ranges ih =>
    rcases mem_sweep_cons.mp h with ⟨hlt, rfl⟩ | hlater
    · exact ⟨Nat.le_refl _, Nat.le_sub_one_of_lt hlt⟩
    · obtain ⟨hnext, horder⟩ := ih hlater
      exact ⟨Nat.le_trans (Nat.le_max_left ..) hnext, horder⟩

theorem areApart_sweep (h : ∀ range ∈ ranges, range.1 ≤ range.2) :
    AreApart (sweep next ranges) := by
  induction ranges generalizing next with
  | nil =>
    rw [sweep]
    split <;> simp [AreApart]
  | cons range ranges ih =>
    obtain ⟨hrange, hranges⟩ := List.forall_mem_cons.mp h
    refine List.pairwise_append.mpr ⟨by split <;> simp, ih hranges, ?_⟩
    intro gap hgap after hafter
    rw [List.mem_ite_nil_right, List.mem_singleton] at hgap
    obtain ⟨hlt, rfl⟩ := hgap
    have hnext := (le_of_mem_sweep hafter).1
    dsimp only
    omega

theorem rangesHold_sweep (h : ∀ range ∈ ranges, IsCodeRange range)
    (hsorted : ranges.Pairwise fun before after => before.1 ≤ after.1) :
    RangesHold (sweep next ranges) code ↔
      next ≤ code ∧ code ≤ Unicode.maxCode ∧ ¬ RangesHold ranges code := by
  induction ranges generalizing next with
  | nil =>
    rw [sweep, rangesHold_ite, and_iff_left not_rangesHold_nil]
    omega
  | cons range ranges ih =>
    obtain ⟨⟨hrange, hmax⟩, hranges⟩ := List.forall_mem_cons.mp h
    obtain ⟨hfirst, hsorted⟩ := List.pairwise_cons.mp hsorted
    have hlater : RangesHold ranges code → range.1 ≤ code := by
      rintro ⟨after, hafter, hle, -⟩
      exact Nat.le_trans (hfirst after hafter) hle
    rw [sweep, rangesHold_append, rangesHold_ite, ih hranges hsorted, rangesHold_cons]
    dsimp only
    by_cases hheld : RangesHold ranges code
    · have hle := hlater hheld
      simp only [hheld, not_true_eq_false, and_false, or_false, or_true, iff_false]
      omega
    · simp only [hheld, not_false_eq_true, and_true, or_false]
      omega

end CodeGaps

theorem areGapsOf_sweep {sorted : List (Nat × Nat)} (h : ∀ range ∈ ranges, IsCodeRange range)
    (hperm : sorted.Perm ranges)
    (hsorted : sorted.Pairwise fun before after => before.1 ≤ after.1) :
    AreGapsOf ranges (CodeGaps.sweep 0 sorted) := by
  have hcode : ∀ range ∈ sorted, IsCodeRange range :=
    fun range hrange => h range (hperm.mem_iff.mp hrange)
  refine ⟨fun part hpart => (CodeGaps.le_of_mem_sweep hpart).2,
    CodeGaps.areApart_sweep fun range hrange => (hcode range hrange).1, fun code => ?_⟩
  have hsame : RangesHold sorted code ↔ RangesHold ranges code := by
    simp only [RangesHold, hperm.mem_iff]
  rw [CodeGaps.rangesHold_sweep hcode hsorted, hsame, and_iff_right (Nat.zero_le code)]

end Sweep

/-- The gaps between ranges of code points are what is left of the code space without them, and
nothing else is, in ascending order with a code point at least between one part and the next. One
sweep over the ranges, sorted by where they begin, finds them. -/
theorem gaps_areGapsOf_unique (h : ∀ range ∈ ranges, IsCodeRange range) :
    AreGapsOf ranges (gaps ranges) ∧ (∀ parts, AreGapsOf ranges parts → parts = gaps ranges) ∧
      ∀ sorted : List (Nat × Nat), sorted.Perm ranges →
        (sorted.Pairwise fun before after => before.1 ≤ after.1) →
        gaps ranges = CodeGaps.sweep 0 sorted := by
  have hgaps := areGapsOf_gaps h
  refine ⟨hgaps, fun parts hparts => hparts.unique hgaps, fun sorted hperm hsorted => ?_⟩
  exact hgaps.unique (areGapsOf_sweep h hperm hsorted)

/-- Ranges that overlap, touch and repeat, with one at either end of the code space. -/
theorem gaps_areGapsOf_unique_of_overlaps :
    let ranges := [(0x40, 0x7F), (0, 0x1F), (0x50, 0x60), (0x80, 0x9F), (0x40, 0x7F),
      (0x10000, Unicode.maxCode)]
    (∀ range ∈ ranges, IsCodeRange range) ∧ gaps ranges = [(0x20, 0x3F), (0xA0, 0xFFFF)] ∧
      AreGapsOf ranges [(0x20, 0x3F), (0xA0, 0xFFFF)] := by
  intro ranges
  have hcode : ∀ range ∈ ranges, IsCodeRange range := by decide
  have hgaps : gaps ranges = [(0x20, 0x3F), (0xA0, 0xFFFF)] := by decide
  exact ⟨hcode, hgaps, hgaps ▸ (gaps_areGapsOf_unique hcode).1⟩

end TokenPatterns
