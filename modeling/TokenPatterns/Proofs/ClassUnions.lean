import TokenPatterns.CharClass.Edits
import TokenPatterns.CharClass.Gaps

/-!
# Classes as unions

A class holds what was put into it, whatever the order. The gaps of an uppercase shorthand are put
in as items like any others. An inversion turns the answer for all of the class at once, what is
added later included, so that only the number of inversions counts.
-/
namespace TokenPatterns

namespace Shorthand

variable {letter : Char} {ranges : List (Nat × Nat)} {code : Nat}

/-- The letters that name a shorthand. -/
def letters : List Char := ['d', 'w', 's', 'D', 'W', 'S']

/-- Whether the code point is one of those that a shorthand letter stands for. -/
def Holds (letter : Char) (code : Nat) : Prop :=
  match letter with
  | 'd' => RangesHold digitRanges code
  | 'w' => RangesHold wordRanges code
  | 's' => RangesHold spaceRanges code
  | 'D' => ¬ RangesHold digitRanges code
  | 'W' => ¬ RangesHold wordRanges code
  | 'S' => ¬ RangesHold spaceRanges code
  | _ => False

theorem holds_iff (h : ranges? letter = some ranges) :
    Holds letter code ↔ (RangesHold ranges code ↔ letter.isUpper = false) := by
  rcases letter_cases h with ⟨rfl | rfl, rfl⟩ | ⟨rfl | rfl, rfl⟩ | ⟨rfl | rfl, rfl⟩
  all_goals simp [Holds, Char.isUpper]

theorem not_holds_of_ranges?_eq_none (h : ranges? letter = none) : ¬ Holds letter code := by
  unfold Holds
  split
  case h_7 => exact id
  all_goals cases h

theorem ranges?_eq_none_iff : ranges? letter = none ↔ letter ∉ letters := by
  constructor
  · rintro h hletter
    simp only [letters, List.mem_cons, List.not_mem_nil, or_false] at hletter
    rcases hletter with rfl | rfl | rfl | rfl | rfl | rfl <;> cases h
  · intro h
    cases hranges : ranges? letter with
    | none => rfl
    | some ranges =>
      refine absurd ?_ h
      rcases letter_cases hranges with ⟨rfl | rfl, -⟩ | ⟨rfl | rfl, -⟩ | ⟨rfl | rfl, -⟩ <;> decide

end Shorthand

namespace ClassEdit

/-- Whether the edit puts the code point into a class. A range that is refused holds none. -/
def Adds (code : Nat) : ClassEdit → Prop
  | char c => code = c.toNat
  | range first last => first.toNat ≤ code ∧ code ≤ last.toNat
  | shorthand letter => Shorthand.Holds letter code
  | invert => False

end ClassEdit

namespace CharClass

variable {set : CharClass} {code : Nat}

section Steps

variable {first last letter : Char} {ranges : List (Nat × Nat)}

theorem addRange_eq_error_iff :
    set.addRange first last = .error ⟨first, last⟩ ↔ last.toNat < first.toNat := by
  unfold addRange
  split
  · next hle => exact iff_of_false nofun (Nat.not_lt.mpr hle)
  · next hgt => exact iff_of_true rfl (Nat.lt_of_not_le hgt)

theorem addShorthand?_eq_none_iff :
    set.addShorthand? letter = none ↔ letter ∉ Shorthand.letters :=
  Option.map_eq_none_iff.trans Shorthand.ranges?_eq_none_iff

theorem edit_range (h : first.toNat ≤ last.toNat) : set.edit (.range first last) =
    { set with items := set.items.push (.range first.toNat last.toNat) } := by
  have hadd : set.addRange first last =
      .ok { set with items := set.items.push (.range first.toNat last.toNat) } := if_pos h
  rw [edit, hadd]
  rfl

theorem edit_range_of_lt (h : last.toNat < first.toNat) : set.edit (.range first last) = set := by
  rw [edit, addRange_eq_error_iff.mpr h]
  rfl

theorem edit_shorthand (h : Shorthand.ranges? letter = some ranges) : set.edit (.shorthand letter) =
    ⟨set.items ++ (if letter.isUpper then gaps ranges else ranges).map ClassItem.ofRange,
      set.negated, set.hasGaps || letter.isUpper⟩ := by
  rw [edit, addShorthand?, h, Option.map_some, Option.getD_some]
  split
  · next hupper =>
    rw [hupper, Bool.or_true]
    rfl
  · next hlower =>
    rw [Bool.eq_false_of_not_eq_true hlower, Bool.or_false]
    rfl

theorem edit_shorthand_of_not_mem (h : letter ∉ Shorthand.letters) :
    set.edit (.shorthand letter) = set := by
  rw [edit, addShorthand?_eq_none_iff.mpr h]
  rfl

theorem contains_addItem (item : ClassItem) (negated hasGaps : Bool) :
    contains ⟨set.items.push item, negated, hasGaps⟩ code = true ↔
      set.contains code = true ∨ item.contains code = true := by
  rw [contains, Array.any_push, Bool.or_eq_true]
  rfl

theorem contains_addRanges (ranges : List (Nat × Nat)) (negated hasGaps : Bool) :
    contains ⟨set.items ++ ranges.map ClassItem.ofRange, negated, hasGaps⟩ code = true ↔
      set.contains code = true ∨ RangesHold ranges code := by
  induction ranges generalizing set with
  | nil =>
    rw [List.map_nil, Array.appendList_nil, or_iff_left not_rangesHold_nil]
    rfl
  | cons range ranges ih =>
    rw [List.map_cons, Array.appendList_cons]
    refine (@ih ⟨set.items.push (.ofRange range), set.negated, set.hasGaps⟩).trans ?_
    rw [contains_addItem, rangesHold_cons, or_assoc, ClassItem.contains_ofRange, Bool.and_eq_true,
      decide_eq_true_eq, decide_eq_true_eq]

/-- An edit puts in what it adds, and takes nothing out. -/
theorem contains_edit (hcode : code ≤ Unicode.maxCode) (edit : ClassEdit) :
    (set.edit edit).contains code = true ↔ set.contains code = true ∨ edit.Adds code := by
  cases edit with
  | char c =>
    refine (contains_addItem (.single c.toNat) _ _).trans (or_congr_right ?_)
    rw [ClassItem.contains, beq_iff_eq]
    exact eq_comm
  | range first last =>
    rw [ClassEdit.Adds]
    by_cases hle : first.toNat ≤ last.toNat
    · rw [edit_range hle, contains_addItem, ClassItem.contains, Bool.and_eq_true,
        decide_eq_true_eq, decide_eq_true_eq]
    · have hnone : ¬ (first.toNat ≤ code ∧ code ≤ last.toNat) :=
        fun hcode => hle (Nat.le_trans hcode.1 hcode.2)
      rw [edit_range_of_lt (Nat.lt_of_not_le hle), or_iff_left hnone]
  | shorthand letter =>
    rw [ClassEdit.Adds]
    cases hranges : Shorthand.ranges? letter with
    | none =>
      rw [edit_shorthand_of_not_mem (Shorthand.ranges?_eq_none_iff.mp hranges),
        or_iff_left (Shorthand.not_holds_of_ranges?_eq_none hranges)]
    | some ranges =>
      have horder : ∀ range ∈ ranges, range.1 ≤ range.2 :=
        fun range hrange => (Shorthand.isCodeRange_of_ranges? hranges range hrange).1
      rw [edit_shorthand hranges, contains_addRanges, Shorthand.holds_iff hranges]
      refine or_congr_right ?_
      cases letter.isUpper with
      | true => simp [rangesHold_gaps horder, hcode]
      | false => simp
  | invert => exact (or_iff_left id).symm

theorem negated_edit (set : CharClass) (edit : ClassEdit) :
    (set.edit edit).negated = (set.negated != decide (edit = .invert)) := by
  cases edit with
  | char c => exact (Bool.bne_false _).symm
  | range first last =>
    rw [decide_eq_false nofun, Bool.bne_false]
    by_cases hle : first.toNat ≤ last.toNat
    · rw [edit_range hle]
    · rw [edit_range_of_lt (Nat.lt_of_not_le hle)]
  | shorthand letter =>
    rw [decide_eq_false nofun, Bool.bne_false]
    cases hranges : Shorthand.ranges? letter with
    | none => rw [edit_shorthand_of_not_mem (Shorthand.ranges?_eq_none_iff.mp hranges)]
    | some ranges => rw [edit_shorthand hranges]
  | invert => exact (Bool.bne_true _).symm

theorem hasGaps_edit (set : CharClass) (edit : ClassEdit) :
    (set.edit edit).hasGaps = true ↔
      set.hasGaps = true ∨ ∃ letter ∈ ['D', 'W', 'S'], edit = .shorthand letter := by
  cases edit with
  | char c => simp [CharClass.edit, addChar]
  | range first last =>
    by_cases hle : first.toNat ≤ last.toNat
    · simp [edit_range hle]
    · simp [edit_range_of_lt (Nat.lt_of_not_le hle)]
  | shorthand letter =>
    cases hranges : Shorthand.ranges? letter with
    | none =>
      have hletter := Shorthand.ranges?_eq_none_iff.mp hranges
      have hnone : ¬ ∃ upper ∈ ['D', 'W', 'S'], ClassEdit.shorthand letter = .shorthand upper := by
        rintro ⟨upper, hupper, heq⟩
        cases heq
        exact hletter (List.mem_append_right ['d', 'w', 's'] hupper)
      rw [edit_shorthand_of_not_mem hletter, or_iff_left hnone]
    | some ranges =>
      have hupper := Shorthand.isUpper_iff_of_ranges? hranges
      simp [edit_shorthand hranges, hupper]
  | invert => simp [CharClass.edit, CharClass.invert]

end Steps

section Runs

theorem contains_foldl (hcode : code ≤ Unicode.maxCode) (edits : List ClassEdit) :
    (edits.foldl edit set).contains code = true ↔
      set.contains code = true ∨ ∃ edit ∈ edits, edit.Adds code := by
  induction edits generalizing set with
  | nil => simp
  | cons first edits ih =>
    rw [List.foldl_cons, ih, contains_edit hcode, or_assoc, List.exists_mem_cons_iff]

/-- Every inversion turns the answer once more. -/
theorem negated_foldl (edits : List ClassEdit) :
    (edits.foldl edit set).negated = true ↔
      ¬ (set.negated = true ↔ Odd (edits.count .invert)) := by
  induction edits generalizing set with
  | nil => simp
  | cons first edits ih =>
    rw [List.foldl_cons, ih, negated_edit]
    by_cases hinvert : first = .invert
    · rw [hinvert, List.count_cons_self, Nat.odd_add_one, decide_eq_true rfl]
      cases set.negated <;> simp
    · rw [List.count_cons_of_ne hinvert, decide_eq_false hinvert, Bool.bne_false]

theorem hasGaps_foldl (edits : List ClassEdit) :
    (edits.foldl edit set).hasGaps = true ↔
      set.hasGaps = true ∨ ∃ letter ∈ ['D', 'W', 'S'], ClassEdit.shorthand letter ∈ edits := by
  induction edits generalizing set with
  | nil => simp
  | cons first edits ih =>
    rw [List.foldl_cons, ih, hasGaps_edit, or_assoc, ← exists_or]
    simp only [← and_or_left, List.mem_cons, eq_comm]

variable {edits : List ClassEdit}

theorem contains_ofEdits (hcode : code ≤ Unicode.maxCode) :
    (ofEdits edits).contains code = true ↔ ∃ edit ∈ edits, edit.Adds code := by
  have hempty : ¬ empty.contains code = true := by simp [empty, contains]
  rw [ofEdits, contains_foldl hcode, or_iff_right hempty]

theorem negated_ofEdits : (ofEdits edits).negated = true ↔ Odd (edits.count .invert) := by
  rw [ofEdits, negated_foldl]
  simp [empty]

theorem hasGaps_ofEdits : (ofEdits edits).hasGaps = true ↔
    ∃ letter ∈ ['D', 'W', 'S'], ClassEdit.shorthand letter ∈ edits := by
  rw [ofEdits, hasGaps_foldl]
  simp [empty]

theorem ofEdits_append_of_edit_eq {edit : ClassEdit}
    (h : (ofEdits edits).edit edit = ofEdits edits) :
    ofEdits (edits ++ [edit]) = ofEdits edits := by
  rw [ofEdits, List.foldl_append]
  exact h

end Runs

/-- A class that is put together matches the code points that were put in, or all others if it was
inverted an odd number of times. It is unbounded if it was, or if an uppercase shorthand was put in.
A range with the larger end first and a letter that names no shorthand are refused, which leaves the
class as it was. -/
theorem matchesCode_ofEdits_union (edits : List ClassEdit) (mapping : CaseMapping)
    (hcode : code ≤ Unicode.maxCode) :
    ((ofEdits edits).matchesCode mapping false code = true ↔
        ¬ ((∃ edit ∈ edits, edit.Adds code) ↔ Odd (edits.count .invert))) ∧
      ((ofEdits edits).isUnbounded = true ↔ Odd (edits.count .invert) ∨
        ∃ letter ∈ ['D', 'W', 'S'], ClassEdit.shorthand letter ∈ edits) ∧
      (∀ first last,
        ((ofEdits edits).addRange first last = .error ⟨first, last⟩ ↔ last.toNat < first.toNat) ∧
          (last.toNat < first.toNat → ofEdits (edits ++ [.range first last]) = ofEdits edits)) ∧
      ∀ letter, ((ofEdits edits).addShorthand? letter = none ↔ letter ∉ Shorthand.letters) ∧
        (letter ∉ Shorthand.letters → ofEdits (edits ++ [.shorthand letter]) = ofEdits edits) := by
  refine ⟨?_, ?_, fun first last => ⟨addRange_eq_error_iff, fun h => ?_⟩,
    fun letter => ⟨addShorthand?_eq_none_iff, fun h => ?_⟩⟩
  · rw [matchesCode_false, bne_iff_ne, ne_eq, Bool.eq_iff_iff, contains_ofEdits hcode,
      negated_ofEdits]
  · rw [isUnbounded, Bool.or_eq_true, negated_ofEdits, hasGaps_ofEdits]
  · exact ofEdits_append_of_edit_eq (edit_range_of_lt h)
  · exact ofEdits_append_of_edit_eq (edit_shorthand_of_not_mem h)

/-- The characters that are neither word characters nor a hyphen, with edits that are refused in
between and an inversion in front of what it turns. -/
theorem matchesCode_ofEdits_union_of_early_inversion :
    let edits := [ClassEdit.invert, .shorthand 'w', .range 'z' 'a', .char '-', .shorthand 'x']
    '-'.toNat ≤ Unicode.maxCode ∧ (ofEdits edits).matchesCode .unicode false '-'.toNat = false ∧
      (ofEdits edits).isUnbounded = true ∧ ofEdits (edits ++ [.range 'b' 'a']) = ofEdits edits := by
  intro edits
  have hcode : '-'.toNat ≤ Unicode.maxCode := by decide
  obtain ⟨hmatches, hunbounded, hrange, -⟩ := matchesCode_ofEdits_union edits .unicode hcode
  have hadded : ∃ edit ∈ edits, edit.Adds '-'.toNat := ⟨.char '-', by decide, rfl⟩
  have hodd : Odd (edits.count .invert) := by decide
  refine ⟨hcode, ?_, hunbounded.mpr (.inl hodd), (hrange 'b' 'a').2 (by decide)⟩
  exact Bool.eq_false_of_not_eq_true fun h => hmatches.mp h (iff_of_true hadded hodd)

end CharClass
end TokenPatterns
