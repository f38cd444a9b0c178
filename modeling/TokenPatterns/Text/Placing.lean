import TokenPatterns.Text.Cursor

/-!
# Lines and columns of a text

The place of an offset, told by the text alone: its line by the breaks before it, its column by the
last of them. A cursor looks at one character after the other, and keeps to these places as long as
it counts each break that it goes over.
-/
namespace TokenPatterns

/-- Whether a line ends with the character at `offset`. A carriage return and the line feed behind
it end one line together, with the line feed. -/
def BreaksAt (input : Array Char) (offset : Nat) : Prop :=
  input[offset]? = some '\n' ∨ input[offset]? = some '\u2028' ∨ input[offset]? = some '\u2029' ∨
    input[offset]? = some '\r' ∧ input[offset + 1]? ≠ some '\n'

instance (input : Array Char) : DecidablePred (BreaksAt input) := fun _ =>
  inferInstanceAs (Decidable (_ ∨ _ ∨ _ ∨ _ ∧ _))

/-- The offsets of the breaks before `offset`, in ascending order. -/
def breaksBefore (input : Array Char) (offset : Nat) : List Nat :=
  (List.range offset).filter fun other => BreaksAt input other

/-- Where the line of `offset` begins: behind the last break, or with the text. -/
def lineStart (input : Array Char) (offset : Nat) : Nat :=
  match (breaksBefore input offset).getLast? with
  | some last => last + 1
  | none => 0

/-- The place of an offset in a text. -/
def Place.ofOffset (input : Array Char) (offset : Nat) : Place where
  line := 1 + (breaksBefore input offset).length
  column := offset - lineStart input offset + 1

section Offsets

variable {input : Array Char} {offset : Nat}

theorem breaksBefore_succ_of_breaksAt (h : BreaksAt input offset) :
    breaksBefore input (offset + 1) = breaksBefore input offset ++ [offset] := by
  simp [breaksBefore, List.range_succ, h]

theorem breaksBefore_succ_of_not_breaksAt (h : ¬ BreaksAt input offset) :
    breaksBefore input (offset + 1) = breaksBefore input offset := by
  simp [breaksBefore, List.range_succ, h]

theorem lineStart_le (input : Array Char) (offset : Nat) : lineStart input offset ≤ offset := by
  unfold lineStart
  split
  · next last hlast =>
    have hmem := List.mem_of_getLast? hlast
    exact List.mem_range.mp (List.mem_filter.mp hmem).1
  · exact Nat.zero_le _

theorem Place.ofOffset_zero (input : Array Char) : ofOffset input 0 = {} := rfl

theorem Place.ofOffset_succ_of_breaksAt (h : BreaksAt input offset) :
    ofOffset input (offset + 1) = ⟨(ofOffset input offset).line + 1, 1⟩ := by
  simp [ofOffset, lineStart, breaksBefore_succ_of_breaksAt h, Nat.add_assoc]

theorem Place.ofOffset_succ_of_not_breaksAt (h : ¬ BreaksAt input offset) :
    ofOffset input (offset + 1) =
      ⟨(ofOffset input offset).line, (ofOffset input offset).column + 1⟩ := by
  have hle := lineStart_le input offset
  simp only [ofOffset, lineStart, breaksBefore_succ_of_not_breaksAt h, Place.mk.injEq, true_and]
  simp only [lineStart] at hle
  omega

/-- A character that ends no line by itself ends none at all. -/
theorem not_breaksAt_of_isLineTerminator
    (h : ∀ c, input[offset]? = some c → isLineTerminator c = false) : ¬ BreaksAt input offset := by
  rintro (hbreak | hbreak | hbreak | ⟨hbreak, -⟩)
  all_goals exact absurd (h _ hbreak) (by decide)

theorem breaksLine_iff : breaksLine input offset = true ↔ BreaksAt input offset := by
  unfold breaksLine BreaksAt
  cases hc : input[offset]? with
  | none => simp
  | some c =>
    simp only [Bool.and_eq_true, isLineTerminator_iff, Option.some.injEq]
    by_cases hreturn : c = '\r'
    · simp [hreturn]
    · simp [hreturn]

end Offsets

namespace Cursor

/-- Whether the line and the column of a cursor are those of its offset. -/
def IsPlaced (input : Array Char) (cursor : Cursor) : Prop :=
  cursor.toPlace = .ofOffset input cursor.offset

variable {input : Array Char} {tracksLines : Bool} {cursor : Cursor}

theorem isPlaced_start (input : Array Char) : IsPlaced input {} :=
  (Place.ofOffset_zero input).symm

theorem IsPlaced.next (h : cursor.IsPlaced input)
    (hcounts : tracksLines = true ∨ ¬ BreaksAt input cursor.offset) :
    (cursor.next input tracksLines).IsPlaced input := by
  unfold IsPlaced at h ⊢
  rw [offset_next]
  unfold Cursor.next
  by_cases hbreak : BreaksAt input cursor.offset
  · have htracks := hcounts.resolve_right (not_not_intro hbreak)
    rw [Place.ofOffset_succ_of_breaksAt hbreak, ← h, htracks, breaksLine_iff.mpr hbreak]
    rfl
  · have hline : breaksLine input cursor.offset = false := by simpa [← breaksLine_iff] using hbreak
    rw [Place.ofOffset_succ_of_not_breaksAt hbreak, ← h, hline, Bool.and_false]
    rfl

theorem IsPlaced.advance {count : Nat} (h : cursor.IsPlaced input)
    (hcounts : tracksLines = true ∨ ∀ offset, cursor.offset ≤ offset →
      offset < cursor.offset + count → ¬ BreaksAt input offset) :
    (cursor.advance input tracksLines count).IsPlaced input := by
  induction count generalizing cursor with
  | zero => exact h
  | succ count ih =>
    apply ih
    · exact h.next (hcounts.imp_right fun hnone => hnone _ (Nat.le_refl _) (by omega))
    · refine hcounts.imp_right fun hnone offset hle hlt => ?_
      rw [offset_next] at hle hlt
      exact hnone offset (by omega) (by omega)

end Cursor
end TokenPatterns
