import TokenPatterns.Text.Characters

/-!
# Places in a text

A cursor goes through a text character by character and counts lines and columns, both from 1. A
carriage return with a line feed behind it ends no line of its own. Where line breaks are not
tracked, they count as characters of their line.
-/
namespace TokenPatterns

structure Place where
  line : Nat := 1
  column : Nat := 1
deriving DecidableEq

structure Cursor extends Place where
  offset : Nat := 0
deriving DecidableEq

/-- Whether a line ends with the character at `offset`. -/
def breaksLine (input : Array Char) (offset : Nat) : Bool :=
  match input[offset]? with
  | some c => isLineTerminator c && !(c == '\r' && input[offset + 1]? == some '\n')
  | none => false

namespace Cursor

/-- The cursor behind the character that it stands at. -/
def next (input : Array Char) (tracksLines : Bool) (cursor : Cursor) : Cursor :=
  if tracksLines && breaksLine input cursor.offset then
    { line := cursor.line + 1, column := 1, offset := cursor.offset + 1 }
  else { cursor with column := cursor.column + 1, offset := cursor.offset + 1 }

def advance (input : Array Char) (tracksLines : Bool) : (count : Nat) → Cursor → Cursor
  | 0, cursor => cursor
  | count + 1, cursor => advance input tracksLines count (cursor.next input tracksLines)

@[simp] theorem offset_next (input : Array Char) (tracksLines : Bool) (cursor : Cursor) :
    (cursor.next input tracksLines).offset = cursor.offset + 1 := by
  unfold next
  split <;> rfl

@[simp] theorem offset_advance (input : Array Char) (tracksLines : Bool) (count : Nat)
    (cursor : Cursor) :
    (cursor.advance input tracksLines count).offset = cursor.offset + count := by
  induction count generalizing cursor with
  | zero => rfl
  | succ count ih =>
    rw [advance, ih, offset_next]
    omega

end Cursor
end TokenPatterns
