import TokenPatterns.Pattern

/-!
# Instructions and their layout

A tree is laid out as a list of instructions that name each other by their place. The layout of a
node is contiguous, is entered at its first instruction and left behind its last one. A lookaround
holds the layout of its body, which ends in an instruction of its own. Captures own three
registers each, and repetitions two.
-/
namespace TokenPatterns

inductive Instr where
  | char (c : Char)
  | charClass (set : CharClass)
  | anyChar
  | anchor (kind : Anchor)
  /-- Go on at `next` if the instructions at `body` match, or do not match, beside the place. -/
  | look (kind : Look) (body next : Nat)
  /-- Go on at `first`, and if that fails at `second`. -/
  | split (first second : Nat)
  | jump (target : Nat)
  | groupStart (group : Nat)
  | groupEnd (group : Nat)
  | backreference (group : Nat)
  /-- Forget the laps counted in a register. -/
  | loopStart (register : Nat)
  /-- Go on with another lap, at the next instruction, or at `exit`. -/
  | loop (register : Nat) (quantifier : Quantifier) (exit : Nat)
  /-- Keep where a lap starts. -/
  | lapStart (register : Nat)
  /-- Count a lap and go back to `head`. After `min` laps one that took up nothing fails. -/
  | lapEnd (register : Nat) (min head : Nat)
  | accept
deriving DecidableEq

namespace Node

mutual

def size : Node → Nat
  | look _ inner => inner.size + 2
  | group (some _) inner => inner.size + 2
  | group none inner => inner.size
  | concat items => sizeAll items
  | alternation branches => sizeBranches branches
  | repetition _ inner => inner.size + 4
  | _ => 1

def sizeAll : List Node → Nat
  | [] => 0
  | item :: items => item.size + sizeAll items

def sizeBranches : List Node → Nat
  | [] => 0
  | [last] => last.size
  | branch :: branches => branch.size + 2 + sizeBranches branches

end

mutual

def loops : Node → Nat
  | look _ inner => inner.loops
  | group _ inner => inner.loops
  | concat items => loopsAll items
  | alternation branches => loopsAll branches
  | repetition _ inner => inner.loops + 1
  | _ => 0

def loopsAll : List Node → Nat
  | [] => 0
  | node :: nodes => node.loops + loopsAll nodes

end

mutual

/-- The instructions of a node that are placed from `pc` on, with the registers of its repetitions
from `register` on. -/
def layout (pc register : Nat) : Node → List Instr
  | literal c => [.char c]
  | charClass set => [.charClass set]
  | anyChar => [.anyChar]
  | anchor kind => [.anchor kind]
  | look kind inner =>
    .look kind (pc + 1) (pc + inner.size + 2) ::
      (layout (pc + 1) register inner ++ [.accept])
  | group (some number) inner =>
    .groupStart number :: (layout (pc + 1) register inner ++ [.groupEnd number])
  | group none inner => layout pc register inner
  | concat items => layoutAll pc register items
  | alternation branches => layoutBranches (pc + sizeBranches branches) pc register branches
  | repetition quantifier inner =>
    .loopStart register :: .loop register quantifier (pc + inner.size + 4) :: .lapStart register ::
      (layout (pc + 3) (register + 2) inner ++ [.lapEnd register quantifier.min (pc + 1)])
  | backreference number => [.backreference number]

def layoutAll (pc register : Nat) : List Node → List Instr
  | [] => []
  | item :: items =>
    layout pc register item ++ layoutAll (pc + item.size) (register + 2 * item.loops) items

/-- The layout of branches that all go on at `finish`. -/
def layoutBranches (finish pc register : Nat) : List Node → List Instr
  | [] => []
  | [last] => layout pc register last
  | branch :: branches =>
    .split (pc + 1) (pc + branch.size + 2) ::
      (layout (pc + 1) register branch ++ .jump finish ::
        layoutBranches finish (pc + branch.size + 2) (register + 2 * branch.loops) branches)

end

mutual

theorem length_layout : ∀ (node : Node) (pc register : Nat),
    (node.layout pc register).length = node.size
  | literal _, _, _ => rfl
  | charClass _, _, _ => rfl
  | anyChar, _, _ => rfl
  | anchor _, _, _ => rfl
  | look _ inner, pc, register => by simp [layout, size, length_layout inner]
  | group (some _) inner, pc, register => by simp [layout, size, length_layout inner]
  | group none inner, pc, register => by simp [layout, size, length_layout inner]
  | concat items, pc, register => by simp [layout, size, length_layoutAll items]
  | alternation branches, pc, register => by simp [layout, size, length_layoutBranches branches]
  | repetition _ inner, pc, register => by simp [layout, size, length_layout inner]
  | backreference _, _, _ => rfl

theorem length_layoutAll : ∀ (items : List Node) (pc register : Nat),
    (layoutAll pc register items).length = sizeAll items
  | [], _, _ => rfl
  | item :: items, pc, register => by
    simp [layoutAll, sizeAll, length_layout item, length_layoutAll items]

theorem length_layoutBranches : ∀ (branches : List Node) (finish pc register : Nat),
    (layoutBranches finish pc register branches).length = sizeBranches branches
  | [], _, _, _ => rfl
  | [last], _, pc, register => by simp [layoutBranches, sizeBranches, length_layout last]
  | branch :: other :: branches, finish, pc, register => by
    simp only [layoutBranches, sizeBranches, List.length_cons, List.length_append,
      length_layout branch, length_layoutBranches (other :: branches)]
    omega

end

end Node

namespace Pattern

/-- The first register of a capture. It and the two after it hold where the capture starts and
ends, and where the attempt at it that is under way starts. -/
def captureRegister (group : Nat) : Nat := 3 * group

/-- The capture that a register belongs to, if it is one for captures. -/
def captureOf (register : Nat) : Nat := register / 3

theorem captureOf_add {offset : Nat} (h : offset < 3) (group : Nat) :
    captureOf (captureRegister group + offset) = group := by
  simp only [captureOf, captureRegister]
  omega

/-- The number of registers for captures. -/
def captureRegisters (pattern : Pattern) : Nat := captureRegister (pattern.captureCount + 1)

def layout (pattern : Pattern) : List Instr :=
  pattern.root.layout 0 pattern.captureRegisters ++ [.accept]

def registerCount (pattern : Pattern) : Nat := pattern.captureRegisters + 2 * pattern.root.loops

end Pattern

/-- A pattern with its instructions and its number of registers, found once for many runs. -/
structure Program where
  pattern : Pattern
  instrs : Array Instr := pattern.layout.toArray
  slots : Nat := pattern.registerCount
  instrs_eq : instrs = pattern.layout.toArray := by rfl
  slots_eq : slots = pattern.registerCount := by rfl

def Pattern.program (pattern : Pattern) : Program := { pattern }

end TokenPatterns
