/-!
# Registers with a log

Each write to a register is logged with the value that it replaced. The length of the log is a
mark to which the registers can be rewound. So what was written since a choice was made can be
undone without a copy of all registers.
-/
namespace TokenPatterns

structure Registers (count : Nat) where
  slots : Vector (Option Nat) count
  /-- The writes so far, the latest last: the slot and its value before. -/
  log : Array (Nat × Option Nat)
deriving DecidableEq

namespace Registers

variable {count : Nat}

def fresh (count : Nat) : Registers count := ⟨Vector.replicate count none, #[]⟩

def get (registers : Registers count) (slot : Nat) : Option Nat := registers.slots[slot]?.join

def set (registers : Registers count) (slot : Nat) (value : Option Nat) : Registers count :=
  { slots := registers.slots.setIfInBounds slot value
    log := registers.log.push (slot, registers.get slot) }

def mark (registers : Registers count) : Nat := registers.log.size

/-- Undoes the writes since the log had the given length. -/
def rewind (mark : Nat) (registers : Registers count) : Registers count :=
  if h : mark < registers.log.size then
    let (slot, value) := registers.log[registers.log.size - 1]
    rewind mark ⟨registers.slots.setIfInBounds slot value, registers.log.pop⟩
  else registers
termination_by registers.log.size - mark
decreasing_by
  simp only [Array.size_pop]
  omega

@[simp] theorem mark_set (registers : Registers count) (slot : Nat) (value : Option Nat) :
    (registers.set slot value).mark = registers.mark + 1 := by
  simp [mark, set]

theorem get_fresh (slot : Nat) : (fresh count).get slot = none := by
  by_cases h : slot < count <;> simp [get, fresh, h]

theorem get_set_self {slot : Nat} (h : slot < count) (registers : Registers count)
    (value : Option Nat) : (registers.set slot value).get slot = value := by
  simp [get, set, h]

theorem get_set_of_ne {slot other : Nat} (h : slot ≠ other) (registers : Registers count)
    (value : Option Nat) : (registers.set slot value).get other = registers.get other := by
  simp [get, set, h]

theorem rewind_of_le {mark : Nat} {registers : Registers count} (h : registers.mark ≤ mark) :
    registers.rewind mark = registers := by
  rw [Registers.mark] at h
  rw [rewind, dif_neg (Nat.not_lt.mpr h)]

@[simp] theorem rewind_mark (registers : Registers count) :
    registers.rewind registers.mark = registers :=
  rewind_of_le (Nat.le_refl _)

private theorem setIfInBounds_getElem? (slots : Vector (Option Nat) count) (slot : Nat) :
    slots.setIfInBounds slot slots[slot]?.join = slots := by
  ext i hi
  rw [Vector.getElem_setIfInBounds]
  split
  · next h =>
    subst h
    simp [hi]
  · rfl

theorem rewind_set {mark : Nat} {registers : Registers count} (h : mark ≤ registers.mark)
    (slot : Nat) (value : Option Nat) :
    (registers.set slot value).rewind mark = registers.rewind mark := by
  rw [rewind]
  have hlt : mark < (registers.set slot value).log.size := by
    simp only [set, Array.size_push]
    exact Nat.lt_succ_of_le h
  rw [dif_pos hlt]
  simp [set, get, setIfInBounds_getElem?]

theorem rewind_rewind {a b : Nat} (h : b ≤ a) (registers : Registers count) :
    (registers.rewind a).rewind b = registers.rewind b := by
  fun_induction rewind a registers with
  | case1 registers hlt slot value hlast ih =>
    rw [ih]
    conv => rhs; rw [rewind, dif_pos (Nat.lt_of_le_of_lt h hlt)]
    simp [hlast]
  | case2 => rfl

/-- `later` comes from `registers` by writes that can be undone. -/
def Extends (later registers : Registers count) : Prop :=
  registers.mark ≤ later.mark ∧ later.rewind registers.mark = registers

namespace Extends

variable {a b c registers : Registers count}

theorem refl (registers : Registers count) : registers.Extends registers :=
  ⟨Nat.le_refl _, rewind_mark _⟩

theorem trans (hab : a.Extends b) (hbc : b.Extends c) : a.Extends c :=
  ⟨Nat.le_trans hbc.1 hab.1, by rw [← rewind_rewind hbc.1, hab.2, hbc.2]⟩

theorem set (slot : Nat) (value : Option Nat) (registers : Registers count) :
    (registers.set slot value).Extends registers :=
  ⟨by simp, by rw [rewind_set (Nat.le_refl _), rewind_mark]⟩

end Extends

end Registers
end TokenPatterns
