import TokenPatterns.Machine.Slots
import TokenPatterns.Proofs.Termination

/-!
# Which registers a step uses

A step reads and writes no registers but those that its instruction names. So with other registers,
however many, it leads to the same place and writes the same, as long as they agree in those. Going
back to a choice undoes what was written and asks for nothing else.
-/
namespace TokenPatterns

variable {count other : Nat} {own : Nat → Prop} {first : Registers count} {second : Registers other}

namespace Registers

def write (writes : List (Nat × Option Nat)) (registers : Registers count) : Registers count :=
  writes.foldl (fun registers write => registers.set write.1 write.2) registers

/-- Whether registers agree in some slots, and in how much was written. -/
structure AgreeOn (own : Nat → Prop) (first : Registers count) (second : Registers other) :
    Prop where
  mark_eq : first.mark = second.mark
  get_eq : ∀ slot, own slot → first.get slot = second.get slot

/-- How two registers change alike: by the same writes to some slots, or back to the same mark. -/
inductive ChangeAlike (own : Nat → Prop) (first : Registers count) (second : Registers other) :
    Registers count → Registers other → Prop
  | write (writes : List (Nat × Option Nat)) : (∀ write ∈ writes, own write.1) →
      ChangeAlike own first second (first.write writes) (second.write writes)
  | rewind (mark : Nat) : ChangeAlike own first second (first.rewind mark) (second.rewind mark)

namespace ChangeAlike

theorem nothing : ChangeAlike own first second first second :=
  .write [] (List.forall_mem_nil _)

theorem set {slot : Nat} (h : own slot) (value : Option Nat) :
    ChangeAlike own first second (first.set slot value) (second.set slot value) :=
  .write [(slot, value)] (List.forall_mem_singleton.mpr h)

end ChangeAlike
end Registers

namespace Machine

open Registers (AgreeOn ChangeAlike)

/-- How two runs go on alike from their registers. -/
inductive GoAlike (own : Nat → Prop) (first : Registers count) (second : Registers other) :
    Progress (Config count) (Outcome count) → Progress (Config other) (Outcome other) → Prop
  | more {pc pos : Nat} {pending : List Alternative} {later : Registers count}
      {laterOther : Registers other} : ChangeAlike own first second later laterOther →
      GoAlike own first second (.more ⟨pc, pos, later, pending⟩)
        (.more ⟨pc, pos, laterOther, pending⟩)
  | done {stop? : Option Nat} {later : Registers count} {laterOther : Registers other} :
      ChangeAlike own first second later laterOther →
      GoAlike own first second (.done ⟨stop?, later⟩) (.done ⟨stop?, laterOther⟩)

/-- How all runs go on alike from the registers of the innermost one. -/
inductive AdvanceAlike (own : Nat → Prop) (first : Registers count) (second : Registers other) :
    Progress (Runs count) (Outcome count) → Progress (Runs other) (Outcome other) → Prop
  | more {goal? : Option Nat} {base : Nat} {place : Progress (Config count) (Outcome count)}
      {placeOther : Progress (Config other) (Outcome other)} {waiting : List Waiting} :
      GoAlike own first second place placeOther →
      AdvanceAlike own first second (.more ⟨goal?, base, place, waiting⟩)
        (.more ⟨goal?, base, placeOther, waiting⟩)

/-- Whether the step from here reads and writes some registers alone, whatever runs wait. -/
def StepsWithin (m : Machine) (own : Nat → Prop) (config : Config count) : Prop :=
  ∀ (other : Nat) (second : Registers other) (goal? : Option Nat) (base : Nat)
    (waiting : List Waiting), config.registers.AgreeOn own second →
    AdvanceAlike own config.registers second (m.advance ⟨goal?, base, .more config, waiting⟩)
      (m.advance ⟨goal?, base, .more ⟨config.pc, config.pos, second, config.pending⟩, waiting⟩)

variable {m : Machine} {instr : Instr} {look : Runner count} {lookOther : Runner other}
  {goal? : Option Nat} {base pc pos : Nat} {pending : List Alternative}

theorem GoAlike.resume :
    GoAlike own first second (resume base first pending) (resume base second pending) := by
  cases pending with
  | nil => exact .done (.rewind base)
  | cons alternative pending => exact .more (.rewind alternative.mark)

theorem GoAlike.consume {p : Char → Bool} : GoAlike own first second
    (m.consume base p pc pos first pending) (m.consume base p pc pos second pending) := by
  unfold Machine.consume
  split
  · split
    · exact .more .nothing
    · exact .resume
  · exact .resume

/-- Each instruction, those of lookarounds apart, uses the registers that it is said to use. -/
theorem goAlike_perform (hagree : first.AgreeOn own second)
    (hown : ∀ register ∈ instr.registers, own register)
    (hlook : ∀ kind body next, instr ≠ .look kind body next) :
    GoAlike own first second (m.perform look goal? base pc pos first pending instr)
      (m.perform lookOther goal? base pc pos second pending instr) := by
  have hget : ∀ register ∈ instr.registers, first.get register = second.get register :=
    fun register hregister => hagree.get_eq register (hown register hregister)
  cases instr with
  | char c => exact .consume
  | charClass set => exact .consume
  | anyChar => exact .consume
  | anchor kind =>
    simp only [perform]
    split
    · exact .more .nothing
    · exact .resume
  | look kind body next => exact absurd rfl (hlook kind body next)
  | split start finish =>
    simp only [perform, hagree.mark_eq]
    exact .more .nothing
  | jump target => exact .more .nothing
  | groupStart group => exact .more (.set (hown _ List.mem_cons_self) _)
  | groupEnd group =>
    obtain ⟨hstart, hstop⟩ := List.forall_mem_cons.mp hown
    have hattempt := hget (Pattern.captureRegister group + 2) (by simp [Instr.registers])
    simp only [perform, hattempt]
    exact .more (.write [(_, _), (_, _)] (List.forall_mem_cons.mpr
      ⟨hstart, List.forall_mem_singleton.mpr (hstop _ List.mem_cons_self)⟩))
  | backreference group =>
    have hstart := hget (Pattern.captureRegister group) List.mem_cons_self
    have hstop := hget _ (List.mem_cons_of_mem _ List.mem_cons_self)
    have hspan : span? first group = span? second group := by rw [span?, span?, hstart, hstop]
    simp only [perform, hspan]
    split
    · exact .more .nothing
    · exact .resume
  | loopStart register => exact .more (.set (hown _ List.mem_cons_self) _)
  | loop register quantifier exit =>
    simp only [perform, List.forall_mem_singleton.mp hget, hagree.mark_eq]
    split
    · exact .more .nothing
    · split
      · exact .more .nothing
      · split <;> exact .more .nothing
  | lapStart register => exact .more (.set (hown _ List.mem_cons_self) _)
  | lapEnd register min head =>
    have hlaps := hget register List.mem_cons_self
    have hstart := hget _ (List.mem_cons_of_mem _ List.mem_cons_self)
    simp only [perform, hlaps, hstart]
    split
    · exact .resume
    · exact .more (.set (hown _ List.mem_cons_self) _)
  | accept =>
    simp only [perform]
    split
    · exact .done .nothing
    · exact .resume

theorem stepsWithin_of_registers {config : Config count}
    (hinstr : m.program.instrs[config.pc]? = some instr)
    (hown : ∀ register ∈ instr.registers, own register) : m.StepsWithin own config := by
  obtain ⟨pc, pos, registers, pending⟩ := config
  intro other second goal? base waiting hagree
  dsimp only at hinstr hagree ⊢
  by_cases hlook : ∃ kind body next, instr = .look kind body next
  · obtain ⟨kind, body, next, rfl⟩ := hlook
    have hadvance : ∀ {count : Nat} (registers : Registers count),
        m.advance ⟨goal?, base, .more ⟨pc, pos, registers, pending⟩, waiting⟩ =
          .more (attempt waiting ⟨goal?, base, kind, body, next, pos, pending, pos⟩ registers) :=
      fun _ => advance_of_look hinstr
    rw [hadvance, hadvance]
    simp only [attempt, hagree.mark_eq]
    refine .more ?_
    split
    · exact .more .nothing
    · exact .done .nothing
  · have hother : ∀ kind body next, instr ≠ .look kind body next :=
      fun kind body next heq => hlook ⟨kind, body, next, heq⟩
    have hne : ∀ kind body next, m.program.instrs[pc]? ≠ some (.look kind body next) :=
      fun kind body next heq => hother kind body next (Option.some.inj (hinstr.symm.trans heq))
    have hadvance : ∀ {count : Nat} (registers : Registers count),
        m.advance ⟨goal?, base, .more ⟨pc, pos, registers, pending⟩, waiting⟩ =
          .more ⟨goal?, base, m.perform (fun _ _ _ registers => ⟨none, registers⟩) goal? base pc pos
            registers pending instr, waiting⟩ := by
      intro count registers
      rw [advance_of_ne_look hne fun _ _ _ registers => ⟨none, registers⟩, step_eq_perform hinstr]
    rw [hadvance, hadvance]
    exact .more (goAlike_perform hagree hown hother)

end Machine
end TokenPatterns
