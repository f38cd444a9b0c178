import TokenPatterns.Machine.Run

/-!
# Runs inside of runs, step by step

A run that comes to a lookaround waits until its body was tried. Here the runs that wait are kept as
a list. So one step carries out one instruction of the innermost run, or hands the outcome of that
run to the one that waits for it, and nothing that a match takes is hidden in a single step.
-/
namespace TokenPatterns

/-- A run that waits at a lookaround while its body is tried. -/
structure Waiting where
  goal? : Option Nat
  base : Nat
  kind : Look
  body : Nat
  /-- Where the run goes on behind the lookaround. -/
  next : Nat
  pos : Nat
  pending : List Alternative
  /-- Where the attempt at the body has begun. -/
  start : Nat

/-- The innermost run, with its goal and the mark of where it began, and the runs that wait for it,
the latest first. -/
structure Runs (count : Nat) where
  goal? : Option Nat
  base : Nat
  place : Progress (Config count) (Outcome count)
  waiting : List Waiting

namespace Machine

variable {count : Nat}

/-- Tries the body of a lookaround from where the waiting run says. An attempt that is nested too
deep fails at once. -/
def attempt (waiting : List Waiting) (wait : Waiting) (registers : Registers count) :
    Runs count where
  goal? := if wait.kind.behind then some wait.pos else none
  base := registers.mark
  place :=
    if waiting.length < maxNesting then .more ⟨wait.body, wait.start, registers, []⟩
    else .done ⟨none, registers⟩
  waiting := wait :: waiting

/-- Goes on with a run whose lookaround has found something or not. -/
def goOn (waiting : List Waiting) (wait : Waiting) (found : Bool) (registers : Registers count) :
    Runs count where
  goal? := wait.goal?
  base := wait.base
  place :=
    if found == wait.kind.negated then resume wait.base registers wait.pending
    else .more ⟨wait.next, wait.pos, registers, wait.pending⟩
  waiting := waiting

/-- Hands the outcome of an attempt to the run that waits for it. Behind a place the body is tried
again from the place before, as long as there is one. -/
def handBack (waiting : List Waiting) (wait : Waiting) (outcome : Outcome count) : Runs count :=
  if outcome.stop?.isSome then goOn waiting wait true outcome.registers
  else
    match wait.kind.behind, wait.start with
    | true, start + 1 => attempt waiting { wait with start } outcome.registers
    | _, _ => goOn waiting wait false outcome.registers

theorem handBack_of_last (wait : Waiting) (h : wait.kind.behind = false ∨ wait.start = 0)
    (waiting : List Waiting) (outcome : Outcome count) : handBack waiting wait outcome =
      goOn waiting wait outcome.stop?.isSome outcome.registers := by
  unfold handBack
  split
  · next hfound => rw [hfound]
  · next hfound =>
    rw [Bool.eq_false_iff.mpr hfound]
    split
    · next hbehind hstart => simp [hbehind, hstart] at h
    · rfl

def advance (m : Machine) (runs : Runs count) : Progress (Runs count) (Outcome count) :=
  match runs.place with
  | .done outcome =>
    match runs.waiting with
    | [] => .done outcome
    | wait :: waiting => .more (handBack waiting wait outcome)
  | .more config =>
    match m.program.instrs[config.pc]? with
    | some (.look kind body next) =>
      .more (attempt runs.waiting
        ⟨runs.goal?, runs.base, kind, body, next, config.pos, config.pending, config.pos⟩
        config.registers)
    -- No other instruction asks for a run, so the runner that is given here is not used.
    | _ =>
      let place := m.step (fun _ _ _ registers => ⟨none, registers⟩) runs.goal? runs.base config
      .more { runs with place }

/-- The run that looks for a match from `start` on. There is none behind the end of the text. -/
def launch (m : Machine) (start : Nat) :
    Progress (Runs m.program.slots) (Outcome m.program.slots) :=
  let registers := Registers.fresh m.program.slots
  if start ≤ m.input.size then .more ⟨none, registers.mark, .more ⟨0, start, registers, []⟩, []⟩
  else .done ⟨none, registers⟩

end Machine
end TokenPatterns
