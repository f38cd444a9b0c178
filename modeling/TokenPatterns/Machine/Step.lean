import TokenPatterns.Machine.Instr
import TokenPatterns.Machine.Iteration
import TokenPatterns.Machine.Registers
import TokenPatterns.Search.Subject

/-!
# Steps of the matching machine

The machine goes through the instructions of a program beside a text. Where it has a choice it
takes one way and keeps the other for later, with the mark of its registers. A failure goes back
to the last choice kept. The bodies of lookarounds are run on their own, by whatever runs are
allowed inside of the run at hand.
-/
namespace TokenPatterns

/-- A program beside the text that it is matched against. -/
structure Machine where
  program : Program
  mapping : CaseMapping
  input : Array Char

/-- A choice that was kept for later. -/
structure Alternative where
  pc : Nat
  pos : Nat
  /-- How far the registers are to be rewound. -/
  mark : Nat
deriving DecidableEq

structure Config (count : Nat) where
  pc : Nat
  pos : Nat
  registers : Registers count
  /-- The choices that were kept, the latest first. -/
  pending : List Alternative
deriving DecidableEq

/-- The end of a run: where the match ends, if there is one, and what the registers hold. -/
structure Outcome (count : Nat) where
  stop? : Option Nat
  registers : Registers count
deriving DecidableEq

/-- A run of the instructions at `pc` from `pos` on. If a goal is given, only a match that ends
there counts. -/
abbrev Runner (count : Nat) :=
  (pc pos : Nat) → (goal? : Option Nat) → Registers count → Outcome count

namespace Machine

variable {count : Nat}

@[inline] def subject (m : Machine) : Subject := ⟨m.mapping, m.program.pattern.flags, m.input⟩

def span? (registers : Registers count) (group : Nat) : Option (Nat × Nat) :=
  match registers.get (Pattern.captureRegister group),
    registers.get (Pattern.captureRegister group + 1) with
  | some start, some stop => some (start, stop)
  | _, _ => none

/-- Whether the body matches up to `pos` from `start` or from some place before it, the later ones
first. -/
def seekBehind (look : Runner count) (body pos : Nat) :
    (start : Nat) → Registers count → Bool × Registers count
  | 0, registers =>
    let outcome := look body 0 (some pos) registers
    (outcome.stop?.isSome, outcome.registers)
  | start + 1, registers =>
    let outcome := look body (start + 1) (some pos) registers
    if outcome.stop?.isSome then (true, outcome.registers)
    else seekBehind look body pos start outcome.registers

def seek (look : Runner count) (behind : Bool) (body pos : Nat) (registers : Registers count) :
    Bool × Registers count :=
  if behind then seekBehind look body pos pos registers
  else
    let outcome := look body pos none registers
    (outcome.stop?.isSome, outcome.registers)

/-- Goes back to the last choice kept. Without one the run has failed, and the registers are
rewound to where it began. -/
def resume (base : Nat) (registers : Registers count) :
    List Alternative → Progress (Config count) (Outcome count)
  | [] => .done ⟨none, registers.rewind base⟩
  | alternative :: pending =>
    .more ⟨alternative.pc, alternative.pos, registers.rewind alternative.mark, pending⟩

@[inline] def consume (m : Machine) (base : Nat) (p : Char → Bool) (pc pos : Nat)
    (registers : Registers count) (pending : List Alternative) :
    Progress (Config count) (Outcome count) :=
  match m.input[pos]? with
  | some c =>
    if p c then .more ⟨pc + 1, pos + 1, registers, pending⟩ else resume base registers pending
  | none => resume base registers pending

@[inline] def perform (m : Machine) (look : Runner count) (goal? : Option Nat) (base pc pos : Nat)
    (registers : Registers count) (pending : List Alternative) :
    Instr → Progress (Config count) (Outcome count)
  | .char c => m.consume base (m.subject.agree c) pc pos registers pending
  | .charClass set => m.consume base (m.subject.accepts set) pc pos registers pending
  | .anyChar => m.consume base m.subject.acceptsAny pc pos registers pending
  | .anchor kind =>
    if m.subject.holds pos kind then .more ⟨pc + 1, pos, registers, pending⟩
    else resume base registers pending
  | .look kind body next =>
    let (found, registers) := seek look kind.behind body pos registers
    if found == kind.negated then resume base registers pending
    else .more ⟨next, pos, registers, pending⟩
  | .split first second =>
    .more ⟨first, pos, registers, ⟨second, pos, registers.mark⟩ :: pending⟩
  | .jump target => .more ⟨target, pos, registers, pending⟩
  | .groupStart group =>
    .more ⟨pc + 1, pos, registers.set (Pattern.captureRegister group + 2) (some pos), pending⟩
  | .groupEnd group =>
    let register := Pattern.captureRegister group
    let start := registers.get (register + 2)
    .more ⟨pc + 1, pos, (registers.set register start).set (register + 1) (some pos), pending⟩
  | .backreference group =>
    match m.subject.repeatSpan? (span? registers group) pos with
    | some stop => .more ⟨pc + 1, stop, registers, pending⟩
    | none => resume base registers pending
  | .loopStart register => .more ⟨pc + 1, pos, registers.set register (some 0), pending⟩
  | .loop register quantifier exit =>
    let laps := (registers.get register).getD 0
    if laps < quantifier.min then .more ⟨pc + 1, pos, registers, pending⟩
    else if !quantifier.allowsMore laps then .more ⟨exit, pos, registers, pending⟩
    else if quantifier.greedy then
      .more ⟨pc + 1, pos, registers, ⟨exit, pos, registers.mark⟩ :: pending⟩
    else .more ⟨exit, pos, registers, ⟨pc + 1, pos, registers.mark⟩ :: pending⟩
  | .lapStart register => .more ⟨pc + 1, pos, registers.set (register + 1) (some pos), pending⟩
  | .lapEnd register min head =>
    let laps := (registers.get register).getD 0
    if min ≤ laps && registers.get (register + 1) == some pos then
      resume base registers pending
    else .more ⟨head, pos, registers.set register (some (laps + 1)), pending⟩
  | .accept =>
    if goal?.all (· == pos) then .done ⟨some pos, registers⟩ else resume base registers pending

/-- One step of a run that started with `base` logged writes. -/
@[inline] def step (m : Machine) (look : Runner count) (goal? : Option Nat) (base : Nat)
    (config : Config count) : Progress (Config count) (Outcome count) :=
  match m.program.instrs[config.pc]? with
  | some instr =>
    m.perform look goal? base config.pc config.pos config.registers config.pending instr
  | none => resume base config.registers config.pending

theorem step_eq_perform {m : Machine} {pc : Nat} {instr : Instr}
    (h : m.program.instrs[pc]? = some instr) (look : Runner count) (goal? : Option Nat)
    (base pos : Nat) (registers : Registers count) (pending : List Alternative) :
    m.step look goal? base ⟨pc, pos, registers, pending⟩ =
      m.perform look goal? base pc pos registers pending instr := by
  simp only [step, h]

end Machine
end TokenPatterns
