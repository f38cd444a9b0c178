import TokenPatterns.Machine.Run

/-!
# Calls of runs

A match is looked for by a call of a run at the start of the program. While a run is under way, each
attempt at the body of a lookaround is a call of another run, in which runs may nest less deep. All
calls that are made in this way are followed here, with what each of them is given and answered.
-/
namespace TokenPatterns

/-- A call of a run. Runs may nest in it as deep as `allowance` says, itself included, so that it is
refused if that is zero. -/
structure Call (count : Nat) where
  allowance : Nat
  pc : Nat
  pos : Nat
  goal? : Option Nat
  registers : Registers count

namespace Machine

variable {m : Machine}

def answer (m : Machine) (call : Call m.program.slots) : Outcome m.program.slots :=
  (m.runner call.allowance).1 call.pc call.pos call.goal? call.registers

def stepIn (m : Machine) (call : Call m.program.slots) :
    Config m.program.slots → Progress (Config m.program.slots) (Outcome m.program.slots) :=
  m.step (m.runner (call.allowance - 1)).1 call.goal? call.registers.mark

def begin (m : Machine) (call : Call m.program.slots) :
    Progress (Config m.program.slots) (Outcome m.program.slots) :=
  .more ⟨call.pc, call.pos, call.registers, []⟩

/-- Whether a call is answered by what its run ends with, unless it is refused. -/
def IsCarriedOut (m : Machine) (call : Call m.program.slots) : Prop :=
  if call.allowance = 0 then m.answer call = ⟨none, call.registers⟩
  else (m.begin call).Ends (m.stepIn call) (· = m.answer call)

def Reaches (m : Machine) (call : Call m.program.slots) (config : Config m.program.slots) : Prop :=
  call.allowance ≠ 0 ∧ ∃ count, Progress.after (m.stepIn call) count (m.begin call) = .more config

/-- The first attempt at the body of a lookaround that a run has come to. -/
def attemptAt (m : Machine) (call : Call m.program.slots) (config : Config m.program.slots)
    (kind : Look) (body : Nat) : Call m.program.slots where
  allowance := call.allowance - 1
  pc := body
  pos := config.pos
  goal? := if kind.behind then some config.pos else none
  registers := config.registers

/-- The next attempt behind a place, from `start`, after one that has failed. -/
def retryAt (m : Machine) (call : Call m.program.slots) (start : Nat) : Call m.program.slots :=
  { call with pos := start, registers := (m.answer call).registers }

/-- The calls that are made from a given one on: itself, those at the lookarounds that runs come to,
and where an attempt behind a place fails the one from the start before. -/
inductive Makes (m : Machine) (first : Call m.program.slots) : Call m.program.slots → Prop
  | self : Makes m first first
  | attempt {call : Call m.program.slots} {config : Config m.program.slots} {kind : Look}
      {body next : Nat} : Makes m first call → m.Reaches call config →
      m.program.instrs[config.pc]? = some (.look kind body next) →
      Makes m first (m.attemptAt call config kind body)
  | retry {call : Call m.program.slots} {start stop : Nat} : Makes m first call →
      call.goal? = some stop → call.pos = start + 1 → (m.answer call).stop? = none →
      Makes m first (m.retryAt call start)

theorem Makes.trans {first second third : Call m.program.slots} (h : m.Makes first second)
    (hthird : m.Makes second third) : m.Makes first third := by
  induction hthird with
  | self => exact h
  | attempt _ hreaches hinstr ih => exact .attempt ih hreaches hinstr
  | retry _ hgoal hpos hfailed ih => exact .retry ih hgoal hpos hfailed

/-- The call that looks for a match from `start` on. It is made unless that is behind the text. -/
def callFrom (m : Machine) (start : Nat) : Call m.program.slots :=
  ⟨maxNesting + 1, 0, start, none, .fresh m.program.slots⟩

end Machine
end TokenPatterns
