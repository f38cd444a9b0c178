import TokenPatterns.Machine.Simulation

/-!
# Runs

A run follows the steps of the machine to their end. The runs inside of it, which try the bodies
of lookarounds, are bounded in how deep they nest: one that is nested too deep fails. So each run
rests on runs with a smaller allowance, and ends for that reason and because its steps do.
-/
namespace TokenPatterns
namespace Machine

theorem ends (m : Machine) {allowance : Nat} {look : Runner m.program.slots}
    (hlook : m.SoundRunner allowance look) {pc pos : Nat} (hpc : m.program.isEntry pc = true)
    (hpos : pos ≤ m.input.size) (goal? : Option Nat) (registers : Registers m.program.slots) :
    (Progress.more ⟨pc, pos, registers, []⟩).Ends (m.step look goal? registers.mark)
      fun _ => True := by
  obtain ⟨body, register, hentry⟩ := Program.exists_entry hpc
  exact (ends_of_entry hlook hentry hpos goal? registers).imp fun _ _ => trivial

/-- The run whose lookarounds are tried by `look`. It fails where there is nothing to run. -/
@[inline] def runWith (m : Machine) {allowance : Nat} (look : Runner m.program.slots)
    (hlook : m.SoundRunner allowance look) : Runner m.program.slots :=
  fun pc pos goal? registers =>
    if h : m.program.isEntry pc = true ∧ pos ≤ m.input.size then
      Progress.follow (m.step look goal? registers.mark) (.more ⟨pc, pos, registers, []⟩)
        (m.ends hlook h.1 h.2 goal? registers)
    else ⟨none, registers⟩

theorem runWith_sound (m : Machine) {allowance : Nat} {look : Runner m.program.slots}
    (hlook : m.SoundRunner allowance look) :
    m.SoundRunner (allowance + 1) (m.runWith look hlook) := by
  intro pc body register hentry pos hpos goal? registers
  rw [runWith, dif_pos ⟨hentry.isEntry, hpos⟩]
  exact Progress.follow_of_ends (ends_of_entry hlook hentry hpos goal? registers) _

/-- The run that may nest as deep as `allowance` says, itself included. -/
def runner (m : Machine) :
    (allowance : Nat) → { look : Runner m.program.slots // m.SoundRunner allowance look }
  | 0 => ⟨fun _ _ _ registers => ⟨none, registers⟩,
      fun _ body register _ pos _ _ registers => Sound.failure m body register pos registers⟩
  | allowance + 1 => ⟨fun pc pos goal? registers =>
      m.runWith (m.runner allowance).1 (m.runner allowance).2 pc pos goal? registers,
      m.runWith_sound (m.runner allowance).2⟩

theorem captures_fresh (m : Machine) :
    m.captures (Registers.fresh m.program.slots) = Captures.none := by
  funext group
  simp [captures, span?, Registers.get_fresh, Captures.none]

/-- A run at an entry ends where the first way ends that meets its goal. -/
theorem stop?_runner (m : Machine) {pc register : Nat} {body : Node}
    (hentry : m.program.Entry pc body register) (allowance : Nat) {pos : Nat}
    (hpos : pos ≤ m.input.size) (goal? : Option Nat) :
    ((m.runner allowance).1 pc pos goal? (.fresh m.program.slots)).stop? =
      ((body.waysWithin m.subject allowance pos Captures.none).find? (meets goal?)).map
        Way.stop := by
  have hsound := (m.runner allowance).2 pc body register hentry pos hpos goal?
    (.fresh m.program.slots)
  rw [hsound.stop?_eq, captures_fresh]

end Machine

def maxNesting : Nat := 500

namespace Program

/-- Where the first match that begins at `start` ends. Ways to match are tried in order: earlier
branches first, and as many laps as possible first unless a quantifier is lazy. -/
def matchAt? (program : Program) (mapping : CaseMapping) (input : Array Char) (start : Nat) :
    Option Nat :=
  let machine : Machine := ⟨program, mapping, input⟩
  ((machine.runner (maxNesting + 1)).1 0 start none (.fresh program.slots)).stop?

/-- A run finds the first way in which the tree matches. -/
theorem matchAt?_eq (program : Program) (mapping : CaseMapping) (input : Array Char)
    (start : Nat) : program.matchAt? mapping input start =
      if start ≤ input.size then
        (program.pattern.root.ways ⟨mapping, program.pattern.flags, input⟩ (some maxNesting) start
          Captures.none).head?.map Way.stop
      else none := by
  let m : Machine := ⟨program, mapping, input⟩
  by_cases hstart : start ≤ input.size
  · rw [if_pos hstart]
    have hstop := m.stop?_runner program.entry_zero (maxNesting + 1) hstart none
    rw [Machine.find?_meets_none] at hstop
    exact hstop
  · rw [if_neg hstart]
    have hstuck : ¬ (program.isEntry 0 = true ∧ start ≤ input.size) := fun h => hstart h.2
    simp only [matchAt?, Machine.runner, Machine.runWith, dif_neg hstuck]

theorem exists_way_of_matchAt? {program : Program} {mapping : CaseMapping} {input : Array Char}
    {start stop : Nat} (h : program.matchAt? mapping input start = some stop) :
    start ≤ input.size ∧ ∃ way ∈ program.pattern.root.ways ⟨mapping, program.pattern.flags, input⟩
      (some maxNesting) start Captures.none, way.stop = stop := by
  rw [matchAt?_eq] at h
  split at h
  · next hstart =>
    obtain ⟨way, hway, rfl⟩ := Option.map_eq_some_iff.mp h
    exact ⟨hstart, way, List.mem_of_mem_head? hway, rfl⟩
  · cases h

theorem matchAt?_le {program : Program} {mapping : CaseMapping} {input : Array Char}
    {start stop : Nat} (h : program.matchAt? mapping input start = some stop) :
    start ≤ stop ∧ stop ≤ input.size := by
  obtain ⟨hstart, way, hway, rfl⟩ := exists_way_of_matchAt? h
  exact Node.stop_mem_ways _ hstart hway

end Program
end TokenPatterns
