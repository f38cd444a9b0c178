import TokenPatterns.Machine.Calls
import TokenPatterns.Proofs.Termination

/-!
# Runs that fail leave no trace

Whatever a run has written is undone if it fails, however many attempts at lookarounds were made in
it and whichever of them was refused. What is left of a run that matches can be undone, since its
log goes on from the one that it was given.
-/
namespace TokenPatterns

namespace Registers

variable {count : Nat}

theorem toList_log_rewind (mark : Nat) (registers : Registers count) :
    (registers.rewind mark).log.toList = registers.log.toList.take mark := by
  fun_induction rewind mark registers with
  | case1 registers hlt slot value hlast ih =>
    rw [ih, Array.toList_pop, List.dropLast_eq_take, List.take_take, Array.length_toList,
      Nat.min_eq_left (by omega)]
  | case2 registers hle =>
    rw [List.take_of_length_le (by rw [Array.length_toList]; omega)]

theorem Extends.log_prefix {later registers : Registers count} (h : later.Extends registers) :
    registers.log.toList <+: later.log.toList := by
  rw [← h.2, toList_log_rewind]
  exact List.take_prefix _ _

end Registers

namespace Machine

variable {m : Machine} {call : Call m.program.slots}

/-- Whether a call is made where a run may start, and in the text. -/
def BeginsInText (m : Machine) (call : Call m.program.slots) : Prop :=
  m.program.isEntry call.pc = true ∧ call.pos ≤ m.input.size

theorem Reaches.pos_le {config : Config m.program.slots} (h : m.Reaches call config)
    (hpos : call.pos ≤ m.input.size) : config.pos ≤ m.input.size := by
  obtain ⟨-, count, hconfig⟩ := h
  have hbegin : m.InText (m.begin call) := ⟨hpos, List.forall_mem_nil _⟩
  have hafter : m.InText (Progress.after (m.stepIn call) count (m.begin call)) :=
    Progress.holds_after (fun _ => inText_step) count hbegin
  rw [hconfig] at hafter
  exact hafter.1

/-- Calls are made at entries of the program and in the text. By induction on how they come about. -/
theorem Makes.beginsInText {first : Call m.program.slots} (h : m.Makes first call)
    (hfirst : m.BeginsInText first) : m.BeginsInText call := by
  induction h with
  | self => exact hfirst
  | attempt _ hreaches hinstr ih =>
    exact ⟨Program.isEntry_of_look hinstr, hreaches.pos_le ih.2⟩
  | retry _ _ hpos _ ih =>
    have hle := ih.2
    rw [hpos] at hle
    exact ⟨ih.1, Nat.le_of_succ_le hle⟩

theorem beginsInText_callFrom {start : Nat} (h : start ≤ m.input.size) :
    m.BeginsInText (m.callFrom start) :=
  ⟨m.program.entry_zero.isEntry, h⟩

theorem isCarriedOut_of_beginsInText (h : m.BeginsInText call) : m.IsCarriedOut call := by
  obtain ⟨allowance, pc, pos, goal?, registers⟩ := call
  cases allowance with
  | zero =>
    rw [IsCarriedOut, if_pos rfl]
    rfl
  | succ deeper =>
    have hrun : m.program.isEntry pc = true ∧ pos ≤ m.input.size := h
    have hends := m.ends (m.runner deeper).2 hrun.1 hrun.2 goal? registers
    have hanswer : m.answer ⟨deeper + 1, pc, pos, goal?, registers⟩ =
        Progress.follow _ _ hends := by
      simp only [answer, runner, runWith, dif_pos hrun]
    rw [IsCarriedOut, if_neg (Nat.succ_ne_zero _), hanswer]
    exact Progress.ends_follow hends

/-- What a call must not leave behind: no writes if it fails, and none that cannot be undone. -/
structure LeavesNoTrace (m : Machine) (call : Call m.program.slots) : Prop where
  registers_eq : (m.answer call).stop? = none → (m.answer call).registers = call.registers
  log_prefix : call.registers.log.toList <+: (m.answer call).registers.log.toList
  rewind_eq : (m.answer call).registers.rewind call.registers.mark = call.registers

theorem leavesNoTrace_of_beginsInText (h : m.BeginsInText call) : m.LeavesNoTrace call := by
  obtain ⟨body, register, hentry⟩ := Program.exists_entry h.1
  have hsound := (m.runner call.allowance).2 call.pc body register hentry call.pos h.2 call.goal?
    call.registers
  exact ⟨hsound.eq_of_failure, hsound.extends_registers.log_prefix, hsound.extends_registers.2⟩

/-- Each call that is made while a match is looked for is answered by its run, or refused, and
leaves no trace if it fails and none for good if it does not. -/
theorem leavesNoTrace_of_makes {start : Nat} (hstart : start ≤ m.input.size)
    (h : m.Makes (m.callFrom start) call) : m.IsCarriedOut call ∧ m.LeavesNoTrace call := by
  have hbegins := h.beginsInText (beginsInText_callFrom hstart)
  exact ⟨isCarriedOut_of_beginsInText hbegins, leavesNoTrace_of_beginsInText hbegins⟩

/-- A lookbehind whose body is tried from two starts. The second attempt keeps the letter as a
capture before it fails. -/
theorem leavesNoTrace_of_second_attempt :
    let body : Node := .concat [.group (some 1) (.literal 'a'), .literal 'b']
    let pattern : Pattern := ⟨.look ⟨true, false⟩ body, {}, ⟨rfl, rfl⟩⟩
    let m : Machine := ⟨pattern.program, .unicode, #['a', 'c']⟩
    let first := m.attemptAt (m.callFrom 1) ⟨0, 1, .fresh _, []⟩ ⟨true, false⟩ 1
    let second := m.retryAt first 0
    1 ≤ m.input.size ∧ m.Makes (m.callFrom 1) second ∧ m.IsCarriedOut second ∧
      m.LeavesNoTrace second := by
  intro body pattern m first second
  have hstart : 1 ≤ m.input.size := by decide
  have hfirst : m.Makes (m.callFrom 1) first := .attempt .self ⟨by decide, 0, rfl⟩ rfl
  have hentry : m.program.Entry 1 body pattern.captureRegisters :=
    .look m.program.entry_zero.places.left rfl (Nat.le_refl _) (by decide)
  have hfailed : (m.answer first).stop? = none :=
    (m.stop?_runner hentry maxNesting hstart (some 1)).trans (by decide +kernel)
  have hsecond : m.Makes (m.callFrom 1) second := .retry hfirst rfl rfl hfailed
  exact ⟨hstart, hsecond, leavesNoTrace_of_makes hstart hsecond⟩

end Machine
end TokenPatterns
