import TokenPatterns.Machine.Frames
import TokenPatterns.Proofs.Footprints
import TokenPatterns.Proofs.Groups

/-!
# Matching stays within bounds

No step of a match leaves the instructions of the program, its registers or the text. That holds of
each run by itself, whatever runs wait around it. So it holds of all runs together, where an
attempt at a lookaround begins with the registers of the run that waits for it and hands registers
back in which that run finds its captures as it left them.
-/
namespace TokenPatterns
namespace Machine

variable {m : Machine} {outer : List Frame} {frame : Frame} {waiting : List Waiting}
  {wait : Waiting} {below bottom registers : Registers m.program.slots}

/-- Whether a run waits at a lookaround, where it may still go on in each way. -/
structure WaitsAt (m : Machine) (outer : List Frame) (below : Registers m.program.slots)
    (frame : Frame) (wait : Waiting) (bottom : Registers m.program.slots) : Prop where
  instr_eq : m.program.instrs[frame.pc]? = some (.look wait.kind wait.body wait.next)
  pos_eq : wait.pos = frame.pos
  start_le : wait.start ≤ m.input.size
  base_eq : wait.base = below.mark
  isIn : m.IsIn outer frame
  keeps : m.Keeps outer frame.entry below bottom wait.pending

/-- Whether the runs that wait are those of the frames. The innermost run has begun with the
registers `bottom`. -/
inductive Waits (m : Machine) :
    List Frame → List Waiting → Registers m.program.slots → Prop
  | nil {bottom : Registers m.program.slots} : Waits m [] [] bottom
  | cons {outer : List Frame} {waiting : List Waiting} {below bottom : Registers m.program.slots}
      {frame : Frame} {wait : Waiting} :
      m.WaitsAt outer below frame wait bottom → Waits m outer waiting below →
      Waits m (frame :: outer) (wait :: waiting) bottom

def AllKeepTo (m : Machine) :
    Progress (Runs m.program.slots) (Outcome m.program.slots) → Prop
  | .more runs => ∃ outer entry bottom, runs.base = bottom.mark ∧
      m.Waits outer runs.waiting bottom ∧ m.KeepsTo outer entry bottom runs.place
  | .done outcome => ∃ bottom, m.Leaves [] bottom outcome

theorem allKeepTo_attempt (hwait : m.WaitsAt outer below frame wait registers)
    (hwaiting : m.Waits outer waiting below) (hrests : m.Rests (frame :: outer) registers) :
    m.AllKeepTo (.more (attempt waiting wait registers)) := by
  refine ⟨frame :: outer, wait.body, registers, rfl, .cons hwait hwaiting, ?_⟩
  dsimp only [attempt]
  split
  · have hbody := Program.body_eq_of_look hwait.instr_eq
    obtain ⟨body, register, hentry⟩ :=
      Program.exists_entry (Program.isEntry_of_look hwait.instr_eq)
    have houter : ∀ other ∈ frame :: outer, other.entry ≤ other.pc ∧ other.pc < wait.body := by
      have hframe := hwait.isIn.entry_le
      refine List.forall_mem_cons.mpr ⟨⟨hframe, by omega⟩, fun other hother => ?_⟩
      obtain ⟨hle, hlt⟩ := hwait.isIn.outer_lt other hother
      omega
    have hisIn : m.IsIn (frame :: outer) ⟨wait.body, wait.body, wait.start⟩ :=
      ⟨⟨body, register, hentry, Nat.le_add_right _ _⟩, Nat.le_refl _, hwait.start_le, houter⟩
    have hnone : m.HasBegun ⟨wait.body, wait.body, wait.start⟩ registers :=
      fun group _ hdepth => absurd hdepth (Int.lt_irrefl _)
    exact ⟨⟨hisIn, hrests.inText, List.forall_mem_cons.mpr ⟨hnone, hrests.begun⟩⟩,
      .nil (.refl _) hrests⟩
  · exact .failure (.refl _) hrests

theorem allKeepTo_goOn (hwait : m.WaitsAt outer below frame wait bottom)
    (hwaiting : m.Waits outer waiting below) (hext : registers.Extends bottom)
    (hrests : m.Rests (frame :: outer) registers) (found : Bool) :
    m.AllKeepTo (.more (goOn waiting wait found registers)) := by
  have hkeeps := hwait.keeps.mono hext
  refine ⟨outer, frame.entry, below, hwait.base_eq, hwaiting, ?_⟩
  dsimp only [goOn]
  split
  · rw [hwait.base_eq]
    exact keepsTo_resume hkeeps
  · have hstands : m.Stands outer frame registers := ⟨hwait.isIn, hrests⟩
    rw [hwait.pos_eq]
    exact ⟨hstands.goOn hwait.instr_eq (List.mem_cons_of_mem _ List.mem_cons_self) (by simp)
      (Nat.le_refl _) hwait.isIn.pos_le, hkeeps⟩

theorem allKeepTo_handBack {outcome : Outcome m.program.slots}
    (hwait : m.WaitsAt outer below frame wait bottom) (hwaiting : m.Waits outer waiting below)
    (hleaves : m.Leaves (frame :: outer) bottom outcome) :
    m.AllKeepTo (.more (handBack waiting wait outcome)) := by
  have hgoOn := allKeepTo_goOn hwait hwaiting hleaves.extends_bottom hleaves.rests
  unfold handBack
  split
  · exact hgoOn true
  · split
    · next start _ hstart =>
      have hagain : m.WaitsAt outer below frame { wait with start } outcome.registers :=
        { hwait with
          start_le := Nat.le_of_succ_le (hstart ▸ hwait.start_le)
          keeps := hwait.keeps.mono hleaves.extends_bottom }
      exact allKeepTo_attempt hagain hwaiting hleaves.rests
    · exact hgoOn false

/-- What runs keep to is kept by each of their steps. -/
theorem allKeepTo_advance (hlaid : m.program.WellLaidOut) {runs : Runs m.program.slots}
    (h : m.AllKeepTo (.more runs)) : m.AllKeepTo (m.advance runs) := by
  obtain ⟨outer, entry, bottom, hbase, hwaiting, hplace⟩ := h
  obtain ⟨goal?, base, place, waiting⟩ := runs
  dsimp only at hbase hwaiting hplace
  subst hbase
  cases place with
  | done outcome =>
    cases hwaiting with
    | nil => exact ⟨bottom, hplace⟩
    | cons hwait hwaiting => exact allKeepTo_handBack hwait hwaiting hplace
  | more config =>
    obtain ⟨hstands, hkeeps⟩ := hplace
    obtain ⟨pc, pos, registers, pending⟩ := config
    dsimp only at hstands hkeeps
    by_cases hlook : ∃ kind body next, m.program.instrs[pc]? = some (.look kind body next)
    · obtain ⟨kind, body, next, hinstr⟩ := hlook
      rw [advance_of_look hinstr]
      exact allKeepTo_attempt ⟨hinstr, rfl, hstands.isIn.pos_le, rfl, hstands.isIn, hkeeps⟩
        hwaiting hstands.rests
    · have hother : ∀ kind body next, m.program.instrs[pc]? ≠ some (.look kind body next) :=
        fun kind body next hinstr => hlook ⟨kind, body, next, hinstr⟩
      obtain ⟨body, register, hentry, hlast⟩ := hstands.isIn.entered
      have hlt : pc < m.program.instrs.size := hentry.lt_size hlast
      have hinstr := Array.getElem?_eq_getElem hlt
      rw [advance_of_ne_look hother fun _ _ _ registers => ⟨none, registers⟩,
        step_eq_perform hinstr]
      have hinner : ∀ kind body next, m.program.instrs[pc] ≠ .look kind body next :=
        fun kind body next heq => hother kind body next (heq ▸ hinstr)
      refine ⟨outer, entry, bottom, rfl, hwaiting, ?_⟩
      dsimp only
      exact keepsTo_perform hlaid hinstr hinner hstands hkeeps

theorem allKeepTo_launch (m : Machine) (start : Nat) : m.AllKeepTo (m.launch start) := by
  have hrests : m.Rests [] (.fresh m.program.slots) :=
    ⟨HoldsInText.fresh m, List.forall_mem_nil _⟩
  unfold launch
  dsimp only
  split
  · next hstart =>
    have hisIn : m.IsIn [] ⟨0, 0, start⟩ :=
      ⟨⟨_, _, m.program.entry_zero, Nat.zero_le _⟩, Nat.le_refl 0, hstart, List.forall_mem_nil _⟩
    have hnone : m.HasBegun ⟨0, 0, start⟩ (.fresh m.program.slots) :=
      fun group _ hdepth => absurd hdepth (Int.lt_irrefl _)
    exact ⟨[], 0, _, rfl, .nil, ⟨hisIn, hrests.inText, List.forall_mem_singleton.mpr hnone⟩,
      .nil (.refl _) hrests⟩
  · exact ⟨_, .failure (.refl _) hrests⟩

theorem allKeepTo_after (hlaid : m.program.WellLaidOut) (count : Nat)
    {place : Progress (Runs m.program.slots) (Outcome m.program.slots)} (h : m.AllKeepTo place) :
    m.AllKeepTo (Progress.after m.advance count place) :=
  Progress.holds_after (fun _ => allKeepTo_advance hlaid) count h

/-- Whether a run stands at an instruction that names registers of the program alone, from which its
step reads and writes no others, and in the text, with captures that lie in the text. -/
def RunInBounds (m : Machine) :
    Progress (Config m.program.slots) (Outcome m.program.slots) → Prop
  | .more config =>
    (∃ instr, m.program.instrs[config.pc]? = some instr ∧
      ∀ register ∈ instr.registers, register < m.program.slots) ∧
    m.StepsWithin (· < m.program.slots) config ∧ config.pos ≤ m.input.size ∧
    m.HoldsInText config.registers
  | .done outcome =>
    (∀ stop, outcome.stop? = some stop → stop ≤ m.input.size) ∧ m.HoldsInText outcome.registers

/-- Whether the innermost run, or the outcome of all, is within bounds. -/
def InBounds (m : Machine) :
    Progress (Runs m.program.slots) (Outcome m.program.slots) → Prop
  | .more runs => m.RunInBounds runs.place
  | .done outcome => m.RunInBounds (.done outcome)

theorem runInBounds_of_keepsTo (hlaid : m.program.WellLaidOut) {entry : Nat}
    {place : Progress (Config m.program.slots) (Outcome m.program.slots)}
    (h : m.KeepsTo outer entry bottom place) : m.RunInBounds place := by
  cases place with
  | more config =>
    obtain ⟨hstands, -⟩ := h
    obtain ⟨body, register, hentry, hlast⟩ := hstands.isIn.entered
    have hlt : config.pc < m.program.instrs.size := hentry.lt_size hlast
    have hinstr := Array.getElem?_eq_getElem hlt
    have hslots := hlaid.register_lt _ (Array.getElem_mem hlt)
    exact ⟨⟨_, hinstr, hslots⟩, stepsWithin_of_registers hinstr hslots, hstands.isIn.pos_le,
      hstands.rests.inText⟩
  | done outcome => exact ⟨h.stop_le, h.rests.inText⟩

theorem inBounds_of_allKeepTo (hlaid : m.program.WellLaidOut)
    {place : Progress (Runs m.program.slots) (Outcome m.program.slots)} (h : m.AllKeepTo place) :
    m.InBounds place := by
  cases place with
  | more runs =>
    obtain ⟨outer, entry, bottom, -, -, hplace⟩ := h
    exact runInBounds_of_keepsTo hlaid hplace
  | done outcome =>
    obtain ⟨bottom, hleaves⟩ := h
    exact ⟨hleaves.stop_le, hleaves.rests.inText⟩

end Machine

/-- How all matches of a program stay within bounds, from the layout of its instructions to what a
match answers after finitely many steps. -/
structure Program.StaysInBounds (p : Program) : Prop where
  wellLaidOut : p.WellLaidOut
  inBounds : ∀ (mapping : CaseMapping) (input : Array Char) (start count : Nat),
    let machine : Machine := ⟨p, mapping, input⟩
    machine.InBounds (Progress.after machine.advance count (machine.launch start))
  exists_outcome : ∀ (mapping : CaseMapping) (input : Array Char) (start : Nat),
    let machine : Machine := ⟨p, mapping, input⟩
    ∃ count outcome, Progress.after machine.advance count (machine.launch start) = .done outcome ∧
      outcome.stop? = p.matchAt? mapping input start
  match_le : ∀ (mapping : CaseMapping) (input : Array Char) (start stop : Nat),
    p.matchAt? mapping input start = some stop → start ≤ stop ∧ stop ≤ input.size

theorem Program.WellLaidOut.staysInBounds {p : Program} (h : p.WellLaidOut) :
    p.StaysInBounds where
  wellLaidOut := h
  inBounds mapping input start count := by
    intro machine
    exact Machine.inBounds_of_allKeepTo h
      (Machine.allKeepTo_after h count (machine.allKeepTo_launch start))
  exists_outcome mapping input start := (Machine.ends_launch ⟨p, mapping, input⟩ start).exists_after
  match_le _ _ _ _ hmatch := Program.matchAt?_le hmatch

namespace Pattern

open Regex

theorem references_literal (text : String) (flags : Flags) :
    (literal text flags).root.references = [] := by
  simp only [literal, Node.references]
  induction text.toList with
  | nil => rfl
  | cons c chars ih => simp [Node.referencesAll, Node.references, ih]

theorem references_within {source : PatternSource} {flags : Flags} {pattern : Pattern}
    (h : ofSource? source flags = .ok pattern) :
    ∀ number ∈ pattern.root.references, 1 ≤ number ∧ number ≤ pattern.captureCount := by
  intro number hnumber
  cases source with
  | regex text =>
    have hparse := parse_of_ofSource? h
    have hmistake : (lex text).mistake = none := (exists_numbers_of_parse hparse).1
    have hcount : pattern.captureCount = (GroupSurvey.ofText text.toList).count := by
      rw [captureCount, pattern.isRoot.lastCapture_eq, captures_of_parse hparse,
        List.length_range']
    exact hcount ▸ within_of_mem_references hparse hnumber
  | literal text =>
    cases h
    rw [references_literal] at hnumber
    cases hnumber

/-- The matches of each pattern that can be read stay within bounds. -/
theorem staysInBounds_of_ofSource? {source : PatternSource} {flags : Flags} {pattern : Pattern}
    (h : ofSource? source flags = .ok pattern) : pattern.program.StaysInBounds :=
  (Program.wellLaidOut (references_within h)).staysInBounds

/-- A capture in a lookbehind, which is tried from several starts, and a reference to it. -/
theorem staysInBounds_of_repeated_lookbehind :
    ∃ pattern, ofSource? (.regex "(?<=(a+)b)\\1c") {} = .ok pattern ∧
      pattern.root.references = [1] ∧
      pattern.program.matchAt? .unicode #['a', 'b', 'a', 'c'] 2 = some 4 ∧
      pattern.program.StaysInBounds := by
  have hread : (ofSource? (.regex "(?<=(a+)b)\\1c") {}).toOption.map
      (fun pattern => (pattern.root, pattern.flags)) =
        some (.concat [.look ⟨true, false⟩ (.concat
          [.group (some 1) (.repetition .plus (.literal 'a')), .literal 'b']), .backreference 1,
            .literal 'c'], {}) := by
    decide +kernel
  cases h : ofSource? (.regex "(?<=(a+)b)\\1c") {} with
  | error mistake => simp [h, Except.toOption] at hread
  | ok pattern =>
    simp only [h, Except.toOption, Option.map_some, Option.some.injEq, Prod.mk.injEq] at hread
    obtain ⟨hroot, hflags⟩ := hread
    refine ⟨pattern, rfl, ?_, ?_, staysInBounds_of_ofSource? h⟩
    · rw [hroot]
      rfl
    · rw [Program.matchAt?_eq]
      simp only [Pattern.program, hroot, hflags]
      decide +kernel

end Pattern
end TokenPatterns
