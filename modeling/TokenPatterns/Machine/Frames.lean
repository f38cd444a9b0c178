import TokenPatterns.Machine.Simulation
import TokenPatterns.Machine.Slots

/-!
# What runs keep to

A run stays among the instructions that it was entered for and in the text. Whatever it captures
lies in the text, too, since each capture that is under way where the run stands has begun at a
place of the text in front of it. A run at a lookaround must not disturb the captures that are under
way in the runs around it. It does not, for it enters captures of its own alone.

Going back to a choice brings back the registers of the time when it was kept. So what has to hold
there is carried along with the choices, for those registers.
-/
namespace TokenPatterns

open Pattern (captureRegister)

/-- The place at which a run was entered and where it stands by now. -/
structure Frame where
  entry : Nat
  pc : Nat
  pos : Nat

namespace Machine

/-- Whether the log names registers of the program alone and each capture lies in the text. -/
structure HoldsInText (m : Machine) (registers : Registers m.program.slots) : Prop where
  slot_lt : ∀ write ∈ registers.log, write.1 < m.program.slots
  span_le : ∀ group ≤ m.program.pattern.captureCount, ∀ start stop,
    span? registers group = some (start, stop) → start ≤ stop ∧ stop ≤ m.input.size

/-- Whether each capture that is under way in a run has begun in front of where the run stands. -/
def HasBegun (m : Machine) (frame : Frame) (registers : Registers m.program.slots) : Prop :=
  ∀ group ≤ m.program.pattern.captureCount,
    m.program.depthAt group frame.entry < m.program.depthAt group frame.pc →
      ∃ start ≤ frame.pos, registers.get (captureRegister group + 2) = some start

/-- What registers hold beside some runs that are under way. -/
structure Rests (m : Machine) (frames : List Frame) (registers : Registers m.program.slots) :
    Prop where
  inText : m.HoldsInText registers
  begun : ∀ frame ∈ frames, m.HasBegun frame registers

/-- Whether a run stands where it was entered for, in the text, and behind the lookarounds at which
the runs around it wait. -/
structure IsIn (m : Machine) (outer : List Frame) (frame : Frame) : Prop where
  entered : ∃ body register, m.program.Entry frame.entry body register ∧
    frame.pc ≤ frame.entry + body.size
  entry_le : frame.entry ≤ frame.pc
  pos_le : frame.pos ≤ m.input.size
  outer_lt : ∀ other ∈ outer, other.entry ≤ other.pc ∧ other.pc < frame.entry

structure Stands (m : Machine) (outer : List Frame) (frame : Frame)
    (registers : Registers m.program.slots) : Prop where
  isIn : m.IsIn outer frame
  rests : m.Rests (frame :: outer) registers

/-- Whether a run can go on from each choice that it kept, with the registers of then, and can fail
with the registers that it began with. -/
inductive Keeps (m : Machine) (outer : List Frame) (entry : Nat)
    (bottom : Registers m.program.slots) :
    Registers m.program.slots → List Alternative → Prop
  | nil {registers : Registers m.program.slots} : registers.Extends bottom → m.Rests outer bottom →
      Keeps m outer entry bottom registers []
  | cons {registers saved : Registers m.program.slots} {pc pos : Nat}
      {pending : List Alternative} :
      registers.Extends saved → m.Stands outer ⟨entry, pc, pos⟩ saved →
      Keeps m outer entry bottom saved pending →
      Keeps m outer entry bottom registers (⟨pc, pos, saved.mark⟩ :: pending)

/-- What a run leaves to those around it. -/
structure Leaves (m : Machine) (outer : List Frame) (bottom : Registers m.program.slots)
    (outcome : Outcome m.program.slots) : Prop where
  extends_bottom : outcome.registers.Extends bottom
  rests : m.Rests outer outcome.registers
  stop_le : ∀ stop, outcome.stop? = some stop → stop ≤ m.input.size

/-- What holds of a run at each of its steps. -/
def KeepsTo (m : Machine) (outer : List Frame) (entry : Nat) (bottom : Registers m.program.slots) :
    Progress (Config m.program.slots) (Outcome m.program.slots) → Prop
  | .more config => m.Stands outer ⟨entry, config.pc, config.pos⟩ config.registers ∧
      m.Keeps outer entry bottom config.registers config.pending
  | .done outcome => m.Leaves outer bottom outcome

variable {m : Machine} {outer : List Frame} {frame : Frame}
  {entry pc pos target reached group slot : Nat} {instr : Instr}
  {bottom registers later : Registers m.program.slots} {pending : List Alternative}

section Registers

theorem HoldsInText.fresh (m : Machine) : m.HoldsInText (.fresh m.program.slots) where
  slot_lt := by simp [Registers.fresh]
  span_le group _ start stop h := by simp [span?, Registers.get_fresh] at h

theorem slot_lt_of_set {value : Option Nat}
    (h : ∀ write ∈ registers.log, write.1 < m.program.slots) (hslot : slot < m.program.slots) :
    ∀ write ∈ (registers.set slot value).log, write.1 < m.program.slots := by
  intro write hwrite
  rw [Registers.set, Array.mem_push] at hwrite
  rcases hwrite with hearlier | rfl
  · exact h write hearlier
  · exact hslot

theorem HoldsInText.set {value : Option Nat} (h : m.HoldsInText registers)
    (hslot : slot < m.program.slots)
    (hspan : m.captures (registers.set slot value) = m.captures registers) :
    m.HoldsInText (registers.set slot value) where
  slot_lt := slot_lt_of_set h.slot_lt hslot
  span_le group hgroup start stop hsome := by
    rw [← captures_of_le hgroup, hspan, captures_of_le hgroup] at hsome
    exact h.span_le group hgroup start stop hsome

/-- Where a run has begun with its captures does not depend on other registers. -/
theorem HasBegun.of_get (h : m.HasBegun frame registers)
    (hget : ∀ group ≤ m.program.pattern.captureCount,
      later.get (captureRegister group + 2) = registers.get (captureRegister group + 2)) :
    m.HasBegun frame later := by
  intro group hgroup hdepth
  rw [hget group hgroup]
  exact h group hgroup hdepth

theorem Rests.set_loop {frames : List Frame} (h : m.Rests frames registers)
    (hfirst : m.program.pattern.captureRegisters ≤ slot) (hlast : slot < m.program.slots)
    (value : Option Nat) : m.Rests frames (registers.set slot value) where
  inText := h.inText.set hlast (captures_set_loop hfirst value)
  begun frame hframe := (h.begun frame hframe).of_get fun group hgroup => by
    apply Registers.get_set_of_ne
    simp only [Pattern.captureRegisters, captureRegister] at hfirst ⊢
    omega

theorem HoldsInText.keep (h : m.HoldsInText registers)
    (hgroup : group ≤ m.program.pattern.captureCount)
    (hslot : captureRegister group + 1 < m.program.slots) {start stop : Nat} (hle : start ≤ stop)
    (hstop : stop ≤ m.input.size) :
    m.HoldsInText ((registers.set (captureRegister group) (some start)).set
      (captureRegister group + 1) (some stop)) where
  slot_lt := slot_lt_of_set (slot_lt_of_set h.slot_lt (Nat.lt_of_succ_lt hslot)) hslot
  span_le := by
    intro other hother first last hsome
    rw [← captures_of_le hother, captures_set_span hgroup hslot, Captures.keep] at hsome
    split at hsome
    · cases hsome
      exact ⟨hle, hstop⟩
    · rw [captures_of_le hother] at hsome
      exact h.span_le other hother first last hsome

theorem Rests.keep {frames : List Frame} (h : m.Rests frames registers)
    (hgroup : group ≤ m.program.pattern.captureCount)
    (hslot : captureRegister group + 1 < m.program.slots) {start stop : Nat} (hle : start ≤ stop)
    (hstop : stop ≤ m.input.size) :
    m.Rests frames ((registers.set (captureRegister group) (some start)).set
      (captureRegister group + 1) (some stop)) where
  inText := h.inText.keep hgroup hslot hle hstop
  begun frame hframe := (h.begun frame hframe).of_get fun other _ => by
    rw [Registers.get_set_of_ne, Registers.get_set_of_ne] <;> simp only [captureRegister] <;> omega

theorem Keeps.mono (h : m.Keeps outer entry bottom registers pending)
    (hlater : later.Extends registers) : m.Keeps outer entry bottom later pending := by
  cases h with
  | nil hext hrests => exact .nil (hlater.trans hext) hrests
  | cons hext hstands hkeeps => exact .cons (hlater.trans hext) hstands hkeeps

theorem Keeps.extends_bottom (h : m.Keeps outer entry bottom registers pending) :
    registers.Extends bottom := by
  induction h with
  | nil hext _ => exact hext
  | cons hext _ _ ih => exact hext.trans ih

theorem Leaves.failure (hext : registers.Extends bottom) (hrests : m.Rests outer registers) :
    m.Leaves outer bottom ⟨none, registers⟩ where
  extends_bottom := hext
  rests := hrests
  stop_le := by simp

end Registers

section Moving

theorem IsIn.exists_steers (h : m.IsIn outer ⟨entry, pc, pos⟩)
    (hinstr : m.program.instrs[pc]? = some instr) : ∃ body register,
      m.program.Entry entry body register ∧
        m.program.Steers entry (entry + body.size) pc instr := by
  obtain ⟨body, register, hentry, hlast⟩ := h.entered
  exact ⟨body, register, hentry, hentry.steers h.entry_le hlast hinstr⟩

theorem IsIn.goOn (h : m.IsIn outer ⟨entry, pc, pos⟩)
    (hinstr : m.program.instrs[pc]? = some instr) (htarget : target ∈ instr.leadsTo pc)
    (hreached : reached ≤ m.input.size) : m.IsIn outer ⟨entry, target, reached⟩ := by
  obtain ⟨body, register, hentry, hsteers⟩ := h.exists_steers hinstr
  obtain ⟨hfirst, hlast⟩ := hsteers.target_mem target htarget
  exact ⟨⟨body, register, hentry, hlast⟩, hfirst, hreached, h.outer_lt⟩

/-- Where an instruction leads to, no capture is under way that was not before, unless it begins
one. -/
theorem IsIn.depthAt_le (h : m.IsIn outer ⟨entry, pc, pos⟩)
    (hinstr : m.program.instrs[pc]? = some instr) (htarget : target ∈ instr.leadsTo pc)
    (hstart : instr ≠ .groupStart group) :
    m.program.depthAt group target ≤ m.program.depthAt group pc := by
  obtain ⟨body, register, -, hsteers⟩ := h.exists_steers hinstr
  rw [hsteers.depth_eq target htarget, Program.depthAt_succ _ (.of_getElem? hinstr)]
  have hchange := Instr.depthChange_nonpos hstart
  omega

theorem Stands.goOn (h : m.Stands outer ⟨entry, pc, pos⟩ registers)
    (hinstr : m.program.instrs[pc]? = some instr) (htarget : target ∈ instr.leadsTo pc)
    (hstart : ∀ group, instr ≠ .groupStart group) (hle : pos ≤ reached)
    (hreached : reached ≤ m.input.size) : m.Stands outer ⟨entry, target, reached⟩ registers := by
  obtain ⟨hbegun, houter⟩ := List.forall_mem_cons.mp h.rests.begun
  refine ⟨h.isIn.goOn hinstr htarget hreached,
    ⟨h.rests.inText, List.forall_mem_cons.mpr ⟨?_, houter⟩⟩⟩
  intro group hgroup hdepth
  have hless := h.isIn.depthAt_le hinstr htarget (hstart group)
  obtain ⟨start, hbefore, hget⟩ := hbegun group hgroup (Int.lt_of_lt_of_le hdepth hless)
  exact ⟨start, Nat.le_trans hbefore hle, hget⟩

theorem Stands.groupStart (h : m.Stands outer ⟨entry, pc, pos⟩ registers)
    (hlaid : m.program.WellLaidOut) (hinstr : m.program.instrs[pc]? = some (.groupStart group)) :
    m.Stands outer ⟨entry, pc + 1, pos⟩
      (registers.set (captureRegister group + 2) (some pos)) := by
  have hmem := Array.mem_of_getElem? hinstr
  have hslot := hlaid.register_lt _ hmem (captureRegister group + 2) List.mem_cons_self
  have hne : ∀ other, other ≠ group →
      (registers.set (captureRegister group + 2) (some pos)).get (captureRegister other + 2) =
        registers.get (captureRegister other + 2) := by
    intro other hother
    apply Registers.get_set_of_ne
    simp only [captureRegister]
    omega
  obtain ⟨hbegun, houter⟩ := List.forall_mem_cons.mp h.rests.begun
  refine ⟨h.isIn.goOn hinstr List.mem_cons_self h.isIn.pos_le,
    ⟨h.rests.inText.set hslot (captures_set_attempt _), List.forall_mem_cons.mpr ⟨?_, ?_⟩⟩⟩
  · intro other hle hdepth
    by_cases hother : other = group
    · rw [hother]
      exact ⟨pos, Nat.le_refl _, Registers.get_set_self hslot _ _⟩
    · rw [hne other hother]
      have hless := h.isIn.depthAt_le hinstr List.mem_cons_self
        fun heq => hother (Instr.groupStart.inj heq).symm
      exact hbegun other hle (Int.lt_of_lt_of_le hdepth hless)
  · intro frame hframe other hle hdepth
    obtain ⟨hentry, hbefore⟩ := h.isIn.outer_lt frame hframe
    have hother : other ≠ group := by
      rintro rfl
      obtain ⟨place, hplace, hstart⟩ := Program.exists_groupStart_of_depthAt_lt hentry hdepth
      have hsame := Program.groupStart_unique hstart hinstr
      have hfirst := h.isIn.entry_le
      dsimp only at hfirst hbefore
      omega
    rw [hne other hother]
    exact houter frame hframe other hle hdepth

theorem Stands.groupEnd (h : m.Stands outer ⟨entry, pc, pos⟩ registers)
    (hlaid : m.program.WellLaidOut) (hinstr : m.program.instrs[pc]? = some (.groupEnd group)) :
    m.Stands outer ⟨entry, pc + 1, pos⟩
      ((registers.set (captureRegister group) (registers.get (captureRegister group + 2))).set
        (captureRegister group + 1) (some pos)) := by
  have hmem := Array.mem_of_getElem? hinstr
  have hgroup := (hlaid.group_mem _ hmem group List.mem_cons_self).2
  have hslot := hlaid.register_lt _ hmem (captureRegister group + 1) (by simp [Instr.registers])
  obtain ⟨body, register, -, hsteers⟩ := h.isIn.exists_steers hinstr
  obtain ⟨start, hbefore, hget⟩ :=
    h.rests.begun _ List.mem_cons_self group hgroup (hsteers.entered group rfl)
  rw [hget]
  have hkept : m.Stands outer ⟨entry, pc, pos⟩ _ :=
    ⟨h.isIn, h.rests.keep hgroup hslot hbefore h.isIn.pos_le⟩
  exact hkept.goOn hinstr List.mem_cons_self (by simp) (Nat.le_refl _) h.isIn.pos_le

end Moving

section Step

variable {look : Runner m.program.slots} {goal? : Option Nat}

theorem keepsTo_resume (h : m.Keeps outer entry bottom registers pending) :
    m.KeepsTo outer entry bottom (resume bottom.mark registers pending) := by
  cases h with
  | nil hext hrests =>
    rw [resume, hext.2]
    exact .failure (.refl _) hrests
  | cons hext hstands hkeeps =>
    rw [resume, hext.2]
    exact ⟨hstands, hkeeps⟩

theorem keepsTo_consume {p : Char → Bool} (hinstr : m.program.instrs[pc]? = some instr)
    (hnext : instr.leadsTo pc = [pc + 1]) (hstart : ∀ group, instr ≠ .groupStart group)
    (hstands : m.Stands outer ⟨entry, pc, pos⟩ registers)
    (hkeeps : m.Keeps outer entry bottom registers pending) :
    m.KeepsTo outer entry bottom (m.consume bottom.mark p pc pos registers pending) := by
  unfold consume
  split
  · next c hc =>
    split
    · have hreached := (Array.getElem?_eq_some_iff.mp hc).1
      exact ⟨hstands.goOn hinstr (hnext ▸ List.mem_cons_self) hstart (Nat.le_succ pos) hreached,
        hkeeps⟩
    · exact keepsTo_resume hkeeps
  · exact keepsTo_resume hkeeps

/-- What a run keeps to is kept by each instruction, those of lookarounds apart. -/
theorem keepsTo_perform (hlaid : m.program.WellLaidOut)
    (hinstr : m.program.instrs[pc]? = some instr)
    (hlook : ∀ kind body next, instr ≠ .look kind body next)
    (hstands : m.Stands outer ⟨entry, pc, pos⟩ registers)
    (hkeeps : m.Keeps outer entry bottom registers pending) :
    m.KeepsTo outer entry bottom
      (m.perform look goal? bottom.mark pc pos registers pending instr) := by
  have hmem := Array.mem_of_getElem? hinstr
  have hpos := hstands.isIn.pos_le
  have hstay : ∀ target ∈ instr.leadsTo pc, (∀ group, instr ≠ .groupStart group) →
      m.Stands outer ⟨entry, target, pos⟩ registers :=
    fun target htarget hstart => hstands.goOn hinstr htarget hstart (Nat.le_refl _) hpos
  have howned : ∀ register ∈ instr.loopRegisters, m.program.pattern.captureRegisters ≤ register :=
    fun register hown => (hlaid.loop_mem _ (hlaid.loop_started _ hmem register hown)).1
  have hloop : ∀ slot value, slot ∈ instr.registers → m.program.pattern.captureRegisters ≤ slot →
      m.Stands outer ⟨entry, pc, pos⟩ (registers.set slot value) :=
    fun slot value hslot hfirst => ⟨hstands.isIn,
      hstands.rests.set_loop hfirst (hlaid.register_lt _ hmem slot hslot) value⟩
  cases instr with
  | char c => exact keepsTo_consume hinstr rfl (by simp) hstands hkeeps
  | charClass set => exact keepsTo_consume hinstr rfl (by simp) hstands hkeeps
  | anyChar => exact keepsTo_consume hinstr rfl (by simp) hstands hkeeps
  | anchor kind =>
    simp only [perform]
    split
    · exact ⟨hstay _ List.mem_cons_self (by simp), hkeeps⟩
    · exact keepsTo_resume hkeeps
  | look kind body next => exact absurd rfl (hlook kind body next)
  | split first second =>
    exact ⟨hstay first List.mem_cons_self (by simp),
      .cons (.refl _) (hstay second (List.mem_cons_of_mem _ List.mem_cons_self) (by simp)) hkeeps⟩
  | jump target => exact ⟨hstay target List.mem_cons_self (by simp), hkeeps⟩
  | groupStart group =>
    exact ⟨hstands.groupStart hlaid hinstr, hkeeps.mono (.set _ _ _)⟩
  | groupEnd group =>
    exact ⟨hstands.groupEnd hlaid hinstr,
      hkeeps.mono ((Registers.Extends.set _ _ _).trans (.set _ _ _))⟩
  | backreference group =>
    simp only [perform]
    split
    · next stop hstop =>
      obtain ⟨hle, hreached⟩ := Subject.repeatSpan?_le hpos hstop
      exact ⟨hstands.goOn hinstr List.mem_cons_self (by simp) hle hreached, hkeeps⟩
    · exact keepsTo_resume hkeeps
  | loopStart register =>
    have hfirst := howned register List.mem_cons_self
    exact ⟨(hloop register _ List.mem_cons_self hfirst).goOn hinstr List.mem_cons_self (by simp)
      (Nat.le_refl _) hpos, hkeeps.mono (.set _ _ _)⟩
  | loop register quantifier exit =>
    have hlap := hstay (pc + 1) List.mem_cons_self (by simp)
    have hexit := hstay exit (List.mem_cons_of_mem _ List.mem_cons_self) (by simp)
    simp only [perform]
    split
    · exact ⟨hlap, hkeeps⟩
    · split
      · exact ⟨hexit, hkeeps⟩
      · split
        · exact ⟨hlap, .cons (.refl _) hexit hkeeps⟩
        · exact ⟨hexit, .cons (.refl _) hlap hkeeps⟩
  | lapStart register =>
    have hfirst := howned register List.mem_cons_self
    exact ⟨(hloop (register + 1) _ List.mem_cons_self (Nat.le_succ_of_le hfirst)).goOn hinstr
      List.mem_cons_self (by simp) (Nat.le_refl _) hpos, hkeeps.mono (.set _ _ _)⟩
  | lapEnd register min head =>
    have hfirst := howned register List.mem_cons_self
    simp only [perform]
    split
    · exact keepsTo_resume hkeeps
    · exact ⟨(hloop register _ List.mem_cons_self hfirst).goOn hinstr List.mem_cons_self (by simp)
        (Nat.le_refl _) hpos, hkeeps.mono (.set _ _ _)⟩
  | accept =>
    simp only [perform]
    split
    · refine ⟨hkeeps.extends_bottom, ⟨hstands.rests.inText, ?_⟩, ?_⟩
      · exact (List.forall_mem_cons.mp hstands.rests.begun).2
      · rintro stop ⟨⟩
        exact hpos
    · exact keepsTo_resume hkeeps

end Step

end Machine
end TokenPatterns
