import TokenPatterns.Machine.Placement
import TokenPatterns.Machine.Step
import TokenPatterns.Search.Ways

/-!
# Runs follow the search

A run jumps back for another lap and goes back to choices that it kept, so no number simply falls
from step to step. Instead, the layout of a node passes on what a run comes to: if it ends from
behind the node, at this place of the text or a later one, then it ends from the node. It then
answers as the first way does in which the node matches and the run goes on from behind it. Each
lap of a repetition takes up text or counts towards its minimum, since one that does neither fails.

What holds of the registers is carried along. It must not depend on the registers that the node
itself may write to.
-/
namespace TokenPatterns

/-- The registers of some captures, and of so many repetitions from `register` on. -/
def Owned (captures : List Nat) (register loops slot : Nat) : Prop :=
  Pattern.captureOf slot ∈ captures ∨ register ≤ slot ∧ slot < register + 2 * loops

theorem Owned.mono {captures more : List Nat} {register register' loops loops' slot : Nat}
    (h : Owned captures register loops slot) (hmore : ∀ number ∈ captures, number ∈ more)
    (hle : register' ≤ register) (hend : register + 2 * loops ≤ register' + 2 * loops') :
    Owned more register' loops' slot := by
  rcases h with hcapture | ⟨hfirst, hlast⟩
  · exact .inl (hmore _ hcapture)
  · exact .inr ⟨by omega, by omega⟩

namespace Registers

variable {count : Nat}

/-- `later` holds what `registers` holds, except in registers that are owned. -/
def AgreesOutside (owned : Nat → Prop) (later registers : Registers count) : Prop :=
  ∀ slot, ¬ owned slot → later.get slot = registers.get slot

namespace AgreesOutside

variable {owned : Nat → Prop} {a b c : Registers count}

theorem refl (registers : Registers count) : AgreesOutside owned registers registers :=
  fun _ _ => rfl

theorem trans (hab : AgreesOutside owned a b) (hbc : AgreesOutside owned b c) :
    AgreesOutside owned a c :=
  fun slot hslot => (hab slot hslot).trans (hbc slot hslot)

theorem set {slot : Nat} (h : owned slot) (value : Option Nat) (registers : Registers count) :
    AgreesOutside owned (registers.set slot value) registers := by
  intro other hother
  apply get_set_of_ne
  rintro rfl
  exact hother h

end AgreesOutside

/-- A condition on registers that no write to those in question can break. -/
def Stable (owned : Nat → Prop) (I : Registers count → Prop) : Prop :=
  ∀ registers later, I registers → later.Extends registers →
    later.AgreesOutside owned registers → I later

namespace Stable

variable {owned : Nat → Prop} {I : Registers count → Prop}

theorem narrow {fewer : Nat → Prop} (h : Stable owned I) (hfewer : ∀ slot, fewer slot → owned slot) :
    Stable fewer I :=
  fun registers later hI hext hagree =>
    h registers later hI hext fun slot hslot => hagree slot fun hfew => hslot (hfewer slot hfew)

theorem and_get {slot : Nat} (h : Stable owned I) (hslot : ¬ owned slot) (value : Option Nat) :
    Stable owned fun registers => I registers ∧ registers.get slot = value :=
  fun registers later hI hext hagree =>
    ⟨h registers later hI.1 hext hagree, (hagree slot hslot).trans hI.2⟩

theorem set {slot : Nat} {registers : Registers count} (h : Stable owned I) (hI : I registers)
    (hslot : owned slot) (value : Option Nat) : I (registers.set slot value) :=
  h registers _ hI (.set slot value registers) (.set hslot value registers)

end Stable

end Registers

namespace Machine

open Registers (Stable)

variable {m : Machine}

def captures (m : Machine) {count : Nat} (registers : Registers count) : Captures := fun group =>
  if group ≤ m.program.pattern.captureCount then span? registers group else none

section Captures

variable {count group slot : Nat} {registers : Registers count}

theorem captures_of_le (h : group ≤ m.program.pattern.captureCount) :
    m.captures registers group = span? registers group :=
  if_pos h

theorem captures_set_of_ne (value : Option Nat)
    (h : ∀ group ≤ m.program.pattern.captureCount,
      slot ≠ Pattern.captureRegister group ∧ slot ≠ Pattern.captureRegister group + 1) :
    m.captures (registers.set slot value) = m.captures registers := by
  funext group
  unfold captures
  split
  · next hle =>
    obtain ⟨hstart, hstop⟩ := h group hle
    rw [span?, span?, Registers.get_set_of_ne hstart, Registers.get_set_of_ne hstop]
  · rfl

theorem captures_set_loop (h : m.program.pattern.captureRegisters ≤ slot) (value : Option Nat) :
    m.captures (registers.set slot value) = m.captures registers := by
  apply captures_set_of_ne
  intro group hle
  simp only [Pattern.captureRegisters, Pattern.captureRegister] at h ⊢
  omega

theorem captures_set_attempt (value : Option Nat) :
    m.captures (registers.set (Pattern.captureRegister group + 2) value) =
      m.captures registers := by
  apply captures_set_of_ne
  intro other _
  simp only [Pattern.captureRegister]
  omega

theorem captures_set_span (h : group ≤ m.program.pattern.captureCount)
    (hcount : Pattern.captureRegister group + 1 < count) (start stop : Nat) :
    m.captures ((registers.set (Pattern.captureRegister group) (some start)).set
      (Pattern.captureRegister group + 1) (some stop)) =
      (m.captures registers).keep group start stop := by
  funext other
  by_cases hother : other = group
  · subst hother
    rw [captures_of_le h, span?, Registers.get_set_self hcount,
      Registers.get_set_of_ne (by omega), Registers.get_set_self (by omega)]
    simp [Captures.keep]
  · simp only [Captures.keep, if_neg hother]
    obtain ⟨h₁, h₂, h₃, h₄⟩ : Pattern.captureRegister group ≠ Pattern.captureRegister other ∧
        Pattern.captureRegister group ≠ Pattern.captureRegister other + 1 ∧
        Pattern.captureRegister group + 1 ≠ Pattern.captureRegister other ∧
        Pattern.captureRegister group + 1 ≠ Pattern.captureRegister other + 1 := by
      simp only [Pattern.captureRegister]
      omega
    unfold captures
    split
    · rw [span?, span?, Registers.get_set_of_ne h₃, Registers.get_set_of_ne h₁,
        Registers.get_set_of_ne h₄, Registers.get_set_of_ne h₂]
    · rfl

end Captures

/-- What may be relied on of a run of the layout of `body`, which is placed at `pc`. It writes to
no registers but its own, a failure leaves no trace at all, and a match ends in the text, at the
earliest where it began. The search says whether there is a match, and which it is. -/
structure Sound (m : Machine) (body : Node) (register pos : Nat)
    (registers : Registers m.program.slots) (found? : Option Way)
    (outcome : Outcome m.program.slots) : Prop where
  eq_of_failure : outcome.stop? = none → outcome.registers = registers
  extends_registers : outcome.registers.Extends registers
  agrees : outcome.registers.AgreesOutside (Owned body.captures register body.loops) registers
  stop_mem : ∀ stop, outcome.stop? = some stop → pos ≤ stop ∧ stop ≤ m.input.size
  stop?_eq : outcome.stop? = found?.map Way.stop
  captures_eq : ∀ way, found? = some way → m.captures outcome.registers = way.captures

theorem Sound.failure (m : Machine) (body : Node) (register pos : Nat)
    (registers : Registers m.program.slots) :
    m.Sound body register pos registers none ⟨none, registers⟩ where
  eq_of_failure _ := rfl
  extends_registers := .refl registers
  agrees := .refl registers
  stop_mem := nofun
  stop?_eq := rfl
  captures_eq := nofun

/-- Whether a run with this goal may end where a way does. -/
def meets (goal? : Option Nat) (way : Way) : Bool := goal?.all (· == way.stop)

theorem find?_meets_none (ways : List Way) : ways.find? (meets none) = ways.head? := by
  cases ways <;> rfl

/-- A runner that does at every entry of the program what may be relied on, where it may nest as
deep as `allowance` says. -/
def SoundRunner (m : Machine) (allowance : Nat) (look : Runner m.program.slots) : Prop :=
  ∀ pc body register, m.program.Entry pc body register → ∀ pos, pos ≤ m.input.size →
    ∀ goal? registers, m.Sound body register pos registers
      ((body.waysWithin m.subject allowance pos (m.captures registers)).find? (meets goal?))
      (look pc pos goal? registers)

section Seek

variable {look : Runner m.program.slots} {allowance pc register pos : Nat} {body : Node}

/-- What may be relied on of a lookaround, whose body was tried beside `pos`. -/
structure Sought (m : Machine) (body : Node) (register : Nat)
    (registers : Registers m.program.slots) (found? : Option Way)
    (result : Bool × Registers m.program.slots) : Prop where
  extends_registers : result.2.Extends registers
  agrees : result.2.AgreesOutside (Owned body.captures register body.loops) registers
  found_eq : result.1 = found?.isSome
  captures_eq : m.captures result.2 = (found?.map Way.captures).getD (m.captures registers)

theorem Sound.sought {registers : Registers m.program.slots} {found? : Option Way}
    {outcome : Outcome m.program.slots} (h : m.Sound body register pos registers found? outcome) :
    m.Sought body register registers found? (outcome.stop?.isSome, outcome.registers) where
  extends_registers := h.extends_registers
  agrees := h.agrees
  found_eq := by
    rw [h.stop?_eq, Option.isSome_map]
  captures_eq := by
    cases hfound : found? with
    | none =>
      have hstop := h.stop?_eq
      rw [hfound] at hstop
      simp [h.eq_of_failure hstop]
    | some way => exact h.captures_eq way hfound

theorem sought_seekBehind (hlook : m.SoundRunner allowance look)
    (hentry : m.program.Entry pc body register) (pos start : Nat) (hstart : start ≤ m.input.size)
    (registers : Registers m.program.slots) :
    m.Sought body register registers
      ((List.range (start + 1)).reverse.findSome? fun start =>
        (body.waysWithin m.subject allowance start (m.captures registers)).find? (·.stop == pos))
      (seekBehind look pc pos start registers) := by
  have hmeets : (·.stop == pos) = meets (some pos) := by
    funext way
    simp [meets, Bool.beq_comm]
  rw [hmeets]
  induction start generalizing registers with
  | zero =>
    have h := (hlook pc body register hentry 0 hstart (some pos) registers).sought
    simpa [seekBehind] using h
  | succ start ih =>
    have h := hlook pc body register hentry (start + 1) hstart (some pos) registers
    rw [seekBehind, List.range_succ, List.reverse_append]
    simp only [List.reverse_cons, List.reverse_nil, List.nil_append, List.cons_append,
      List.findSome?_cons]
    cases hfound : (body.waysWithin m.subject allowance (start + 1) (m.captures registers)).find?
        (meets (some pos)) with
    | some way =>
      rw [hfound] at h
      have hsome : (look pc (start + 1) (some pos) registers).stop?.isSome = true := by
        rw [h.stop?_eq]
        rfl
      rw [if_pos hsome]
      simpa [hsome] using h.sought
    | none =>
      rw [hfound] at h
      rw [if_neg (by simp [h.stop?_eq]), h.eq_of_failure h.stop?_eq]
      exact ih (by omega) registers

theorem sought_seek (hlook : m.SoundRunner allowance look)
    (hentry : m.program.Entry pc body register) (behind : Bool) (hpos : pos ≤ m.input.size)
    (registers : Registers m.program.slots) :
    m.Sought body register registers
      (Search.beside? (body.waysWithin m.subject allowance · (m.captures registers)) behind pos)
      (seek look behind pc pos registers) := by
  cases behind with
  | true => exact sought_seekBehind hlook hentry pos pos hpos registers
  | false =>
    have h := (hlook pc body register hentry pos hpos none registers).sought
    rw [find?_meets_none] at h
    exact h

end Seek

section Follows

variable {look : Runner m.program.slots} {goal? : Option Nat} {base : Nat}
  {Q : Option Way → Outcome m.program.slots → Prop}

variable (m look goal? base Q) in
/-- Whatever the run writes from here on, going back to the last choice leads it to an end that is
answered by `fallback?`. -/
def EndsBack (fallback? : Option Way) (registers : Registers m.program.slots)
    (pending : List Alternative) : Prop :=
  ∀ later : Registers m.program.slots, later.Extends registers →
    (resume base later pending).Ends (m.step look goal? base) (Q fallback?)

variable (m look goal? base Q) in
/-- From `pc` and `pos` the run leads to an end that is answered by `answer?`, which depends on the
captures so far, or by what going back is answered by. -/
def Follows (I : Registers m.program.slots → Prop) (pc pos : Nat)
    (answer? : Captures → Option Way) : Prop :=
  ∀ (registers : Registers m.program.slots) (pending : List Alternative) (fallback? : Option Way),
    I registers → m.EndsBack look goal? base Q fallback? registers pending →
    (Progress.more ⟨pc, pos, registers, pending⟩).Ends (m.step look goal? base)
      (Q ((answer? (m.captures registers)).or fallback?))

namespace EndsBack

variable {registers later : Registers m.program.slots} {pending : List Alternative}
  {fallback? : Option Way}

theorem now (h : m.EndsBack look goal? base Q fallback? registers pending) :
    (resume base registers pending).Ends (m.step look goal? base) (Q fallback?) :=
  h registers (.refl registers)

theorem mono (h : m.EndsBack look goal? base Q fallback? registers pending)
    (hext : later.Extends registers) : m.EndsBack look goal? base Q fallback? later pending :=
  fun more hmore => h more (hmore.trans hext)

/-- A choice that is kept is taken up with the registers as they were. -/
theorem cons {I : Registers m.program.slots → Prop} {pc pos : Nat}
    {answer? : Captures → Option Way}
    (h : m.EndsBack look goal? base Q fallback? registers pending) (hI : I registers)
    (hfrom : m.Follows look goal? base Q I pc pos answer?) :
    m.EndsBack look goal? base Q ((answer? (m.captures registers)).or fallback?) registers
      (⟨pc, pos, registers.mark⟩ :: pending) := by
  intro later hlater
  rw [resume, hlater.2]
  exact hfrom registers pending fallback? hI h

end EndsBack

variable {I : Registers m.program.slots → Prop} {pc pos : Nat} {instr : Instr} {code : List Instr}
  {answer? : Captures → Option Way} {next : Nat → Captures → Option Way}

/-- To follow from an instruction is to follow from what it leads to. -/
theorem follows_of_perform (hplaces : m.program.Places pc (instr :: code))
    (h : ∀ (registers : Registers m.program.slots) (pending : List Alternative)
      (fallback? : Option Way), I registers →
      m.EndsBack look goal? base Q fallback? registers pending →
      (m.perform look goal? base pc pos registers pending instr).Ends (m.step look goal? base)
        (Q ((answer? (m.captures registers)).or fallback?))) :
    m.Follows look goal? base Q I pc pos answer? := by
  intro registers pending fallback? hI hback
  refine .more ?_
  rw [step_eq_perform hplaces.head]
  exact h registers pending fallback? hI hback

theorem ends_consume {p : Char → Bool}
    (hnext : ∀ later, pos ≤ later → later ≤ m.input.size →
      m.Follows look goal? base Q I (pc + 1) later (next later))
    {registers : Registers m.program.slots} {pending : List Alternative}
    {fallback? : Option Way} (hI : I registers)
    (hback : m.EndsBack look goal? base Q fallback? registers pending) :
    (m.consume base p pc pos registers pending).Ends (m.step look goal? base)
      (Q ((Search.first (Search.take m.subject p pos (m.captures registers)) next).or
        fallback?)) := by
  have hinput : m.subject.input = m.input := rfl
  unfold consume Search.take
  rw [hinput]
  cases hc : m.input[pos]? with
  | none => simpa using hback.now
  | some c =>
    have hlt := (Array.getElem?_eq_some_iff.mp hc).1
    cases hp : p c with
    | true =>
      simpa [hp] using hnext (pos + 1) (by omega) hlt registers pending fallback? hI hback
    | false => simpa [hp] using hback.now

theorem not_owned {captures : List Nat} {register loops slot : Nat}
    (hcaptures : ∀ number ∈ captures, number ≤ m.program.pattern.captureCount)
    (hslot : m.program.pattern.captureRegisters ≤ slot) (hlt : slot < register) :
    ¬ Owned captures register loops slot := by
  rintro (hcapture | ⟨hle, -⟩)
  · have hnumber := hcaptures _ hcapture
    simp only [Pattern.captureRegisters, Pattern.captureRegister, Pattern.captureOf] at hslot hnumber
    omega
  · omega

section Loop

variable {register laps : Nat} {quantifier : Quantifier}

/-- A lap that is not required and took up no text fails, and any other counts. -/
theorem follows_lapEnd {head later : Nat} {more? : Captures → Option Way}
    (hplaces : m.program.Places pc (.lapEnd register quantifier.min head :: code))
    (hregister : m.program.pattern.captureRegisters ≤ register) (hslot : register < m.program.slots)
    (hset : ∀ registers, I registers → ∀ value, I (registers.set register value))
    (hmore : ¬ (quantifier.min ≤ laps ∧ later = pos) → m.Follows look goal? base Q
      (fun registers => I registers ∧ registers.get register = some (laps + 1)) head later more?) :
    m.Follows look goal? base Q (fun registers =>
        (I registers ∧ registers.get register = some laps) ∧
          registers.get (register + 1) = some pos)
      pc later fun captures =>
        if quantifier.min ≤ laps ∧ later = pos then none else more? captures := by
  apply follows_of_perform hplaces
  intro registers pending fallback? hregs hback
  obtain ⟨⟨hI, hlaps⟩, hstart⟩ := hregs
  simp only [perform, hlaps, hstart, Option.getD_some]
  by_cases hstuck : quantifier.min ≤ laps ∧ later = pos
  · simpa [hstuck] using hback.now
  · have hcondition : (decide (quantifier.min ≤ laps) && some pos == some later) = false := by
      rw [Bool.and_eq_false_iff, decide_eq_false_iff_not, beq_eq_false_iff_ne, ne_eq,
        Option.some.injEq]
      omega
    have hcounted : I (registers.set register (some (laps + 1))) ∧
        (registers.set register (some (laps + 1))).get register = some (laps + 1) :=
      ⟨hset registers hI _, Registers.get_set_self hslot _ _⟩
    rw [hcondition, if_neg Bool.false_ne_true, if_neg hstuck,
      ← captures_set_loop hregister (some (laps + 1))]
    exact hmore hstuck _ _ _ hcounted (hback.mono (.set _ _ _))

theorem follows_lapStart (hplaces : m.program.Places pc (.lapStart register :: code))
    (hregister : m.program.pattern.captureRegisters ≤ register)
    (hslot : register + 1 < m.program.slots)
    (hset : ∀ registers, I registers → ∀ value, I (registers.set (register + 1) value))
    (hbody : m.Follows look goal? base Q (fun registers =>
        (I registers ∧ registers.get register = some laps) ∧
          registers.get (register + 1) = some pos) (pc + 1) pos answer?) :
    m.Follows look goal? base Q
      (fun registers => I registers ∧ registers.get register = some laps) pc pos answer? := by
  apply follows_of_perform hplaces
  intro registers pending fallback? hregs hback
  have hlaps : (registers.set (register + 1) (some pos)).get register = some laps := by
    rw [Registers.get_set_of_ne (by omega)]
    exact hregs.2
  have hrun := hbody (registers.set (register + 1) (some pos)) pending fallback?
    ⟨⟨hset registers hregs.1 _, hlaps⟩, Registers.get_set_self hslot _ _⟩ (hback.mono (.set _ _ _))
  rwa [captures_set_loop (by omega)] at hrun

variable {lap : Nat → Captures → List Way}

/-- The head of a loop picks between another lap and leaving. -/
theorem follows_head {exit : Nat}
    (hplaces : m.program.Places pc (.loop register quantifier exit :: code))
    (hforward : ∀ captures, ∀ way ∈ lap pos captures, pos ≤ way.stop ∧ way.stop ≤ m.input.size)
    (hlap : m.Follows look goal? base Q
      (fun registers => I registers ∧ registers.get register = some laps) (pc + 1) pos
      fun captures => Search.first (lap pos captures)
        (Search.afterLap lap quantifier m.input.size laps pos next))
    (hexit : m.Follows look goal? base Q I exit pos (next pos)) :
    m.Follows look goal? base Q
      (fun registers => I registers ∧ registers.get register = some laps) pc pos fun captures =>
        Search.first (Search.remainingLaps lap quantifier m.input.size laps ⟨pos, captures⟩)
          next := by
  have hleave : m.Follows look goal? base Q
      (fun registers => I registers ∧ registers.get register = some laps) exit pos (next pos) :=
    fun registers pending fallback? hregs => hexit registers pending fallback? hregs.1
  apply follows_of_perform hplaces
  intro registers pending fallback? hregs hback
  simp only [perform, hregs.2, Option.getD_some]
  by_cases hlt : laps < quantifier.min
  · rw [if_pos hlt, Search.first_remainingLaps_of_lt hlt]
    exact hlap registers pending fallback? hregs hback
  · have hle := Nat.le_of_not_lt hlt
    rw [if_neg hlt]
    cases hmore : quantifier.allowsMore laps with
    | false =>
      rw [Search.first_remainingLaps_of_not_allowsMore hle hmore]
      exact hleave registers pending fallback? hregs hback
    | true =>
      rw [Search.first_remainingLaps_of_allowsMore hle hmore (hforward _)]
      cases hgreedy : quantifier.greedy with
      | true =>
        have hrun := hlap registers _ _ hregs (hback.cons hregs hleave)
        simpa [Option.or_assoc] using hrun
      | false =>
        have hrun := hleave registers _ _ hregs (hback.cons hregs hlap)
        simpa [Option.or_assoc] using hrun

/-- Laps of a repetition are followed, if one lap from any place is followed to where its last
instruction is. By induction on the text that is left, and for laps that take up none on the laps
still required. -/
theorem follows_loop {body : Node}
    (hplaces : m.program.Places pc (.loop register quantifier (pc + body.size + 3) ::
      .lapStart register :: (body.layout (pc + 2) (register + 2) ++
        [.lapEnd register quantifier.min pc])))
    (hregister : m.program.pattern.captureRegisters ≤ register)
    (hslots : register + 2 ≤ m.program.slots)
    (hcaptures : ∀ number ∈ body.captures, number ≤ m.program.pattern.captureCount)
    (hI : Stable (Owned body.captures register (body.loops + 1)) I)
    (hforward : Search.Forward lap m.input.size)
    (hbody : ∀ (J : Registers m.program.slots → Prop) (pos : Nat)
      (next : Nat → Captures → Option Way),
      Stable (Owned body.captures (register + 2) body.loops) J → pos ≤ m.input.size →
      (∀ later, pos ≤ later → later ≤ m.input.size →
        m.Follows look goal? base Q J (pc + 2 + body.size) later (next later)) →
      m.Follows look goal? base Q J (pc + 2) pos fun captures =>
        Search.first (lap pos captures) next)
    (hpos : pos ≤ m.input.size)
    (hexit : ∀ later, pos ≤ later → later ≤ m.input.size →
      m.Follows look goal? base Q I (pc + body.size + 3) later (next later)) (laps : Nat) :
    m.Follows look goal? base Q (fun registers => I registers ∧ registers.get register = some laps)
      pc pos fun captures =>
        Search.first (Search.remainingLaps lap quantifier m.input.size laps ⟨pos, captures⟩) next := by
  induction hleft : m.input.size - pos using Nat.strongRecOn generalizing pos laps with
  | ind left ihText =>
  induction hmissing : quantifier.min - laps using Nat.strongRecOn generalizing laps with
  | ind missing ihLaps =>
  have hend := hplaces.tail.tail.right
  rw [Node.length_layout] at hend
  have howned : ∀ slot, register ≤ slot → slot < register + 2 →
      Owned body.captures register (body.loops + 1) slot :=
    fun slot hle hlt => .inr ⟨hle, by omega⟩
  have hfree : ∀ slot, register ≤ slot → slot < register + 2 →
      ¬ Owned body.captures (register + 2) body.loops slot :=
    fun slot hle hlt => not_owned hcaptures (Nat.le_trans hregister hle) hlt
  have hset : ∀ slot, register ≤ slot → slot < register + 2 → ∀ registers, I registers →
      ∀ value, I (registers.set slot value) :=
    fun slot hle hlt registers hregs => hI.set hregs (howned slot hle hlt)
  have hstable : Stable (Owned body.captures (register + 2) body.loops) fun registers =>
      (I registers ∧ registers.get register = some laps) ∧
        registers.get (register + 1) = some pos := by
    have hnarrow : Stable (Owned body.captures (register + 2) body.loops) I :=
      hI.narrow fun slot howns => howns.mono (fun _ h => h) (by omega) (by omega)
    exact (hnarrow.and_get (hfree register (Nat.le_refl _) (by omega)) _).and_get
      (hfree (register + 1) (by omega) (by omega)) _
  have hagain : ∀ later, pos ≤ later → later ≤ m.input.size → m.Follows look goal? base Q
      (fun registers => (I registers ∧ registers.get register = some laps) ∧
        registers.get (register + 1) = some pos)
      (pc + 2 + body.size) later
      (Search.afterLap lap quantifier m.input.size laps pos next later) := by
    intro later hle hsize
    apply follows_lapEnd hend hregister (by omega) (hset register (Nat.le_refl _) (by omega))
    intro hstuck
    have hexit' : ∀ more, later ≤ more → more ≤ m.input.size →
        m.Follows look goal? base Q I (pc + body.size + 3) more (next more) :=
      fun more hmore => hexit more (by omega)
    by_cases hlater : later = pos
    · subst hlater
      exact ihLaps _ (by omega) (laps + 1) rfl
    · exact ihText _ (by omega) hsize hexit' (laps + 1) rfl
  have hlap := hbody _ pos _ hstable hpos hagain
  have hstart := follows_lapStart hplaces.tail hregister (by omega)
    (hset (register + 1) (by omega) (by omega)) hlap
  exact follows_head hplaces (fun captures => hforward pos captures hpos) hstart
    (hexit pos (Nat.le_refl _) hpos)

end Loop

theorem follows_look {allowance register : Nat} {kind : Look} {inner : Node}
    {next : Nat → Captures → Option Way} (hlook : m.SoundRunner allowance look)
    (hplaces : m.program.Places pc ((Node.look kind inner).layout pc register))
    (hentry : m.program.Entry (pc + 1) inner register)
    (hI : Stable (Owned inner.captures register inner.loops) I) (hpos : pos ≤ m.input.size)
    (hbehind : m.Follows look goal? base Q I (pc + (Node.look kind inner).size) pos (next pos)) :
    m.Follows look goal? base Q I pc pos fun captures =>
      Search.first ((Node.look kind inner).ways m.subject (some allowance) pos captures) next := by
  apply follows_of_perform hplaces
  intro registers pending fallback? hregs hback
  have hsought := sought_seek hlook hentry kind.behind hpos registers
  have hnext := hbehind _ pending fallback?
    (hI _ _ hregs hsought.extends_registers hsought.agrees) (hback.mono hsought.extends_registers)
  have hstuck := hback _ hsought.extends_registers
  have hsize : pc + (Node.look kind inner).size = pc + inner.size + 2 := by
    simp only [Node.size]
    omega
  rw [hsought.captures_eq, hsize] at hnext
  simp only [perform, Node.ways_look, hsought.found_eq]
  generalize Search.beside? _ kind.behind pos = found? at hnext ⊢
  cases hnegated : kind.negated with
  | true =>
    cases found? with
    | none => simpa [Search.look] using hnext
    | some way => simpa [Search.look] using hstuck
  | false =>
    cases found? with
    | none => simpa [Search.look] using hstuck
    | some way => simpa [Search.look] using hnext

/-- A capture keeps its span when it is left. Its content does not touch the register that holds
where it was entered. -/
theorem follows_capture {allowance register number : Nat} {inner : Node}
    {next : Nat → Captures → Option Way}
    (hplaces : m.program.Places pc ((Node.group (some number) inner).layout pc register))
    (hc : (Node.group (some number) inner).isWellFormed m.program.pattern.captureCount = true)
    (hr : m.program.pattern.captureRegisters ≤ register)
    (hl : register + 2 * inner.loops ≤ m.program.slots)
    (hI : Stable (Owned (Node.group (some number) inner).captures register inner.loops) I)
    (hinner : ∀ (J : Registers m.program.slots → Prop) (next : Nat → Captures → Option Way),
      Stable (Owned inner.captures register inner.loops) J →
      (∀ later, pos ≤ later → later ≤ m.input.size →
        m.Follows look goal? base Q J (pc + 1 + inner.size) later (next later)) →
      m.Follows look goal? base Q J (pc + 1) pos fun captures =>
        Search.first (inner.ways m.subject (some allowance) pos captures) next)
    (hbehind : ∀ later, pos ≤ later → later ≤ m.input.size → m.Follows look goal? base Q I
      (pc + (Node.group (some number) inner).size) later (next later)) :
    m.Follows look goal? base Q I pc pos fun captures => Search.first
      ((Node.group (some number) inner).ways m.subject (some allowance) pos captures) next := by
  obtain ⟨hnumber, hself⟩ := Node.isWellFormed_of_capture hc
  have hslots : Pattern.captureRegister number + 2 < register := by
    simp only [Pattern.captureRegisters, Pattern.captureRegister] at hr ⊢
    omega
  have howned : ∀ offset < 3, Owned (Node.group (some number) inner).captures register inner.loops
      (Pattern.captureRegister number + offset) := by
    intro offset hoffset
    refine .inl ?_
    rw [Pattern.captureOf_add hoffset]
    simp [Node.captures]
  have hfree : ¬ Owned inner.captures register inner.loops (Pattern.captureRegister number + 2) := by
    rintro (hcapture | ⟨hle, -⟩)
    · rw [Pattern.captureOf_add (by omega)] at hcapture
      exact hself hcapture
    · omega
  have hstable := (hI.narrow fun slot howns => howns.mono
    (fun other hother => by simp [Node.captures, hother]) (Nat.le_refl register)
    (Nat.le_refl _)).and_get hfree (some pos)
  have hend := hplaces.tail.right
  rw [Node.length_layout] at hend
  have hleave : ∀ later, pos ≤ later → later ≤ m.input.size → m.Follows look goal? base Q
      (fun r => I r ∧ r.get (Pattern.captureRegister number + 2) = some pos) (pc + 1 + inner.size)
      later fun captures => next later (captures.keep number pos later) := by
    intro later hle hsize
    apply follows_of_perform hend
    intro registers pending fallback? hregs hback
    have hkept := hI.set (hI.set hregs.1 (howned 0 (by omega)) (some pos)) (howned 1 (by omega))
      (some later)
    have hrun := hbehind later hle hsize _ pending fallback? hkept
      (hback.mono ((Registers.Extends.set _ _ _).trans (.set _ _ _)))
    rw [Nat.add_zero, captures_set_span hnumber (by omega)] at hrun
    have hnext : pc + 1 + inner.size + 1 = pc + (Node.group (some number) inner).size := by
      simp only [Node.size]
      omega
    simp only [perform, hregs.2, hnext]
    exact hrun
  apply follows_of_perform hplaces
  intro registers pending fallback? hregs hback
  have hrun := hinner _ _ hstable hleave
    (registers.set (Pattern.captureRegister number + 2) (some pos)) pending fallback?
    ⟨hI.set hregs (howned 2 (by omega)) _, Registers.get_set_self (by omega) _ _⟩
    (hback.mono (.set _ _ _))
  rw [captures_set_attempt] at hrun
  simp only [Node.ways, Search.first_map]
  exact hrun

theorem follows_repetition {allowance register : Nat} {quantifier : Quantifier} {inner : Node}
    {next : Nat → Captures → Option Way}
    (hplaces : m.program.Places pc ((Node.repetition quantifier inner).layout pc register))
    (hc : inner.isWellFormed m.program.pattern.captureCount = true)
    (hr : m.program.pattern.captureRegisters ≤ register)
    (hl : register + 2 * (inner.loops + 1) ≤ m.program.slots)
    (hI : Stable (Owned inner.captures register (inner.loops + 1)) I)
    (hinner : ∀ (J : Registers m.program.slots → Prop) (pos : Nat)
      (next : Nat → Captures → Option Way),
      Stable (Owned inner.captures (register + 2) inner.loops) J → pos ≤ m.input.size →
      (∀ later, pos ≤ later → later ≤ m.input.size →
        m.Follows look goal? base Q J (pc + 3 + inner.size) later (next later)) →
      m.Follows look goal? base Q J (pc + 3) pos fun captures =>
        Search.first (inner.ways m.subject (some allowance) pos captures) next)
    (hpos : pos ≤ m.input.size)
    (hbehind : ∀ later, pos ≤ later → later ≤ m.input.size → m.Follows look goal? base Q I
      (pc + (Node.repetition quantifier inner).size) later (next later)) :
    m.Follows look goal? base Q I pc pos fun captures => Search.first
      ((Node.repetition quantifier inner).ways m.subject (some allowance) pos captures) next := by
  have hloop := hplaces.tail
  rw [show pc + inner.size + 4 = pc + 1 + inner.size + 3 by omega] at hloop
  rw [show pc + (Node.repetition quantifier inner).size = pc + 1 + inner.size + 3 by
    simp only [Node.size]
    omega] at hbehind
  have hlaps := follows_loop hloop hr (by omega)
    (fun _ => inner.le_of_mem_captures hc) hI
    (fun _ _ hpos _ hway => inner.stop_mem_ways hpos hway) hinner hpos hbehind 0
  apply follows_of_perform hplaces
  intro registers pending fallback? hregs hback
  have hrun := hlaps (registers.set register (some 0)) pending fallback?
    ⟨hI.set hregs (.inr ⟨Nat.le_refl _, by omega⟩) _, Registers.get_set_self (by omega) _ _⟩
    (hback.mono (.set _ _ _))
  simp only [captures_set_loop hr, ← Search.laps_eq_remainingLaps] at hrun
  exact hrun

mutual

/-- A run that can be followed from behind a node can be followed from the node, and it answers as
the first way does in which the node matches and the run goes on. -/
theorem follows_layout {allowance : Nat} (hlook : m.SoundRunner allowance look) :
    ∀ (node : Node) (pc register : Nat) (I : Registers m.program.slots → Prop)
    (next : Nat → Captures → Option Way), m.program.Places pc (node.layout pc register) →
    node.isWellFormed m.program.pattern.captureCount = true →
    m.program.pattern.captureRegisters ≤ register →
    register + 2 * node.loops ≤ m.program.slots →
    Stable (Owned node.captures register node.loops) I → ∀ pos, pos ≤ m.input.size →
    (∀ later, pos ≤ later → later ≤ m.input.size →
      m.Follows look goal? base Q I (pc + node.size) later (next later)) →
    m.Follows look goal? base Q I pc pos fun captures =>
      Search.first (node.ways m.subject (some allowance) pos captures) next
  | .literal c, pc, register, I, next, hplaces, _, _, _, _, pos, _, hbehind =>
    follows_of_perform hplaces fun _ _ _ hregs hback => ends_consume hbehind hregs hback
  | .charClass set, pc, register, I, next, hplaces, _, _, _, _, pos, _, hbehind =>
    follows_of_perform hplaces fun _ _ _ hregs hback => ends_consume hbehind hregs hback
  | .anyChar, pc, register, I, next, hplaces, _, _, _, _, pos, _, hbehind =>
    follows_of_perform hplaces fun _ _ _ hregs hback => ends_consume hbehind hregs hback
  | .anchor kind, pc, register, I, next, hplaces, _, _, _, _, pos, hpos, hbehind => by
    apply follows_of_perform hplaces
    intro registers pending fallback? hregs hback
    simp only [perform, Node.ways]
    split
    · simpa [Node.size] using
        hbehind pos (Nat.le_refl _) hpos registers pending fallback? hregs hback
    · simpa using hback.now
  | .backreference number, pc, register, I, next, hplaces, hc, _, _, _, pos, hpos, hbehind => by
    have hnumber : number ≤ m.program.pattern.captureCount := by
      simpa [Node.isWellFormed] using hc
    apply follows_of_perform hplaces
    intro registers pending fallback? hregs hback
    simp only [perform, Node.ways, captures_of_le hnumber]
    cases hrepeat : m.subject.repeatSpan? (span? registers number) pos with
    | none => simpa using hback.now
    | some stop =>
      obtain ⟨hle, hsize⟩ := Subject.repeatSpan?_le hpos hrepeat
      simpa [Node.size] using hbehind stop hle hsize registers pending fallback? hregs hback
  | .look kind inner, pc, register, I, next, hplaces, hc, hr, hl, hI, pos, hpos, hbehind =>
    follows_look hlook hplaces (.look hplaces hc hr hl) hI hpos (hbehind pos (Nat.le_refl _) hpos)
  | .group none inner, pc, register, I, next, hplaces, hc, hr, hl, hI, pos, hpos, hbehind =>
    follows_layout hlook inner pc register I next hplaces (Node.isWellFormed_of_group hc) hr hl hI
      pos hpos hbehind
  | .group (some number) inner, pc, register, I, next, hplaces, hc, hr, hl, hI, pos, hpos,
      hbehind =>
    follows_capture hplaces hc hr hl hI
      (fun J next hJ hbehind => follows_layout hlook inner (pc + 1) register J next
        hplaces.tail.left (Node.isWellFormed_of_group hc) hr hl hJ pos hpos hbehind)
      hbehind
  | .concat items, pc, register, I, next, hplaces, hc, hr, hl, hI, pos, hpos, hbehind =>
    follows_layoutAll hlook items pc register I next hplaces hc hr hl hI pos hpos hbehind
  | .alternation branches, pc, register, I, next, hplaces, hc, hr, hl, hI, pos, hpos, hbehind => by
    obtain ⟨hne, hbranches⟩ := Node.isWellFormed_of_alternation hc
    exact follows_layoutBranches hlook branches hne _ pc register I next hplaces rfl hbranches hr hl
      hI pos hpos hbehind
  | .repetition quantifier inner, pc, register, I, next, hplaces, hc, hr, hl, hI, pos, hpos,
      hbehind => by
    have hinner := (Node.isWellFormed_of_repetition hc).2
    have hloops : register + 2 * (inner.loops + 1) ≤ m.program.slots := hl
    exact follows_repetition hplaces hinner hr hl hI (fun J pos next hJ hpos hbehind =>
      follows_layout hlook inner (pc + 3) (register + 2) J next hplaces.tail.tail.tail.left hinner
        (by omega) (by omega) hJ pos hpos hbehind) hpos hbehind

theorem follows_layoutAll {allowance : Nat} (hlook : m.SoundRunner allowance look) :
    ∀ (items : List Node) (pc register : Nat) (I : Registers m.program.slots → Prop)
    (next : Nat → Captures → Option Way),
    m.program.Places pc (Node.layoutAll pc register items) →
    Node.allWellFormed m.program.pattern.captureCount items = true →
    m.program.pattern.captureRegisters ≤ register →
    register + 2 * Node.loopsAll items ≤ m.program.slots →
    Stable (Owned (Node.capturesAll items) register (Node.loopsAll items)) I →
    ∀ pos, pos ≤ m.input.size →
    (∀ later, pos ≤ later → later ≤ m.input.size →
      m.Follows look goal? base Q I (pc + Node.sizeAll items) later (next later)) →
    m.Follows look goal? base Q I pc pos fun captures =>
      Search.first (Node.waysAll m.subject items (some allowance) pos captures) next
  | [], pc, register, I, next, _, _, _, _, _, pos, hpos, hbehind => by
    simpa [Node.waysAll, Node.sizeAll] using hbehind pos (Nat.le_refl _) hpos
  | item :: items, pc, register, I, next, hplaces, hc, hr, hl, hI, pos, hpos, hbehind => by
    obtain ⟨hitem, hitems⟩ := Node.allWellFormed_cons.mp hc
    have hrest := hplaces.right
    rw [Node.length_layout] at hrest
    rw [Node.loopsAll] at hl hI
    rw [Node.capturesAll] at hI
    simp only [Node.waysAll, Search.first_flatMap]
    refine follows_layout hlook item pc register I _ hplaces.left hitem hr (by omega)
      (hI.narrow fun slot howns => howns.mono (fun _ => List.mem_append_left _) (by omega)
        (by omega)) pos hpos fun later hle hsize => ?_
    refine follows_layoutAll hlook items (pc + item.size) (register + 2 * item.loops) I next hrest
      hitems (by omega) (by omega) (hI.narrow fun slot howns =>
        howns.mono (fun _ => List.mem_append_right _) (by omega) (by omega))
      later hsize fun last hlast hlastSize => ?_
    rw [Nat.add_assoc]
    exact hbehind last (Nat.le_trans hle hlast) hlastSize

theorem follows_layoutBranches {allowance : Nat} (hlook : m.SoundRunner allowance look) :
    ∀ (branches : List Node), branches ≠ [] → ∀ (finish pc register : Nat)
    (I : Registers m.program.slots → Prop) (next : Nat → Captures → Option Way),
    m.program.Places pc (Node.layoutBranches finish pc register branches) →
    finish = pc + Node.sizeBranches branches →
    Node.allWellFormed m.program.pattern.captureCount branches = true →
    m.program.pattern.captureRegisters ≤ register →
    register + 2 * Node.loopsAll branches ≤ m.program.slots →
    Stable (Owned (Node.capturesAll branches) register (Node.loopsAll branches)) I →
    ∀ pos, pos ≤ m.input.size →
    (∀ later, pos ≤ later → later ≤ m.input.size →
      m.Follows look goal? base Q I finish later (next later)) →
    m.Follows look goal? base Q I pc pos fun captures =>
      Search.first (Node.waysAny m.subject branches (some allowance) pos captures) next
  | [], hne, _, _, _, _, _, _, _, _, _, _, _, _, _, _ => absurd rfl hne
  | [last], _, finish, pc, register, I, next, hplaces, hfinish, hc, hr, hl, hI, pos, hpos,
      hbehind => by
    subst hfinish
    simp only [Node.waysAny, List.append_nil]
    rw [Node.capturesAll, Node.capturesAll, List.append_nil] at hI
    exact follows_layout hlook last pc register I next hplaces (Node.allWellFormed_cons.mp hc).1 hr
      hl hI pos hpos hbehind
  | branch :: other :: branches, _, finish, pc, register, I, next, hplaces, hfinish, hc, hr, hl, hI,
      pos, hpos, hbehind => by
    obtain ⟨hbranch, hothers⟩ := Node.allWellFormed_cons.mp hc
    have hjump := hplaces.tail.right
    rw [Node.length_layout] at hjump
    have hrest := hjump.tail
    rw [show pc + 1 + branch.size + 1 = pc + branch.size + 2 by omega] at hrest
    rw [Node.loopsAll] at hl hI
    rw [Node.capturesAll] at hI
    have hfirst := follows_layout hlook branch (pc + 1) register I next hplaces.tail.left hbranch hr
      (by omega) (hI.narrow fun slot howns => howns.mono (fun _ => List.mem_append_left _)
        (by omega) (by omega)) pos hpos fun later hle hsize =>
      follows_of_perform hjump fun registers pending fallback? hregs hback =>
        hbehind later hle hsize registers pending fallback? hregs hback
    have hsecond := follows_layoutBranches hlook (other :: branches) nofun finish
      (pc + branch.size + 2) (register + 2 * branch.loops) I next hrest
      (by
        rw [hfinish, Node.sizeBranches]
        · omega
        · exact nofun)
      hothers (by omega) (by omega) (hI.narrow fun slot howns =>
        howns.mono (fun _ => List.mem_append_right _) (by omega) (by omega)) pos hpos hbehind
    apply follows_of_perform hplaces
    intro registers pending fallback? hregs hback
    have hrun := hfirst registers _ _ hregs (hback.cons hregs hsecond)
    rw [Node.waysAny, Search.first_append, Option.or_assoc]
    exact hrun

end

/-- A run that starts at an entry ends, and as may be relied on. -/
theorem ends_of_entry {allowance register : Nat} (hlook : m.SoundRunner allowance look)
    {body : Node} (hentry : m.program.Entry pc body register) (hpos : pos ≤ m.input.size)
    (goal? : Option Nat) (registers : Registers m.program.slots) :
    (Progress.more ⟨pc, pos, registers, []⟩).Ends (m.step look goal? registers.mark)
      (m.Sound body register pos registers
        ((body.waysWithin m.subject (allowance + 1) pos (m.captures registers)).find?
          (meets goal?))) := by
  let I := fun later : Registers m.program.slots => later.Extends registers ∧
    later.AgreesOutside (Owned body.captures register body.loops) registers
  let next := fun later captures =>
    if goal?.all (· == later) then some (⟨later, captures⟩ : Way) else none
  have hI : Stable (Owned body.captures register body.loops) I :=
    fun _ _ hI hext hagree => ⟨hext.trans hI.1, hagree.trans hI.2⟩
  have hfind : ∀ ways : List Way, Search.first ways next = ways.find? (meets goal?) := by
    intro ways
    induction ways with
    | nil => rfl
    | cons way ways ih =>
      rw [Search.first_cons, ih, List.find?_cons]
      cases hmeets : goal?.all (· == way.stop) <;> simp [next, meets, hmeets]
  have hend := hentry.places.right
  rw [Node.length_layout] at hend
  have haccept : ∀ later, pos ≤ later → later ≤ m.input.size →
      m.Follows look goal? registers.mark (m.Sound body register pos registers) I (pc + body.size)
        later (next later) := by
    intro later hle hsize
    apply follows_of_perform hend
    intro found pending fallback? hfound hback
    simp only [perform, next]
    by_cases hgoal : goal?.all (· == later) = true
    · rw [if_pos hgoal, if_pos hgoal]
      apply Progress.Ends.done
      refine ⟨nofun, hfound.1, hfound.2, ?_, rfl, ?_⟩
      · intro stop hstop
        cases hstop
        exact ⟨hle, hsize⟩
      · intro way hway
        cases hway
        rfl
    · rw [if_neg hgoal, if_neg hgoal]
      exact hback.now
  have hback : m.EndsBack look goal? registers.mark (m.Sound body register pos registers) none
      registers [] := by
    intro later hlater
    rw [resume, hlater.2]
    exact .done (Sound.failure m body register pos registers)
  have hrun := follows_layout hlook body pc register I next hentry.places.left
    hentry.isWellFormed hentry.captureRegisters_le hentry.loopRegisters_le hI pos hpos haccept
    registers [] none ⟨.refl _, .refl _⟩ hback
  simp only [hfind, Option.or_none] at hrun
  exact hrun

end Follows

end Machine
end TokenPatterns
