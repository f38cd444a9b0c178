import TokenPatterns.Machine.Nested

/-!
# Matching always ends

All runs of a match together come to an end, those at lookarounds included. Each run ends by itself
if the runs inside of it are taken as single steps. Since runs nest only so deep, they can be spread
out from the innermost on, and what a run inside of another was found to answer is what it hands
back.
-/
namespace TokenPatterns
namespace Machine

variable {m : Machine}

/-- Whether a run goes on in the text, whichever of its choices is taken. -/
def InText {count : Nat} (m : Machine) : Progress (Config count) (Outcome count) → Prop
  | .more config => config.pos ≤ m.input.size ∧
      ∀ alternative ∈ config.pending, alternative.pos ≤ m.input.size
  | .done _ => True

section Step

variable {count base pc pos : Nat} {look : Runner count} {goal? : Option Nat}
  {registers : Registers count} {pending : List Alternative}

theorem inText_resume (h : ∀ alternative ∈ pending, alternative.pos ≤ m.input.size) :
    m.InText (resume base registers pending) := by
  cases pending with
  | nil => trivial
  | cons alternative pending =>
    exact ⟨h alternative List.mem_cons_self, fun other hother =>
      h other (List.mem_cons_of_mem _ hother)⟩

theorem inText_consume {p : Char → Bool}
    (h : ∀ alternative ∈ pending, alternative.pos ≤ m.input.size) :
    m.InText (m.consume base p pc pos registers pending) := by
  unfold consume
  split
  · next c hc =>
    split
    · exact ⟨(Array.getElem?_eq_some_iff.mp hc).1, h⟩
    · exact inText_resume h
  · exact inText_resume h

theorem inText_perform (hpos : pos ≤ m.input.size)
    (h : ∀ alternative ∈ pending, alternative.pos ≤ m.input.size) (instr : Instr) :
    m.InText (m.perform look goal? base pc pos registers pending instr) := by
  have hkept : ∀ pc mark, ∀ alternative ∈ (⟨pc, pos, mark⟩ : Alternative) :: pending,
      alternative.pos ≤ m.input.size := by
    intro pc mark alternative halternative
    rcases List.mem_cons.mp halternative with rfl | hearlier
    · exact hpos
    · exact h alternative hearlier
  cases instr with
  | char c => exact inText_consume h
  | charClass set => exact inText_consume h
  | anyChar => exact inText_consume h
  | anchor kind =>
    simp only [perform]
    split
    · exact ⟨hpos, h⟩
    · exact inText_resume h
  | look kind body next =>
    simp only [perform]
    split
    · exact inText_resume h
    · exact ⟨hpos, h⟩
  | split first second => exact ⟨hpos, hkept _ _⟩
  | jump target => exact ⟨hpos, h⟩
  | groupStart group => exact ⟨hpos, h⟩
  | groupEnd group => exact ⟨hpos, h⟩
  | backreference group =>
    simp only [perform]
    split
    · next stop hstop => exact ⟨(Subject.repeatSpan?_le hpos hstop).2, h⟩
    · exact inText_resume h
  | loopStart register => exact ⟨hpos, h⟩
  | loop register quantifier exit =>
    simp only [perform]
    split
    · exact ⟨hpos, h⟩
    · split
      · exact ⟨hpos, h⟩
      · split
        · exact ⟨hpos, hkept _ _⟩
        · exact ⟨hpos, hkept _ _⟩
  | lapStart register => exact ⟨hpos, h⟩
  | lapEnd register min head =>
    simp only [perform]
    split
    · exact inText_resume h
    · exact ⟨hpos, h⟩
  | accept =>
    simp only [perform]
    split
    · trivial
    · exact inText_resume h

theorem inText_step {config : Config count} (h : m.InText (.more config)) :
    m.InText (m.step look goal? base config) := by
  unfold step
  split
  · exact inText_perform h.1 h.2 _
  · exact inText_resume h.2

theorem step_congr {config : Config count}
    (h : ∀ kind body next, m.program.instrs[config.pc]? ≠ some (.look kind body next))
    (look other : Runner count) :
    m.step look goal? base config = m.step other goal? base config := by
  unfold step
  split
  · next instr hinstr =>
    cases instr with
    | look kind body next => exact absurd hinstr (h kind body next)
    | _ => rfl
  · rfl

end Step

section Advance

variable {count : Nat} {goal? : Option Nat} {base : Nat} {config : Config count}
  {waiting : List Waiting}

theorem advance_of_look {kind : Look} {body next : Nat}
    (h : m.program.instrs[config.pc]? = some (.look kind body next)) :
    m.advance ⟨goal?, base, .more config, waiting⟩ = .more (attempt waiting
      ⟨goal?, base, kind, body, next, config.pos, config.pending, config.pos⟩
      config.registers) := by
  simp only [advance, h]

theorem advance_of_ne_look
    (h : ∀ kind body next, m.program.instrs[config.pc]? ≠ some (.look kind body next))
    (look : Runner count) : m.advance ⟨goal?, base, .more config, waiting⟩ =
      .more ⟨goal?, base, m.step look goal? base config, waiting⟩ := by
  unfold advance
  dsimp only
  split
  · next kind body next hinstr => exact absurd hinstr (h kind body next)
  · rw [step_congr h _ look]

end Advance

/-- Whether all runs together carry out each run whose lookarounds may nest as deep as `allowance`
says: they come from where it stands to what it answers. -/
def Carries (m : Machine) (allowance : Nat) : Prop :=
  ∀ (P : Outcome m.program.slots → Prop) (goal? : Option Nat) (base : Nat)
    (place : Progress (Config m.program.slots) (Outcome m.program.slots))
    (outcome : Outcome m.program.slots) (waiting : List Waiting),
    waiting.length + allowance = maxNesting → m.InText place →
    place.Ends (m.step (m.runner allowance).1 goal? base) (· = outcome) →
    (Progress.more ⟨goal?, base, .done outcome, waiting⟩).Ends m.advance P →
    (Progress.more ⟨goal?, base, place, waiting⟩).Ends m.advance P

section Lookarounds

variable {P : Outcome m.program.slots → Prop} {allowance : Nat} {waiting : List Waiting}

theorem ends_attempt (wait : Waiting)
    (hdeeper : ∀ deeper, allowance = deeper + 1 → m.Carries deeper)
    (hnesting : waiting.length + allowance = maxNesting)
    (hentry : m.program.isEntry wait.body = true) (hstart : wait.start ≤ m.input.size)
    (registers : Registers m.program.slots)
    (hback : (Progress.more (handBack waiting wait ((m.runner allowance).1 wait.body wait.start
      (if wait.kind.behind then some wait.pos else none) registers))).Ends m.advance P) :
    (Progress.more (attempt waiting wait registers)).Ends m.advance P := by
  cases allowance with
  | zero =>
    have hdeep : ¬ waiting.length < maxNesting := by omega
    rw [attempt, if_neg hdeep]
    exact .more hback
  | succ deeper =>
    have hroom : waiting.length < maxNesting := by omega
    have hrun : m.program.isEntry wait.body = true ∧ wait.start ≤ m.input.size := ⟨hentry, hstart⟩
    simp only [runner, runWith, dif_pos hrun] at hback
    rw [attempt, if_pos hroom]
    refine hdeeper deeper rfl P _ _ _ _ _ ?_ ⟨hstart, List.forall_mem_nil _⟩
      (Progress.ends_follow (m.ends (m.runner deeper).2 hentry hstart _ registers)) (.more hback)
    simp only [List.length_cons]
    omega

/-- Behind a place the attempts follow each other as the starts are tried. -/
theorem ends_attempt_behind (wait : Waiting)
    (hdeeper : ∀ deeper, allowance = deeper + 1 → m.Carries deeper)
    (hnesting : waiting.length + allowance = maxNesting)
    (hentry : m.program.isEntry wait.body = true) (hbehind : wait.kind.behind = true)
    (start : Nat) (hstart : start ≤ m.input.size) (registers : Registers m.program.slots)
    (hgoOn : let sought := seekBehind (m.runner allowance).1 wait.body wait.pos start registers
      (Progress.more (goOn waiting wait sought.1 sought.2)).Ends m.advance P) :
    (Progress.more (attempt waiting { wait with start } registers)).Ends m.advance P := by
  induction start generalizing registers with
  | zero =>
    apply ends_attempt { wait with start := 0 } hdeeper hnesting hentry hstart
    rw [handBack_of_last _ (.inr rfl)]
    simp only [hbehind, if_pos]
    exact hgoOn
  | succ start ih =>
    apply ends_attempt { wait with start := start + 1 } hdeeper hnesting hentry hstart
    simp only [hbehind, if_pos, handBack]
    simp only [seekBehind] at hgoOn
    split
    · next hfound =>
      rw [if_pos hfound] at hgoOn
      exact hgoOn
    · next hfound =>
      rw [if_neg hfound] at hgoOn
      exact ih (Nat.le_of_succ_le hstart) _ hgoOn

theorem ends_lookaround (wait : Waiting)
    (hdeeper : ∀ deeper, allowance = deeper + 1 → m.Carries deeper)
    (hnesting : waiting.length + allowance = maxNesting)
    (hentry : m.program.isEntry wait.body = true) (hpos : wait.pos ≤ m.input.size)
    (registers : Registers m.program.slots)
    (hgoOn : let sought := seek (m.runner allowance).1 wait.kind.behind wait.body wait.pos registers
      (Progress.more (goOn waiting wait sought.1 sought.2)).Ends m.advance P) :
    (Progress.more (attempt waiting { wait with start := wait.pos } registers)).Ends
      m.advance P := by
  cases hbehind : wait.kind.behind with
  | true =>
    simp only [seek, hbehind, if_pos] at hgoOn
    exact ends_attempt_behind wait hdeeper hnesting hentry hbehind wait.pos hpos registers hgoOn
  | false =>
    apply ends_attempt { wait with start := wait.pos } hdeeper hnesting hentry hpos
    rw [handBack_of_last { wait with start := wait.pos } (.inl hbehind)]
    simp only [seek, hbehind, Bool.false_eq_true, if_false] at hgoOn ⊢
    exact hgoOn

/-- If the runs inside of a run are carried out, so is the run itself. -/
theorem carries_of_deeper (hdeeper : ∀ deeper, allowance = deeper + 1 → m.Carries deeper) :
    m.Carries allowance := by
  intro P goal? base place outcome waiting hnesting htext hplace hanswer
  induction hplace with
  | done houtcome =>
    subst houtcome
    exact hanswer
  | @more config _ ih =>
    have hlater := ih (inText_step htext)
    refine .more ?_
    by_cases hlook : ∃ kind body next, m.program.instrs[config.pc]? = some (.look kind body next)
    · obtain ⟨kind, body, next, hinstr⟩ := hlook
      rw [step, hinstr] at hlater
      rw [advance_of_look hinstr]
      exact ends_lookaround
        ⟨goal?, base, kind, body, next, config.pos, config.pending, config.pos⟩ hdeeper hnesting
        (Program.isEntry_of_look hinstr) htext.1 config.registers hlater
    · have hother : ∀ kind body next,
          m.program.instrs[config.pc]? ≠ some (.look kind body next) :=
        fun kind body next hinstr => hlook ⟨kind, body, next, hinstr⟩
      rw [advance_of_ne_look hother (m.runner allowance).1]
      exact hlater

end Lookarounds

/-- All runs together carry out each of them. By induction on how deep lookarounds may still nest,
and for one run on its steps. -/
theorem carries (m : Machine) (allowance : Nat) : m.Carries allowance := by
  induction allowance with
  | zero => exact carries_of_deeper nofun
  | succ allowance ih =>
    apply carries_of_deeper
    intro deeper hdeeper
    rwa [← Nat.succ.inj hdeeper]

theorem ends_launch (m : Machine) (start : Nat) :
    (m.launch start).Ends m.advance
      (·.stop? = m.program.matchAt? m.mapping m.input start) := by
  by_cases hstart : start ≤ m.input.size
  · have hentry : m.program.isEntry 0 = true := m.program.entry_zero.isEntry
    have hrun : m.program.isEntry 0 = true ∧ start ≤ m.input.size := ⟨hentry, hstart⟩
    have hends := m.ends (m.runner maxNesting).2 hentry hstart none
      (.fresh m.program.slots)
    have hmatch : m.program.matchAt? m.mapping m.input start =
        (Progress.follow _ _ hends).stop? := by
      simp only [Program.matchAt?, runner, runWith, dif_pos hrun]
    rw [launch, if_pos hstart]
    refine m.carries maxNesting _ none _ _ _ [] (Nat.zero_add _) ⟨hstart, List.forall_mem_nil _⟩
      (Progress.ends_follow hends) ?_
    exact .more (.done hmatch.symm)
  · rw [launch, if_neg hstart, Program.matchAt?_eq, if_neg hstart]
    exact .done rfl

end Machine

/-- A match is found after finitely many steps of the machine, each of which carries out one
instruction at most, in the run at hand or in one at a lookaround. -/
theorem Program.exists_after_launch (program : Program) (mapping : CaseMapping)
    (input : Array Char) (start : Nat) :
    let machine : Machine := ⟨program, mapping, input⟩
    ∃ count outcome, Progress.after machine.advance count (machine.launch start) = .done outcome ∧
      outcome.stop? = program.matchAt? mapping input start :=
  (Machine.ends_launch ⟨program, mapping, input⟩ start).exists_after

end TokenPatterns
