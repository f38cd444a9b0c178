import TokenPatterns.Machine.Calls
import TokenPatterns.Proofs.Rereading
import TokenPatterns.Proofs.Termination
import TokenPatterns.Search.Bounded

/-!
# Lookarounds that are nested too deep

A run that is nested too deep is refused, and the lookaround that asked for it goes on as after any
other failure. As long as no run is refused, a match is the one that is found without a bound. If
runs are refused, a match may be lost, and below an odd number of negations one may be found that
is none.
-/
namespace TokenPatterns
namespace Machine

variable {m : Machine}

/-- Whether no run is refused among those that a call leads to. -/
def NeverRefuses (m : Machine) (call : Call m.program.slots) : Prop :=
  ∀ inner, m.Makes call inner → inner.allowance ≠ 0

/-- Whether two runners answer alike where the first is called after a given call. -/
def AnswersAlike (m : Machine) (first : Call m.program.slots) (deeper other : Nat) : Prop :=
  ∀ pc pos goal? registers, m.Makes first ⟨deeper, pc, pos, goal?, registers⟩ →
    (m.runner other).1 pc pos goal? registers = (m.runner deeper).1 pc pos goal? registers

section Seek

variable {first : Call m.program.slots} {deeper other body pos : Nat}
  {registers : Registers m.program.slots}

theorem AnswersAlike.seekBehind_eq (h : m.AnswersAlike first deeper other) (start : Nat)
    (hmakes : m.Makes first ⟨deeper, body, start, some pos, registers⟩) :
    seekBehind (m.runner other).1 body pos start registers =
      seekBehind (m.runner deeper).1 body pos start registers := by
  induction start generalizing registers with
  | zero => simp only [seekBehind, h _ _ _ _ hmakes]
  | succ start ih =>
    simp only [seekBehind, h _ _ _ _ hmakes]
    split
    · rfl
    · next hfailed =>
      rw [Bool.not_eq_true, Option.isSome_eq_false_iff, Option.isNone_iff_eq_none] at hfailed
      exact ih (.retry hmakes rfl rfl hfailed)

theorem AnswersAlike.seek_eq (h : m.AnswersAlike first deeper other) {behind : Bool}
    (hmakes : m.Makes first
      ⟨deeper, body, pos, if behind then some pos else none, registers⟩) :
    seek (m.runner other).1 behind body pos registers =
      seek (m.runner deeper).1 behind body pos registers := by
  cases behind with
  | true => exact h.seekBehind_eq pos hmakes
  | false =>
    rw [if_neg Bool.false_ne_true] at hmakes
    simp only [seek, h _ _ _ _ hmakes, Bool.false_eq_true, if_false]

end Seek

/-- A call that leads to no refusal is answered in the same way if runs may nest deeper. By
induction on how deep they may nest, and for one run on its steps. -/
theorem answer_of_neverRefuses {call : Call m.program.slots} (h : m.NeverRefuses call)
    (more : Nat) :
    m.answer { call with allowance := more + call.allowance } = m.answer call := by
  obtain ⟨allowance, pc, pos, goal?, registers⟩ := call
  induction allowance generalizing pc pos goal? registers with
  | zero => exact absurd rfl (h _ .self)
  | succ deeper ih =>
    by_cases hrun : m.program.isEntry pc = true ∧ pos ≤ m.input.size
    · have hends := m.ends (m.runner deeper).2 hrun.1 hrun.2 goal? registers
      have hends' := m.ends (m.runner (more + deeper)).2 hrun.1 hrun.2 goal? registers
      simp only [answer, runner, runWith, dif_pos hrun]
      refine Progress.follow_of_ends ((Progress.ends_follow hends).congr_after ?_) hends'
      rintro count ⟨pc', pos', registers', pending⟩ hafter
      by_cases hlook : ∃ kind body next, m.program.instrs[pc']? = some (.look kind body next)
      · obtain ⟨kind, body, next, hinstr⟩ := hlook
        have hreaches : m.Reaches ⟨deeper + 1, pc, pos, goal?, registers⟩
            ⟨pc', pos', registers', pending⟩ := ⟨Nat.succ_ne_zero _, count, hafter⟩
        have hattempt := Makes.attempt .self hreaches hinstr
        have halike : m.AnswersAlike ⟨deeper + 1, pc, pos, goal?, registers⟩ deeper
            (more + deeper) := fun pc pos goal? registers hmakes =>
          ih pc pos goal? registers fun inner hinner => h inner (hmakes.trans hinner)
        rw [step_eq_perform hinstr, step_eq_perform hinstr, perform, perform,
          halike.seek_eq hattempt]
      · exact step_congr (fun kind body next hinstr => hlook ⟨kind, body, next, hinstr⟩) _ _
    · simp only [answer, runner, runWith, dif_neg hrun]

theorem neverRefuses_of_no_look {call : Call m.program.slots} (hallowance : call.allowance ≠ 0)
    (hgoal : call.goal? = none) (hlook : ∀ config, m.Reaches call config →
      ∀ kind body next, m.program.instrs[config.pc]? ≠ some (.look kind body next)) :
    m.NeverRefuses call := by
  intro inner hmakes
  have hself : inner = call := by
    induction hmakes with
    | self => rfl
    | attempt _ hreaches hinstr ih =>
      subst ih
      exact absurd hinstr (hlook _ hreaches _ _ _)
    | retry _ hbehind _ _ ih =>
      subst ih
      rw [hgoal] at hbehind
      cases hbehind
  rwa [hself]

section FirstBranch

variable {c : Char} {others : Node} {start : Nat}

/-- Where a run goes from `start` on that takes up a character as the first of two branches. -/
def InFirstBranch (m : Machine) (start : Nat) :
    Progress (Config m.program.slots) (Outcome m.program.slots) → Prop
  | .more config => config.pc = 0 ∧ config.pos = start ∨ config.pc = 1 ∧ config.pos = start ∨
      config.pc = 2 ∨ config.pc = m.program.pattern.root.size
  | .done _ => True

theorem instrs_of_first_branch (hroot : m.program.pattern.root = .alternation [.literal c, others]) :
    m.program.instrs[0]? = some (.split 1 3) ∧ m.program.instrs[1]? = some (.char c) ∧
      m.program.instrs[2]? = some (.jump m.program.pattern.root.size) ∧
        m.program.instrs[m.program.pattern.root.size]? = some .accept := by
  have hplaces := m.program.entry_zero.places
  have hend := hplaces.right.head
  rw [Node.length_layout, Nat.zero_add] at hend
  rw [hroot] at hplaces ⊢
  have hlayout := hplaces.left
  have hsize : 0 + Node.sizeBranches [.literal c, others] =
      (Node.alternation [.literal c, others]).size := Nat.zero_add _
  exact ⟨hlayout.head, hlayout.tail.head, hsize ▸ hlayout.tail.tail.head, hroot ▸ hend⟩

/-- A run that finds the character of the first branch does not come to the second. -/
theorem neverRefuses_of_first_branch
    (hroot : m.program.pattern.root = .alternation [.literal c, others])
    (hchar : m.input[start]? = some c) : m.NeverRefuses (m.callFrom start) := by
  obtain ⟨hsplit, hliteral, hjump, haccept⟩ := instrs_of_first_branch hroot
  have hstep : ∀ config, m.InFirstBranch start (.more config) →
      m.InFirstBranch start (m.stepIn (m.callFrom start) config) := by
    rintro ⟨pc, pos, registers, pending⟩ (⟨rfl, rfl⟩ | ⟨rfl, rfl⟩ | rfl | rfl)
    · rw [stepIn, step_eq_perform hsplit]
      exact .inr (.inl ⟨rfl, rfl⟩)
    · rw [stepIn, step_eq_perform hliteral]
      simp only [callFrom, perform, consume, hchar, Subject.agree, CaseMapping.agree_self, if_true]
      exact .inr (.inr (.inl rfl))
    · rw [stepIn, step_eq_perform hjump]
      exact .inr (.inr (.inr rfl))
    · rw [stepIn, step_eq_perform haccept]
      trivial
  apply neverRefuses_of_no_look (Nat.succ_ne_zero _) rfl
  rintro config ⟨-, count, hafter⟩ kind body next
  have hconfig : m.InFirstBranch start (.more config) := by
    rw [← hafter]
    exact Progress.holds_after hstep count (.inl ⟨rfl, rfl⟩)
  rcases hconfig with ⟨hpc, -⟩ | ⟨hpc, -⟩ | hpc | hpc
  · simp [hpc, hsplit]
  · simp [hpc, hliteral]
  · simp [hpc, hjump]
  · simp [hpc, haccept]

end FirstBranch

end Machine

namespace Node

/-- So many lookarounds of one kind inside of each other, around nothing. -/
def nested (kind : Look) : (count : Nat) → Node
  | 0 => concat []
  | count + 1 => look kind (nested kind count)

section Nested

variable (kind : Look) (count : Nat)

@[simp] theorem captures_nested : (nested kind count).captures = [] := by
  induction count with
  | zero => rfl
  | succ count ih => exact ih

@[simp] theorem references_nested : (nested kind count).references = [] := by
  induction count with
  | zero => rfl
  | succ count ih => exact ih

@[simp] theorem lookDepth_nested : (nested kind count).lookDepth = count := by
  induction count with
  | zero => rfl
  | succ count ih => exact congrArg (· + 1) ih

@[simp] theorem isWellFormed_nested (captureCount : Nat) :
    (nested kind count).isWellFormed captureCount = true := by
  induction count with
  | zero => rfl
  | succ count ih => exact ih

theorem isNormalRoot_nested : (nested kind count).IsNormalRoot where
  isNormal := by
    induction count with
    | zero => rfl
    | succ count ih => exact ih
  captures_eq := by simp
  references_within := by simp

theorem written_nested : (nested kind count).written =
    (List.replicate count ('(' :: (Regex.GroupKind.look kind).mark)).flatten ++
      List.replicate count ')' := by
  induction count with
  | zero => rfl
  | succ count ih =>
    rw [nested, written, ih, inGroup, List.replicate_succ, List.replicate_succ']
    simp

/-- Lookarounds that are all positive can only be lost. -/
theorem leans_nested (named : List Nat) (hkind : kind.negated = false) (nesting : Nat) :
    (nested kind count).Leans named false nesting := by
  induction count generalizing nesting with
  | zero => trivial
  | succ count ih =>
    cases nesting with
    | zero => exact hkind
    | succ deeper =>
      refine .inr ⟨.inr (by simp), ?_⟩
      rw [hkind]
      exact ih deeper

/-- Negated lookaheads inside of each other succeed if they are even in number. Those that are nested
too deep are not counted. -/
theorem ways_nested_negated (s : Subject) (nesting pos : Nat) (captures : Captures) :
    (nested ⟨false, true⟩ count).ways s (some nesting) pos captures =
      if min count nesting % 2 = 0 then [⟨pos, captures⟩] else [] := by
  induction count generalizing nesting with
  | zero => simp [nested, ways, waysAll]
  | succ count ih =>
    cases nesting with
    | zero => simp [nested, ways, Search.beside?, Search.look]
    | succ deeper =>
      have hmin : min (count + 1) (deeper + 1) = min count deeper + 1 := by omega
      simp only [nested, ways, ih, hmin, Search.beside?]
      by_cases heven : min count deeper % 2 = 0
      · have hodd : (min count deeper + 1) % 2 ≠ 0 := by omega
        simp [heven, hodd, Search.look]
      · have heven' : (min count deeper + 1) % 2 = 0 := by omega
        simp [heven, heven', Search.look]

theorem ways_nested_negated_unbounded (s : Subject) (pos : Nat) (captures : Captures) :
    (nested ⟨false, true⟩ count).ways s none pos captures =
      if count % 2 = 0 then [⟨pos, captures⟩] else [] := by
  rw [← ways_of_lookDepth_le _ (Nat.le_of_eq (lookDepth_nested _ count)), ways_nested_negated,
    Nat.min_self]

end Nested

end Node

namespace Pattern

variable {pattern : Pattern} {mapping : CaseMapping} {input : Array Char} {start stop : Nat}

/-- If no run is refused, a match is found exactly as without a bound. -/
theorem matchAt?_eq_of_neverRefuses
    (h : let m : Machine := ⟨pattern.program, mapping, input⟩
      m.NeverRefuses (m.callFrom start)) :
    pattern.program.matchAt? mapping input start = pattern.search? mapping input start := by
  let m : Machine := ⟨pattern.program, mapping, input⟩
  by_cases hstart : start ≤ input.size
  · -- With so much more room, no lookaround of the tree can be nested too deep.
    let room := pattern.root.lookDepth + maxNesting
    have hways : m.program.pattern.root.ways m.subject (some room) =
        m.program.pattern.root.ways m.subject none :=
      Node.ways_of_lookDepth_le pattern.root (Nat.le_add_right _ _)
    have hdeeper : (m.answer ⟨room + 1, 0, start, none, .fresh _⟩).stop? =
        pattern.program.matchAt? mapping input start :=
      congrArg Outcome.stop? (Machine.answer_of_neverRefuses h pattern.root.lookDepth)
    have hfound := m.stop?_runner pattern.program.entry_zero (room + 1) hstart none
    rw [Machine.find?_meets_none, Node.waysWithin, hways] at hfound
    rw [← hdeeper, search?, if_pos hstart]
    exact hfound
  · rw [Program.matchAt?_eq, search?, if_neg hstart, if_neg hstart]

/-- A match that is found is found without the bound on nesting, too, if no run was refused, and is
a way in which the tree matches without it if runs can be refused only under an even number of
negations. -/
theorem matchAt?_found_unbounded
    (h : pattern.program.matchAt? mapping input start = some stop) :
    let m : Machine := ⟨pattern.program, mapping, input⟩
    (m.NeverRefuses (m.callFrom start) → pattern.search? mapping input start = some stop) ∧
      (pattern.root.Leans pattern.root.references false maxNesting →
        ∃ way ∈ pattern.root.ways m.subject none start Captures.none, way.stop = stop) := by
  intro m
  constructor
  · intro hnever
    rw [← matchAt?_eq_of_neverRefuses hnever, h]
  · intro hleans
    obtain ⟨-, way, hway, hstop⟩ := Program.exists_way_of_matchAt? h
    obtain ⟨unbounded, hmem, hsame⟩ := Node.exists_unbounded_way hleans hway
    exact ⟨unbounded, hmem, hsame.trans hstop⟩

/-- Lookaheads that are nested too deep, in a branch behind one that matches. -/
theorem matchAt?_found_unbounded_of_first_branch :
    ∃ pattern : Pattern, pattern.root = .alternation [.literal 'a', .nested ⟨false, false⟩ 501] ∧
      maxNesting < pattern.root.lookDepth ∧
        let m : Machine := ⟨pattern.program, .unicode, #['a']⟩
        pattern.program.matchAt? m.mapping m.input 0 = some 1 ∧ m.NeverRefuses (m.callFrom 0) ∧
          pattern.root.Leans pattern.root.references false maxNesting ∧
            pattern.search? m.mapping m.input 0 = some 1 ∧
              ∃ way ∈ pattern.root.ways m.subject none 0 Captures.none, way.stop = 1 := by
  let deep : Node := .nested ⟨false, false⟩ 501
  let root : Node := .alternation [.literal 'a', deep]
  have hroot : root.IsRoot :=
    ⟨by simp [root, deep, Node.captures, Node.capturesAll],
      by simp [root, deep, Node.isWellFormed, Node.allWellFormed]⟩
  let pattern : Pattern := ⟨root, {}, hroot⟩
  let m : Machine := ⟨pattern.program, .unicode, #['a']⟩
  have hdepth : maxNesting < root.lookDepth := by
    simp [root, deep, Node.lookDepth, Node.lookDepthAll, maxNesting]
  have hmatch : pattern.program.matchAt? .unicode #['a'] 0 = some 1 := by
    rw [Program.matchAt?_eq]
    rfl
  have hleans : root.Leans root.references false maxNesting :=
    ⟨trivial, Node.leans_nested _ _ _ rfl _, trivial⟩
  have hnever : m.NeverRefuses (m.callFrom 0) := Machine.neverRefuses_of_first_branch rfl rfl
  obtain ⟨hsearch, hway⟩ := matchAt?_found_unbounded hmatch
  exact ⟨pattern, rfl, hdepth, hmatch, hnever, hleans, hsearch hnever, hway hleans⟩

/-- Behind 500 negations the next one is not looked into. So it succeeds, and they succeed as if
they were even in number. -/
theorem not_found_unbounded_of_nested_negations :
    ∃ pattern, ofSource? (.regex (String.ofList
        ((List.replicate 501 ['(', '?', '!']).flatten ++ List.replicate 501 ')'))) {} = .ok pattern ∧
      pattern.program.matchAt? .unicode #[] 0 = some 0 ∧ pattern.search? .unicode #[] 0 = none := by
  have hparse := Regex.parse_written (Node.isNormalRoot_nested ⟨false, true⟩ 501)
  obtain ⟨pattern, hpattern, hroot, -⟩ := ofSource?_regex_iff.mpr hparse
  rw [Node.written_nested] at hpattern
  refine ⟨pattern, hpattern, ?_, ?_⟩
  · rw [Program.matchAt?_eq, if_pos (Nat.zero_le _)]
    simp only [program, hroot, Node.ways_nested_negated]
    rfl
  · rw [search?, if_pos (Nat.zero_le _), hroot, Node.ways_nested_negated_unbounded]
    rfl

end Pattern
end TokenPatterns
