import TokenPatterns.Machine.Instr

/-!
# Where instructions are placed

The instructions of a program from some place on may begin with a given list. This is how a layout
is found in a program, and a part of a layout in the whole. A run may start at the first
instruction of a program and at the body of each lookaround. At each such entry the layout of some
node is found, and behind it the end of the run.
-/
namespace TokenPatterns
namespace Program

def Places (p : Program) (pc : Nat) (code : List Instr) : Prop :=
  code <+: p.instrs.toList.drop pc

namespace Places

variable {p : Program} {pc : Nat} {instr : Instr} {code first second : List Instr}

theorem head (h : p.Places pc (instr :: code)) : p.instrs[pc]? = some instr := by
  obtain ⟨rest, hrest⟩ := h
  rw [← Array.getElem?_toList, ← Nat.add_zero pc, ← List.getElem?_drop, ← hrest]
  rfl

theorem tail (h : p.Places pc (instr :: code)) : p.Places (pc + 1) code := by
  obtain ⟨rest, hrest⟩ := h
  refine ⟨rest, ?_⟩
  rw [← List.drop_drop, ← hrest]
  rfl

theorem left (h : p.Places pc (first ++ second)) : p.Places pc first :=
  (List.prefix_append first second).trans h

theorem right (h : p.Places pc (first ++ second)) :
    p.Places (pc + first.length) second := by
  obtain ⟨rest, hrest⟩ := h
  refine ⟨rest, ?_⟩
  rw [← List.drop_drop, ← hrest, List.append_assoc, List.drop_left]

end Places

theorem toList_instrs (p : Program) : p.instrs.toList = p.pattern.layout := by
  rw [p.instrs_eq]

end Program

/-- Each lookaround in `code`, which is placed at `pc`, is followed by the layout of its body. The
body is part of a pattern with so many captures, and its repetitions have registers from `first` on
and before `last`. -/
def HoldsBodies (captures first last pc : Nat) (code : List Instr) : Prop :=
  ∀ i kind body next, code[i]? = some (.look kind body next) →
    body = pc + i + 1 ∧ ∃ (inner : Node) (register : Nat),
      inner.isWellFormed captures = true ∧ first ≤ register ∧ register + 2 * inner.loops ≤ last ∧
        inner.layout body register ++ [.accept] <+: code.drop (i + 1)

namespace HoldsBodies

variable {captures first last pc : Nat} {code left right : List Instr} {instr : Instr}

theorem nil : HoldsBodies captures first last pc [] := by
  intro i kind body next h
  simp at h

theorem cons (hcode : HoldsBodies captures first last (pc + 1) code)
    (h : ∀ kind body next, instr ≠ .look kind body next) :
    HoldsBodies captures first last pc (instr :: code) := by
  intro i kind body next hi
  cases i with
  | zero => exact absurd (Option.some.inj hi) (h kind body next)
  | succ i =>
    obtain ⟨hbody, hinner⟩ := hcode i kind body next hi
    exact ⟨by omega, hinner⟩

theorem append (hleft : HoldsBodies captures first last pc left)
    (hright : HoldsBodies captures first last (pc + left.length) right) :
    HoldsBodies captures first last pc (left ++ right) := by
  intro i kind body next hi
  by_cases h : i < left.length
  · rw [List.getElem?_append_left h] at hi
    obtain ⟨hbody, inner, register, hc, hr, hl, hprefix⟩ := hleft i kind body next hi
    refine ⟨hbody, inner, register, hc, hr, hl, ?_⟩
    rw [List.drop_append_of_le_length h]
    exact hprefix.trans (List.prefix_append _ _)
  · have h := Nat.not_lt.mp h
    rw [List.getElem?_append_right h] at hi
    obtain ⟨hbody, inner, register, hc, hr, hl, hprefix⟩ := hright _ kind body next hi
    refine ⟨by omega, inner, register, hc, hr, hl, ?_⟩
    have hdrop : (left ++ right).drop (i + 1) = right.drop (i - left.length + 1) := by
      rw [List.drop_append, List.drop_eq_nil_of_le (by omega), List.nil_append]
      congr 1
      omega
    rwa [hdrop]

theorem singleton (h : ∀ kind body next, instr ≠ .look kind body next) :
    HoldsBodies captures first last pc [instr] :=
  cons nil h

end HoldsBodies

namespace Node

section

variable {captures first last : Nat}

mutual

theorem holdsBodies_layout : ∀ (node : Node) (pc register : Nat),
    node.isWellFormed captures = true → first ≤ register → register + 2 * node.loops ≤ last →
    HoldsBodies captures first last pc (node.layout pc register)
  | literal _, _, _, _, _, _ => .singleton nofun
  | charClass _, _, _, _, _, _ => .singleton nofun
  | anyChar, _, _, _, _, _ => .singleton nofun
  | anchor _, _, _, _, _, _ => .singleton nofun
  | backreference _, _, _, _, _, _ => .singleton nofun
  | look kind inner, pc, register, hc, hr, hl => by
    have haccept : HoldsBodies captures first last
        (pc + 1 + (inner.layout (pc + 1) register).length) [Instr.accept] := .singleton nofun
    have hinner := (holdsBodies_layout inner (pc + 1) register hc hr hl).append haccept
    intro i kind' body next hi
    cases i with
    | zero =>
      cases hi
      exact ⟨rfl, inner, register, hc, hr, hl, List.prefix_rfl⟩
    | succ i =>
      obtain ⟨hbody, hrest⟩ := hinner i kind' body next hi
      exact ⟨by omega, hrest⟩
  | group (some number) inner, pc, register, hc, hr, hl =>
    .cons ((holdsBodies_layout inner (pc + 1) register (isWellFormed_of_group hc) hr hl).append
      (.singleton nofun)) nofun
  | group none inner, pc, register, hc, hr, hl =>
    holdsBodies_layout inner pc register (isWellFormed_of_group hc) hr hl
  | concat items, pc, register, hc, hr, hl => holdsBodies_layoutAll items pc register hc hr hl
  | alternation branches, pc, register, hc, hr, hl =>
    holdsBodies_layoutBranches branches _ pc register (isWellFormed_of_alternation hc).2 hr hl
  | repetition quantifier inner, pc, register, hc, hr, hl => by
    have hinner := (isWellFormed_of_repetition hc).2
    rw [loops] at hl
    exact .cons (.cons (.cons ((holdsBodies_layout inner (pc + 3) (register + 2) hinner (by omega)
      (by omega)).append (.singleton nofun)) nofun) nofun) nofun

theorem holdsBodies_layoutAll : ∀ (items : List Node) (pc register : Nat),
    allWellFormed captures items = true → first ≤ register → register + 2 * loopsAll items ≤ last →
    HoldsBodies captures first last pc (layoutAll pc register items)
  | [], _, _, _, _, _ => .nil
  | item :: items, pc, register, hc, hr, hl => by
    obtain ⟨hitem, hitems⟩ := allWellFormed_cons.mp hc
    rw [loopsAll] at hl
    refine (holdsBodies_layout item pc register hitem hr (by omega)).append ?_
    rw [length_layout]
    exact holdsBodies_layoutAll items _ _ hitems (by omega) (by omega)

theorem holdsBodies_layoutBranches : ∀ (branches : List Node) (finish pc register : Nat),
    allWellFormed captures branches = true → first ≤ register →
    register + 2 * loopsAll branches ≤ last →
    HoldsBodies captures first last pc (layoutBranches finish pc register branches)
  | [], _, _, _, _, _, _ => .nil
  | [final], _, pc, register, hc, hr, hl => by
    rw [loopsAll] at hl
    exact holdsBodies_layout final pc register (allWellFormed_cons.mp hc).1 hr (by omega)
  | branch :: other :: branches, finish, pc, register, hc, hr, hl => by
    obtain ⟨hbranch, hothers⟩ := allWellFormed_cons.mp hc
    rw [loopsAll] at hl
    refine .cons ((holdsBodies_layout branch (pc + 1) register hbranch hr (by omega)).append ?_)
      nofun
    refine .cons ?_ nofun
    rw [length_layout]
    have := holdsBodies_layoutBranches (other :: branches) finish (pc + branch.size + 2)
      (register + 2 * branch.loops) hothers (by omega) (by omega)
    rwa [show pc + 1 + branch.size + 1 = pc + branch.size + 2 by omega]

end

end

end Node

namespace Program

/-- Whether a run may start at `pc`: at the start of the program or of a lookaround's body. -/
def isEntry (p : Program) (pc : Nat) : Bool :=
  match pc with
  | 0 => true
  | before + 1 =>
    match p.instrs[before]? with
    | some (.look _ body _) => body == before + 1
    | _ => false

/-- At an entry `pc` there are the instructions of `body`, whose repetitions have registers from
`register` on, and the end of a run behind them. -/
structure Entry (p : Program) (pc : Nat) (body : Node) (register : Nat) : Prop where
  isEntry : p.isEntry pc = true
  places : p.Places pc (body.layout pc register ++ [.accept])
  isWellFormed : body.isWellFormed p.pattern.captureCount = true
  captureRegisters_le : p.pattern.captureRegisters ≤ register
  loopRegisters_le : register + 2 * body.loops ≤ p.slots

theorem entry_zero (p : Program) : p.Entry 0 p.pattern.root p.pattern.captureRegisters where
  isEntry := rfl
  places := by
    rw [Places, List.drop_zero, toList_instrs]
    exact List.prefix_rfl
  isWellFormed := p.pattern.isWellFormed_root
  captureRegisters_le := Nat.le_refl _
  loopRegisters_le := by
    rw [p.slots_eq]
    exact Nat.le_refl _

theorem Entry.look {p : Program} {pc register : Nat} {kind : Look} {inner : Node}
    (hplaces : p.Places pc ((Node.look kind inner).layout pc register))
    (hc : inner.isWellFormed p.pattern.captureCount = true)
    (hr : p.pattern.captureRegisters ≤ register) (hl : register + 2 * inner.loops ≤ p.slots) :
    p.Entry (pc + 1) inner register where
  isEntry := by
    simp [Program.isEntry, hplaces.head]
  places := hplaces.tail
  isWellFormed := hc
  captureRegisters_le := hr
  loopRegisters_le := hl

theorem holdsBodies_instrs (p : Program) : HoldsBodies p.pattern.captureCount
    p.pattern.captureRegisters p.slots 0 p.instrs.toList := by
  rw [toList_instrs]
  exact (Node.holdsBodies_layout p.pattern.root 0 _ p.pattern.isWellFormed_root (Nat.le_refl _)
    p.entry_zero.loopRegisters_le).append (.singleton nofun)

theorem exists_entry {p : Program} {pc : Nat} (h : p.isEntry pc = true) :
    ∃ body register, p.Entry pc body register := by
  cases pc with
  | zero => exact ⟨_, _, p.entry_zero⟩
  | succ before =>
    have hpc := h
    simp only [isEntry] at h
    split at h
    · next kind body next hinstr =>
      obtain ⟨hbody, inner, register, hc, hr, hl, hplaces⟩ :=
        p.holdsBodies_instrs before kind body next (by rwa [Array.getElem?_toList])
      cases beq_iff_eq.mp h
      exact ⟨inner, register, hpc, hplaces, hc, hr, hl⟩
    · simp at h

theorem body_eq_of_look {p : Program} {pc body next : Nat} {kind : Look}
    (h : p.instrs[pc]? = some (.look kind body next)) : body = pc + 1 := by
  obtain ⟨hbody, -⟩ := p.holdsBodies_instrs pc kind body next (by rwa [Array.getElem?_toList])
  rwa [Nat.zero_add] at hbody

theorem isEntry_of_look {p : Program} {pc body next : Nat} {kind : Look}
    (h : p.instrs[pc]? = some (.look kind body next)) : p.isEntry body = true := by
  simp [isEntry, body_eq_of_look h, h]

end Program
end TokenPatterns
