import Mathlib.Data.List.Nodup
import Mathlib.Data.List.Perm.Basic
import TokenPatterns.Machine.Control
import TokenPatterns.Regex.Openings

/-!
# Whose the registers are

The registers of a layout are given out in turn: three to each capture, by its number, and two to
each repetition, from those of the captures on. No register is given out twice, and all that the
instructions use are among the registers of the program.
-/
namespace TokenPatterns

namespace Instr

open Pattern (captureRegister)

def registers : Instr → List Nat
  | groupStart group => [captureRegister group + 2]
  | groupEnd group => [captureRegister group, captureRegister group + 1, captureRegister group + 2]
  | backreference group => [captureRegister group, captureRegister group + 1]
  | loopStart register => [register]
  | loop register _ _ => [register]
  | lapStart register => [register + 1]
  | lapEnd register _ _ => [register, register + 1]
  | _ => []

def groups : Instr → List Nat
  | groupStart group => [group]
  | groupEnd group => [group]
  | backreference group => [group]
  | _ => []

/-- The first register of the repetition that an instruction belongs to. -/
def loopRegisters : Instr → List Nat
  | loopStart register => [register]
  | loop register _ _ => [register]
  | lapStart register => [register]
  | lapEnd register _ _ => [register]
  | _ => []

/-- The registers that are given to a capture where it begins. -/
def captureClaims : Instr → List Nat
  | groupStart group => List.range' (captureRegister group) 3
  | _ => []

/-- The registers that are given to a repetition where it begins. -/
def loopClaims : Instr → List Nat
  | loopStart register => List.range' register 2
  | _ => []

def claims (instr : Instr) : List Nat := instr.captureClaims ++ instr.loopClaims

/-- Whether an instruction names only captures that satisfy `p` and repetitions that satisfy `q`, by
their first registers. -/
structure UsesOnly (p q : Nat → Prop) (instr : Instr) : Prop where
  groups : ∀ group ∈ instr.groups, p group
  loops : ∀ register ∈ instr.loopRegisters, q register

section UsesOnly

variable {p q : Nat → Prop} {group register : Nat} {instr : Instr}

theorem UsesOnly.of_group (hgroups : instr.groups = [group]) (hloops : instr.loopRegisters = [])
    (h : p group) : instr.UsesOnly p q := by
  constructor
  · rw [hgroups]
    exact List.forall_mem_singleton.mpr h
  · rw [hloops]
    exact List.forall_mem_nil _

theorem UsesOnly.of_loop (hgroups : instr.groups = []) (hloops : instr.loopRegisters = [register])
    (h : q register) : instr.UsesOnly p q := by
  constructor
  · rw [hgroups]
    exact List.forall_mem_nil _
  · rw [hloops]
    exact List.forall_mem_singleton.mpr h

theorem UsesOnly.of_none (hgroups : instr.groups = []) (hloops : instr.loopRegisters = []) :
    instr.UsesOnly p q := by
  constructor
  · rw [hgroups]
    exact List.forall_mem_nil _
  · rw [hloops]
    exact List.forall_mem_nil _

/-- Each register in use is one of a capture or of a repetition. -/
theorem mem_registers (h : register ∈ instr.registers) :
    (∃ group ∈ instr.groups, register ≤ captureRegister group + 2) ∨
      ∃ own ∈ instr.loopRegisters, register ≤ own + 1 := by
  cases instr <;> simp [registers, groups, loopRegisters] at h ⊢ <;> omega

end UsesOnly

end Instr

namespace Node

section Uses

variable {p q : Nat → Prop}

mutual

/-- The instructions of a layout name captures and references of its node alone, and repetitions
that begin in the layout. -/
theorem usesOnly_layout : ∀ (node : Node) (pc register : Nat),
    (∀ number, number ∈ node.captures ∨ number ∈ node.references → p number) →
    (∀ own, .loopStart own ∈ node.layout pc register → q own) →
    ∀ instr ∈ node.layout pc register, instr.UsesOnly p q
  | literal _, _, _, _, _ => List.forall_mem_singleton.mpr (.of_none rfl rfl)
  | charClass _, _, _, _, _ => List.forall_mem_singleton.mpr (.of_none rfl rfl)
  | anyChar, _, _, _, _ => List.forall_mem_singleton.mpr (.of_none rfl rfl)
  | anchor _, _, _, _, _ => List.forall_mem_singleton.mpr (.of_none rfl rfl)
  | backreference number, _, _, hp, _ =>
    List.forall_mem_singleton.mpr
      (.of_group rfl rfl (hp number (.inr (List.mem_singleton.mpr rfl))))
  | look _ inner, pc, register, hp, hq =>
    List.forall_mem_cons.mpr ⟨.of_none rfl rfl, List.forall_mem_append.mpr
      ⟨usesOnly_layout inner (pc + 1) register hp
        fun own h => hq own (List.mem_cons_of_mem _ (List.mem_append_left _ h)),
        List.forall_mem_singleton.mpr (.of_none rfl rfl)⟩⟩
  | group (some number) inner, pc, register, hp, hq => by
    have hnumber : p number := hp number (.inl List.mem_cons_self)
    have hinner := usesOnly_layout inner (pc + 1) register
      (fun other h => hp other (h.imp_left (List.mem_cons_of_mem _)))
      fun own h => hq own (List.mem_cons_of_mem _ (List.mem_append_left _ h))
    exact List.forall_mem_cons.mpr ⟨.of_group rfl rfl hnumber, List.forall_mem_append.mpr
      ⟨hinner, List.forall_mem_singleton.mpr (.of_group rfl rfl hnumber)⟩⟩
  | group none inner, pc, register, hp, hq => usesOnly_layout inner pc register hp hq
  | concat items, pc, register, hp, hq => usesOnly_layoutAll items pc register hp hq
  | alternation branches, pc, register, hp, hq =>
    usesOnly_layoutBranches branches _ pc register hp hq
  | repetition quantifier inner, pc, register, hp, hq => by
    have hinner := usesOnly_layout inner (pc + 3) (register + 2) hp fun own h =>
      hq own (List.mem_cons_of_mem _ (List.mem_cons_of_mem _ (List.mem_cons_of_mem _
        (List.mem_append_left _ h))))
    have hown : ∀ instr : Instr, instr.groups = [] → instr.loopRegisters = [register] →
        instr.UsesOnly p q :=
      fun instr hgroups hloops => .of_loop hgroups hloops (hq register List.mem_cons_self)
    exact List.forall_mem_cons.mpr ⟨hown _ rfl rfl, List.forall_mem_cons.mpr ⟨hown _ rfl rfl,
      List.forall_mem_cons.mpr ⟨hown _ rfl rfl, List.forall_mem_append.mpr
        ⟨hinner, List.forall_mem_singleton.mpr (hown _ rfl rfl)⟩⟩⟩⟩

theorem usesOnly_layoutAll : ∀ (items : List Node) (pc register : Nat),
    (∀ number, number ∈ capturesAll items ∨ number ∈ referencesAll items → p number) →
    (∀ own, .loopStart own ∈ layoutAll pc register items → q own) →
    ∀ instr ∈ layoutAll pc register items, instr.UsesOnly p q
  | [], _, _, _, _ => List.forall_mem_nil _
  | item :: items, pc, register, hp, hq =>
    List.forall_mem_append.mpr
      ⟨usesOnly_layout item pc register
        (fun number h => hp number (h.imp (List.mem_append_left _) (List.mem_append_left _)))
        fun own h => hq own (List.mem_append_left _ h),
      usesOnly_layoutAll items _ _
        (fun number h => hp number (h.imp (List.mem_append_right _) (List.mem_append_right _)))
        fun own h => hq own (List.mem_append_right _ h)⟩

theorem usesOnly_layoutBranches : ∀ (branches : List Node) (finish pc register : Nat),
    (∀ number, number ∈ capturesAll branches ∨ number ∈ referencesAll branches → p number) →
    (∀ own, .loopStart own ∈ layoutBranches finish pc register branches → q own) →
    ∀ instr ∈ layoutBranches finish pc register branches, instr.UsesOnly p q
  | [], _, _, _, _, _ => List.forall_mem_nil _
  | [final], _, pc, register, hp, hq =>
    usesOnly_layout final pc register
      (fun number h => hp number (h.imp (List.mem_append_left _) (List.mem_append_left _))) hq
  | branch :: other :: branches, finish, pc, register, hp, hq =>
    List.forall_mem_cons.mpr ⟨.of_none rfl rfl, List.forall_mem_append.mpr
      ⟨usesOnly_layout branch (pc + 1) register
        (fun number h => hp number (h.imp (List.mem_append_left _) (List.mem_append_left _)))
        fun own h => hq own (List.mem_cons_of_mem _ (List.mem_append_left _ h)),
      List.forall_mem_cons.mpr ⟨.of_none rfl rfl,
        usesOnly_layoutBranches (other :: branches) finish _ _
          (fun number h => hp number (h.imp (List.mem_append_right _) (List.mem_append_right _)))
          fun own h => hq own (List.mem_cons_of_mem _ (List.mem_append_right _
            (List.mem_cons_of_mem _ h)))⟩⟩⟩

end

end Uses

section Claims

open Instr (captureClaims loopClaims)

mutual

/-- The captures of a layout begin in the order of their numbers. -/
theorem captureClaims_layout : ∀ (node : Node) (pc register : Nat),
    (node.layout pc register).flatMap captureClaims =
      node.captures.flatMap fun group => List.range' (Pattern.captureRegister group) 3
  | literal _, _, _ => rfl
  | charClass _, _, _ => rfl
  | anyChar, _, _ => rfl
  | anchor _, _, _ => rfl
  | backreference _, _, _ => rfl
  | look _ inner, pc, register => by
    simp [layout, captures, captureClaims, captureClaims_layout inner]
  | group (some number) inner, pc, register => by
    simp [layout, captures, captureClaims, captureClaims_layout inner]
  | group none inner, pc, register => by
    simp [layout, captures, captureClaims_layout inner]
  | concat items, pc, register => captureClaims_layoutAll items pc register
  | alternation branches, pc, register => captureClaims_layoutBranches branches _ pc register
  | repetition _ inner, pc, register => by
    simp [layout, captures, captureClaims, captureClaims_layout inner]

theorem captureClaims_layoutAll : ∀ (items : List Node) (pc register : Nat),
    (layoutAll pc register items).flatMap captureClaims =
      (capturesAll items).flatMap fun group => List.range' (Pattern.captureRegister group) 3
  | [], _, _ => rfl
  | item :: items, pc, register => by
    simp [layoutAll, capturesAll, captureClaims_layout item, captureClaims_layoutAll items]

theorem captureClaims_layoutBranches : ∀ (branches : List Node) (finish pc register : Nat),
    (layoutBranches finish pc register branches).flatMap captureClaims =
      (capturesAll branches).flatMap fun group => List.range' (Pattern.captureRegister group) 3
  | [], _, _, _ => rfl
  | [final], _, pc, register => by
    simp [layoutBranches, capturesAll, captureClaims_layout final]
  | branch :: other :: branches, finish, pc, register => by
    have hothers := captureClaims_layoutBranches (other :: branches) finish
      (pc + branch.size + 2) (register + 2 * branch.loops)
    rw [capturesAll, List.flatMap_append, ← hothers]
    simp [layoutBranches, captureClaims, captureClaims_layout branch]

end

theorem range'_loops (register first second : Nat) :
    List.range' register (2 * first) ++ List.range' (register + 2 * first) (2 * second) =
      List.range' register (2 * (first + second)) := by
  rw [List.range'_append_1, Nat.mul_add]

mutual

theorem loopClaims_layout : ∀ (node : Node) (pc register : Nat),
    (node.layout pc register).flatMap loopClaims = List.range' register (2 * node.loops)
  | literal _, _, _ => rfl
  | charClass _, _, _ => rfl
  | anyChar, _, _ => rfl
  | anchor _, _, _ => rfl
  | backreference _, _, _ => rfl
  | look _ inner, pc, register => by
    simp [layout, loops, loopClaims, loopClaims_layout inner]
  | group (some number) inner, pc, register => by
    simp [layout, loops, loopClaims, loopClaims_layout inner]
  | group none inner, pc, register => loopClaims_layout inner pc register
  | concat items, pc, register => loopClaims_layoutAll items pc register
  | alternation branches, pc, register => loopClaims_layoutBranches branches _ pc register
  | repetition _ inner, pc, register => by
    rw [loops, Nat.add_comm, ← range'_loops]
    simp [layout, loopClaims, loopClaims_layout inner]

theorem loopClaims_layoutAll : ∀ (items : List Node) (pc register : Nat),
    (layoutAll pc register items).flatMap loopClaims = List.range' register (2 * loopsAll items)
  | [], _, _ => rfl
  | item :: items, pc, register => by
    rw [layoutAll, loopsAll, List.flatMap_append, loopClaims_layout item,
      loopClaims_layoutAll items, range'_loops]

theorem loopClaims_layoutBranches : ∀ (branches : List Node) (finish pc register : Nat),
    (layoutBranches finish pc register branches).flatMap loopClaims =
      List.range' register (2 * loopsAll branches)
  | [], _, _, _ => rfl
  | [final], _, pc, register => by
    rw [layoutBranches, loopsAll, loopsAll, Nat.add_zero, loopClaims_layout final]
  | branch :: other :: branches, finish, pc, register => by
    rw [loopsAll, ← range'_loops, ← loopClaims_layout branch (pc + 1) register,
      ← loopClaims_layoutBranches (other :: branches) finish (pc + branch.size + 2)]
    simp [layoutBranches, loopClaims]

end

end Claims

theorem nodup_captureClaims {numbers : List Nat} (h : numbers.Nodup) :
    (numbers.flatMap fun group => List.range' (Pattern.captureRegister group) 3).Nodup := by
  rw [List.nodup_flatMap]
  refine ⟨fun _ _ => List.nodup_range', h.imp ?_⟩
  intro group other hne register hregister hother
  rw [List.mem_range'_1, Pattern.captureRegister] at hregister hother
  omega

end Node

namespace Program

/-- How the instructions of a program hold together: no place that they lead to is missing, no
register that they use is, and none is given out twice. -/
structure WellLaidOut (p : Program) : Prop where
  target_lt : ∀ (pc : Nat) (instr : Instr), p.instrs[pc]? = some instr →
    ∀ target ∈ instr.leadsTo pc, target < p.instrs.size
  register_lt : ∀ instr ∈ p.instrs, ∀ register ∈ instr.registers, register < p.slots
  /-- The captures that are entered, left or repeated are those of the pattern. -/
  group_mem : ∀ instr ∈ p.instrs, ∀ group ∈ instr.groups,
    1 ≤ group ∧ group ≤ p.pattern.captureCount
  /-- The instructions of a repetition share the registers that are given to it where it begins. -/
  loop_started : ∀ instr ∈ p.instrs, ∀ register ∈ instr.loopRegisters,
    .loopStart register ∈ p.instrs
  /-- The registers of repetitions stand behind those of captures. -/
  loop_mem : ∀ register, .loopStart register ∈ p.instrs →
    p.pattern.captureRegisters ≤ register ∧ register + 2 ≤ p.slots
  nodup_claims : (p.instrs.toList.flatMap Instr.claims).Nodup

variable {p : Program}

theorem size_instrs (p : Program) : p.instrs.size = p.pattern.root.size + 1 := by
  rw [← Array.length_toList, toList_instrs, Pattern.layout, List.length_append,
    Node.length_layout, List.length_singleton]

theorem loopClaims_instrs (p : Program) : p.instrs.toList.flatMap Instr.loopClaims =
    List.range' p.pattern.captureRegisters (2 * p.pattern.root.loops) := by
  rw [toList_instrs, Pattern.layout, List.flatMap_append, Node.loopClaims_layout]
  simp [Instr.loopClaims]

/-- The registers are given out first to the captures and then to the repetitions. -/
theorem perm_claims (p : Program) : (p.instrs.toList.flatMap Instr.claims).Perm
    ((p.pattern.root.captures.flatMap fun group =>
        List.range' (Pattern.captureRegister group) 3) ++
      List.range' p.pattern.captureRegisters (2 * p.pattern.root.loops)) := by
  have hcaptures : p.instrs.toList.flatMap Instr.captureClaims =
      p.pattern.root.captures.flatMap fun group =>
        List.range' (Pattern.captureRegister group) 3 := by
    rw [toList_instrs, Pattern.layout, List.flatMap_append, Node.captureClaims_layout]
    simp [Instr.captureClaims]
  rw [← hcaptures, ← loopClaims_instrs]
  exact (List.flatMap_append_perm _ _ _).symm

/-- The registers of a repetition are those that are given to repetitions. -/
theorem loopStart_mem {register : Nat} (h : .loopStart register ∈ p.instrs) :
    p.pattern.captureRegisters ≤ register ∧ register + 2 ≤ p.slots := by
  have hclaims : ∀ offset < 2, register + offset ∈
      List.range' p.pattern.captureRegisters (2 * p.pattern.root.loops) := by
    intro offset hoffset
    rw [← loopClaims_instrs, List.mem_flatMap]
    refine ⟨_, Array.mem_toList_iff.mpr h, ?_⟩
    rw [Instr.loopClaims, List.mem_range'_1]
    omega
  have hfirst := List.mem_range'_1.mp (hclaims 0 (by omega))
  have hlast := List.mem_range'_1.mp (hclaims 1 (by omega))
  rw [p.slots_eq, Pattern.registerCount]
  omega

theorem nodup_claims (p : Program) : (p.instrs.toList.flatMap Instr.claims).Nodup := by
  rw [p.perm_claims.nodup_iff, List.nodup_append]
  have hcaptures := p.pattern.isRoot.captures_eq
  refine ⟨Node.nodup_captureClaims (hcaptures ▸ List.nodup_range'), List.nodup_range', ?_⟩
  intro register hregister other hother
  obtain ⟨group, hgroup, hregister⟩ := List.mem_flatMap.mp hregister
  have hle := p.pattern.root.le_of_mem_captures p.pattern.isWellFormed_root hgroup
  rw [List.mem_range'_1] at hregister hother
  simp only [Pattern.captureRegisters, Pattern.captureRegister] at hregister hother
  omega

theorem wellLaidOut (h : ∀ number ∈ p.pattern.root.references,
    1 ≤ number ∧ number ≤ p.pattern.captureCount) : p.WellLaidOut := by
  have hcaptures : ∀ number ∈ p.pattern.root.captures,
      1 ≤ number ∧ number ≤ p.pattern.captureCount := by
    intro number hnumber
    refine ⟨?_, p.pattern.root.le_of_mem_captures p.pattern.isWellFormed_root hnumber⟩
    rw [p.pattern.isRoot.captures_eq, List.mem_range'_1] at hnumber
    exact hnumber.1
  have huses : ∀ instr ∈ p.instrs, instr.UsesOnly
      (fun number => 1 ≤ number ∧ number ≤ p.pattern.captureCount)
      fun register => .loopStart register ∈ p.instrs := by
    intro instr hinstr
    have hlayout : ∀ instr, instr ∈ p.instrs ↔
        instr ∈ p.pattern.root.layout 0 p.pattern.captureRegisters ∨ instr = .accept := by
      intro instr
      rw [← Array.mem_toList_iff, toList_instrs, Pattern.layout, List.mem_append,
        List.mem_singleton]
    rcases (hlayout instr).mp hinstr with hroot | rfl
    · exact p.pattern.root.usesOnly_layout 0 _
        (fun number hnumber => hnumber.elim (hcaptures number) (h number))
        (fun own hown => (hlayout _).mpr (.inl hown)) instr hroot
    · exact .of_none rfl rfl
  constructor
  case target_lt =>
    intro pc instr hinstr target htarget
    have hpc := (Array.getElem?_eq_some_iff.mp hinstr).1
    rw [size_instrs] at hpc ⊢
    have hsteers := p.entry_zero.steers (Nat.zero_le pc) (by omega) hinstr
    have hle := (hsteers.target_mem target htarget).2
    omega
  case register_lt =>
    intro instr hinstr register hregister
    rcases Instr.mem_registers hregister with ⟨group, hgroup, hle⟩ | ⟨own, hown, hle⟩
    · have hcount := ((huses instr hinstr).groups group hgroup).2
      have hslots := p.entry_zero.loopRegisters_le
      simp only [Pattern.captureRegisters, Pattern.captureRegister] at hle hslots
      omega
    · have hlast := (loopStart_mem ((huses instr hinstr).loops own hown)).2
      omega
  case group_mem => exact fun instr hinstr => (huses instr hinstr).groups
  case loop_started => exact fun instr hinstr => (huses instr hinstr).loops
  case loop_mem => exact fun register => loopStart_mem
  case nodup_claims => exact p.nodup_claims

/-- A capture begins at one instruction alone. -/
theorem groupStart_unique {group first second : Nat}
    (hfirst : p.instrs[first]? = some (.groupStart group))
    (hsecond : p.instrs[second]? = some (.groupStart group)) : first = second := by
  have hpairwise := (List.nodup_flatMap.mp p.nodup_claims).2
  rw [List.pairwise_iff_getElem] at hpairwise
  have hclaim : Pattern.captureRegister group ∈ (Instr.groupStart group).claims := by
    simp [Instr.claims, Instr.captureClaims, Instr.loopClaims]
  have hdisjoint : ∀ first second : Nat, p.instrs[first]? = some (.groupStart group) →
      p.instrs[second]? = some (.groupStart group) → ¬ first < second := by
    intro first second hfirst hsecond hlt
    rw [← Array.getElem?_toList] at hfirst hsecond
    obtain ⟨hi, hfirst⟩ := List.getElem?_eq_some_iff.mp hfirst
    obtain ⟨hj, hsecond⟩ := List.getElem?_eq_some_iff.mp hsecond
    have h : List.Disjoint p.instrs.toList[first].claims p.instrs.toList[second].claims :=
      hpairwise first second hi hj hlt
    rw [hfirst, hsecond] at h
    exact h hclaim hclaim
  rcases Nat.lt_trichotomy first second with hlt | heq | hlt
  · exact absurd hlt (hdisjoint first second hfirst hsecond)
  · exact heq
  · exact absurd hlt (hdisjoint second first hsecond hfirst)

end Program
end TokenPatterns
