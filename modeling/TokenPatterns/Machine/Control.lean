import TokenPatterns.Machine.Placement

/-!
# Where instructions lead

Each instruction of a layout leads to places of the same layout or to the one behind it. What a jump
passes over holds captures as a whole. So whichever way a run takes to a place, the same captures
are under way there: those that were entered in front of the place and are left behind it.
-/
namespace TokenPatterns

namespace Instr

/-- The places where a run may go on from an instruction at `pc`. -/
def leadsTo (pc : Nat) : Instr → List Nat
  | look _ body next => [body, next]
  | split first second => [first, second]
  | jump target => [target]
  | loop _ _ exit => [pc + 1, exit]
  | lapEnd _ _ head => [head]
  | accept => []
  | _ => [pc + 1]

/-- By how much an instruction changes how often a capture was entered and not yet left. -/
def depthChange (group : Nat) : Instr → Int
  | groupStart number => if number = group then 1 else 0
  | groupEnd number => if number = group then -1 else 0
  | _ => 0

theorem depthChange_nonpos {group : Nat} {instr : Instr} (h : instr ≠ groupStart group) :
    instr.depthChange group ≤ 0 := by
  cases instr with
  | groupStart number =>
    have hne : number ≠ group := fun heq => h (congrArg groupStart heq)
    simp [depthChange, hne]
  | groupEnd number =>
    simp only [depthChange]
    split <;> decide
  | _ => exact Int.le_refl _

end Instr

/-- How often a capture is entered in the code and not left in it. -/
def depth (group : Nat) : List Instr → Int
  | [] => 0
  | instr :: code => instr.depthChange group + depth group code

section Depth

variable {group : Nat} {code : List Instr}

@[simp] theorem depth_nil : depth group [] = 0 := rfl

@[simp] theorem depth_cons (instr : Instr) :
    depth group (instr :: code) = instr.depthChange group + depth group code :=
  rfl

@[simp] theorem depth_append (more : List Instr) :
    depth group (code ++ more) = depth group code + depth group more := by
  induction code with
  | nil => exact (Int.zero_add _).symm
  | cons instr code ih => rw [List.cons_append, depth_cons, depth_cons, ih, Int.add_assoc]

theorem mem_of_depth_pos (h : 0 < depth group code) : .groupStart group ∈ code := by
  induction code with
  | nil => cases h
  | cons instr code ih =>
    by_cases hinstr : instr = .groupStart group
    · rw [hinstr]
      exact List.mem_cons_self
    · have hchange := Instr.depthChange_nonpos hinstr
      rw [depth_cons] at h
      exact List.mem_cons_of_mem _ (ih (by omega))

mutual

/-- A layout leaves each capture as often as it enters it. -/
theorem depth_layout : ∀ (node : Node) (pc register : Nat),
    depth group (node.layout pc register) = 0
  | .literal _, _, _ => rfl
  | .charClass _, _, _ => rfl
  | .anyChar, _, _ => rfl
  | .anchor _, _, _ => rfl
  | .backreference _, _, _ => rfl
  | .look _ inner, pc, register => by
    simp [Node.layout, Instr.depthChange, depth_layout inner]
  | .group (some number) inner, pc, register => by
    simp only [Node.layout, depth_cons, depth_append, depth_nil, Instr.depthChange,
      depth_layout inner]
    split <;> rfl
  | .group none inner, pc, register => depth_layout inner pc register
  | .concat items, pc, register => depth_layoutAll items pc register
  | .alternation branches, pc, register => depth_layoutBranches branches _ pc register
  | .repetition _ inner, pc, register => by
    simp [Node.layout, Instr.depthChange, depth_layout inner]

theorem depth_layoutAll : ∀ (items : List Node) (pc register : Nat),
    depth group (Node.layoutAll pc register items) = 0
  | [], _, _ => rfl
  | item :: items, pc, register => by
    simp [Node.layoutAll, depth_layout item, depth_layoutAll items]

theorem depth_layoutBranches : ∀ (branches : List Node) (finish pc register : Nat),
    depth group (Node.layoutBranches finish pc register branches) = 0
  | [], _, _, _ => rfl
  | [last], _, pc, register => depth_layout last pc register
  | branch :: other :: branches, finish, pc, register => by
    simp [Node.layoutBranches, Instr.depthChange, depth_layout branch,
      depth_layoutBranches (other :: branches)]

end

end Depth

namespace Program

variable {p : Program} {group first last pc : Nat} {instr : Instr} {code : List Instr}

theorem Places.getElem?_eq (h : p.Places pc code) {i : Nat} (hi : i < code.length) :
    p.instrs[pc + i]? = code[i]? := by
  obtain ⟨rest, hrest⟩ := h
  rw [← Array.getElem?_toList, ← List.getElem?_drop, ← hrest, List.getElem?_append_left hi]

theorem Places.of_getElem? (h : p.instrs[pc]? = some instr) : p.Places pc [instr] := by
  rw [← Array.getElem?_toList] at h
  obtain ⟨hlt, rfl⟩ := List.getElem?_eq_some_iff.mp h
  rw [Places, List.drop_eq_getElem_cons hlt]
  exact List.prefix_append [_] _

/-- How often a capture is entered and not left in front of `pc`. -/
def depthAt (p : Program) (group pc : Nat) : Int := depth group (p.instrs.toList.take pc)

theorem depthAt_add (group : Nat) (h : p.Places pc code) :
    p.depthAt group (pc + code.length) = p.depthAt group pc + depth group code := by
  rw [depthAt, List.take_add, depth_append, ← List.prefix_iff_eq_take.mp h, depthAt]

theorem depthAt_succ (group : Nat) (h : p.Places pc (instr :: code)) :
    p.depthAt group (pc + 1) = p.depthAt group pc + instr.depthChange group := by
  have hone : p.Places pc [instr] := Places.left h
  simpa using depthAt_add group hone

theorem depthAt_succ_of_ne (group : Nat) (h : p.Places pc (instr :: code))
    (hstart : ∀ group, instr ≠ .groupStart group) (hend : ∀ group, instr ≠ .groupEnd group) :
    p.depthAt group (pc + 1) = p.depthAt group pc := by
  have hchange : instr.depthChange group = 0 := by
    cases instr with
    | groupStart number => exact absurd rfl (hstart number)
    | groupEnd number => exact absurd rfl (hend number)
    | _ => rfl
  rw [depthAt_succ _ h, hchange, Int.add_zero]

theorem depthAt_layout {node : Node} {register : Nat} (group : Nat)
    (h : p.Places pc (node.layout pc register)) :
    p.depthAt group (pc + node.size) = p.depthAt group pc := by
  have hadd := depthAt_add group h
  rwa [Node.length_layout, depth_layout, Int.add_zero] at hadd

/-- A capture that is under way at `pc` since `first` was entered in between. -/
theorem exists_groupStart_of_depthAt_lt (hle : first ≤ pc)
    (h : p.depthAt group first < p.depthAt group pc) :
    ∃ place < pc, p.instrs[place]? = some (.groupStart group) := by
  obtain ⟨length, rfl⟩ := Nat.exists_eq_add_of_le hle
  rw [depthAt, depthAt, List.take_add, depth_append] at h
  have hpos : 0 < depth group ((p.instrs.toList.drop first).take length) := by omega
  obtain ⟨i, hi, hstart⟩ := List.getElem_of_mem (mem_of_depth_pos hpos)
  rw [List.length_take, List.length_drop] at hi
  rw [List.getElem_take, List.getElem_drop] at hstart
  refine ⟨first + i, by omega, ?_⟩
  rw [← Array.getElem?_toList, ← hstart]
  exact List.getElem?_eq_getElem _

/-- An instruction at `pc` leads to places from `first` up to `last`, wherever to with the same
captures under way as behind it. A capture that it leaves was entered behind `first`. -/
structure Steers (p : Program) (first last pc : Nat) (instr : Instr) : Prop where
  target_mem : ∀ target ∈ instr.leadsTo pc, first ≤ target ∧ target ≤ last
  depth_eq : ∀ target ∈ instr.leadsTo pc, ∀ group,
    p.depthAt group target = p.depthAt group (pc + 1)
  entered : ∀ group, instr = .groupEnd group → p.depthAt group first < p.depthAt group pc

/-- All instructions of `code`, which is placed at `pc`, steer in that way. -/
def SteersAll (p : Program) (first last pc : Nat) (code : List Instr) : Prop :=
  ∀ i instr, code[i]? = some instr → p.Steers first last (pc + i) instr

namespace Steers

theorem of_targets (htargets : ∀ target ∈ instr.leadsTo pc, (first ≤ target ∧ target ≤ last) ∧
      ∀ group, p.depthAt group target = p.depthAt group (pc + 1))
    (hend : ∀ group, instr ≠ .groupEnd group) : p.Steers first last pc instr where
  target_mem target htarget := (htargets target htarget).1
  depth_eq target htarget := (htargets target htarget).2
  entered group h := absurd h (hend group)

theorem next (hfirst : first ≤ pc) (hlast : pc < last) (hnext : instr.leadsTo pc = [pc + 1])
    (hend : ∀ group, instr ≠ .groupEnd group) : p.Steers first last pc instr := by
  apply of_targets _ hend
  rw [hnext]
  exact List.forall_mem_singleton.mpr ⟨by omega, fun _ => rfl⟩

theorem accept : p.Steers first last pc .accept :=
  ⟨nofun, nofun, nofun⟩

end Steers

namespace SteersAll

variable {left right : List Instr}

theorem nil : p.SteersAll first last pc [] := by
  intro i instr h
  simp at h

theorem cons (h : p.Steers first last pc instr) (hcode : p.SteersAll first last (pc + 1) code) :
    p.SteersAll first last pc (instr :: code) := by
  intro i other hi
  cases i with
  | zero =>
    cases hi
    exact h
  | succ i =>
    rw [Nat.add_succ, ← Nat.succ_add]
    exact hcode i other hi

theorem append (hleft : p.SteersAll first last pc left)
    (hright : p.SteersAll first last (pc + left.length) right) :
    p.SteersAll first last pc (left ++ right) := by
  intro i instr hi
  by_cases h : i < left.length
  · rw [List.getElem?_append_left h] at hi
    exact hleft i instr hi
  · rw [List.getElem?_append_right (Nat.not_lt.mp h)] at hi
    have hplace : pc + left.length + (i - left.length) = pc + i := by omega
    exact hplace ▸ hright _ instr hi

theorem singleton (h : p.Steers first last pc instr) : p.SteersAll first last pc [instr] :=
  cons h nil

end SteersAll

section Layout

/-- A capture is left at the end of its layout, where it is under way since the start of it. -/
theorem steers_groupEnd {number register : Nat} {inner : Node}
    (hplaces : p.Places pc ((Node.group (some number) inner).layout pc register))
    (hfirst : first ≤ pc) (hlast : pc + inner.size + 2 ≤ last)
    (hdepth : ∀ group, p.depthAt group first ≤ p.depthAt group pc) :
    p.Steers first last (pc + 1 + inner.size) (.groupEnd number) where
  target_mem target htarget := by
    obtain rfl := List.mem_singleton.mp htarget
    omega
  depth_eq target htarget group := by
    rw [List.mem_singleton.mp htarget]
  entered group h := by
    cases h
    have hstart := depthAt_succ number hplaces
    rw [Instr.depthChange, if_pos rfl] at hstart
    rw [depthAt_layout _ hplaces.tail.left, hstart]
    have hle := hdepth number
    omega

theorem steers_look {kind : Look} {register : Nat} {inner : Node}
    (hplaces : p.Places pc ((Node.look kind inner).layout pc register))
    (hfirst : first ≤ pc) (hlast : pc + inner.size + 2 ≤ last) :
    p.Steers first last pc (.look kind (pc + 1) (pc + inner.size + 2)) := by
  have hbehind : ∀ group, p.depthAt group (pc + inner.size + 2) = p.depthAt group (pc + 1) := by
    intro group
    have hend := hplaces.tail.right
    rw [Node.length_layout] at hend
    rw [show pc + inner.size + 2 = pc + 1 + inner.size + 1 by omega,
      depthAt_succ_of_ne group hend nofun nofun, depthAt_layout group hplaces.tail.left]
  exact .of_targets (List.forall_mem_cons.mpr ⟨⟨by omega, fun _ => rfl⟩,
    List.forall_mem_singleton.mpr ⟨by omega, hbehind⟩⟩) nofun

theorem steers_loop {quantifier : Quantifier} {register : Nat} {inner : Node}
    (hplaces : p.Places pc ((Node.repetition quantifier inner).layout pc register))
    (hfirst : first ≤ pc) (hlast : pc + inner.size + 4 ≤ last) :
    p.Steers first last (pc + 1) (.loop register quantifier (pc + inner.size + 4)) ∧
      p.Steers first last (pc + 3 + inner.size) (.lapEnd register quantifier.min (pc + 1)) := by
  have hbody := hplaces.tail.tail.tail
  have hend := hbody.right
  rw [Node.length_layout] at hend
  have hlap : ∀ group, p.depthAt group (pc + 2) = p.depthAt group (pc + 1) :=
    fun group => depthAt_succ_of_ne group hplaces.tail nofun nofun
  have hexit : ∀ group, p.depthAt group (pc + inner.size + 4) = p.depthAt group (pc + 2) := by
    intro group
    rw [show pc + inner.size + 4 = pc + 1 + 1 + 1 + inner.size + 1 by omega,
      depthAt_succ_of_ne group hend nofun nofun, depthAt_layout group hbody.left,
      depthAt_succ_of_ne group hplaces.tail.tail nofun nofun]
  constructor
  · exact .of_targets (List.forall_mem_cons.mpr ⟨⟨by omega, fun _ => rfl⟩,
      List.forall_mem_singleton.mpr ⟨by omega, hexit⟩⟩) nofun
  · refine .of_targets (List.forall_mem_singleton.mpr ⟨by omega, fun group => ?_⟩) nofun
    rw [show pc + 3 + inner.size + 1 = pc + inner.size + 4 by omega, hexit, hlap]

theorem steers_split {finish register : Nat} {branch other : Node} {branches : List Node}
    (hplaces : p.Places pc
      (Node.layoutBranches finish pc register (branch :: other :: branches)))
    (hfinish : finish = pc + branch.size + 2 + Node.sizeBranches (other :: branches))
    (hfirst : first ≤ pc) (hlast : finish ≤ last) :
    p.Steers first last pc (.split (pc + 1) (pc + branch.size + 2)) ∧
      p.Steers first last (pc + 1 + branch.size) (.jump finish) := by
  have hjump := hplaces.tail.right
  rw [Node.length_layout] at hjump
  have hplace : pc + branch.size + 2 = pc + 1 + branch.size + 1 := by omega
  constructor
  · refine .of_targets (List.forall_mem_cons.mpr ⟨⟨by omega, fun _ => rfl⟩,
      List.forall_mem_singleton.mpr ⟨by omega, fun group => ?_⟩⟩) nofun
    rw [hplace, depthAt_succ_of_ne group hjump nofun nofun,
      depthAt_layout group hplaces.tail.left]
  · refine .of_targets (List.forall_mem_singleton.mpr ⟨by omega, fun group => ?_⟩) nofun
    have hothers := depthAt_add group hjump.tail
    rw [Node.length_layoutBranches, depth_layoutBranches, Int.add_zero, ← hplace,
      ← hfinish] at hothers
    rw [hothers, hplace]

mutual

/-- The instructions of a layout keep to it, and pass over captures as a whole. -/
theorem steersAll_layout : ∀ (node : Node) (pc register : Nat),
    p.Places pc (node.layout pc register) → first ≤ pc → pc + node.size ≤ last →
    (∀ group, p.depthAt group first ≤ p.depthAt group pc) →
    p.SteersAll first last pc (node.layout pc register)
  | .literal _, _, _, _, hfirst, hlast, _ => .singleton (.next hfirst hlast rfl nofun)
  | .charClass _, _, _, _, hfirst, hlast, _ => .singleton (.next hfirst hlast rfl nofun)
  | .anyChar, _, _, _, hfirst, hlast, _ => .singleton (.next hfirst hlast rfl nofun)
  | .anchor _, _, _, _, hfirst, hlast, _ => .singleton (.next hfirst hlast rfl nofun)
  | .backreference _, _, _, _, hfirst, hlast, _ => .singleton (.next hfirst hlast rfl nofun)
  | .look kind inner, pc, register, hplaces, hfirst, hlast, hdepth => by
    rw [Node.size] at hlast
    have hsame : ∀ group, p.depthAt group (pc + 1) = p.depthAt group pc :=
      fun group => depthAt_succ_of_ne group hplaces nofun nofun
    refine .cons (steers_look hplaces hfirst hlast) (.append ?_ (.singleton .accept))
    exact steersAll_layout inner (pc + 1) register hplaces.tail.left (by omega) (by omega)
      fun group => hsame group ▸ hdepth group
  | .group (some number) inner, pc, register, hplaces, hfirst, hlast, hdepth => by
    rw [Node.size] at hlast
    have hmore : ∀ group, p.depthAt group pc ≤ p.depthAt group (pc + 1) := by
      intro group
      rw [depthAt_succ _ hplaces, Instr.depthChange]
      split <;> omega
    refine .cons (.next hfirst (by omega) rfl nofun) (.append ?_ (.singleton ?_))
    · exact steersAll_layout inner (pc + 1) register hplaces.tail.left (by omega) (by omega)
        fun group => Int.le_trans (hdepth group) (hmore group)
    · rw [Node.length_layout]
      exact steers_groupEnd hplaces hfirst hlast hdepth
  | .group none inner, pc, register, hplaces, hfirst, hlast, hdepth =>
    steersAll_layout inner pc register hplaces hfirst hlast hdepth
  | .concat items, pc, register, hplaces, hfirst, hlast, hdepth =>
    steersAll_layoutAll items pc register hplaces hfirst hlast hdepth
  | .alternation branches, pc, register, hplaces, hfirst, hlast, hdepth =>
    steersAll_layoutBranches branches _ pc register hplaces rfl hfirst hlast hdepth
  | .repetition quantifier inner, pc, register, hplaces, hfirst, hlast, hdepth => by
    rw [Node.size] at hlast
    obtain ⟨hloop, hend⟩ := steers_loop hplaces hfirst hlast
    have hsame : ∀ group, p.depthAt group (pc + 3) = p.depthAt group pc := by
      intro group
      rw [depthAt_succ_of_ne _ hplaces.tail.tail nofun nofun,
        depthAt_succ_of_ne _ hplaces.tail nofun nofun, depthAt_succ_of_ne _ hplaces nofun nofun]
    refine .cons (.next hfirst (by omega) rfl nofun) (.cons hloop
      (.cons (.next (by omega) (by omega) rfl nofun) (.append ?_ (.singleton ?_))))
    · exact steersAll_layout inner (pc + 3) (register + 2) hplaces.tail.tail.tail.left (by omega)
        (by omega) fun group => hsame group ▸ hdepth group
    · rw [Node.length_layout]
      exact hend

theorem steersAll_layoutAll : ∀ (items : List Node) (pc register : Nat),
    p.Places pc (Node.layoutAll pc register items) → first ≤ pc →
    pc + Node.sizeAll items ≤ last → (∀ group, p.depthAt group first ≤ p.depthAt group pc) →
    p.SteersAll first last pc (Node.layoutAll pc register items)
  | [], _, _, _, _, _, _ => .nil
  | item :: items, pc, register, hplaces, hfirst, hlast, hdepth => by
    rw [Node.sizeAll] at hlast
    have hrest := hplaces.right
    rw [Node.length_layout] at hrest
    refine .append (steersAll_layout item pc register hplaces.left hfirst (by omega) hdepth) ?_
    rw [Node.length_layout]
    exact steersAll_layoutAll items _ _ hrest (by omega) (by omega)
      fun group => depthAt_layout group hplaces.left ▸ hdepth group

theorem steersAll_layoutBranches : ∀ (branches : List Node) (finish pc register : Nat),
    p.Places pc (Node.layoutBranches finish pc register branches) →
    finish = pc + Node.sizeBranches branches → first ≤ pc → finish ≤ last →
    (∀ group, p.depthAt group first ≤ p.depthAt group pc) →
    p.SteersAll first last pc (Node.layoutBranches finish pc register branches)
  | [], _, _, _, _, _, _, _, _ => .nil
  | [final], _, pc, register, hplaces, hfinish, hfirst, hlast, hdepth =>
    steersAll_layout final pc register hplaces hfirst (hfinish ▸ hlast) hdepth
  | branch :: other :: branches, finish, pc, register, hplaces, hfinish, hfirst, hlast,
      hdepth => by
    have hsize : finish = pc + branch.size + 2 + Node.sizeBranches (other :: branches) := by
      rw [hfinish, Node.sizeBranches]
      · omega
      · exact nofun
    obtain ⟨hsplit, hjump⟩ := steers_split hplaces hsize hfirst hlast
    have hafter := hplaces.tail.right
    rw [Node.length_layout] at hafter
    have hrest := hafter.tail
    rw [show pc + 1 + branch.size + 1 = pc + branch.size + 2 by omega] at hrest
    have hsame : ∀ group, p.depthAt group (pc + 1) = p.depthAt group pc :=
      fun group => depthAt_succ_of_ne group hplaces nofun nofun
    have hbehind : ∀ group, p.depthAt group (pc + branch.size + 2) = p.depthAt group pc := by
      intro group
      rw [show pc + branch.size + 2 = pc + 1 + branch.size + 1 by omega,
        depthAt_succ_of_ne _ hafter nofun nofun, depthAt_layout _ hplaces.tail.left, hsame]
    refine .cons hsplit (.append ?_ (.cons ?_ ?_))
    · exact steersAll_layout branch (pc + 1) register hplaces.tail.left (by omega) (by omega)
        fun group => hsame group ▸ hdepth group
    · rw [Node.length_layout]
      exact hjump
    · rw [Node.length_layout, show pc + 1 + branch.size + 1 = pc + branch.size + 2 by omega]
      exact steersAll_layoutBranches (other :: branches) finish _ _ hrest hsize (by omega) hlast
        fun group => hbehind group ▸ hdepth group

end

end Layout

/-- A run that starts at an entry keeps to the layout of its body and to the end behind it. -/
theorem Entry.steers {body : Node} {register : Nat} (h : p.Entry first body register)
    (hfirst : first ≤ pc) (hlast : pc ≤ first + body.size) (hinstr : p.instrs[pc]? = some instr) :
    p.Steers first (first + body.size) pc instr := by
  obtain ⟨i, rfl⟩ := Nat.exists_eq_add_of_le hfirst
  by_cases hi : i < body.size
  · rw [h.places.left.getElem?_eq (by rwa [Node.length_layout])] at hinstr
    exact steersAll_layout body first register h.places.left (Nat.le_refl _) (Nat.le_refl _)
      (fun _ => Int.le_refl _) i instr hinstr
  · obtain rfl : i = body.size := by omega
    have hend := h.places.right
    rw [Node.length_layout] at hend
    rw [hend.head] at hinstr
    cases hinstr
    exact .accept

theorem Entry.lt_size {body : Node} {register : Nat} (h : p.Entry first body register)
    (hlast : pc ≤ first + body.size) : pc < p.instrs.size := by
  have hend := h.places.right
  rw [Node.length_layout] at hend
  have hsize := (Array.getElem?_eq_some_iff.mp hend.head).1
  omega

end Program
end TokenPatterns
