/-!
# Iteration to an answer

A process goes from state to state until it gives an answer. `Ends next P` says that it does so
from where it stands, and that the answer satisfies `P`. A process that is known to end can be
followed, and its answer then satisfies whatever it was shown to satisfy.
-/
namespace TokenPatterns

/-- Where a process stands: in a state to go on from, or at its answer. -/
inductive Progress (σ ρ : Type) where
  | more (state : σ)
  | done (answer : ρ)

namespace Progress

variable {σ ρ : Type}

inductive Ends (next : σ → Progress σ ρ) (P : ρ → Prop) : Progress σ ρ → Prop
  | done {answer : ρ} : P answer → Ends next P (done answer)
  | more {state : σ} : Ends next P (next state) → Ends next P (more state)

namespace Ends

variable {next : σ → Progress σ ρ} {P Q : ρ → Prop} {state : σ}

theorem of_more (h : Ends next P (.more state)) : Ends next P (next state) := by
  cases h
  assumption

theorem imp {start : Progress σ ρ} (h : Ends next P start) (hPQ : ∀ answer, P answer → Q answer) :
    Ends next Q start := by
  induction h with
  | done hP => exact .done (hPQ _ hP)
  | more _ ih => exact .more ih

end Ends

/-- Where a process stands after so many steps, unless it has ended before. -/
def after (next : σ → Progress σ ρ) : (count : Nat) → Progress σ ρ → Progress σ ρ
  | 0, place => place
  | _ + 1, done answer => done answer
  | count + 1, more state => after next count (next state)

theorem holds_after {next : σ → Progress σ ρ} {I : Progress σ ρ → Prop}
    (hnext : ∀ state, I (more state) → I (next state)) (count : Nat) {place : Progress σ ρ}
    (h : I place) : I (after next count place) := by
  induction count generalizing place with
  | zero => exact h
  | succ count ih =>
    cases place with
    | done answer => exact h
    | more state => exact ih (hnext state h)

/-- A process that goes on in the same way from all states that are come to ends in the same way. -/
theorem Ends.congr_after {next other : σ → Progress σ ρ} {P : ρ → Prop} {start : Progress σ ρ}
    (h : Ends next P start)
    (hother : ∀ count state, after next count start = .more state → other state = next state) :
    Ends other P start := by
  induction h with
  | done hP => exact .done hP
  | @more state _ ih =>
    refine .more ?_
    rw [hother 0 state rfl]
    exact ih fun count => hother (count + 1)

theorem Ends.exists_after {next : σ → Progress σ ρ} {P : ρ → Prop} {start : Progress σ ρ}
    (h : Ends next P start) : ∃ count answer, after next count start = .done answer ∧ P answer := by
  induction h with
  | done hP => exact ⟨0, _, rfl, hP⟩
  | more _ ih =>
    obtain ⟨count, answer, hafter, hP⟩ := ih
    exact ⟨count + 1, answer, hafter, hP⟩

/-- A place from which a process ends. -/
def Ending (next : σ → Progress σ ρ) : Type :=
  { start : Progress σ ρ // Ends next (fun _ => True) start }

instance (next : σ → Progress σ ρ) : WellFoundedRelation (Ending next) where
  rel later earlier := ∃ state, earlier.1 = more state ∧ later.1 = next state
  wf := by
    constructor
    rintro ⟨start, h⟩
    induction h with
    | done _ =>
      constructor
      rintro later ⟨state, hstate, -⟩
      cases hstate
    | more _ ih =>
      constructor
      rintro ⟨later, hlater⟩ ⟨state, hstate, hnext⟩
      cases hstate
      cases hnext
      exact ih

@[specialize] def followFrom (next : σ → Progress σ ρ) (start : Ending next) : ρ :=
  match start with
  | ⟨done answer, _⟩ => answer
  | ⟨more state, h⟩ => followFrom next ⟨next state, h.of_more⟩
termination_by start
decreasing_by exact ⟨state, rfl, rfl⟩

/-- The answer of a process that ends. -/
@[inline] def follow (next : σ → Progress σ ρ) (start : Progress σ ρ)
    (h : Ends next (fun _ => True) start) : ρ :=
  followFrom next ⟨start, h⟩

@[simp] theorem follow_done (next : σ → Progress σ ρ) (answer : ρ)
    (h : Ends next (fun _ => True) (done answer)) : follow next (done answer) h = answer := by
  rw [follow, followFrom]

theorem follow_more (next : σ → Progress σ ρ) (state : σ)
    (h : Ends next (fun _ => True) (more state)) :
    follow next (more state) h = follow next (next state) h.of_more := by
  rw [follow, followFrom, follow]

theorem follow_of_ends {next : σ → Progress σ ρ} {P : ρ → Prop} {start : Progress σ ρ}
    (hP : Ends next P start) (h : Ends next (fun _ => True) start) : P (follow next start h) := by
  induction hP with
  | done hP => rwa [follow_done]
  | more _ ih =>
    rw [follow_more]
    exact ih _

theorem ends_follow {next : σ → Progress σ ρ} {start : Progress σ ρ}
    (h : Ends next (fun _ => True) start) : Ends next (· = follow next start h) start := by
  induction h with
  | done _ => exact .done (follow_done _ _ _).symm
  | more hnext ih =>
    refine .more (ih.imp fun answer hanswer => ?_)
    rw [follow_more, hanswer]

end Progress
end TokenPatterns
