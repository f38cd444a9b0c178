import TokenPatterns.Regex.GroupCount
import TokenPatterns.Regex.Parser

/-!
# What parentheses open

The groups and lookarounds of a tree in the order of their parentheses, the same list from the
tokens, and the references of both. A group has the number of the captures up to it, which is what
the survey counts, too.
-/
namespace TokenPatterns
namespace Regex
namespace Opening

def number? : Opening → Option Nat
  | group capture => capture
  | look _ => none

/-- What the tokens open if so many captures were opened before. -/
def ofTokens (captures : Nat) : List Token → List Opening
  | [] => []
  | .groupOpen kind :: tokens =>
    ofKind captures kind :: ofTokens (captures + (ofKind captures kind).captures) tokens
  | _ :: tokens => ofTokens captures tokens

end Opening
end Regex

namespace Node

open Regex (Opening)

mutual

/-- What the parentheses of the tree open, in their order. -/
def openings : Node → List Opening
  | look kind inner => .look kind :: openings inner
  | group capture inner => .group capture :: openings inner
  | concat items => openingsAll items
  | alternation branches => openingsAll branches
  | repetition _ inner => openings inner
  | _ => []

def openingsAll : List Node → List Opening
  | [] => []
  | node :: nodes => openings node ++ openingsAll nodes

end

mutual

/-- The numbers of groups that the tree refers to, in the order of the references. -/
def references : Node → List Nat
  | backreference number => [number]
  | look _ inner => references inner
  | group _ inner => references inner
  | concat items => referencesAll items
  | alternation branches => referencesAll branches
  | repetition _ inner => references inner
  | _ => []

def referencesAll : List Node → List Nat
  | [] => []
  | node :: nodes => references node ++ referencesAll nodes

end

theorem openingsAll_append (first second : List Node) :
    openingsAll (first ++ second) = openingsAll first ++ openingsAll second := by
  induction first with
  | nil => rfl
  | cons node nodes ih => simp [openingsAll, ih]

theorem referencesAll_append (first second : List Node) :
    referencesAll (first ++ second) = referencesAll first ++ referencesAll second := by
  induction first with
  | nil => rfl
  | cons node nodes ih => simp [referencesAll, ih]

mutual

theorem captures_eq_openings : ∀ node : Node,
    node.captures = node.openings.filterMap Opening.number?
  | literal _ => rfl
  | charClass _ => rfl
  | anyChar => rfl
  | anchor _ => rfl
  | backreference _ => rfl
  | look _ inner => captures_eq_openings inner
  | group none inner => captures_eq_openings inner
  | group (some number) inner => congrArg (number :: ·) (captures_eq_openings inner)
  | concat items => capturesAll_eq_openings items
  | alternation branches => capturesAll_eq_openings branches
  | repetition _ inner => captures_eq_openings inner

theorem capturesAll_eq_openings : ∀ nodes : List Node,
    capturesAll nodes = (openingsAll nodes).filterMap Opening.number?
  | [] => rfl
  | node :: nodes => by
    rw [capturesAll, openingsAll, List.filterMap_append, captures_eq_openings node,
      capturesAll_eq_openings nodes]

end

end Node

namespace Regex

namespace Opening

theorem openings_node (opening : Opening) (inner : Node) :
    (opening.node inner).openings = opening :: inner.openings := by
  cases opening <;> rfl

theorem references_node (opening : Opening) (inner : Node) :
    (opening.node inner).references = inner.references := by
  cases opening <;> rfl

end Opening

theorem captureOpenings_append (first second : List Token) :
    captureOpenings (first ++ second) = captureOpenings first + captureOpenings second :=
  List.count_append

theorem captureOpenings_cons (token : Token) (tokens : List Token) :
    captureOpenings (token :: tokens) =
      captureOpenings tokens + if token = .groupOpen .capture then 1 else 0 := by
  simp [captureOpenings, List.count_cons]

theorem captureOpenings_groupOpen (kind : GroupKind) (n : Nat) (tokens : List Token) :
    captureOpenings (.groupOpen kind :: tokens) =
      captureOpenings tokens + (Opening.ofKind n kind).captures := by
  rw [captureOpenings_cons]
  cases kind <;> rfl

theorem Opening.ofTokens_append (n : Nat) (first second : List Token) :
    ofTokens n (first ++ second) =
      ofTokens n first ++ ofTokens (n + captureOpenings first) second := by
  fun_induction ofTokens n first with
  | case1 => rfl
  | case2 n kind tokens ih =>
    rw [List.cons_append, ofTokens, ih, captureOpenings_groupOpen kind n,
      Nat.add_comm (captureOpenings tokens), ← Nat.add_assoc]
    rfl
  | case3 n token tokens hopen ih =>
    have hcapture : token ≠ .groupOpen .capture := hopen _
    rw [List.cons_append, ofTokens, ih, captureOpenings_cons, if_neg hcapture]
    · rfl
    · exact hopen

/-- Captures are numbered without a gap. -/
theorem Opening.filterMap_ofTokens (n : Nat) (tokens : List Token) :
    (ofTokens n tokens).filterMap number? = List.range' (n + 1) (captureOpenings tokens) := by
  fun_induction ofTokens n tokens with
  | case1 => rfl
  | case2 n kind tokens ih =>
    rw [captureOpenings_groupOpen kind n]
    cases kind with
    | capture => exact congrArg (List.cons (n + 1)) ih
    | nonCapture => exact ih
    | look kind => exact ih
  | case3 n token tokens hopen ih =>
    rw [captureOpenings_cons, if_neg (hopen _)]
    exact ih

/-- The parentheses among the tokens that open something, with their positions and with what they
open if so many captures were opened before. -/
def openings (captures : Nat) : List PlacedToken → List (Nat × Opening)
  | [] => []
  | ⟨pos, .groupOpen kind⟩ :: tokens =>
    (pos, .ofKind captures kind) ::
      openings (captures + (Opening.ofKind captures kind).captures) tokens
  | _ :: tokens => openings captures tokens

section Placed

variable {n pos : Nat} {opening : Opening} {tokens : List PlacedToken}

theorem map_snd_openings (n : Nat) (tokens : List PlacedToken) :
    (openings n tokens).map Prod.snd = Opening.ofTokens n (tokens.map PlacedToken.token) := by
  fun_induction openings n tokens with
  | case1 => rfl
  | case2 n pos kind tokens ih => exact congrArg (Opening.ofKind n kind :: ·) ih
  | case3 n placed tokens hopen ih =>
    rw [ih, List.map_cons, Opening.ofTokens]
    exact fun kind heq => hopen placed.pos kind (by rw [← heq])

theorem exists_of_mem_openings (h : (pos, opening) ∈ openings n tokens) :
    ∃ kind m, ⟨pos, .groupOpen kind⟩ ∈ tokens ∧ opening = .ofKind m kind := by
  fun_induction openings n tokens with
  | case1 => cases h
  | case2 n first kind tokens ih =>
    rcases List.mem_cons.mp h with heq | hlater
    · obtain ⟨rfl, rfl⟩ := Prod.mk.inj heq
      exact ⟨kind, n, List.mem_cons_self, rfl⟩
    · obtain ⟨kind, m, hmem, hopening⟩ := ih hlater
      exact ⟨kind, m, List.mem_cons_of_mem _ hmem, hopening⟩
  | case3 n placed tokens hopen ih =>
    obtain ⟨kind, m, hmem, hopening⟩ := ih h
    exact ⟨kind, m, List.mem_cons_of_mem _ hmem, hopening⟩

theorem number_of_mem_openings {number : Nat}
    (h : (pos, .group (some number)) ∈ openings n tokens) :
    n < number ∧ number ≤ n + captureOpenings (tokens.map PlacedToken.token) := by
  have hmem : number ∈ (Opening.ofTokens n (tokens.map PlacedToken.token)).filterMap
      Opening.number? := by
    rw [← map_snd_openings]
    exact List.mem_filterMap.mpr ⟨_, List.mem_map_of_mem h, rfl⟩
  rw [Opening.filterMap_ofTokens, List.mem_range'_1] at hmem
  omega

theorem capture_mem_cons {place number : Nat} {kind : GroupKind} {others : List (Nat × Opening)} :
    (place, .group (some number)) ∈ (pos, .ofKind n kind) :: others ↔
      kind = .capture ∧ place = pos ∧ number = n + 1 ∨ (place, .group (some number)) ∈ others := by
  cases kind <;> simp [Opening.ofKind]

theorem openings_unique {other number : Nat} (h : (pos, .group (some number)) ∈ openings n tokens)
    (hother : (other, .group (some number)) ∈ openings n tokens) : other = pos := by
  fun_induction openings n tokens with
  | case1 => cases h
  | case2 n first kind tokens ih =>
    have hlarger : ∀ {place}, kind = .capture →
        (place, .group (some number)) ∈ openings (n + (Opening.ofKind n kind).captures) tokens →
        number ≠ n + 1 := by
      rintro place rfl hmem rfl
      exact absurd (number_of_mem_openings hmem).1 (Nat.lt_irrefl _)
    rcases capture_mem_cons.mp h with ⟨hkind, rfl, hnumber⟩ | hlater
    · rcases capture_mem_cons.mp hother with ⟨-, rfl, -⟩ | hotherLater
      · rfl
      · exact absurd hnumber (hlarger hkind hotherLater)
    · rcases capture_mem_cons.mp hother with ⟨hkind, rfl, hnumber⟩ | hotherLater
      · exact absurd hnumber (hlarger hkind hlater)
      · exact ih hlater hotherLater
  | case3 n placed tokens hopen ih => exact ih h hother

end Placed

namespace GroupSurvey

variable {groups : GroupSurvey} {text : List Char} {pos : Nat} {kind : GroupKind}
  {tokens : List PlacedToken}

theorem mem_names_addToken (h : OpensAsSpelled groups text (⟨pos, .groupOpen kind⟩ :: tokens))
    (survey : GroupSurvey) (entry : List Char × Nat) :
    entry ∈ (survey.addToken (text.drop (pos + 1)) (.groupOpen kind)).names ↔
      entry ∈ survey.names ∨
        kind = .capture ∧ entry.2 = survey.count + 1 ∧ OpensNamed text pos entry.1 := by
  obtain ⟨htext, rest, hopens⟩ := h pos kind List.mem_cons_self
  by_cases hkind : kind = .capture
  · subst hkind
    simp only [addToken, mem_names_addOpening hopens, OpensNamed, htext, List.cons_prefix_cons,
      true_and]
  · simp only [addToken, addOpening_of_ne_capture hopens hkind, hkind, false_and, or_false]

/-- The names of the survey are those of the captures that the tokens open. -/
theorem mem_names_addTokens (h : OpensAsSpelled groups text tokens) (survey : GroupSurvey)
    (entry : List Char × Nat) : entry ∈ (survey.addTokens text tokens).names ↔
      entry ∈ survey.names ∨ ∃ pos, (pos, .group (some entry.2)) ∈ openings survey.count tokens ∧
        OpensNamed text pos entry.1 := by
  induction tokens generalizing survey with
  | nil => simp [addTokens, openings]
  | cons placed tokens ih =>
    obtain ⟨pos, token⟩ := placed
    have hrest := ih h.tail
      (survey.addToken (text.drop (pos + 1)) token)
    refine Iff.trans hrest ?_
    cases token with
    | groupOpen kind =>
      have hcount : (survey.addToken (text.drop (pos + 1)) (.groupOpen kind)).count =
          survey.count + (Opening.ofKind survey.count kind).captures := by
        rw [count_addToken h]
        cases kind <;> rfl
      rw [hcount, mem_names_addToken h, or_assoc, openings]
      refine or_congr_right ?_
      simp only [capture_mem_cons, or_and_right, exists_or]
      refine or_congr_left ⟨?_, ?_⟩
      · rintro ⟨hkind, hnumber, hnamed⟩
        exact ⟨pos, ⟨hkind, rfl, hnumber⟩, hnamed⟩
      · rintro ⟨_, ⟨hkind, rfl, hnumber⟩, hnamed⟩
        exact ⟨hkind, hnumber, hnamed⟩
    | _ => exact Iff.rfl

end GroupSurvey

end Regex
end TokenPatterns
