import TokenPatterns.Regex.Openings
import TokenPatterns.Regex.Soundness

/-!
# Trees that are read are well-formed

The groups of a tree are those that its tokens open, in the same order. So captures are numbered
without a gap. A reference stays within the groups of the text, because the survey that the lexer
asks counts the same groups.
-/
namespace TokenPatterns
namespace Regex

@[simp] theorem openings_sequenceNode (items : List Node) :
    (sequenceNode items).openings = Node.openingsAll items := by
  unfold sequenceNode
  split <;> simp [Node.openings, Node.openingsAll]

@[simp] theorem openings_alternationNode (branches : List Node) :
    (alternationNode branches).openings = Node.openingsAll branches := by
  unfold alternationNode
  split <;> simp [Node.openings, Node.openingsAll]

@[simp] theorem references_sequenceNode (items : List Node) :
    (sequenceNode items).references = Node.referencesAll items := by
  unfold sequenceNode
  split <;> simp [Node.references, Node.referencesAll]

@[simp] theorem references_alternationNode (branches : List Node) :
    (alternationNode branches).references = Node.referencesAll branches := by
  unfold alternationNode
  split <;> simp [Node.references, Node.referencesAll]

@[simp] theorem isWellFormed_sequenceNode (count : Nat) (items : List Node) :
    (sequenceNode items).isWellFormed count = Node.allWellFormed count items := by
  unfold sequenceNode
  split <;> simp [Node.isWellFormed, Node.allWellFormed]

theorem isWellFormed_alternationNode {count : Nat} {branches : List Node}
    (hne : branches ≠ []) (h : Node.allWellFormed count branches = true) :
    (alternationNode branches).isWellFormed count = true := by
  unfold alternationNode
  split
  · simpa [Node.allWellFormed] using h
  · simp [Node.isWellFormed, h, hne]

/-- The group that a token refers to. -/
def Token.reference? : Token → Option Nat
  | backreference index => some index
  | _ => none

/-- Whether a token neither opens a group nor refers to one. -/
def Token.isGroupless : Token → Bool
  | groupOpen _ => false
  | backreference _ => false
  | _ => true

section Groupless

variable {tokens : List Token}

theorem captureOpenings_of_groupless (h : ∀ token ∈ tokens, token.isGroupless = true) :
    captureOpenings tokens = 0 :=
  List.count_eq_zero.mpr fun hmem => absurd (h _ hmem) nofun

theorem ofTokens_of_groupless (h : ∀ token ∈ tokens, token.isGroupless = true) (n : Nat) :
    Opening.ofTokens n tokens = [] := by
  induction tokens with
  | nil => rfl
  | cons token tokens ih =>
    rw [Opening.ofTokens]
    · exact ih fun other hother => h other (List.mem_cons_of_mem _ hother)
    · rintro kind rfl
      cases h _ List.mem_cons_self

theorem references_of_groupless (h : ∀ token ∈ tokens, token.isGroupless = true) :
    tokens.filterMap Token.reference? = [] := by
  rw [List.filterMap_eq_nil_iff]
  intro token htoken
  have hgroupless := h token htoken
  cases token with
  | backreference => cases hgroupless
  | _ => rfl

theorem groupless_of_isClass {set : CharClass} (h : IsClass tokens set) :
    ∀ token ∈ .classOpen :: (tokens ++ [.classClose]), token.isGroupless = true := by
  have hchar : ∀ token c, Token.classChar? token = some c → token.isGroupless = true := by
    intro token c htoken
    cases token <;> first | rfl | cases htoken
  simp only [List.mem_cons, List.mem_append, List.not_mem_nil, or_false]
  rintro token (rfl | hmem | rfl)
  · rfl
  · exact h.forall_tokens hchar (fun _ => rfl) rfl token hmem
  · rfl

theorem groupless_of_isQuantifier {quantifier : Quantifier} (h : IsQuantifier tokens quantifier) :
    ∀ token ∈ tokens, token.isGroupless = true :=
  h.forall_tokens fun token bounds hbounds => by cases hbounds <;> rfl

end Groupless

/-- The groups and references of the nodes of a part of a pattern are those of its tokens, in
order. -/
structure Numbers (n : Nat) (tokens : List Token) (nodes : List Node) (k : Nat) : Prop where
  after_eq : k = n + captureOpenings tokens
  openings_eq : Node.openingsAll nodes = Opening.ofTokens n tokens
  references_eq : Node.referencesAll nodes = tokens.filterMap Token.reference?
  isWellFormed : ∀ count, k ≤ count → (∀ token ∈ tokens, token.refersWithin count = true) →
    Node.allWellFormed count nodes = true

namespace Numbers

variable {n k l : Nat} {tokens others : List Token} {nodes more branches : List Node}

theorem captures_eq (h : Numbers n tokens branches k) :
    (alternationNode branches).captures = List.range' (n + 1) (captureOpenings tokens) := by
  rw [Node.captures_eq_openings, openings_alternationNode, h.openings_eq,
    Opening.filterMap_ofTokens]

theorem append (h : Numbers n tokens nodes k) (hmore : Numbers k others more l) :
    Numbers n (tokens ++ others) (nodes ++ more) l := by
  constructor
  · rw [hmore.after_eq, h.after_eq, captureOpenings_append, Nat.add_assoc]
  · rw [Node.openingsAll_append, h.openings_eq, hmore.openings_eq, h.after_eq,
      Opening.ofTokens_append]
  · rw [Node.referencesAll_append, h.references_eq, hmore.references_eq, List.filterMap_append]
  · intro count hcount hrefers
    have hle : k ≤ l := by
      have := hmore.after_eq
      omega
    rw [Node.allWellFormed_append, Bool.and_eq_true]
    constructor
    · exact h.isWellFormed count (Nat.le_trans hle hcount) fun token htoken =>
        hrefers token (List.mem_append_left _ htoken)
    · exact hmore.isWellFormed count hcount fun token htoken =>
        hrefers token (List.mem_append_right _ htoken)

theorem sequenceNode (h : Numbers n tokens nodes k) :
    Numbers n tokens [sequenceNode nodes] k := by
  constructor
  · exact h.after_eq
  · simpa [Node.openingsAll] using h.openings_eq
  · simpa [Node.referencesAll] using h.references_eq
  · simpa [Node.allWellFormed] using h.isWellFormed

theorem pipe (h : Numbers n tokens nodes k) : Numbers n (.pipe :: tokens) nodes k := by
  constructor
  · simpa [captureOpenings_cons] using h.after_eq
  · exact h.openings_eq
  · exact h.references_eq
  · intro count hcount hrefers
    exact h.isWellFormed count hcount fun token htoken =>
      hrefers token (List.mem_cons_of_mem _ htoken)

/-- A node without groups and references stands for tokens without them. -/
theorem of_groupless {node : Node} (htokens : ∀ token ∈ tokens, token.isGroupless = true)
    (hopenings : node.openings = []) (hreferences : node.references = [])
    (hnode : ∀ count, node.isWellFormed count = true) (n : Nat) : Numbers n tokens [node] n := by
  constructor
  · rw [captureOpenings_of_groupless htokens, Nat.add_zero]
  · rw [ofTokens_of_groupless htokens, Node.openingsAll, hopenings]
    rfl
  · rw [references_of_groupless htokens, Node.referencesAll, hreferences]
    rfl
  · intro count _ _
    rw [Node.allWellFormed, hnode count]
    rfl

theorem isWellFormed_inner {first last : Token} {count : Nat} (h : Numbers n tokens branches k)
    (hne : branches ≠ []) (hcount : k ≤ count)
    (hrefers : ∀ token ∈ first :: (tokens ++ [last]), token.refersWithin count = true) :
    (alternationNode branches).isWellFormed count = true := by
  apply isWellFormed_alternationNode hne
  apply h.isWellFormed count hcount
  intro token htoken
  apply hrefers
  simp [htoken]

theorem group (kind : GroupKind)
    (h : Numbers (n + (Opening.ofKind n kind).captures) tokens branches k) (hne : branches ≠ []) :
    Numbers n (.groupOpen kind :: (tokens ++ [.groupClose]))
      [(Opening.ofKind n kind).node (alternationNode branches)] k := by
  constructor
  · have hopenings : captureOpenings (.groupOpen kind :: (tokens ++ [.groupClose])) =
        captureOpenings tokens + (Opening.ofKind n kind).captures := by
      rw [captureOpenings_groupOpen kind n, captureOpenings_append]
      rfl
    rw [hopenings, h.after_eq, Nat.add_right_comm, Nat.add_assoc]
  · rw [Node.openingsAll, Opening.openings_node, openings_alternationNode, h.openings_eq,
      Opening.ofTokens, Opening.ofTokens_append]
    rfl
  · rw [Node.referencesAll, Opening.references_node, references_alternationNode, h.references_eq,
      List.filterMap_cons_none rfl, List.filterMap_append]
    rfl
  · intro count hcount hrefers
    have hinner := h.isWellFormed_inner hne hcount hrefers
    cases kind with
    | capture =>
      have hle : n + 1 ≤ count := by
        have : k = n + 1 + captureOpenings tokens := h.after_eq
        omega
      have hcaptures : (alternationNode branches).captures =
          List.range' (n + 1 + 1) (captureOpenings tokens) := h.captures_eq
      simp [Opening.ofKind, Opening.node, Node.allWellFormed, Node.isWellFormed, hinner, hle,
        hcaptures, List.mem_range'_1]
    | nonCapture =>
      simp [Opening.ofKind, Opening.node, Node.allWellFormed, Node.isWellFormed, hinner]
    | look kind =>
      simp [Opening.ofKind, Opening.node, Node.allWellFormed, Node.isWellFormed, hinner]

end Numbers

theorem Derives.ne_nil {n k : Nat} {tokens : List Token} {branches : List Node}
    (h : Derives .alternation n tokens branches k) : branches ≠ [] := by
  cases h <;> exact nofun

theorem Derives.numbers {part : Nonterminal} {n k : Nat} {tokens : List Token} {nodes : List Node}
    (h : Derives part n tokens nodes k) : Numbers n tokens nodes k := by
  induction h with
  | leaf hleaf =>
    cases hleaf with
    | backreference index =>
      refine ⟨rfl, rfl, rfl, ?_⟩
      intro count _ hrefers
      simpa [Node.allWellFormed, Node.isWellFormed, Token.refersWithin] using hrefers
    | _ => exact ⟨rfl, rfl, rfl, fun _ _ _ => rfl⟩
  | charClass hclass => exact .of_groupless (groupless_of_isClass hclass) rfl rfl (fun _ => rfl) _
  | capture hinner ih => exact ih.group .capture hinner.ne_nil
  | nonCapture hinner ih => exact ih.group .nonCapture hinner.ne_nil
  | look kind hinner ih => exact ih.group (.look kind) hinner.ne_nil
  | bare _ ih => exact ih
  | repeated _ _ hmarks ih =>
    have hgroupless := groupless_of_isQuantifier hmarks
    constructor
    · rw [captureOpenings_append, captureOpenings_of_groupless hgroupless]
      exact ih.after_eq
    · rw [Opening.ofTokens_append, ofTokens_of_groupless hgroupless, List.append_nil]
      simpa [Node.openingsAll, Node.openings] using ih.openings_eq
    · rw [List.filterMap_append, references_of_groupless hgroupless, List.append_nil]
      simpa [Node.referencesAll, Node.references] using ih.references_eq
    · intro count hcount hrefers
      have hnode := ih.isWellFormed count hcount fun token htoken =>
        hrefers token (List.mem_append_left _ htoken)
      simpa [Node.allWellFormed, Node.isWellFormed, hmarks.inOrder] using hnode
  | empty n => exact ⟨rfl, rfl, rfl, fun _ _ _ => rfl⟩
  | items _ _ ihFirst ihOthers => exact ihFirst.append ihOthers
  | branch _ ih => exact ih.sequenceNode
  | branches _ _ ihFirst ihOthers => exact ihFirst.sequenceNode.append ihOthers.pipe

/-- What the parser returns stands for all tokens of a text, whose captures the survey counts. -/
theorem exists_numbers_of_parse {text : String} {root : Node} (h : parse text = .ok root) :
    (lex text).mistake = none ∧ ∃ branches, branches ≠ [] ∧ alternationNode branches = root ∧
      Numbers 0 ((lex text).tokens.map PlacedToken.token) branches
        (GroupSurvey.ofText text.toList).count := by
  obtain ⟨hmistake, branches, k, hderives, hroot⟩ := derivesTree_of_parse h
  have hnumbers := hderives.numbers
  have hcount : k = (GroupSurvey.ofText text.toList).count := by
    rw [hnumbers.after_eq, count_ofText hmistake, Nat.zero_add]
  exact ⟨hmistake, branches, hderives.ne_nil, hroot, hcount ▸ hnumbers⟩

theorem captures_of_parse {text : String} {root : Node} (h : parse text = .ok root) :
    root.captures = List.range' 1 (GroupSurvey.ofText text.toList).count := by
  obtain ⟨-, branches, -, rfl, hnumbers⟩ := exists_numbers_of_parse h
  rw [hnumbers.captures_eq, hnumbers.after_eq, Nat.zero_add, Nat.zero_add]

/-- The parser returns trees of whole patterns. -/
theorem isRoot_of_parse {text : String} {root : Node} (h : parse text = .ok root) :
    root.IsRoot := by
  have hcaptures := captures_of_parse h
  have hlength : root.captures.length = (GroupSurvey.ofText text.toList).count := by
    rw [hcaptures, List.length_range']
  obtain ⟨-, branches, hne, rfl, hnumbers⟩ := exists_numbers_of_parse h
  refine ⟨hlength ▸ hcaptures, ?_⟩
  rw [hlength]
  apply isWellFormed_alternationNode hne
  apply hnumbers.isWellFormed _ (Nat.le_refl _)
  intro token htoken
  obtain ⟨placed, hplaced, rfl⟩ := List.mem_map.mp htoken
  exact (yields_lex text).refersWithin (GroupSurvey.numbered_ofText _) placed hplaced

end Regex
end TokenPatterns
