import TokenPatterns.Regex.Soundness

/-!
# The parser reads whatever derives a tree

The tokens of a part of a pattern lead the parser to its nodes, whatever was read before it and
stands behind it. Only a question mark behind an item could still change what was read.
-/
namespace TokenPatterns
namespace Regex

/-- A token that stands for a character in a class is read as that character. -/
structure Token.IsChar (token : Token) (c : Char) : Prop where
  char_eq : token.char = c
  ne_classClose : token ≠ .classClose
  ne_shorthand : ∀ letter, token ≠ .shorthand letter
  endsRange : token.endsRange = true

theorem Token.isChar_of_classChar? {token : Token} {c : Char} (h : token.classChar? = some c) :
    token.IsChar c := by
  cases token <;> cases h <;> exact ⟨rfl, nofun, nofun, rfl⟩

section Classes

variable {lexed : Lexed} {set result : CharClass} {rest : List PlacedToken} {pos : Nat}
  {token : Token} {c : Char}

theorem readMembers_char {after : List PlacedToken} (h : token.classChar? = some c)
    (hminus : ∀ pos more, after ≠ ⟨pos, .minus⟩ :: more) :
    readMembers lexed set (⟨pos, token⟩ :: after) = readMembers lexed (set.addChar c) after := by
  have hchar := Token.isChar_of_classChar? h
  rw [readMembers, hchar.char_eq]
  · exact hchar.ne_classClose
  · exact hchar.ne_shorthand
  · exact fun pos => hminus pos []
  · exact fun pos lastPos last more => hminus pos _

theorem readMembers_hyphen {minusPos lastPos : Nat} {last : Token} {after : List PlacedToken}
    (h : token.classChar? = some c) (hends : last.endsRange = false) :
    readMembers lexed set (⟨pos, token⟩ :: ⟨minusPos, .minus⟩ :: ⟨lastPos, last⟩ :: after) =
      readMembers lexed (set.addChar c) (⟨minusPos, .minus⟩ :: ⟨lastPos, last⟩ :: after) := by
  have hchar := Token.isChar_of_classChar? h
  have hminus : ∀ pos more, (⟨lastPos, last⟩ : PlacedToken) :: after ≠ ⟨pos, .minus⟩ :: more := by
    rintro pos more heq
    cases heq
    cases hends
  rw [readMembers_char rfl hminus, readMembers, if_neg (by simp [hends]), hchar.char_eq]
  · exact hchar.ne_classClose
  · exact hchar.ne_shorthand

theorem Members.endsRange {tokens more : List Token} (h : Members set (token :: tokens) result)
    (hstart : startsRange (.minus :: token :: more) = false) : token.endsRange = false := by
  have hnone : token.classChar? = none := by simpa [startsRange] using hstart
  cases h with
  | shorthand => rfl
  | range hfirst => rw [hfirst] at hnone; cases hnone
  | char hchar => rw [hchar] at hnone; cases hnone

theorem Members.endsRange_after_hyphen {last : Token} {tokens : List Token}
    (h : Members set (.minus :: last :: tokens) result)
    (hstart : startsRange (.minus :: last :: tokens) = false) : last.endsRange = false := by
  cases h with
  | range => cases hstart
  | char _ _ hmembers => exact hmembers.endsRange hstart

theorem readMembers_of_members {tokens : List Token} {placed : List PlacedToken}
    (h : Members set tokens result) (hplaced : placed.map PlacedToken.token = tokens) :
    readMembers lexed set (placed ++ ⟨pos, .classClose⟩ :: rest) = .ok (result, rest) := by
  induction h generalizing placed with
  | done set =>
    obtain rfl := List.map_eq_nil_iff.mp hplaced
    rw [List.nil_append, readMembers]
  | shorthand hset _ ih =>
    obtain ⟨⟨_, _⟩, after, rfl, rfl, hafter⟩ := List.map_eq_cons_iff.mp hplaced
    rw [List.cons_append, readMembers, hset]
    exact ih hafter
  | range hfirst hlast hrange _ ih =>
    obtain ⟨⟨_, first⟩, _, rfl, rfl, hminus⟩ := List.map_eq_cons_iff.mp hplaced
    obtain ⟨⟨_, _⟩, _, rfl, rfl, hsecond⟩ := List.map_eq_cons_iff.mp hminus
    obtain ⟨⟨_, last⟩, after, rfl, rfl, hafter⟩ := List.map_eq_cons_iff.mp hsecond
    have hfirst := Token.isChar_of_classChar? hfirst
    have hlast := Token.isChar_of_classChar? hlast
    simp only [List.cons_append]
    rw [readMembers, if_pos hlast.endsRange, hfirst.char_eq, hlast.char_eq, hrange]
    · exact ih hafter
    · exact hfirst.ne_classClose
    · exact hfirst.ne_shorthand
  | char hchar hstart hmembers ih =>
    obtain ⟨⟨_, token⟩, after, rfl, rfl, hafter⟩ := List.map_eq_cons_iff.mp hplaced
    rw [← ih hafter]
    by_cases hminus : ∃ pos more, after = ⟨pos, .minus⟩ :: more
    · obtain ⟨minusPos, more, rfl⟩ := hminus
      subst hafter
      cases more with
      | nil => exact readMembers_hyphen hchar rfl
      | cons last more =>
        exact readMembers_hyphen hchar (hmembers.endsRange_after_hyphen hstart)
    · apply readMembers_char hchar
      intro pos more heq
      cases after with
      | nil => cases heq
      | cons first after =>
        cases heq
        exact hminus ⟨_, _, rfl⟩

theorem Members.ne_caret {tokens : List Token} (h : Members set tokens result) (more : List Token) :
    tokens ≠ .caret :: more := by
  rintro rfl
  cases h with
  | range hfirst => cases hfirst
  | char hchar => cases hchar

theorem readClass_of_isClass {tokens : List Token} {placed : List PlacedToken}
    (h : IsClass tokens set) (hplaced : placed.map PlacedToken.token = tokens) :
    readClass lexed (placed ++ ⟨pos, .classClose⟩ :: rest) = .ok (set, rest) := by
  cases h with
  | plain hmembers =>
    unfold readClass
    split
    · next heq =>
      cases placed with
      | nil => cases heq
      | cons first more =>
        cases heq
        exact absurd hplaced.symm (hmembers.ne_caret _)
    · exact readMembers_of_members hmembers hplaced
  | inverted hmembers =>
    obtain ⟨⟨_, _⟩, after, rfl, rfl, hafter⟩ := List.map_eq_cons_iff.mp hplaced
    rw [List.cons_append, readClass, readMembers_of_members hmembers hafter]
    rfl

end Classes

/-- What a part of a pattern makes of a draft. -/
def Draft.Takes (nodes : List Node) (first second : Draft) : Nonterminal → Prop
  | .alternation => first.items = [] →
      second.branch :: second.branches = nodes.reverse ++ first.branches
  | _ => second = { first with items := nodes.reverse ++ first.items }

theorem Draft.Takes.node_eq {nodes : List Node} {result : Draft}
    (h : Draft.Takes nodes {} result .alternation) : result.node = alternationNode nodes := by
  rw [result.node_eq, h rfl, List.append_nil, List.reverse_reverse]

section Parts

variable {lexed : Lexed} {draft : Draft} {groups : List OpenGroup} {n k pos : Nat}
  {token : Token} {node : Node} {quantifier : Quantifier} {rest : List PlacedToken}

theorem parseFrom_nil (h : lexed.mistake = none) :
    parseFrom lexed draft [] n [] = .ok draft.node := by
  simp only [parseFrom, h]

theorem IsLeaf.node? (h : IsLeaf token node) : token.node? = some node := by
  cases h with
  | shorthand hset => exact Option.map_eq_some_iff.mpr ⟨_, hset, rfl⟩
  | _ => rfl

theorem IsLeaf.quantifier? (h : IsLeaf token node) : token.quantifier? = none := by
  cases h <;> rfl

theorem parseFrom_leaf (h : IsLeaf token node) :
    parseFrom lexed draft groups n (⟨pos, token⟩ :: rest) =
      parseFrom lexed (draft.add node) groups n rest := by
  rw [parseFrom, h.quantifier?, h.node?]
  · rintro rfl
    cases h
  · rintro kind rfl
    cases h
  · rintro rfl
    cases h
  · rintro rfl
    cases h

theorem parseFrom_classOpen :
    parseFrom lexed draft groups n (⟨pos, .classOpen⟩ :: rest) =
      (readClass lexed rest).bind fun (set, after) =>
        parseFrom lexed (draft.add (.charClass set)) groups n after := by
  rw [parseFrom]
  split <;> next heq => rw [heq]; rfl

theorem parseFrom_quantifier (h : token.quantifier? = some quantifier) :
    parseFrom lexed draft groups n (⟨pos, token⟩ :: rest) =
      (draft.repeatLast pos lexed quantifier rest).bind fun (result, after) =>
        parseFrom lexed result groups n after := by
  rw [parseFrom]
  · simp only [h]
    split <;> next heq => rw [heq]; rfl
  · rintro rfl; cases h
  · rintro kind rfl; cases h
  · rintro rfl; cases h
  · rintro rfl; cases h

theorem IsBounds.quantifier? (h : IsBounds token quantifier) :
    token.quantifier? = some quantifier := by
  cases h <;> rfl

/-- Whether what stands behind an item leaves it as it is. -/
def NotLazy (rest : List PlacedToken) : Prop := ∀ pos more, rest ≠ ⟨pos, .question⟩ :: more

theorem readLaziness_of_notLazy (h : NotLazy rest) (hmistake : rest = [] → lexed.mistake = none) :
    readLaziness lexed quantifier rest = .ok (quantifier, rest) := by
  unfold readLaziness
  split
  · next pos more => exact absurd rfl (h pos more)
  · rw [hmistake rfl]
  · rfl

theorem parseFrom_lazy (h : IsBounds token quantifier) (hrepeatable : node.isRepeatable = true)
    {questionPos : Nat} :
    parseFrom lexed (draft.add node) groups n (⟨pos, token⟩ :: ⟨questionPos, .question⟩ :: rest) =
      parseFrom lexed (draft.add (.repetition quantifier.lazy node)) groups n rest := by
  rw [parseFrom_quantifier h.quantifier?]
  simp [Draft.repeatLast, Draft.add, h.inOrder, hrepeatable, readLaziness, Except.bind]

theorem parseFrom_greedy (h : IsBounds token quantifier) (hrepeatable : node.isRepeatable = true)
    (hrest : NotLazy rest) :
    parseFrom lexed (draft.add node) groups n (⟨pos, token⟩ :: rest) =
      parseFrom lexed (draft.add (.repetition quantifier node)) groups n rest := by
  rw [parseFrom_quantifier h.quantifier?]
  by_cases hempty : rest = []
  · subst hempty
    cases hmistake : lexed.mistake <;>
      simp [Draft.repeatLast, Draft.add, h.inOrder, hrepeatable, readLaziness, hmistake,
        Except.bind, parseFrom]
  · simp [Draft.repeatLast, Draft.add, h.inOrder, hrepeatable, Except.bind,
      readLaziness_of_notLazy hrest (absurd · hempty)]

theorem parseFrom_isQuantifier {marks : List Token} {placed : List PlacedToken}
    (h : IsQuantifier marks quantifier) (hplaced : placed.map PlacedToken.token = marks)
    (hrepeatable : node.isRepeatable = true) (hrest : NotLazy rest) :
    parseFrom lexed (draft.add node) groups n (placed ++ rest) =
      parseFrom lexed (draft.add (.repetition quantifier node)) groups n rest := by
  cases h with
  | greedy hbounds =>
    obtain ⟨⟨_, _⟩, _, rfl, rfl, hend⟩ := List.map_eq_cons_iff.mp hplaced
    obtain rfl := List.map_eq_nil_iff.mp hend
    exact parseFrom_greedy hbounds hrepeatable hrest
  | lazy hbounds =>
    obtain ⟨⟨_, _⟩, _, rfl, rfl, hsecond⟩ := List.map_eq_cons_iff.mp hplaced
    obtain ⟨⟨_, _⟩, _, rfl, rfl, hend⟩ := List.map_eq_cons_iff.mp hsecond
    obtain rfl := List.map_eq_nil_iff.mp hend
    exact parseFrom_lazy hbounds hrepeatable

theorem Derives.exists_head {tokens : List Token} {nodes : List Node} {part : Nonterminal}
    (h : Derives part n tokens nodes k) (hpart : part = .base ∨ part = .item) :
    ∃ head tail, tokens = head :: tail ∧ head ≠ .question := by
  induction h with
  | leaf hleaf => cases hleaf <;> exact ⟨_, _, rfl, nofun⟩
  | charClass => exact ⟨_, _, rfl, nofun⟩
  | capture => exact ⟨_, _, rfl, nofun⟩
  | nonCapture => exact ⟨_, _, rfl, nofun⟩
  | look => exact ⟨_, _, rfl, nofun⟩
  | bare _ ih => exact ih (.inl rfl)
  | repeated _ _ _ ih =>
    obtain ⟨head, tail, rfl, hhead⟩ := ih (.inl rfl)
    exact ⟨head, _, rfl, hhead⟩
  | _ => simp at hpart

theorem NotLazy.append {first : List PlacedToken} {tokens : List Token} {nodes : List Node}
    (h : NotLazy rest) (hfirst : first.map PlacedToken.token = tokens)
    (hderives : Derives .sequence n tokens nodes k) : NotLazy (first ++ rest) := by
  cases hderives with
  | empty =>
    obtain rfl := List.map_eq_nil_iff.mp hfirst
    exact h
  | items hitem _ =>
    obtain ⟨head, tail, rfl, hhead⟩ := hitem.exists_head (.inr rfl)
    obtain ⟨placed, after, rfl, hplaced, -⟩ := List.map_eq_cons_iff.mp hfirst
    rintro pos more heq
    cases heq
    exact hhead hplaced.symm

theorem exists_of_map_eq_bracketed {first last : Token} {tokens : List Token}
    {placed : List PlacedToken}
    (h : placed.map PlacedToken.token = first :: (tokens ++ [last])) : ∃ firstPos inner lastPos,
    placed = ⟨firstPos, first⟩ :: (inner ++ [⟨lastPos, last⟩]) ∧
      inner.map PlacedToken.token = tokens := by
  obtain ⟨⟨firstPos, _⟩, _, rfl, rfl, hmore⟩ := List.map_eq_cons_iff.mp h
  obtain ⟨inner, _, rfl, hinner, hlast⟩ := List.map_eq_append_iff.mp hmore
  obtain ⟨⟨lastPos, _⟩, _, rfl, rfl, hend⟩ := List.map_eq_cons_iff.mp hlast
  obtain rfl := List.map_eq_nil_iff.mp hend
  exact ⟨firstPos, inner, lastPos, rfl, hinner⟩

theorem parseFrom_class {tokens : List Token} {placed : List PlacedToken} {set : CharClass}
    (h : IsClass tokens set)
    (hplaced : placed.map PlacedToken.token = .classOpen :: (tokens ++ [.classClose])) :
    parseFrom lexed draft groups n (placed ++ rest) =
      parseFrom lexed (draft.add (.charClass set)) groups n rest := by
  obtain ⟨firstPos, inner, lastPos, rfl, hinner⟩ := exists_of_map_eq_bracketed hplaced
  rw [List.cons_append, List.append_assoc, parseFrom_classOpen]
  simp only [List.singleton_append, readClass_of_isClass h hinner, Except.bind]

theorem parseFrom_group {kind : GroupKind} {tokens : List Token} {branches : List Node}
    {placed : List PlacedToken}
    (hplaced : placed.map PlacedToken.token = .groupOpen kind :: (tokens ++ [.groupClose]))
    (hinner : ∀ groups {inner rest}, inner.map PlacedToken.token = tokens → NotLazy rest →
      ∃ result, Draft.Takes branches {} result .alternation ∧
        parseFrom lexed {} groups (n + (Opening.ofKind n kind).captures) (inner ++ rest) =
          parseFrom lexed result groups k rest) :
    parseFrom lexed draft groups n (placed ++ rest) =
      parseFrom lexed (draft.add ((Opening.ofKind n kind).node (alternationNode branches))) groups
        k rest := by
  obtain ⟨firstPos, inner, lastPos, rfl, htokens⟩ := exists_of_map_eq_bracketed hplaced
  obtain ⟨result, htakes, heq⟩ := hinner (⟨Opening.ofKind n kind, draft⟩ :: groups) htokens
    (show NotLazy (⟨lastPos, .groupClose⟩ :: rest) from nofun)
  rw [List.cons_append, List.append_assoc, parseFrom, List.singleton_append, heq, parseFrom]
  simp only [htakes.node_eq]

/-- A part of a pattern leads the parser from one draft to another. -/
theorem Derives.exists_parseFrom {part : Nonterminal} {tokens : List Token} {nodes : List Node}
    {placed : List PlacedToken} (h : Derives part n tokens nodes k) (lexed : Lexed)
    (draft : Draft) (groups : List OpenGroup) (hplaced : placed.map PlacedToken.token = tokens)
    (hrest : part ≠ .base → NotLazy rest) :
    ∃ result, draft.Takes nodes result part ∧
      parseFrom lexed draft groups n (placed ++ rest) =
        parseFrom lexed result groups k rest := by
  induction h generalizing draft groups placed rest with
  | leaf hleaf =>
    obtain ⟨⟨_, _⟩, _, rfl, rfl, hend⟩ := List.map_eq_cons_iff.mp hplaced
    obtain rfl := List.map_eq_nil_iff.mp hend
    exact ⟨_, rfl, parseFrom_leaf hleaf⟩
  | charClass hclass => exact ⟨_, rfl, parseFrom_class hclass hplaced⟩
  | capture _ ih =>
    exact ⟨_, rfl, parseFrom_group hplaced fun groups _ _ hinner hrest =>
      ih {} groups hinner fun _ => hrest⟩
  | nonCapture _ ih =>
    exact ⟨_, rfl, parseFrom_group hplaced fun groups _ _ hinner hrest =>
      ih {} groups hinner fun _ => hrest⟩
  | look kind _ ih =>
    exact ⟨_, rfl, parseFrom_group hplaced fun groups _ _ hinner hrest =>
      ih {} groups hinner fun _ => hrest⟩
  | bare _ ih => exact ih draft groups hplaced fun hbase => absurd rfl hbase
  | repeated _ hrepeatable hmarks ih =>
    obtain ⟨first, marks, rfl, hfirst, hmarked⟩ := List.map_eq_append_iff.mp hplaced
    obtain ⟨_, rfl, hbase⟩ := ih draft groups hfirst fun hbase => absurd rfl hbase
    refine ⟨_, rfl, ?_⟩
    rw [List.append_assoc, hbase]
    exact parseFrom_isQuantifier hmarks hmarked hrepeatable (hrest nofun)
  | empty =>
    obtain rfl := List.map_eq_nil_iff.mp hplaced
    exact ⟨draft, rfl, rfl⟩
  | items hitem hothers ihItem ihOthers =>
    obtain ⟨first, others, rfl, hfirst, hmore⟩ := List.map_eq_append_iff.mp hplaced
    have hrest := hrest nofun
    obtain ⟨middle, hmiddle, heqFirst⟩ :=
      ihItem draft groups hfirst fun _ => hrest.append hmore hothers
    obtain ⟨result, hresult, heqOthers⟩ := ihOthers middle groups hmore fun _ => hrest
    refine ⟨result, ?_, ?_⟩
    · simp only [Draft.Takes] at hmiddle hresult ⊢
      simp [hresult, hmiddle]
    · rw [List.append_assoc, heqFirst, heqOthers]
  | branch hsequence ih =>
    obtain ⟨_, rfl, heq⟩ := ih draft groups hplaced fun _ => hrest nofun
    refine ⟨_, ?_, heq⟩
    intro hitems
    simp [Draft.branch_eq, hitems]
  | branches hfirst hothers ihFirst ihOthers =>
    obtain ⟨first, _, rfl, hfirst, hmore⟩ := List.map_eq_append_iff.mp hplaced
    obtain ⟨⟨pos, _⟩, others, rfl, rfl, hlast⟩ := List.map_eq_cons_iff.mp hmore
    have hpipe : NotLazy (⟨pos, .pipe⟩ :: others ++ rest) := nofun
    obtain ⟨middle, hmiddle, heqFirst⟩ := ihFirst draft groups hfirst fun _ => hpipe
    obtain ⟨result, hresult, heqOthers⟩ :=
      ihOthers middle.nextBranch groups hlast fun _ => hrest nofun
    refine ⟨result, ?_, ?_⟩
    · intro hitems
      rw [hresult rfl]
      simp only [Draft.Takes] at hmiddle
      simp [Draft.nextBranch, Draft.branch_eq, hmiddle, hitems]
    · rw [List.append_assoc, heqFirst, List.cons_append, parseFrom]
      exact heqOthers

end Parts

theorem parse_of_derivesTree {text : String} {tree : Node} (hmistake : (lex text).mistake = none)
    (h : DerivesTree ((lex text).tokens.map PlacedToken.token) tree) : parse text = .ok tree := by
  obtain ⟨branches, count, hbranches, rfl⟩ := h
  have hend : NotLazy [] := nofun
  obtain ⟨result, htakes, heq⟩ := hbranches.exists_parseFrom (lex text) {} [] rfl fun _ => hend
  rw [List.append_nil] at heq
  rw [parse, heq, parseFrom_nil hmistake, htakes.node_eq]

end Regex
end TokenPatterns
