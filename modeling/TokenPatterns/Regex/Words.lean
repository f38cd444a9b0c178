import TokenPatterns.Regex.Digits
import TokenPatterns.Regex.Writing

/-!
# Words and their tokens

What a piece of a text is read as hangs on the text behind it only where that goes on with a digit
or a question mark. Apart from these, words can be put one behind the other, and are read as the
tokens of one and then those of the next.
-/
namespace TokenPatterns
namespace Regex

/-- Whether a text goes on with neither a question mark nor a digit. -/
def StandsApart (text : List Char) : Prop :=
  ∀ c ∈ text.head?, c ≠ '?' ∧ isDigit 10 c = false

namespace StandsApart

theorem nil : StandsApart [] := nofun

theorem cons {c : Char} (h : c ≠ '?' ∧ isDigit 10 c = false) (text : List Char) :
    StandsApart (c :: text) := by
  rintro other hother
  obtain rfl := Option.some.inj hother
  exact h

theorem append {word rest : List Char} (h : StandsApart word) (hrest : StandsApart rest) :
    StandsApart (word ++ rest) := by
  cases word with
  | nil => exact hrest
  | cons c word => exact h

theorem not_isDigit {text : List Char} (h : StandsApart text) :
    ∀ c ∈ text.head?, isDigit 10 c = false :=
  fun c hc => (h c hc).2

end StandsApart

variable (survey : GroupSurvey)

/-- The text, up to its end, is read as the tokens, wherever it begins. -/
def Lexes (context : Context) (text : List Char) (tokens : List Token) : Prop :=
  ∀ pos, ∃ placed : List PlacedToken, placed.map PlacedToken.token = tokens ∧
    Lexer.Yields { survey, source := ⟨pos, text⟩, context } placed none

/-- The character and the text behind it begin with the token, behind which `rest` is left. -/
def ReadsAs (context : Context) (c : Char) (text : List Char) (token : Token)
    (rest : List Char) : Prop :=
  ∀ pos, ∃ later, readToken survey context pos c ⟨pos + 1, text⟩ = (.ok token, ⟨later, rest⟩)

/-- In front of any text that stands apart, the word is read as the tokens. They lead from one
context to another. -/
def Spells (first last : Context) (word : List Char) (tokens : List Token) : Prop :=
  ∀ rest more, StandsApart rest → Lexes survey last rest more →
    Lexes survey first (word ++ rest) (tokens ++ more)

variable {survey} {first middle last context : Context} {word more : List Char}
  {tokens others : List Token} {token : Token} {c : Char}

theorem Lexes.nil (context : Context) : Lexes survey context [] [] :=
  fun _ => ⟨[], rfl, .finish rfl⟩

theorem Lexer.yields_cons {pos : Nat} {text : List Char} {later : Source}
    {placed : List PlacedToken} {mistake : Option PatternError}
    (h : readToken survey context pos c ⟨pos + 1, text⟩ = (.ok token, later))
    (hrest : Yields { survey, source := later, context := context.after c } placed mistake) :
    Yields { survey, source := ⟨pos, c :: text⟩, context } (⟨pos, token⟩ :: placed) mistake := by
  apply yields_of_read
  · rw [read_of_next? rfl, h]
    rfl
  · rw [read_of_next? rfl, h]
    exact hrest

theorem Lexes.cons {text rest : List Char} (h : ReadsAs survey context c text token rest)
    (hrest : Lexes survey (context.after c) rest tokens) :
    Lexes survey context (c :: text) (token :: tokens) := by
  intro pos
  obtain ⟨later, hread⟩ := h pos
  obtain ⟨placed, htokens, hyields⟩ := hrest later
  exact ⟨⟨pos, token⟩ :: placed, by rw [List.map_cons, htokens], Lexer.yields_cons hread hyields⟩

theorem Spells.lexes (h : Spells survey first last word tokens) :
    Lexes survey first word tokens := by
  have hall := h [] [] .nil (.nil last)
  rwa [List.append_nil, List.append_nil] at hall

theorem Spells.nil (context : Context) : Spells survey context context [] [] :=
  fun _ _ _ h => h

theorem Spells.append (h : Spells survey first middle word tokens)
    (hmore : Spells survey middle last more others) (hapart : StandsApart more) :
    Spells survey first last (word ++ more) (tokens ++ others) := by
  intro rest after hrest hafter
  rw [List.append_assoc, List.append_assoc]
  exact h _ _ (hapart.append hrest) (hmore rest after hrest hafter)

theorem Spells.of_readsAs (hlast : first.after c = last)
    (h : ∀ rest, StandsApart rest → ReadsAs survey first c (word ++ rest) token rest) :
    Spells survey first last (c :: word) [token] := by
  subst hlast
  exact fun rest _ hrest hafter => .cons (h rest hrest) hafter

theorem Spells.of_char (hlast : first.after c = last)
    (h : ∀ pos after, readToken survey first pos c after = (.ok token, after)) :
    Spells survey first last [c] [token] :=
  .of_readsAs hlast fun _ _ _ => ⟨_, h _ _⟩

section Escapes

theorem readCodePoint?_toDigits {code : Nat} (h : code ≤ maxCount) (pos : Nat)
    (rest : List Char) :
    ∃ later, readCodePoint? ⟨pos, '\x7b' :: (Nat.toDigits 16 code ++ '\x7d' :: rest)⟩ =
      some (code, ⟨later, rest⟩) := by
  have hclose : isDigit 16 '\x7d' = false := by decide
  have hnumber := readNumber?_toDigits (by decide) (by decide) (not_isDigit_head? hclose rest) code
    (pos + 1)
  refine ⟨pos + 1 + (Nat.toDigits 16 code).length + 1, ?_⟩
  simp [readCodePoint?, readCapped?_eq, Source.skip?, hnumber, Nat.min_eq_left h]

theorem readToken_backslash (context : Context) (pos : Nat) (after : Source) :
    readToken survey context pos '\\' after = readEscape survey context.isClass pos after := by
  cases context <;> rfl

/-- The escape of a character is read as that character in every context. -/
theorem spells_escapeOf (hlast : first.after '\\' = last) (c : Char) :
    Spells survey first last (escapeOf c.toNat) [.escaped c] := by
  apply Spells.of_readsAs hlast
  intro rest _ pos
  have hle : c.toNat ≤ maxCount := Nat.le_trans (Unicode.toNat_le_maxCode c) (by decide)
  obtain ⟨later, hcode⟩ := readCodePoint?_toDigits hle (pos + 2) rest
  have hletter : Shorthand.isLetter 'u' = false := by decide
  have hdigit : Char.isDigit 'u' = false := by decide
  refine ⟨later, ?_⟩
  rw [readToken_backslash]
  simp [readEscape, Source.next?, hletter, hdigit, readUnicode, hcode]

theorem spells_reference {number : Nat} (hpos : 0 < number) (hle : number ≤ survey.count) :
    Spells survey .outside .outside ('\\' :: Nat.toDigits 10 number) [.backreference number] := by
  have hlast : Context.outside.after '\\' = .outside := rfl
  apply Spells.of_readsAs hlast
  intro rest hrest pos
  have hten : 1 < 10 ∧ 10 ≤ 16 := by decide
  have hnumber := readNumber?_toDigits hten.1 hten.2 hrest.not_isDigit number (pos + 1)
  have hhead := head?_toDigits_ne hten.1 hten.2 hpos
  refine ⟨pos + 1 + (Nat.toDigits 10 number).length, ?_⟩
  rw [readToken_backslash]
  cases htext : Nat.toDigits 10 number with
  | nil => exact absurd htext Nat.toDigits_ne_nil
  | cons c digits =>
    have hmem : c ∈ Nat.toDigits 10 number := htext ▸ List.mem_cons_self
    obtain ⟨digit, hdigit, hc⟩ := exists_digitChar_of_mem_toDigits hten.1 hmem
    have hall : ∀ digit < 10, digit.digitChar.isDigit = true ∧
        Shorthand.isLetter digit.digitChar = false := by
      decide
    -- A digit names no shorthand, and the first one is not that of an octal escape.
    have hkind := hall digit hdigit
    rw [← hc] at hkind
    rw [htext] at hnumber hhead
    have hzero : c ≠ '0' := fun h => hhead (by rw [h]; rfl)
    rw [List.cons_append] at hnumber
    simp [readEscape, Source.next?, hkind, readNumeric, Context.isClass, hzero, hnumber, hle]

end Escapes

section Groups

theorem readsAs_groupOpen (kind : GroupKind) {rest : List Char} (hrest : StandsApart rest) :
    ReadsAs survey .outside '(' (kind.mark ++ rest) (.groupOpen kind) rest := by
  intro pos
  match kind with
  | .capture =>
    -- There is no mark, so that what follows must not be taken for one.
    have hskip : Source.skip? '?' ⟨pos + 1, rest⟩ = none := by
      cases rest with
      | nil => rfl
      | cons c rest => exact if_neg (hrest c rfl).1
    refine ⟨pos + 1, ?_⟩
    simp [GroupKind.mark, readToken, readOutside, readGroupKind, hskip, Except.map]
  | .nonCapture => exact ⟨_, rfl⟩
  | .look ⟨false, false⟩ => exact ⟨_, rfl⟩
  | .look ⟨false, true⟩ => exact ⟨_, rfl⟩
  | .look ⟨true, false⟩ => exact ⟨_, rfl⟩
  | .look ⟨true, true⟩ => exact ⟨_, rfl⟩

theorem spells_inGroup (kind : GroupKind) (h : Spells survey .outside .outside word tokens)
    (hapart : StandsApart word) :
    Spells survey .outside .outside (Node.inGroup kind word)
      (.groupOpen kind :: (tokens ++ [.groupClose])) := by
  have hopen : Spells survey .outside .outside ('(' :: kind.mark) [.groupOpen kind] :=
    .of_readsAs rfl fun _ => readsAs_groupOpen kind
  have hclose : Spells survey .outside .outside [')'] [.groupClose] := .of_char rfl fun _ _ => rfl
  have hend : StandsApart [')'] := .cons (by decide) []
  have hall := hopen.append (h.append hclose hend) (hapart.append hend)
  simpa [Node.inGroup] using hall

end Groups

section Quantifiers

theorem readBraces?_written {min : Nat} {max : Option Nat} (hmin : min ≤ maxCount)
    (hmax : ∀ count ∈ max, count ≤ maxCount) (pos : Nat) (rest : List Char) : ∃ later,
      readBraces? ⟨pos, Nat.toDigits 10 min ++
        ',' :: ((max.map (Nat.toDigits 10)).getD [] ++ '\x7d' :: rest)⟩ =
        some ((min, max), ⟨later, rest⟩) := by
  have hten : 1 < 10 ∧ 10 ≤ 16 := by decide
  have hcomma : isDigit 10 ',' = false := by decide
  have hmore := not_isDigit_head? hcomma
  have hclose : isDigit 10 '\x7d' = false := by decide
  have hrest := not_isDigit_head? hclose rest
  cases max with
  | none =>
    have hnone := readNumber?_of_not_isDigit hrest (pos + (Nat.toDigits 10 min).length + 1)
    refine ⟨pos + (Nat.toDigits 10 min).length + 1 + 1, ?_⟩
    simp [readBraces?, readCapped?_eq, readNumber?_toDigits hten.1 hten.2 (hmore _), Source.skip?,
      hnone, Nat.min_eq_left hmin]
  | some count =>
    have hall := @readBraces?_append _ _ rest (areDigits_toDigits hten.1 hten.2 min)
      (areDigits_toDigits hten.1 hten.2 count) pos
    rw [ofDigits_toDigits hten.1 hten.2, ofDigits_toDigits hten.1 hten.2, Nat.min_eq_left hmin,
      Nat.min_eq_left (hmax count rfl)] at hall
    exact ⟨_, hall⟩

end Quantifiers

end Regex
end TokenPatterns
