import TokenPatterns.Regex.Error
import TokenPatterns.Regex.GroupSurvey
import TokenPatterns.Regex.Numeral

/-!
# Escapes

What a backslash and the characters after it stand for. Every reader here starts after the
backslash, whose position is given for errors, and returns the source after the escape. An escape
that is not spelled out in full stands for its letter.
-/
namespace TokenPatterns
namespace Regex

/-- The outcome of reading one token, with the source after it. Reading may go on there even if
there was a mistake. -/
abbrev Reading := Except PatternError Token × Source

/-- An octal escape of at most three digits and at most `\377`, or the digit 8 or 9 itself. -/
def readOctal (c : Char) (after : Source) : Reading :=
  match digit? 8 c with
  | none => (.ok (.escaped c), after)
  | some digit =>
    let (value, later) := readDigitsUpTo 8 0o377 digit 2 after
    (.ok (.escaped (Char.ofNat value)), later)

/-- A reference if the digits denote a group of the pattern, otherwise an octal escape. Neither in
a class nor after a zero can there be a reference. -/
def readNumeric (survey : GroupSurvey) (inClass : Bool) (c : Char) (source after : Source) :
    Reading :=
  if inClass || c == '0' then readOctal c after
  else
    match readNumber? 10 source with
    | none => readOctal c after
    | some (index, later) =>
      if index ≤ survey.count then (.ok (.backreference index), later) else readOctal c after

/-- The rest of `\k<name>`. -/
def readNamedReference (survey : GroupSurvey) (pos : Nat) (source : Source) : Reading :=
  match source.skip? '<' with
  | none => (.error (.unknownReference pos), source)
  | some inner =>
    let (name, afterName) := inner.span isNameChar
    match afterName.skip? '>' with
    | none => (.error (.unknownReference pos), afterName)
    | some later =>
      match survey.indexOf? name with
      | none => (.error (.unknownReference pos), later)
      | some index => (.ok (.backreference index), later)

/-- The rest of `\cA`, a control character. Without a letter the backslash stands for itself, and
what follows it is read again. -/
def readControl (source after : Source) : Reading :=
  match after.next? with
  | none => (.ok (.escaped '\\'), source)
  | some (letter, later) =>
    if letter.isAlpha then (.ok (.escaped (Char.ofNat (letter.toNat % 32))), later)
    else (.ok (.escaped '\\'), source)

/-- Four hexadecimal digits, or any number of them in braces. -/
def readCodePoint? (source : Source) : Option (Nat × Source) :=
  match source.skip? '\x7b' with
  | none => readDigits? 16 0 4 source
  | some inner =>
    match readCapped? 16 maxCount inner with
    | none => none
    | some (code, later) => (later.skip? '\x7d').map (code, ·)

def readUnicode (pos : Nat) (after : Source) : Reading :=
  match readCodePoint? after with
  | none => (.ok (.escaped 'u'), after)
  | some (code, later) =>
    match Unicode.scalar? code with
    | none => (.error (.invalidEscape pos), later)
    | some c => (.ok (.escaped c), later)

def readHexadecimal (after : Source) : Reading :=
  match readDigits? 16 0 2 after with
  | none => (.ok (.escaped 'x'), after)
  | some (code, later) => (.ok (.escaped (Char.ofNat code)), later)

/-- The character that an escaped letter stands for where it has no other meaning. -/
def plainEscape : Char → Char
  | 'n' => '\n'
  | 'r' => '\r'
  | 't' => '\t'
  | 'v' => '\x0b'
  | 'f' => '\x0c'
  | c => c

def readEscape (survey : GroupSurvey) (inClass : Bool) (pos : Nat) (source : Source) : Reading :=
  match source.next? with
  | none => (.error (.trailingBackslash pos), source)
  | some (c, after) =>
    if Shorthand.isLetter c then (.ok (.shorthand c), after)
    else if c.isDigit then readNumeric survey inClass c source after
    else if c == 'k' && !inClass && !survey.names.isEmpty then readNamedReference survey pos after
    else
      match c with
      | 'b' => (.ok (if inClass then .escaped '\x08' else .wordBoundary), after)
      | 'B' => (.ok (if inClass then .escaped 'B' else .nonWordBoundary), after)
      | 'c' => readControl source after
      | 'x' => readHexadecimal after
      | 'u' => readUnicode pos after
      | c => (.ok (.escaped (plainEscape c)), after)

section Skips

variable {survey : GroupSurvey} {inClass : Bool} {pos : Nat} {c : Char} {source after : Source}

theorem isOrdinary_of_isNameChar (h : isNameChar c = true) : Source.isOrdinary c = true := by
  have hslash : isNameChar '\\' = false := by decide +kernel
  have hopen : isNameChar '[' = false := by decide +kernel
  have hclose : isNameChar ']' = false := by decide +kernel
  have hparen : isNameChar '(' = false := by decide +kernel
  exact Source.isOrdinary_of h hslash hopen hclose hparen

theorem skipsTo_readOctal (c : Char) (after : Source) : after.SkipsTo (readOctal c after).2 := by
  unfold readOctal
  split
  · exact .refl _
  · exact skipsTo_readDigitsUpTo ..

theorem skipsTo_readNumeric (h : source.next? = some (c, after))
    (hc : Source.isOrdinary c = true) :
    source.SkipsTo (readNumeric survey inClass c source after).2 := by
  have hoctal := (Source.skipsTo_of_next? h hc).trans (skipsTo_readOctal c after)
  unfold readNumeric
  split
  · exact hoctal
  · split
    · exact hoctal
    · next hnumber =>
      split
      · exact skipsTo_of_readNumber? hnumber
      · exact hoctal

theorem skipsTo_readNamedReference :
    source.SkipsTo (readNamedReference survey pos source).2 := by
  unfold readNamedReference
  split
  · exact .refl _
  · next inner hskip =>
    have hname := (Source.skipsTo_of_skip? hskip rfl).trans
      (Source.skipsTo_span (fun _ => isOrdinary_of_isNameChar) inner)
    dsimp only
    split
    · exact hname
    · next later hclose =>
      have hlater := hname.trans (Source.skipsTo_of_skip? hclose rfl)
      split <;> exact hlater

theorem skipsTo_readControl (h : source.next? = some (c, after))
    (hc : Source.isOrdinary c = true) : source.SkipsTo (readControl source after).2 := by
  unfold readControl
  split
  · exact .refl _
  · next letter later hletter =>
    split
    · next halpha =>
      have hordinary : Source.isOrdinary letter = true :=
        Source.isOrdinary_of halpha rfl rfl rfl rfl
      exact (Source.skipsTo_of_next? h hc).trans (Source.skipsTo_of_next? hletter hordinary)
    · exact .refl _

theorem skipsTo_of_readCodePoint? {code : Nat} {later : Source}
    (h : readCodePoint? source = some (code, later)) : source.SkipsTo later := by
  unfold readCodePoint? at h
  split at h
  · exact skipsTo_of_readDigits? h
  · next hopen =>
    split at h
    · simp at h
    · next hnumber =>
      obtain ⟨_, hclose, hpair⟩ := Option.map_eq_some_iff.mp h
      cases hpair
      exact ((Source.skipsTo_of_skip? hopen rfl).trans (skipsTo_of_readCapped? hnumber)).trans
        (Source.skipsTo_of_skip? hclose rfl)

theorem skipsTo_readUnicode : source.SkipsTo (readUnicode pos source).2 := by
  unfold readUnicode
  split
  · exact .refl _
  · next hcode => split <;> exact skipsTo_of_readCodePoint? hcode

theorem skipsTo_readHexadecimal : source.SkipsTo (readHexadecimal source).2 := by
  unfold readHexadecimal
  split
  · exact .refl _
  · next hcode => exact skipsTo_of_readDigits? hcode

/-- An escape takes up the character behind its backslash, which need not be an ordinary one, and
ordinary ones behind that. A backslash may also stand alone in front of an ordinary character. -/
theorem readEscape_cases (h : source.next? = some (c, after)) :
    after.SkipsTo (readEscape survey inClass pos source).2 ∨
      Source.isOrdinary c = true ∧ source.SkipsTo (readEscape survey inClass pos source).2 := by
  simp only [readEscape, h]
  split
  · exact .inl (.refl _)
  · split
    · next hdigit =>
      have hc : Source.isOrdinary c = true := Source.isOrdinary_of hdigit rfl rfl rfl rfl
      exact .inr ⟨hc, skipsTo_readNumeric h hc⟩
    · split
      · exact .inl skipsTo_readNamedReference
      · split
        · exact .inl (.refl _)
        · exact .inl (.refl _)
        · exact .inr ⟨rfl, skipsTo_readControl h rfl⟩
        · exact .inl skipsTo_readHexadecimal
        · exact .inl skipsTo_readUnicode
        · exact .inl (.refl _)

theorem leadsTo_readEscape : source.LeadsTo (readEscape survey inClass pos source).2 := by
  cases h : source.next? with
  | none =>
    simp only [readEscape, h]
    exact .refl _
  | some next =>
    obtain ⟨c, after⟩ := next
    rcases readEscape_cases h with hskips | ⟨-, hskips⟩
    · exact (Source.leadsTo_of_next? h).trans hskips.leadsTo
    · exact hskips.leadsTo

end Skips

end Regex
end TokenPatterns
