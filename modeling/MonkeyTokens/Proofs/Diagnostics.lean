import MonkeyTokens.Diagnostic.Debug
import MonkeyTokens.Proofs.Readers
import MonkeyTokens.Proofs.Strict

/-!
# Diagnostics — what diagnostic texts say can be read back

A debug text of a token holds a label and quoted characters; a message of a lexical error holds a quoted character
and two numbers. Each has a reader here that finds the value again, whatever the characters are and whichever of
them are hidden. So the texts of two values are equal only where the values are. Main statements:

- `Token.ofDebug?_debugWith`: debug texts of tokens are read back;
- `Token.debug_identifies_token`: they tell tokens apart;
- `LexicalError.ofMessage?_messageWith`, `LexicalError.ofDebug?_debugWith`: the two texts of an error are read back;
- `LexicalError.texts_identify_error`: they tell errors apart, and a message leads back to the place in the source.
-/

namespace MonkeyTokens

open Text Text.Reader

variable {rest : List Char}

namespace Text

/-- Texts that can be read back are equal only where what they were made from is. -/
theorem eq_of_read_back {α : Type} {write : α → String} {read : String → Option α} {a b : α} :
    (∀ c, read (write c) = some c) → write a = write b → a = b := by
  intro hread h
  have ha := hread a
  rw [h, hread b] at ha
  exact (Option.some.inj ha).symm

/-- A quoted text, by its marks and what stands between them. -/
theorem quoted_eq (hidden : Char → Bool) (quote : Char) (cs : List Char) :
    quoted hidden quote cs =
      String.singleton quote ++ String.ofList (cs.flatMap (escape hidden quote)) ++ String.singleton quote := by
  apply String.toList_injective
  simp [quoted]

end Text

/-! ## Tokens -/

namespace Token

/-- The label in front of a parenthesis, as the kind that has it. -/
def labelReader : Reader Kind :=
  fun cs =>
    (Kind.ofLabel? (String.ofList (cs.takeWhile (· != '(')))).map fun k => (k, cs.dropWhile (· != '('))

def debugReader : Reader Token := do
  let k ← labelReader
  literal "("
  let cs ← quotedBy '\x22'
  literal ")"
  return ⟨k, String.ofList cs⟩

def ofDebug? (text : String) : Option Token :=
  debugReader.read? text

theorem reads_label (k : Kind) :
    rest.head? = some '(' → Reads labelReader k.label.toList k rest := by
  intro hrest
  have hlabel : ∀ c ∈ k.label.toList, (c != '(') = true := by
    have hall : k.label.toList.all (· != '(') = true := by cases k <;> decide
    exact List.all_eq_true.1 hall
  cases rest with
  | nil => cases hrest
  | cons c rest =>
      obtain rfl := Option.some.inj hrest
      change Option.map _ (Kind.ofLabel? (String.ofList _)) = _
      rw [List.takeWhile_append_of_pos hlabel, List.dropWhile_append_of_pos hlabel]
      simp [Kind.ofLabel?_label]

/-- A debug text is read back, whichever characters are hidden. -/
theorem ofDebug?_debugWith (hidden : Char → Bool) (t : Token) :
    ofDebug? (t.debugWith hidden) = some t := by
  have htoken : Reads (Pure.pure ⟨t.kind, String.ofList t.text.toList⟩) [] t [] := by
    rw [String.ofList_toList]
    exact .pure t
  have htext : (t.debugWith hidden).toList =
      t.kind.label.toList ++ ("(".toList ++ ((quotedString hidden t.text).toList ++ (")".toList ++ []))) := by
    simp only [debugWith, String.toList_append, List.append_assoc, List.append_nil]
  apply Reads.read?
  rw [htext]
  refine (reads_label t.kind rfl).bind ((reads_literal _).bind ?_)
  exact (reads_quoted rfl hidden t.text.toList).bind ((reads_literal _).bind htoken)

/-- A debug text is the label and, between parentheses and quotation marks, the characters of the text, each escaped
on its own. It tells a token from every other one. -/
theorem debug_identifies_token (hidden : Char → Bool) (t u : Token) :
    t.debugWith hidden =
        t.kind.label ++ "(\x22" ++ String.ofList (t.text.toList.flatMap (escape hidden '\x22')) ++ "\x22)" ∧
      (t.debugWith hidden = u.debugWith hidden ↔ t = u) := by
  refine ⟨?_, eq_of_read_back (ofDebug?_debugWith hidden), congrArg (debugWith hidden)⟩
  rw [debugWith, quotedString, quoted_eq]
  apply String.toList_injective
  simp

end Token

/-! ## Spans and characters -/

def Span.reader : Reader Span := do
  let start ← number 10
  literal ".."
  let stop ← number 10
  return ⟨start, stop⟩

/-- A number in decimal is taken whole where no digit comes behind it. -/
theorem reads_decimal (n : Nat) :
    rest.head?.any (fun c => (digit? 10 c).isSome) = false →
      Reads (number 10) (toString n).toList n rest := by
  intro hrest
  rw [Nat.toString_eq_ofList_toDigits, String.toList_ofList]
  exact reads_number (by decide) (by decide) n hrest

theorem Span.reads_text (s : Span) :
    rest.head?.any (fun c => (digit? 10 c).isSome) = false → Reads Span.reader s.text.toList s rest := by
  intro hrest
  have htext : s.text.toList =
      (toString s.start).toList ++ ("..".toList ++ ((toString s.stop).toList ++ [])) := by
    simp only [Span.text, String.toList_append, List.append_assoc, List.append_nil]
  rw [htext]
  -- The dot behind the first number is no digit.
  refine (reads_decimal s.start rfl).bind ((reads_literal _).bind ?_)
  exact (reads_decimal s.stop hrest).bind (.pure s)

def foundReader : Reader Char := do
  match ← quotedBy '\x27' with
  | [c] => return c
  | _ => failure

theorem reads_found (hidden : Char → Bool) (c : Char) :
    Reads foundReader (quotedChar hidden c).toList c rest := by
  rw [← List.append_nil (quotedChar hidden c).toList]
  exact (reads_quoted rfl hidden [c]).bind (.pure c)

/-! ## Lexical errors -/

namespace LexicalError

def messageReader : Reader LexicalError := do
  literal "illegal character "
  let c ← foundReader
  literal " at "
  let s ← Span.reader
  return illegalCharacter s c

def debugReader : Reader LexicalError := do
  literal "LexError \x7b span: "
  let s ← Span.reader
  literal ", kind: IllegalCharacter \x7b found: "
  let c ← foundReader
  literal " \x7d \x7d"
  return illegalCharacter s c

def ofMessage? (text : String) : Option LexicalError :=
  messageReader.read? text

def ofDebug? (text : String) : Option LexicalError :=
  debugReader.read? text

/-- A message is read back, whichever characters are hidden. -/
theorem ofMessage?_messageWith (hidden : Char → Bool) (e : LexicalError) :
    ofMessage? (e.messageWith hidden) = some e := by
  rcases e with ⟨s, ⟨c⟩⟩
  have htext : ((illegalCharacter s c).messageWith hidden).toList =
      "illegal character ".toList ++
        ((quotedChar hidden c).toList ++ (" at ".toList ++ (s.text.toList ++ []))) := by
    simp only [messageWith_illegalCharacter, String.toList_append, List.append_assoc, List.append_nil]
  apply Reads.read?
  change Reads messageReader ((illegalCharacter s c).messageWith hidden).toList _ _
  rw [htext]
  refine (reads_literal _).bind ((reads_found hidden c).bind ((reads_literal _).bind ?_))
  exact (s.reads_text rfl).bind (.pure _)

/-- A debug text is read back, whichever characters are hidden. -/
theorem ofDebug?_debugWith (hidden : Char → Bool) (e : LexicalError) :
    ofDebug? (e.debugWith hidden) = some e := by
  rcases e with ⟨s, ⟨c⟩⟩
  have htext : ((illegalCharacter s c).debugWith hidden).toList =
      "LexError \x7b span: ".toList ++ (s.text.toList ++ (", kind: IllegalCharacter \x7b found: ".toList ++
        ((quotedChar hidden c).toList ++ (" \x7d \x7d".toList ++ [])))) := by
    simp [debugWith_illegalCharacter]
  apply Reads.read?
  change Reads debugReader ((illegalCharacter s c).debugWith hidden).toList _ _
  rw [htext]
  -- The comma behind the span is no digit.
  refine (reads_literal _).bind ((s.reads_text rfl).bind ((reads_literal _).bind ?_))
  exact (reads_found hidden c).bind ((reads_literal _).bind (.pure _))

/-- The message of an error is the words for what is wrong, the character between quotation marks, escaped where
that is due, and the two ends of the span. It tells the error from every other one, and so does the debug text. For a
source that strict reading refuses, the message leads back to the character and to its place in the source. -/
theorem texts_identify_error (hidden : Char → Bool) :
    (∀ start stop c, (illegalCharacter ⟨start, stop⟩ c).messageWith hidden =
        "illegal character \x27" ++ String.ofList (escape hidden '\x27' c) ++ "\x27 at " ++ toString start ++
          ".." ++ toString stop) ∧
      (∀ s t c d, (illegalCharacter s c).messageWith hidden = (illegalCharacter t d).messageWith hidden ↔
        illegalCharacter s c = illegalCharacter t d) ∧
      (∀ s t c d, (illegalCharacter s c).debugWith hidden = (illegalCharacter t d).debugWith hidden ↔
        illegalCharacter s c = illegalCharacter t d) ∧
      ∀ source e, tokenizeStrict source = .error e →
        ∃ s c, ofMessage? (e.messageWith hidden) = some (illegalCharacter s c) ∧
          e = illegalCharacter s c ∧ s.textIn? source = some (String.singleton c) := by
  refine ⟨fun start stop c => ?_,
    fun s t c d => ⟨eq_of_read_back (ofMessage?_messageWith hidden), congrArg (messageWith hidden)⟩,
    fun s t c d => ⟨eq_of_read_back (ofDebug?_debugWith hidden), congrArg (debugWith hidden)⟩,
    fun source e h => ?_⟩
  · rw [messageWith_illegalCharacter, quotedChar, quoted_eq, Span.text]
    apply String.toList_injective
    simp
  · rcases tokenizeStrict_eq_error_iff.1 h with ⟨p, hp, rfl⟩
    exact ⟨p.2, p.1, ofMessage?_messageWith hidden _, rfl, textIn?_of_firstIllegal? hp⟩

/-- A quotation mark in a source, which the message puts between such marks. -/
theorem texts_identify_error_sample :
    tokenizeStrict "1 \x27" = .error (illegalCharacter ⟨2, 3⟩ '\x27') ∧
      ∃ s c, ofMessage? "illegal character \x27\\\x27\x27 at 2..3" = some (illegalCharacter s c) ∧
        illegalCharacter ⟨2, 3⟩ '\x27' = illegalCharacter s c ∧
          s.textIn? "1 \x27" = some (String.singleton c) := by
  have hfirst : firstIllegal? "1 \x27" = some ('\x27', ⟨2, 3⟩) := by decide +kernel
  have herror : tokenizeStrict "1 \x27" = .error (illegalCharacter ⟨2, 3⟩ '\x27') :=
    tokenizeStrict_eq_error_iff.2 ⟨_, hfirst, rfl⟩
  have hmessage : (illegalCharacter ⟨2, 3⟩ '\x27').messageWith isHidden =
      "illegal character \x27\\\x27\x27 at 2..3" := by
    decide +kernel
  rw [← hmessage]
  exact ⟨herror, (texts_identify_error isHidden).2.2.2 _ _ herror⟩

end LexicalError

end MonkeyTokens
