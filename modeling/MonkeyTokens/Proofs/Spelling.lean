import MonkeyTokens.Proofs.Encoding
import MonkeyTokens.Scan.ByteClass
import MonkeyTokens.Vocabulary.Lexeme

/-!
# Spelling — the tables that mention characters agree

What a token looks like is written down several times: as classes of bytes, as classes of characters, as
the fixed spellings of the kinds, and as the table of reserved words. Main statements:

- `Matches.first`: a class of bytes and the class of characters it stands for hold of the same characters;
- `Matches.char`, `Matches.range`, `Matches.or`: the classes are put together from single characters and
  ranges;
- `Kind.spelling`: a fixed spelling is a reserved word, one symbol, or a joiner and an equals sign;
- `keyword?_eq_some_iff`: the table of reserved words is the table of spellings, read the other way round;
- `single_first`, `composite?_first`: the kinds that bytes stand for are those of the spellings.
-/

namespace MonkeyTokens

/-! ## Spellings of kinds -/

/-- A fixed spelling is a reserved word, one symbol, or a joiner with an equals sign after it. -/
theorem Kind.spelling {k : Kind} {x : Char} {cs : List Char} :
    k.lexeme? = some (String.ofList (x :: cs)) →
      (k.isKeyword = true ∧ Lexeme.isWordStart x = true ∧ cs ≠ [] ∧ cs.all Lexeme.isWord = true) ∨
        (k.isKeyword = false ∧ x ∈ Lexeme.symbols ∧ cs = []) ∨
          (k.isKeyword = false ∧ x ∈ Lexeme.joiners ∧ cs = ['=']) := by
  intro h
  -- Characters are compared one by one where texts are not.
  have hchars := congrArg (Option.map String.toList) h
  rw [Option.map_some, String.toList_ofList] at hchars
  cases k <;> simp [Kind.lexeme?] at hchars <;> obtain ⟨rfl, rfl⟩ := hchars <;> decide

/-- A text is a reserved word exactly when it is the spelling of a kind in the family of keywords. -/
theorem keyword?_eq_some_iff {text : String} {k : Kind} :
    keyword? text = some k ↔ k.isKeyword = true ∧ k.lexeme? = some text := by
  constructor
  · intro h
    unfold keyword? at h
    split at h
    case isFalse => cases h
    case isTrue =>
        -- One case for each length, and in it one for each reserved word of that length.
        split at h
        case h_6 => cases h
        all_goals split at h <;> simp at h <;> subst h <;> decide
  · rintro ⟨hk, ht⟩
    cases k <;> simp [Kind.isKeyword, Kind.code] at hk <;> simp [Kind.lexeme?] at ht <;>
      subst ht <;> rfl

namespace Lexeme

/-! ## Families of characters -/

/-- Blanks belong to no run and complete no operator. -/
theorem classes_of_isBlank {x : Char} :
    isBlank x = true → isWord x = false ∧ x.isDigit = false ∧ (x == '=') = false := by
  intro hx
  simp only [isBlank, Bool.or_eq_true, beq_iff_eq] at hx
  rcases hx with ((rfl | rfl) | rfl) | rfl <;> decide

theorem isWordStart_eq (x : Char) :
    isWordStart x = ((('a' ≤ x && x ≤ 'z') || ('A' ≤ x && x ≤ 'Z')) || x == '_') := by
  have halpha : x.isAlpha = (x.isUpper || x.isLower) := rfl
  have hupper : x.isUpper = ('A' ≤ x && x ≤ 'Z') := Bool.decide_and _ _
  have hlower : x.isLower = ('a' ≤ x && x ≤ 'z') := rfl
  rw [isWordStart, halpha, hupper, hlower, Bool.or_comm (_ && _)]

theorem isDigit_eq (x : Char) : x.isDigit = ('0' ≤ x && x ≤ '9') :=
  rfl

/-- No digit starts a word. -/
theorem isWordStart_of_isDigit {x : Char} : x.isDigit = true → isWordStart x = false := by
  intro hx
  rw [isDigit_eq, Bool.and_eq_true, decide_eq_true_eq, decide_eq_true_eq] at hx
  cases hword : isWordStart x with
  | false => rfl
  | true =>
      -- All characters that start words come after the digits.
      simp only [isWordStart_eq, Bool.or_eq_true, Bool.and_eq_true, decide_eq_true_eq,
        beq_iff_eq] at hword
      rcases hword with (hlower | hupper) | rfl
      · exact absurd (Char.le_trans hlower.1 hx.2) (by decide)
      · exact absurd (Char.le_trans hupper.1 hx.2) (by decide)
      · exact absurd hx.2 (by decide)

/-- No part of a word or of a number is an equals sign. -/
theorem beq_equals_of_isWord {x : Char} : isWord x = true → (x == '=') = false := by
  intro hx
  cases he : x == '=' with
  | false => rfl
  | true =>
      rw [beq_iff_eq.1 he] at hx
      exact absurd hx (by decide)

/-- Symbols are characters of ASCII that belong to no run and separate nothing. -/
theorem classes_of_mem_symbols {x : Char} :
    x ∈ symbols → isWordStart x = false ∧ x.isDigit = false ∧ isBlank x = false ∧ x.toNat < 128 := by
  intro hx
  have hall : symbols.all (fun y =>
      !isWordStart y && !y.isDigit && !isBlank y && decide (y.toNat < 128)) = true := by
    decide
  simpa [and_assoc] using List.all_eq_true.1 hall x hx

theorem isWord_eq_false_iff {x : Char} :
    isWord x = false ↔ isWordStart x = false ∧ x.isDigit = false :=
  Bool.or_eq_false_iff

theorem classes_of_isIllegal {x : Char} :
    isIllegal x = true → isBlank x = false ∧ isWord x = false ∧ x ∉ symbols := by
  intro hx
  simpa [isIllegal, and_assoc] using hx

theorem mem_symbols_of_mem_joiners {x : Char} : x ∈ joiners → x ∈ symbols := by
  intro hx
  exact List.take_subset 4 symbols hx

/-! ## Look-ups of fixed spellings -/

theorem fixedKind?_of_lexeme? {text : String} {k : Kind} :
    k.lexeme? = some text → fixedKind? text = some k := by
  intro h
  cases k <;> cases h <;> decide

/-- The look-up goes from spellings to kinds, and no two kinds share a spelling. -/
theorem fixedKind?_eq_some_iff {text : String} {k : Kind} :
    fixedKind? text = some k ↔ k.lexeme? = some text := by
  refine ⟨fun h => ?_, fixedKind?_of_lexeme?⟩
  have hfound := List.find?_some h
  simpa using hfound

/-- A kind without a spelling comes out of a look-up only where nothing is found. -/
theorem getD_fixedKind?_eq_iff {text : String} {fallback k : Kind} :
    k.lexeme? = none →
      ((fixedKind? text).getD fallback = k ↔ fixedKind? text = none ∧ fallback = k) := by
  intro hk
  cases hfound : fixedKind? text with
  | none => simp
  | some l =>
      have hne : l ≠ k := by
        rintro rfl
        have hspelled := fixedKind?_eq_some_iff.1 hfound
        simp [hk] at hspelled
      simp [hne]

/-- A fixed spelling that starts as words do is a reserved word. -/
theorem fixedKind?_of_isWordStart {x : Char} {cs : List Char} :
    isWordStart x = true →
      fixedKind? (String.ofList (x :: cs)) = keyword? (String.ofList (x :: cs)) := by
  intro hx
  apply Option.ext
  intro k
  rw [fixedKind?_eq_some_iff, keyword?_eq_some_iff]
  constructor
  · intro hk
    -- Of the three sorts of spellings only reserved words start as words do.
    rcases Kind.spelling hk with ⟨hkeyword, _⟩ | ⟨_, hsymbol, _⟩ | ⟨_, hjoiner, _⟩
    · exact ⟨hkeyword, hk⟩
    · rw [(classes_of_mem_symbols hsymbol).1] at hx
      cases hx
    · rw [(classes_of_mem_symbols (mem_symbols_of_mem_joiners hjoiner)).1] at hx
      cases hx
  · exact And.right

/-- The joiners are the characters that spell an operator with an equals sign. -/
theorem isSome_fixedKind?_joined_iff {x : Char} :
    (fixedKind? (String.ofList [x, '='])).isSome = true ↔ x ∈ joiners := by
  constructor
  · intro h
    rcases Option.isSome_iff_exists.1 h with ⟨k, hk⟩
    rcases Kind.spelling (fixedKind?_eq_some_iff.1 hk) with ⟨_, _, _, hword⟩ | ⟨_, _, hnil⟩ | ⟨_, hx, _⟩
    · exact absurd hword (by decide)
    · cases hnil
    · exact hx
  · have hall : joiners.all (fun y => (fixedKind? (String.ofList [y, '='])).isSome) = true := by
      decide
    exact List.all_eq_true.1 hall x

theorem fixedKind?_joined_of_not_mem {x : Char} :
    x ∉ joiners → fixedKind? (String.ofList [x, '=']) = none := by
  intro hx
  rw [← Option.not_isSome_iff_eq_none, isSome_fixedKind?_joined_iff]
  exact hx

theorem isSome_fixedKind?_single_of_mem {x : Char} :
    x ∈ symbols → (fixedKind? (String.ofList [x])).isSome = true := by
  intro hx
  have hall : symbols.all (fun y => (fixedKind? (String.ofList [y])).isSome) = true := by
    decide
  exact List.all_eq_true.1 hall x hx

/-- The symbols are the only characters that are spellings alone. -/
theorem fixedKind?_single_of_not_mem {x : Char} :
    x ∉ symbols → fixedKind? (String.ofList [x]) = none := by
  intro hx
  cases h : fixedKind? (String.ofList [x]) with
  | none => rfl
  | some k =>
      rcases Kind.spelling (fixedKind?_eq_some_iff.1 h) with
        ⟨_, _, hnil, _⟩ | ⟨_, hsymbol, _⟩ | ⟨_, _, hequals⟩
      · exact absurd rfl hnil
      · exact absurd hsymbol hx
      · cases hequals

end Lexeme

/-! ## Classes of bytes and of characters -/

namespace Byte

/-- The bytes of the class `p` are the characters of the class `q`, and all of these are of ASCII. -/
structure Matches (p : UInt8 → Bool) (q : Char → Bool) : Prop where
  bytes : ∀ n < 256, p (UInt8.ofNat n) = (decide (n < 128) && q (Char.ofNat n))
  chars : ∀ x : Char, q x = true → x.toNat < 128

theorem Matches.high {p : UInt8 → Bool} {q : Char → Bool} (h : Matches p q) {b : UInt8} :
    0x80 ≤ b → p b = false := by
  intro hb
  have hge : 128 ≤ b.toNat := UInt8.le_iff_toNat_le.1 hb
  have hbytes := h.bytes b.toNat b.toNat_lt
  simpa [Nat.not_lt.2 hge] using hbytes

/-- A character is in a class exactly when its first byte is. -/
theorem Matches.first {p : UInt8 → Bool} {q : Char → Bool} (h : Matches p q) (x : Char) :
    p (Byte.first x) = q x := by
  by_cases hx : x.toNat < 128
  · rw [first_of_ascii hx, h.bytes _ (by omega), Char.ofNat_toNat]
    simp [hx]
  · -- Outside ASCII neither class holds of anything.
    have hq : q x = false := by
      cases hq : q x with
      | false => rfl
      | true => exact absurd (h.chars x hq) hx
    rw [h.high (high_first (Nat.le_of_not_lt hx)), hq]

theorem toNat_toUInt8 {c : Char} (h : c.toNat < 128) : c.toUInt8.toNat = c.toNat := by
  have hlt : c.toNat < 256 := by omega
  exact (UInt32.toNat_toUInt8 c.val).trans (Nat.mod_eq_of_lt hlt)

theorem toNat_ofNat_of_ascii {n : Nat} (h : n < 128) : (Char.ofNat n).toNat = n := by
  have hvalid : n.isValidChar := .inl (by omega)
  rw [Char.ofNat, dif_pos hvalid]
  rfl

/-- The class of one character. -/
theorem Matches.char {c : Char} (hc : c.toNat < 128) : Matches (· == c.toUInt8) (· == c) where
  bytes := by
    intro n hn
    -- Below `0x80` bytes and characters are the same numbers.
    rw [Bool.eq_iff_iff, Bool.and_eq_true, beq_iff_eq, beq_iff_eq, decide_eq_true_eq,
      ← UInt8.toNat_inj, UInt8.toNat_ofNat_of_lt' hn, toNat_toUInt8 hc]
    constructor
    · rintro rfl
      exact ⟨hc, Char.ofNat_toNat c⟩
    · rintro ⟨hlt, rfl⟩
      exact (toNat_ofNat_of_ascii hlt).symm
  chars := by
    intro x hx
    rw [beq_iff_eq.1 hx]
    exact hc

/-- The class of the characters from one to another. -/
theorem Matches.range {lo hi : Char} (hlo : lo.toNat < 128) (hhi : hi.toNat < 128) :
    Matches (fun b => lo.toUInt8 ≤ b && b ≤ hi.toUInt8) (fun x => lo ≤ x && x ≤ hi) where
  bytes := by
    intro n hn
    have hbytes (b c : UInt8) : decide (b ≤ c) = decide (b.toNat ≤ c.toNat) := rfl
    have hchars (x y : Char) : decide (x ≤ y) = decide (x.toNat ≤ y.toNat) := rfl
    simp only [hbytes, hchars, UInt8.toNat_ofNat_of_lt' hn, toNat_toUInt8 hlo, toNat_toUInt8 hhi]
    by_cases hlt : n < 128
    · simp [hlt, toNat_ofNat_of_ascii hlt]
    · simp [hlt]
      omega
  chars := by
    intro x hx
    have hle : x ≤ hi := by simpa using (Bool.and_eq_true_iff.1 hx).2
    exact Nat.lt_of_le_of_lt hle hhi

/-- The characters of two classes form a class. -/
theorem Matches.or {p p' : UInt8 → Bool} {q q' : Char → Bool} (h : Matches p q)
    (h' : Matches p' q') : Matches (fun b => p b || p' b) (fun x => q x || q' x) where
  bytes := by
    intro n hn
    rw [h.bytes n hn, h'.bytes n hn, ← Bool.and_or_distrib_left]
  chars := by
    intro x hx
    rcases Bool.or_eq_true_iff.1 hx with hx | hx
    · exact h.chars x hx
    · exact h'.chars x hx

theorem matches_isBlank : Matches isBlank Lexeme.isBlank :=
  (((Matches.char (by decide)).or (.char (by decide))).or (.char (by decide))).or
    (.char (by decide))

theorem matches_isWordStart : Matches isWordStart Lexeme.isWordStart := by
  have hlower := Matches.range (show 'a'.toNat < 128 by decide) (show 'z'.toNat < 128 by decide)
  have hupper := Matches.range (show 'A'.toNat < 128 by decide) (show 'Z'.toNat < 128 by decide)
  have hword := (hlower.or hupper).or (.char (show '_'.toNat < 128 by decide))
  exact funext Lexeme.isWordStart_eq ▸ hword

theorem matches_isDigit : Matches isDigit Char.isDigit :=
  .range (by decide) (by decide)

theorem matches_isWord : Matches isWord Lexeme.isWord :=
  matches_isWordStart.or matches_isDigit

end Byte

/-! ## Kinds that bytes stand for -/

/-- All fixed spellings start in ASCII. -/
theorem Lexeme.ascii_of_fixedKind? {x : Char} {cs : List Char} {k : Kind} :
    fixedKind? (String.ofList (x :: cs)) = some k → x.toNat < 128 := by
  intro h
  rcases Kind.spelling (fixedKind?_eq_some_iff.1 h) with ⟨_, hx, _⟩ | ⟨_, hx, _⟩ | ⟨_, hx, _⟩
  · exact Byte.matches_isWordStart.chars x hx
  · exact (classes_of_mem_symbols hx).2.2.2
  · exact (classes_of_mem_symbols (mem_symbols_of_mem_joiners hx)).2.2.2

theorem Lexeme.fixedKind?_of_high {x : Char} {cs : List Char} :
    128 ≤ x.toNat → fixedKind? (String.ofList (x :: cs)) = none := by
  intro hx
  cases h : fixedKind? (String.ofList (x :: cs)) with
  | none => rfl
  | some k => exact absurd (ascii_of_fixedKind? h) (Nat.not_lt.2 hx)

namespace Byte

theorem ofUInt8_first {x : Char} (hx : x.toNat < 128) : Char.ofUInt8 (first x) = x := by
  rw [first_of_ascii hx]
  apply Char.ext
  apply UInt32.toNat_inj.1
  exact UInt8.toNat_ofNat_of_lt' (Nat.lt_trans hx (by decide))

/-- A first byte that is a symbol is a symbol alone, and not a part of another character. -/
theorem ofUInt8_first_of_mem {x : Char} :
    Char.ofUInt8 (first x) ∈ Lexeme.symbols → Char.ofUInt8 (first x) = x := by
  intro h
  by_cases hx : x.toNat < 128
  · exact ofUInt8_first hx
  · have hlow : (first x).toNat < 128 := (Lexeme.classes_of_mem_symbols h).2.2.2
    have hhigh := UInt8.le_iff_toNat_le.1 (high_first (Nat.le_of_not_lt hx))
    exact absurd hlow (Nat.not_lt.2 hhigh)

/-- A character alone has the kind that it spells, and is illegal if it spells none. -/
theorem single_first (x : Char) :
    single (first x) = (Lexeme.fixedKind? (String.ofList [x])).getD .illegal := by
  by_cases hx : x ∈ Lexeme.symbols
  · -- The table of bytes gives each symbol a kind that is spelled so.
    have hall : Lexeme.symbols.all (fun y =>
        (single (UInt8.ofNat y.toNat)).lexeme? == some (String.ofList [y])) = true := by
      decide
    have hspelled := beq_iff_eq.1 (List.all_eq_true.1 hall x hx)
    rw [first_of_ascii (Lexeme.classes_of_mem_symbols hx).2.2.2,
      Lexeme.fixedKind?_eq_some_iff.2 hspelled, Option.getD_some]
  · have hfirst : Char.ofUInt8 (first x) ∉ Lexeme.symbols := fun h => hx (ofUInt8_first_of_mem h ▸ h)
    rw [Lexeme.fixedKind?_single_of_not_mem hx]
    -- Every entry of the table of bytes is a symbol, so none of them fits.
    unfold single
    split
    case h_15 => rfl
    all_goals
      rename_i hsymbol
      rw [hsymbol] at hfirst
      exact absurd (by decide) hfirst

/-- Before an equals sign, a character has the kind that the two spell together. -/
theorem withEquals?_first (x : Char) :
    withEquals? (first x) = Lexeme.fixedKind? (String.ofList [x, '=']) := by
  by_cases hx : x ∈ Lexeme.joiners
  · have hsymbol := Lexeme.mem_symbols_of_mem_joiners hx
    have hall : Lexeme.joiners.all (fun y => (withEquals? (UInt8.ofNat y.toNat)).any fun k =>
        k.lexeme? == some (String.ofList [y, '='])) = true := by
      decide
    rcases (Option.any_eq_true_iff_get _ _).1 (List.all_eq_true.1 hall x hx) with ⟨hsome, hspelled⟩
    rw [first_of_ascii (Lexeme.classes_of_mem_symbols hsymbol).2.2.2,
      Lexeme.fixedKind?_eq_some_iff.2 (beq_iff_eq.1 hspelled), Option.some_get]
  · have hfirst : Char.ofUInt8 (first x) ∉ Lexeme.joiners := by
      intro h
      have hsame := ofUInt8_first_of_mem (Lexeme.mem_symbols_of_mem_joiners h)
      exact hx (hsame ▸ h)
    rw [Lexeme.fixedKind?_joined_of_not_mem hx]
    unfold withEquals?
    split
    case h_5 => rfl
    all_goals
      rename_i hjoiner
      rw [hjoiner] at hfirst
      exact absurd (by decide) hfirst

/-- The byte looked ahead to completes an operator exactly when the next character is an equals sign and
completes a fixed spelling. -/
theorem composite?_first (x : Char) (left : List Char) :
    composite? (first x) (left.head?.map first) =
      if left.head? = some '=' then Lexeme.fixedKind? (String.ofList [x, '=']) else none := by
  have hiff : left.head?.map first = some '='.toUInt8 ↔ left.head? = some '=' := by
    cases left with
    | nil => simp
    | cons y left =>
        have hy : (first y == '='.toUInt8) = (y == '=') := (Matches.char (by decide)).first y
        rw [Bool.eq_iff_iff, beq_iff_eq, beq_iff_eq] at hy
        simpa using hy
  simp only [composite?, hiff, withEquals?_first]

end Byte

end MonkeyTokens
