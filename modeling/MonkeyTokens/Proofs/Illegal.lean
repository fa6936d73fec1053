import MonkeyTokens.Proofs.Separators

/-!
# Illegal characters — what is reported as illegal, and where

A character is legal or illegal by itself, whatever stands around it. The illegal tokens of a source are its
illegal characters, one token for each, in their order and with their own bytes as spans; no other token
holds an illegal character. Main statements:

- `textIn?_of_mem_places`: the place of a character in a source holds that character;
- `filter_illegal_firstToken`: a token is reported when it starts with an illegal character, and it holds no
  other one;
- `filter_illegal_tokens`: the illegal tokens of a reading;
- `filter_illegal_stream`: the same for the stream of a source.
-/

namespace MonkeyTokens

open Reading

/-! ## Places of characters -/

namespace Reading

variable {cs : List Char}

/-- Characters that start at the byte position `offset`, each with the span of its bytes. -/
def places (offset : Nat) : List Char → List (Char × Span)
  | [] => []
  | c :: cs => (c, ⟨offset, offset + c.utf8Size⟩) :: places (offset + c.utf8Size) cs

theorem places_append (offset : Nat) (cs ds : List Char) :
    places offset (cs ++ ds) = places offset cs ++ places (offset + width cs) ds := by
  induction cs generalizing offset with
  | nil => rfl
  | cons c cs ih => simp [places, ih, Nat.add_assoc]

theorem fst_mem_of_mem_places {offset : Nat} {p : Char × Span} : p ∈ places offset cs → p.1 ∈ cs := by
  induction cs generalizing offset with
  | nil => simp [places]
  | cons c cs ih =>
      intro hp
      rcases List.mem_cons.1 hp with rfl | hp
      · exact List.mem_cons_self
      · exact List.mem_cons_of_mem _ (ih hp)

/-- The place of a character holds that character. -/
theorem textIn?_of_mem_places {source : Source} {passed : List Char} {p : Char × Span} :
    source.toList = passed ++ cs → p ∈ places (width passed) cs →
      p.2.textIn? source = some (String.singleton p.1) := by
  induction cs generalizing passed with
  | nil => simp [places]
  | cons c cs ih =>
      intro hchars hp
      have hchars' : source.toList = passed ++ [c] ++ cs := by simpa using hchars
      have hwidth : width passed + c.utf8Size = width (passed ++ [c]) := by simp
      rw [places, hwidth] at hp
      rcases List.mem_cons.1 hp with rfl | hp
      · rw [String.singleton_eq_ofList]
        exact Source.slice?_width hchars'
      · exact ih hchars' hp

/-- The illegal ones among characters that start at `offset`, with their places. -/
def illegalPlaces (offset : Nat) (cs : List Char) : List (Char × Span) :=
  (places offset cs).filter fun p => Lexeme.isIllegal p.1

theorem illegalPlaces_append (offset : Nat) (cs ds : List Char) :
    illegalPlaces offset (cs ++ ds) =
      illegalPlaces offset cs ++ illegalPlaces (offset + width cs) ds := by
  simp [illegalPlaces, places_append]

theorem illegalPlaces_of_legal {offset : Nat} :
    (∀ c ∈ cs, Lexeme.isIllegal c = false) → illegalPlaces offset cs = [] := by
  intro hlegal
  refine List.filter_eq_nil_iff.2 fun p hp => ?_
  simp [hlegal p.1 (fst_mem_of_mem_places hp)]

end Reading

/-! ## Legal and illegal tokens -/

namespace Lexeme

variable {c : Char}

theorem isSeparator_of_isIllegal : isIllegal c = true → isSeparator c = true :=
  fun h => isSeparator_iff.2 (.inr (.inr h))

theorem ofSeparator_of_isIllegal :
    isIllegal c = true → ofSeparator c = [⟨.illegal, String.singleton c⟩] := by
  intro h
  rcases classes_of_isIllegal h with ⟨hblank, _, hsymbol⟩
  simp only [ofSeparator, hblank, String.singleton_eq_ofList,
    fixedKind?_single_of_not_mem hsymbol, Bool.false_eq_true, if_false, Option.getD_none]

theorem isIllegal_of_isBlank : isBlank c = true → isIllegal c = false := by
  intro h
  simp [isIllegal, h]

theorem isIllegal_of_isWord : isWord c = true → isIllegal c = false := by
  intro h
  simp [isIllegal, h]

end Lexeme

/-! ## The first token -/

namespace Located

def ofIllegal (p : Char × Span) : Located :=
  ⟨⟨.illegal, String.singleton p.1⟩, p.2⟩

def isIllegal (x : Located) : Bool :=
  x.token.kind == .illegal

end Located

namespace Reading

variable {x : Char}

theorem firstToken_of_isIllegal (left : List Char) :
    Lexeme.isIllegal x = true → firstToken x left = ⟨.illegal, String.singleton x⟩ := by
  intro hillegal
  have hblank := (Lexeme.classes_of_isIllegal hillegal).1
  have htoken :=
    ofSeparator_eq_firstToken left (Lexeme.isSeparator_of_isIllegal hillegal) hblank
  rw [Lexeme.ofSeparator_of_isIllegal hillegal] at htoken
  exact (List.cons.inj htoken).1.symm

/-- A legal character starts no illegal token. -/
theorem kind_firstToken_ne_illegal (left : List Char) :
    Lexeme.isBlank x = false → Lexeme.isIllegal x = false →
      (firstToken x left).kind ≠ .illegal := by
  intro hblank hlegal hkind
  -- The token belongs to no run and spells nothing, so it does not start with a symbol either.
  rcases kindOf_eq_illegal_iff.1 hkind with ⟨hword, hdigit, hnone⟩
  have hsymbol : x ∈ Lexeme.symbols := by
    simpa [Lexeme.isIllegal, Lexeme.isWord, hblank, hword, hdigit] using hlegal
  rw [more_of_not_run left hword hdigit] at hnone
  split at hnone
  case isTrue hjoined =>
      have hsome := Lexeme.isSome_fixedKind?_joined_iff.2 hjoined.1
      rw [hnone] at hsome
      cases hsome
  case isFalse =>
      have hsome := Lexeme.isSome_fixedKind?_single_of_mem hsymbol
      rw [hnone] at hsome
      cases hsome

/-- No token takes an illegal character after its first one. -/
theorem isIllegal_of_mem_more {y : Char} {left : List Char} :
    y ∈ more x left → Lexeme.isIllegal y = false := by
  intro hy
  rcases mem_more hy with hword | rfl
  · exact Lexeme.isIllegal_of_isWord hword
  · decide

theorem isIllegal_of_mem_text (left : List Char) :
    Lexeme.isIllegal x = false → ∀ y ∈ x :: more x left, Lexeme.isIllegal y = false :=
  fun hlegal => List.forall_mem_cons.2 ⟨hlegal, fun _ => isIllegal_of_mem_more⟩

/-- The first token is reported for its illegal characters, of which it has at most the first. -/
theorem filter_illegal_firstToken (offset : Nat) (left : List Char) :
    Lexeme.isBlank x = false →
      ([⟨firstToken x left, ⟨offset, offset + width (x :: more x left)⟩⟩] : List Located).filter
          Located.isIllegal =
        (illegalPlaces offset (x :: more x left)).map Located.ofIllegal := by
  intro hblank
  cases hx : Lexeme.isIllegal x with
  | true =>
      have hmore := more_of_isSeparator left (Lexeme.isSeparator_of_isIllegal hx)
      rw [hmore, firstToken_of_isIllegal left hx]
      simp [illegalPlaces, places, hx, Located.isIllegal, Located.ofIllegal]
  | false =>
      have hkind := kind_firstToken_ne_illegal left hblank hx
      rw [illegalPlaces_of_legal (isIllegal_of_mem_text left hx)]
      simp [Located.isIllegal, hkind]

/-! ## A whole reading -/

theorem filter_illegal_tokens (offset : Nat) (left : List Char) :
    (tokens offset left).filter Located.isIllegal =
      (illegalPlaces offset left).map Located.ofIllegal := by
  induction offset, left using tokens_induction with
  | nil offset => simp [tokens_nil, illegalPlaces, places, Located.isIllegal, Located.eof, Token.eof]
  | blank offset x left hx ih =>
      -- A blank has a place, but it is legal.
      rw [tokens_of_blank _ _ hx, ih]
      simp [illegalPlaces, places, Lexeme.isIllegal_of_isBlank hx]
  | token offset x left hx ih =>
      have hsplit : x :: left = (x :: more x left) ++ after x left := by
        rw [List.cons_append, more_append_after]
      rw [tokens_of_not_blank _ _ hx, ← List.singleton_append, List.filter_append, ih,
        filter_illegal_firstToken offset left hx, ← List.map_append, ← illegalPlaces_append,
        ← hsplit]

/-- A token that is not illegal holds legal characters only. -/
theorem legal_of_mem_tokens {t : Located} (offset : Nat) (left : List Char) :
    t ∈ tokens offset left → t.isIllegal = false →
      ∀ c ∈ t.token.text.toList, Lexeme.isIllegal c = false := by
  induction offset, left using tokens_induction with
  | nil offset =>
      intro ht
      rw [tokens_nil, List.mem_singleton] at ht
      simp [ht, Located.eof, Token.eof]
  | blank offset x left hx ih =>
      rw [tokens_of_blank _ _ hx]
      exact ih
  | token offset x left hx ih =>
      intro ht hlegal
      rw [tokens_of_not_blank _ _ hx] at ht
      rcases List.mem_cons.1 ht with rfl | ht
      · have hx' : Lexeme.isIllegal x = false := by
          cases hillegal : Lexeme.isIllegal x with
          | false => rfl
          | true => simp [Located.isIllegal, firstToken_of_isIllegal left hillegal] at hlegal
        simpa [firstToken] using isIllegal_of_mem_text left hx'
      · exact ih ht hlegal

end Reading

/-! ## Sources -/

/-- The illegal tokens of a source are its illegal characters, each with its own bytes, and the other
tokens hold none of them. -/
theorem filter_illegal_stream (source : Source) :
    ((Scanner.ofSource source).stream.filter fun x => x.token.kind == .illegal) =
        (((places 0 source.toList).filter fun p => Lexeme.isIllegal p.1).map fun p =>
          ⟨⟨.illegal, String.singleton p.1⟩, p.2⟩) ∧
      ∀ x ∈ (Scanner.ofSource source).stream, x.token.kind ≠ .illegal →
        ∀ c ∈ x.token.text.toList, Lexeme.isIllegal c = false := by
  rw [Scanner.stream_ofSource]
  refine ⟨filter_illegal_tokens 0 source.toList, fun x hx hkind => ?_⟩
  have hlegal : x.isIllegal = false := by simpa [Located.isIllegal] using hkind
  exact legal_of_mem_tokens 0 source.toList hx hlegal

end MonkeyTokens
