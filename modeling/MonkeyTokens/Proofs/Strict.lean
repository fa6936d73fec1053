import MonkeyTokens.Proofs.Illegal
import MonkeyTokens.Scan.Strict

/-!
# Strict reading — the stream up to its first illegal token

Strict reading makes the same steps as plain reading, and stops earlier when it meets an illegal token. What
it yields is a function of the stream, and the first illegal token of the stream is the first illegal
character of the source. So the error does not depend on anything behind that character. Main statements:

- `strictStep`: where strict reading stops, and where it goes on;
- `yields_readStrict`: strict reading yields the outcome of the stream;
- `find_illegal_stream`: the first illegal token, by the characters of the source;
- `tokenizeStrict_eq_error_iff`: an error is the first illegal character with its place;
- `tokenizeStrict_agrees`: strict and plain reading agree.
-/

namespace MonkeyTokens

open Reading

/-! ## The outcome of a stream -/

namespace Strict

variable {x : Located} {xs : List Located}

/-- The error of the first illegal token, or all tokens if none is illegal. -/
def outcome (xs : List Located) : Except LexicalError (List Token) :=
  match xs.find? Located.isIllegal with
  | some x => .error (.ofIllegal x.token x.span)
  | none => .ok (xs.map (·.token))

/-- The tokens that are read: up to the first illegal one, and that one. -/
def visited (xs : List Located) : List Located :=
  xs.takeWhile (!·.isIllegal) ++ (xs.find? Located.isIllegal).toList

theorem outcome_cons_of_isIllegal :
    x.isIllegal = true → outcome (x :: xs) = .error (.ofIllegal x.token x.span) := by
  intro hx
  simp [outcome, hx]

theorem outcome_cons_of_legal :
    x.isIllegal = false → outcome (x :: xs) = (outcome xs).map (x.token :: ·) := by
  intro hx
  simp only [outcome, List.find?_cons, hx]
  cases xs.find? Located.isIllegal <;> rfl

theorem visited_cons_of_isIllegal : x.isIllegal = true → visited (x :: xs) = [x] := by
  intro hx
  simp [visited, hx]

theorem visited_cons_of_legal : x.isIllegal = false → visited (x :: xs) = x :: visited xs := by
  intro hx
  simp [visited, hx]

end Strict

/-! ## Strict reading -/

namespace Scanner

/-- What a step means for strict reading: it stops at an illegal token, stops at the end mark, or goes on. -/
inductive StrictStep (s : Scanner) : Prop where
  | illegal : s.step.token.kind = .illegal →
      Strict.outcome s.stream = .error (.ofIllegal s.step.token s.step.span) →
      Strict.visited s.stream = [s.step.toLocated] → StrictStep s
  | finish : s.step.token.kind ≠ .illegal → s.step.token.isEof = true →
      Strict.outcome s.stream = .ok [s.step.token] →
      Strict.visited s.stream = [s.step.toLocated] → StrictStep s
  | more : s.step.token.kind ≠ .illegal → s.step.token.isEof = false →
      Strict.outcome s.stream = (Strict.outcome s.step.rest.stream).map (s.step.token :: ·) →
      Strict.visited s.stream = s.step.toLocated :: Strict.visited s.step.rest.stream → StrictStep s

theorem strictStep (s : Scanner) : s.StrictStep := by
  by_cases hillegal : s.step.token.kind = .illegal
  · have hmark : s.step.isIllegal = true := beq_iff_eq.2 hillegal
    have heof : s.step.token.isEof = false := by simp [Token.isEof, hillegal]
    apply StrictStep.illegal hillegal
    · rw [stream_of_not_isEof heof, Strict.outcome_cons_of_isIllegal hmark]
    · rw [stream_of_not_isEof heof, Strict.visited_cons_of_isIllegal hmark]
  · have hlegal : s.step.isIllegal = false := beq_false_of_ne hillegal
    cases heof : s.step.token.isEof with
    | true =>
        apply StrictStep.finish hillegal heof
        · rw [stream_of_isEof heof, Strict.outcome_cons_of_legal hlegal]
          rfl
        · rw [stream_of_isEof heof, Strict.visited_cons_of_legal hlegal]
          rfl
    | false =>
        apply StrictStep.more hillegal heof
        · rw [stream_of_not_isEof heof, Strict.outcome_cons_of_legal hlegal]
        · rw [stream_of_not_isEof heof, Strict.visited_cons_of_legal hlegal]

/-- Strict reading yields the outcome of the stream, and reports the tokens that it has read. -/
theorem yields_readStrict (s : Scanner) :
    s.readStrict.Yields (Strict.outcome s.stream)
      ((Strict.visited s.stream).map Located.event) := by
  induction s using rest_induction with
  | step s ih =>
      rw [readStrict]
      cases s.strictStep with
      | illegal hillegal houtcome hvisited =>
          rw [houtcome, hvisited]
          apply yields_read_bind
          simp only [hillegal, if_true]
          exact Logged.Yields.pure _
      | finish hlegal heof houtcome hvisited =>
          rw [houtcome, hvisited]
          apply yields_read_bind
          simp only [hlegal, if_false, heof, Bool.true_eq_false, dite_false]
          exact Logged.Yields.pure _
      | more hlegal heof houtcome hvisited =>
          have hrest := ih heof
          rw [houtcome, hvisited]
          apply yields_read_bind
          simp only [hlegal, if_false, heof, dite_true]
          exact hrest.bind_pure _

end Scanner

theorem tokenizeStrict_eq_outcome (source : Source) :
    tokenizeStrict source = Strict.outcome (Scanner.ofSource source).stream :=
  (Scanner.yields_readStrict _).result_eq

/-! ## The first illegal character -/

def firstIllegal? (source : Source) : Option (Char × Span) :=
  (illegalPlaces 0 source.toList).head?

theorem find_illegal_stream (source : Source) :
    (Scanner.ofSource source).stream.find? Located.isIllegal =
      (firstIllegal? source).map Located.ofIllegal := by
  rw [← List.head?_filter, Scanner.stream_ofSource, filter_illegal_tokens, List.head?_map,
    firstIllegal?]

/-- What is written behind an illegal character does not make another one the first. -/
theorem firstIllegal?_append {source : Source} {p : Char × Span} (more : String) :
    firstIllegal? source = some p → firstIllegal? (source ++ more) = some p := by
  intro h
  rw [firstIllegal?] at h
  simp [firstIllegal?, illegalPlaces_append, h]

theorem textIn?_of_firstIllegal? {source : Source} {p : Char × Span} :
    firstIllegal? source = some p → p.2.textIn? source = some (String.singleton p.1) := by
  intro h
  have hplace := (List.mem_filter.1 (List.mem_of_head? h)).1
  have hchars : source.toList = [] ++ source.toList := rfl
  exact textIn?_of_mem_places hchars hplace

theorem firstIllegal?_eq_none_iff {source : Source} :
    firstIllegal? source = none ↔ ∀ t ∈ tokenize source, t.kind ≠ .illegal := by
  rw [← Option.map_eq_none_iff, ← find_illegal_stream, List.find?_eq_none, tokenize_eq_map_stream]
  simp [Located.isIllegal]

/-- The outcome of strict reading, by the characters of the source. -/
theorem tokenizeStrict_eq (source : Source) :
    tokenizeStrict source =
      match firstIllegal? source with
      | some p => .error (.illegalCharacter p.2 p.1)
      | none => .ok (tokenize source) := by
  rw [tokenizeStrict_eq_outcome, Strict.outcome, find_illegal_stream]
  cases firstIllegal? source with
  | some p => simp [Located.ofIllegal, LexicalError.ofIllegal]
  | none => simp [tokenize_eq_map_stream]

theorem tokenizeStrict_eq_error_iff {source : Source} {e : LexicalError} :
    tokenizeStrict source = .error e ↔
      ∃ p, firstIllegal? source = some p ∧ e = .illegalCharacter p.2 p.1 := by
  rw [tokenizeStrict_eq]
  cases firstIllegal? source with
  | some p => simp [eq_comm]
  | none => simp

/-! ## Agreement -/

/-- Strict reading yields what plain reading yields if that holds no illegal token, and else the error of the
first one, which names its only character and the place where the source holds it. The error stays the same
whatever is written behind the source. -/
theorem tokenizeStrict_agrees (source : Source) :
    (∀ ts, tokenizeStrict source = .ok ts ↔
        (∀ t ∈ tokenize source, t.kind ≠ .illegal) ∧ ts = tokenize source) ∧
      (∀ e, tokenizeStrict source = .error e ↔
        ∃ x c, (Scanner.ofSource source).stream.find? (·.token.kind == .illegal) = some x ∧
          x.token.text = String.singleton c ∧ e = ⟨x.span, .illegalCharacter c⟩ ∧
          e.span.textIn? source = some (String.singleton c)) ∧
      ∀ e more, tokenizeStrict source = .error e → tokenizeStrict (source ++ more) = .error e := by
  refine ⟨fun ts => ?_, fun e => ?_, fun e more h => ?_⟩
  · rw [← firstIllegal?_eq_none_iff, tokenizeStrict_eq]
    cases firstIllegal? source with
    | some p => simp
    | none => simp [eq_comm]
  · have hfind := find_illegal_stream source
    rw [tokenizeStrict_eq_error_iff]
    constructor
    · rintro ⟨p, hp, rfl⟩
      rw [hp] at hfind
      exact ⟨.ofIllegal p, p.1, hfind, rfl, rfl, textIn?_of_firstIllegal? hp⟩
    · rintro ⟨x, c, hx, htext, rfl, _⟩
      -- The first illegal token is that of the first illegal character.
      rcases Option.map_eq_some_iff.1 (hfind.symm.trans hx) with ⟨p, hp, rfl⟩
      have hc : p.1 = c := by simpa [Located.ofIllegal] using htext
      exact ⟨p, hp, by rw [hc]; rfl⟩
  · rcases tokenizeStrict_eq_error_iff.1 h with ⟨p, hp, rfl⟩
    exact tokenizeStrict_eq_error_iff.2 ⟨p, firstIllegal?_append more hp, rfl⟩

theorem tokenizeStrict_agrees_sample :
    tokenizeStrict "x1 €" = .error ⟨⟨3, 6⟩, .illegalCharacter '€'⟩ ∧
      tokenizeStrict ("x1 €" ++ "\"@") = .error ⟨⟨3, 6⟩, .illegalCharacter '€'⟩ := by
  have hfirst : firstIllegal? "x1 €" = some ('€', ⟨3, 6⟩) := by decide +kernel
  have herror : tokenizeStrict "x1 €" = .error ⟨⟨3, 6⟩, .illegalCharacter '€'⟩ :=
    tokenizeStrict_eq_error_iff.2 ⟨_, hfirst, rfl⟩
  exact ⟨herror, (tokenizeStrict_agrees "x1 €").2.2 _ _ herror⟩

end MonkeyTokens
