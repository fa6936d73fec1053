import MonkeyTokens.Proofs.Reports
import MonkeyTokens.Proofs.Runs

/-!
# Rounds — every loop over a source ends, and after how many rounds

A loop over a source reads one token in each round. It has its result then, or it goes on behind that token.
Nothing in the loop counts its rounds: it ends because every token takes at least one character of the source.
Main statements:

- `pos_lt_of_not_isEof`: before the end, a step goes on;
- `length_tokens_le`: there are no more tokens than characters that are no blanks, but for the end mark;
- `itemRound_eq`: iterating asks for one item in each round;
- `ends_allRound`, `ends_strictRound`, `ends_itemRound`: when the loops of the readers end;
- `loops_end_in_time`: all of this for the readers of a source.
-/

namespace MonkeyTokens

open Reading

/-! ## Progress of a step -/

namespace Scanner

/-- Before the end, a token stands behind the scanner's position and takes at least one byte. -/
theorem pos_lt_of_not_isEof (s : Scanner) :
    s.step.token.isEof = false → s.pos ≤ s.step.span.start ∧ s.step.span.start < s.step.span.stop := by
  intro heof
  exact ⟨s.pos_le_pos_start, (s.placed_start.of_scan s.scan_start).2.2.2 heof⟩

end Scanner

/-- Besides the end mark, there are no more tokens than characters that are no blanks. -/
theorem Reading.length_tokens_le (offset : Nat) (left : List Char) :
    (tokens offset left).length ≤ 1 + left.countP (fun c => !Lexeme.isBlank c) := by
  induction offset, left using tokens_induction with
  | nil offset => simp [tokens_nil]
  | blank offset x left hx ih =>
      rw [tokens_of_blank _ _ hx]
      simpa [hx] using ih
  | token offset x left hx ih =>
      -- The token takes `x`, which is no blank, and what is after it has tokens of its own.
      have hsplit : left.countP (fun c => !Lexeme.isBlank c) =
          (more x left).countP (fun c => !Lexeme.isBlank c) +
            (after x left).countP (fun c => !Lexeme.isBlank c) := by
        rw [← List.countP_append, more_append_after]
      rw [tokens_of_not_blank _ _ hx]
      simp only [List.length_cons, List.countP_cons, hx, hsplit]
      simp only [Bool.not_false, if_true]
      omega

theorem length_tokenize (source : Source) : (tokenize source).length = (items source).length + 1 := by
  simp [tokenize_eq_map_stream, (stream_eq_items source).1]

/-! ## The loops of the readers -/

namespace Scanner

/-- A round of reading to the end mark, after the tokens `ts`. -/
def allRound : Scanner × List Token → List Token ⊕ (Scanner × List Token)
  | (s, ts) =>
      if s.step.token.isEof then .inl (ts ++ [s.step.token])
      else .inr (s.step.rest, ts ++ [s.step.token])

/-- A round of reading to the end mark or to an illegal token, after the tokens `ts`. -/
def strictRound : Scanner × List Token → Except LexicalError (List Token) ⊕ (Scanner × List Token)
  | (s, ts) =>
      if s.step.token.kind = .illegal then .inl (.error (.ofIllegal s.step.token s.step.span))
      else if s.step.token.isEof then .inl (.ok (ts ++ [s.step.token]))
      else .inr (s.step.rest, ts ++ [s.step.token])

/-- A round of iterating until nothing is yielded, after the tokens `ts`. -/
def itemRound : Scanner × List Token → List Token ⊕ (Scanner × List Token)
  | (s, ts) =>
      match s.step.item? with
      | none => .inl ts
      | some t => .inr (s.step.rest, ts ++ [t])

theorem itemRound_eq (s : Scanner) (ts : List Token) :
    itemRound (s, ts) =
      match s.next.result with
      | (none, _) => .inl ts
      | (some t, rest) => .inr (rest, ts ++ [t]) := by
  rw [s.yields_next.result_eq, itemRound]
  cases s.step.item? <;> rfl

theorem ends_allRound (s : Scanner) (ts : List Token) :
    Ends allRound (s, ts) s.stream.length (ts ++ s.stream.map (·.token)) := by
  induction s using rest_induction generalizing ts with
  | step s ih =>
      cases heof : s.step.token.isEof with
      | true =>
          rw [stream_of_isEof heof]
          exact .done (by simp [allRound, heof])
      | false =>
          have hrest := ih heof (ts ++ [s.step.token])
          rw [List.append_assoc] at hrest
          rw [stream_of_not_isEof heof]
          exact .next (by simp [allRound, heof]) hrest

theorem ends_strictRound (s : Scanner) (ts : List Token) :
    Ends strictRound (s, ts) (Strict.visited s.stream).length
      ((Strict.outcome s.stream).map (ts ++ ·)) := by
  induction s using rest_induction generalizing ts with
  | step s ih =>
      cases s.strictStep with
      | illegal hillegal houtcome hvisited =>
          rw [houtcome, hvisited]
          exact .done (by simp [strictRound, hillegal, Except.map])
      | finish hlegal heof houtcome hvisited =>
          rw [houtcome, hvisited]
          exact .done (by simp [strictRound, hlegal, heof, Except.map])
      | more hlegal heof houtcome hvisited =>
          have hround : strictRound (s, ts) = .inr (s.step.rest, ts ++ [s.step.token]) := by
            simp [strictRound, hlegal, heof]
          have hmap (r : Except LexicalError (List Token)) :
              (r.map (s.step.token :: ·)).map (ts ++ ·) = r.map (ts ++ [s.step.token] ++ ·) := by
            cases r <;> simp [Except.map]
          rw [houtcome, hvisited, hmap]
          exact .next hround (ih heof (ts ++ [s.step.token]))

theorem ends_itemRound (s : Scanner) (ts : List Token) :
    Ends itemRound (s, ts) s.stream.length (ts ++ s.drain.result.1) := by
  induction s using rest_induction generalizing ts with
  | step s ih =>
      cases heof : s.step.token.isEof with
      | true =>
          rw [stream_of_isEof heof, (yields_drain_of_isEof heof).result_eq]
          exact .done (by simp [itemRound, Step.item?, heof])
      | false =>
          have hround : itemRound (s, ts) = .inr (s.step.rest, ts ++ [s.step.token]) := by
            simp [itemRound, Step.item?, heof]
          rcases s.step.rest.exists_yields_drain with ⟨last, hdrain⟩
          have hrest := ih heof (ts ++ [s.step.token])
          rw [hdrain.result_eq, List.append_assoc] at hrest
          rw [stream_of_not_isEof heof, (yields_drain_of_not_isEof heof hdrain).result_eq]
          exact .next hround hrest

end Scanner

theorem Strict.length_visited_le (xs : List Located) : (visited xs).length ≤ xs.length := by
  rw [visited_eq_take, List.length_take]
  exact Nat.min_le_right _ _

/-! ## Asking for single tokens -/

namespace Progress

open Scanner (Answer)

variable {source : Source} {p : Progress}

/-- Among the answers to `n` requests for a token there is the end mark exactly when fewer are left. -/
theorem eof_mem_performAll_iff (n : Nat) :
    p.index ≤ (items source).length →
      (Answer.token .eof ∈ (performAll source (List.replicate n .token) p).1 ↔
        (items source).length < p.index + n) := by
  induction n generalizing p with
  | zero => simp [performAll]
  | succ n ih =>
      intro hle
      rw [List.replicate_succ, performAll, perform, List.mem_cons]
      cases hx : (items source)[p.index]? with
      | none =>
          have hend := List.getElem?_eq_none_iff.1 hx
          have hitem : (p.item source).token = .eof := by rw [item, hx]; rfl
          simp only [hitem, true_or, true_iff]
          omega
      | some x =>
          have hlt := (List.getElem?_eq_some_iff.1 hx).1
          have hitem : (p.item source).token ≠ .eof := by
            intro heof
            have hnone : (p.item source).token.isEof = (items source)[p.index]?.isNone := isEof_item
            rw [heof, hx] at hnone
            cases hnone
          have hrest := ih (p := ⟨p.index + 1, p.ended⟩) hlt
          simp only [advance_one_of_some hx, hrest, Answer.token.injEq, Ne.symm hitem, false_or]
          omega

end Progress

/-! ## Whole sources -/

/-- Wherever calls have left a scanner of a source, a call that reads a token goes on past it, and the token
is not empty. So there is one end mark, behind no more tokens than there are characters that are no blanks, and
it is reached by as many single calls as there are tokens with it. The loops of all readers end: reading to the
end mark after as many rounds, strict reading and iterating after no more. -/
theorem loops_end_in_time (source : Source) (calls : List Scanner.Call) :
    let s := Scanner.afterCalls source calls
    (∀ t span, (s.perform .located).result.1 = .located t span → t.isEof = false →
        s.pos ≤ span.start ∧ span.start < span.stop ∧ (s.perform .located).result.2.pos = span.stop) ∧
      (∃ ts, tokenize source = ts ++ [.eof] ∧ ∀ t ∈ ts, t.isEof = false) ∧
      (tokenize source).length ≤ 1 + source.toList.countP (fun c => !Lexeme.isBlank c) ∧
      (∀ n, .token .eof ∈
          ((Scanner.ofSource source).performAll (List.replicate n .token)).result.1 ↔
        (tokenize source).length ≤ n) ∧
      (∀ n ts, Ends Scanner.allRound (.ofSource source, []) n ts ↔
        n = (tokenize source).length ∧ ts = tokenize source) ∧
      (∃ k ≤ (tokenize source).length, ∀ n r, Ends Scanner.strictRound (.ofSource source, []) n r ↔
        n = k ∧ r = tokenizeStrict source) ∧
      ∃ k ≤ (tokenize source).length, ∀ n ts, Ends Scanner.itemRound (s, []) n ts ↔
        n = k ∧ ts = s.drain.result.1 := by
  intro s
  have hlength : (tokenize source).length = (Scanner.ofSource source).stream.length := by
    rw [tokenize_eq_map_stream, List.length_map]
  refine ⟨fun t span hanswer heof => ?_, ?_, ?_, fun n => ?_, ?_, ?_, ?_⟩
  · obtain ⟨rfl, rfl⟩ := Scanner.Answer.located.inj hanswer
    rcases s.pos_lt_of_not_isEof heof with ⟨hle, hlt⟩
    exact ⟨hle, hlt, rfl⟩
  · rcases stream_eq_items source with ⟨hstream, hkinds⟩
    refine ⟨(items source).map (·.token), ?_, by simpa using hkinds⟩
    rw [tokenize_eq_map_stream, hstream, List.map_append]
    rfl
  · rw [hlength, Scanner.stream_ofSource]
    exact length_tokens_le 0 source.toList
  · have hall := ((Scanner.Stands.ofSource source).reaches_performAll (List.replicate n .token)).result.1
    rw [hall, Progress.eof_mem_performAll_iff n (Nat.zero_le _), length_tokenize, Progress.start,
      Nat.zero_add, Nat.succ_le_iff]
  · have hends := Scanner.ends_allRound (.ofSource source) []
    rw [List.nil_append, ← tokenize_eq_map_stream, ← hlength] at hends
    exact hends.iff
  · have hends := Scanner.ends_strictRound (.ofSource source) []
    have hmap (r : Except LexicalError (List Token)) : r.map ([] ++ ·) = r := by cases r <;> rfl
    rw [hmap, ← tokenizeStrict_eq_outcome] at hends
    exact ⟨_, hlength ▸ Strict.length_visited_le _, hends.iff⟩
  · have hstream := (Scanner.Stands.afterCalls source calls).stream_eq
    have hends := s.ends_itemRound []
    rw [List.nil_append] at hends
    refine ⟨s.stream.length, ?_, hends.iff⟩
    rw [hstream, length_tokenize, List.length_append, List.length_drop]
    exact Nat.add_le_add_right (Nat.sub_le _ _) 1

/-- An illegal character of three bytes behind two blanks. -/
theorem loops_end_in_time_sample :
    let s := Scanner.afterCalls "a  €" [.token]
    (s.perform .located).result.1 = .located ⟨.illegal, "€"⟩ ⟨3, 6⟩ ∧ s.pos ≤ 3 ∧
      (s.perform .located).result.2.pos = 6 ∧
      Ends Scanner.allRound (.ofSource "a  €", []) 3 (tokenize "a  €") := by
  intro s
  have hanswer : (s.perform .located).result.1 = .located ⟨.illegal, "€"⟩ ⟨3, 6⟩ := by decide +kernel
  have hlength : (tokenize "a  €").length = 3 := by decide +kernel
  rcases loops_end_in_time "a  €" [.token] with ⟨hprogress, _, _, _, hall, _⟩
  rcases hprogress _ _ hanswer rfl with ⟨hle, _, hpos⟩
  exact ⟨hanswer, hle, hpos, (hall _ _).2 ⟨hlength.symm, rfl⟩⟩

end MonkeyTokens
