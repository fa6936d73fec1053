import MonkeyTokens.Proofs.Refinement

/-!
# Steps — what one step does from any place between two characters

Every scanner that comes out of a source stands between two of its characters. What its next step does is
known by the characters after the blanks: the step reads the token that they start with, or the end mark if
none is left. Main statements:

- `Within.step`: a step ends between two characters again, and reads no empty text before the end;
- `Within.isFinished_eq`: a scanner is finished exactly when its next step reads the end mark;
- `Within.step_of_isEof`: the end mark stands at the end of the source, and it is read again and again.
-/

namespace MonkeyTokens

open Reading

namespace Scanner

/-- No token starts with a blank. -/
theorem isBlank_of_start {s : Scanner} {passed left : List Char} {x : Char} :
    s.start.Between passed (x :: left) → Lexeme.isBlank x = false := by
  intro h
  have hstop : s.start.current.any Byte.isBlank = false := s.placed.any_current_eatWhile _
  simpa [h.current_cons, Byte.matches_isBlank.first] using hstop

/-- The scanner reads the source, and stands between two of its characters. -/
structure Within (s : Scanner) (source : Source) : Prop where
  source_eq : s.source = source
  boundary : source.IsBoundary s.pos

namespace Within

variable {s : Scanner} {source : Source}

theorem ofSource (source : Source) : (Scanner.ofSource source).Within source :=
  ⟨Cursor.source_ofSource source, (between_ofSource source).isBoundary⟩

theorem exists_between : s.Within source → ∃ passed left, s.Between passed left := by
  rintro ⟨rfl, hboundary⟩
  exact s.placed.exists_between hboundary

/-- After the blanks nothing is left, or a token starts. -/
theorem start_cases (h : s.Within source) :
    (∃ passed, s.start.Between passed []) ∨ ∃ passed x left, s.start.Between passed (x :: left) := by
  rcases h.exists_between with ⟨passed, left, hs⟩
  have hstart := between_start hs
  cases hleft : left.dropWhile Lexeme.isBlank with
  | nil => exact .inl ⟨_, hleft ▸ hstart⟩
  | cons x rest => exact .inr ⟨_, x, rest, hleft ▸ hstart⟩

/-- A step ends between two characters again, and reads no empty text before the end. -/
theorem step (h : s.Within source) :
    s.step.rest.Within source ∧ (s.step.token.isEof = false → s.step.token.text ≠ "") := by
  have hsource : s.step.rest.source = source := by rw [source_rest, h.source_eq]
  rcases h.start_cases with ⟨passed, hstart⟩ | ⟨passed, x, left, hstart⟩
  · rcases step_of_nil hstart with ⟨htoken, hrest⟩
    rw [← hrest] at hstart
    refine ⟨⟨hsource, hsource ▸ hstart.isBoundary⟩, ?_⟩
    rw [htoken]
    intro heof
    cases heof
  · rcases step_of_cons hstart with ⟨htoken, hrest⟩
    refine ⟨⟨hsource, hsource ▸ hrest.isBoundary⟩, ?_⟩
    intro _ hempty
    rw [htoken] at hempty
    -- The text holds at least the character that starts it.
    have hchars := congrArg String.toList hempty
    rw [firstToken, String.toList_ofList] at hchars
    cases hchars

/-- A scanner is finished exactly when its next step reads the end mark. -/
theorem isFinished_eq (h : s.Within source) : s.isFinished = s.step.token.isEof := by
  rcases h.start_cases with ⟨passed, hstart⟩ | ⟨passed, x, left, hstart⟩
  · rw [(step_of_nil hstart).1]
    simp [isFinished, Cursor.isAtEnd, hstart.current_nil, Token.isEof, Token.eof]
  · rw [(step_of_cons hstart).1, isEof_firstToken]
    simp [isFinished, Cursor.isAtEnd, hstart.current_cons]

/-- The end mark stands at the end of the source, and it is read again. -/
theorem step_of_isEof (h : s.Within source) :
    s.step.token.isEof = true →
      s.step.toLocated = .eof source.size ∧ s.step.rest.stream = [.eof source.size] := by
  intro heof
  rcases h.start_cases with ⟨passed, hstart⟩ | ⟨passed, x, left, hstart⟩
  · have hend : width passed = source.size := by
      have hsize := hstart.size_eq
      rw [source_start, h.source_eq, hstart.pos_eq] at hsize
      exact hsize.symm
    have hstream := stream_of_start_nil hstart
    rw [stream_of_isEof heof, tokens_nil, hend] at hstream
    -- The scanner stays where it read the end mark, with nothing left.
    have hrest : s.step.rest.Between passed [] := by
      rw [Between, (step_of_nil hstart).2]
      exact hstart
    refine ⟨(List.cons.inj hstream).1, ?_⟩
    rw [stream_eq_tokens hrest, tokens_nil, hend]
  · rw [(step_of_cons hstart).1, isEof_firstToken] at heof
    cases heof

end Within

end Scanner

end MonkeyTokens
