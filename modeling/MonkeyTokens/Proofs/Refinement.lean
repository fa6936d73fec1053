import MonkeyTokens.Proofs.Between
import MonkeyTokens.Proofs.Reading
import MonkeyTokens.Scan.Stream

/-!
# Refinement — reading by bytes is reading by characters

A scanner moves over bytes and looks one byte ahead; `Reading` speaks of characters only. This module
shows that they agree. The invariant is `Cursor.Between`: before and after each token the cursor stands
between two characters. Main statements:

- `Between.scan_cons`: one scan reads the first token of the characters that are left;
- `step_of_nil`, `step_of_cons`: one step of a scanner, by the characters after the blanks;
- `stream_eq_tokens`: from any place between two characters, the stream is the reading of those left;
- `stream_eq_reading`: the stream of a source is its reading.
-/

namespace MonkeyTokens

open Reading

namespace Cursor

/-- From before `x`, the cursor reaches the end of the first token and finds its kind. -/
structure ReachesFirst (c : Cursor) (passed : List Char) (x : Char) (left : List Char) : Prop where
  between : (c.reach (Byte.first x)).1.Between (passed ++ x :: more x left) (after x left)
  kind_eq : (c.reach (Byte.first x)).2 (firstToken x left).text = (firstToken x left).kind

namespace Between

variable {c : Cursor} {passed left : List Char} {x : Char}

/-! ## Runs of a class of characters -/

theorem eatWhile_matches {p : UInt8 → Bool} {q : Char → Bool} (h : c.Between passed left) :
    Byte.Matches p q →
      (c.eatWhile p).Between (passed ++ left.takeWhile q) (left.dropWhile q) := by
  intro hpq
  have hrun := h.eatWhile fun b hb => (hpq.high hb).trans (hpq.high (by decide)).symm
  have hclass : (fun y => p (Byte.first y)) = q := funext hpq.first
  rwa [hclass] at hrun

/-- A run of the class of the character under the cursor. -/
theorem eatWhile_cons {p : UInt8 → Bool} {q : Char → Bool} (h : c.Between passed (x :: left)) :
    Byte.Matches p q → q x = true →
      (c.eatWhile p).Between (passed ++ x :: left.takeWhile q)
        (left.drop (left.takeWhile q).length) := by
  intro hpq hx
  -- Dropping as many characters as were taken is dropping the run.
  have hdrop : left.drop (left.takeWhile q).length = left.dropWhile q := by
    have htake := List.prefix_iff_eq_take.1 (List.takeWhile_prefix (l := left) q)
    have happend : left.takeWhile q ++ left.drop (left.takeWhile q).length =
        left.takeWhile q ++ left.dropWhile q := by
      calc
        left.takeWhile q ++ left.drop (left.takeWhile q).length
            = left.take (left.takeWhile q).length ++ left.drop (left.takeWhile q).length := by
              rw [← htake]
        _ = left := List.take_append_drop _ _
        _ = left.takeWhile q ++ left.dropWhile q := List.takeWhile_append_dropWhile.symm
    exact List.append_cancel_left happend
  have hrun := h.eatWhile_matches hpq
  rw [hdrop]
  simpa [hx] using hrun

/-! ## One token -/

/-- Looking one byte ahead is looking one character ahead. -/
theorem composite?_peek (h : c.Between passed (x :: left)) :
    Byte.composite? (Byte.first x) c.peek =
      if left.head? = some '=' then Lexeme.fixedKind? (String.ofList [x, '=']) else none := by
  by_cases hx : x.toNat < 128
  · rw [h.peek_of_ascii hx, Byte.composite?_first]
  · -- The byte ahead belongs to `x` itself here, but `x` starts no operator.
    have hnone : Lexeme.fixedKind? (String.ofList [x, '=']) = none :=
      Lexeme.fixedKind?_of_high (Nat.le_of_not_lt hx)
    simp only [Byte.composite?, Byte.withEquals?_first, hnone, ite_self]

theorem reachesFirst_word (h : c.Between passed (x :: left)) :
    Lexeme.isWordStart x = true → c.ReachesFirst passed x left := by
  intro hword
  have hreach : c.reach (Byte.first x) = (c.eatWhile Byte.isWord, wordKind) := by
    rw [Cursor.reach, Byte.matches_isWordStart.first, if_pos hword]
  refine ⟨?_, ?_⟩
  · rw [hreach, after, more_of_isWordStart left hword]
    exact h.eatWhile_cons Byte.matches_isWord (by simp [Lexeme.isWord, hword])
  · rw [hreach]
    exact (kindOf_of_isWordStart _ hword).symm

theorem reachesFirst_number (h : c.Between passed (x :: left)) :
    x.isDigit = true → c.ReachesFirst passed x left := by
  intro hdigit
  have hreach : c.reach (Byte.first x) = (c.eatWhile Byte.isDigit, fun _ => .int) := by
    rw [Cursor.reach, Byte.matches_isWordStart.first, Byte.matches_isDigit.first,
      if_neg (by simp [Lexeme.isWordStart_of_isDigit hdigit]), if_pos hdigit]
  refine ⟨?_, ?_⟩
  · rw [hreach, after, more_of_isDigit left hdigit]
    exact h.eatWhile_cons Byte.matches_isDigit hdigit
  · rw [hreach]
    exact (kindOf_of_isDigit _ hdigit).symm

/-- A joiner takes the equals sign after it, as the second of two steps. -/
theorem reachesFirst_joined (h : c.Between passed (x :: '=' :: left)) :
    Lexeme.isWordStart x = false → x.isDigit = false → x ∈ Lexeme.joiners →
      c.ReachesFirst passed x ('=' :: left) := by
  intro hword hdigit hjoiner
  rcases Option.isSome_iff_exists.1 (Lexeme.isSome_fixedKind?_joined_iff.2 hjoiner) with ⟨k, hk⟩
  have hmore : more x ('=' :: left) = ['='] := by
    rw [more_of_not_run _ hword hdigit, if_pos ⟨hjoiner, rfl⟩]
  have hreach : c.reach (Byte.first x) = (c.advance.advanceChar, fun _ => k) := by
    rw [Cursor.reach, Byte.matches_isWordStart.first, Byte.matches_isDigit.first,
      if_neg (by simp [hword]), if_neg (by simp [hdigit]), h.composite?_peek,
      if_pos (by rfl), hk]
  refine ⟨?_, ?_⟩
  · -- One byte for the joiner, then one character for the equals sign.
    have hend := (h.advance_of_ascii (Lexeme.ascii_of_fixedKind? hk)).advanceChar
    rw [hreach, after, hmore]
    simpa using hend
  · rw [hreach]
    simp only [firstToken, hmore, kindOf_of_not_run _ hword hdigit, hk, Option.getD_some]

theorem reachesFirst_single (h : c.Between passed (x :: left)) :
    Lexeme.isWordStart x = false → x.isDigit = false →
      ¬ (x ∈ Lexeme.joiners ∧ left.head? = some '=') → c.ReachesFirst passed x left := by
  intro hword hdigit hjoined
  have hmore : more x left = [] := by
    rw [more_of_not_run _ hword hdigit, if_neg hjoined]
  -- Either no equals sign follows, or `x` joins with none.
  have hcomposite : Byte.composite? (Byte.first x) c.peek = none := by
    rw [h.composite?_peek]
    split
    case isTrue hhead =>
        rw [← Option.not_isSome_iff_eq_none, Lexeme.isSome_fixedKind?_joined_iff]
        exact fun hjoiner => hjoined ⟨hjoiner, hhead⟩
    case isFalse => rfl
  have hreach : c.reach (Byte.first x) =
      (c.advanceChar, fun _ => Byte.single (Byte.first x)) := by
    rw [Cursor.reach, Byte.matches_isWordStart.first, Byte.matches_isDigit.first,
      if_neg (by simp [hword]), if_neg (by simp [hdigit]), hcomposite]
  refine ⟨?_, ?_⟩
  · rw [hreach, after, hmore]
    exact h.advanceChar
  · rw [hreach]
    simp only [firstToken, hmore, kindOf_of_not_run _ hword hdigit, Byte.single_first]

theorem reachesFirst (h : c.Between passed (x :: left)) : c.ReachesFirst passed x left := by
  -- One case for each path of `reach`.
  by_cases hword : Lexeme.isWordStart x = true
  · exact h.reachesFirst_word hword
  · by_cases hdigit : x.isDigit = true
    · exact h.reachesFirst_number hdigit
    · have hword' : Lexeme.isWordStart x = false := by simpa using hword
      have hdigit' : x.isDigit = false := by simpa using hdigit
      by_cases hjoined : x ∈ Lexeme.joiners ∧ left.head? = some '='
      · cases left with
        | nil => cases hjoined.2
        | cons y left =>
            obtain rfl := Option.some.inj hjoined.2
            exact h.reachesFirst_joined hword' hdigit' hjoined.1
      · exact h.reachesFirst_single hword' hdigit' hjoined

/-- One scan reads the first token. -/
theorem scan_cons (h : c.Between passed (x :: left)) :
    ∃ stop, c.scan = .ok (firstToken x left, stop) ∧
      stop.Between (passed ++ x :: more x left) (after x left) := by
  rcases h.reachesFirst with ⟨hstop, hkind⟩
  have htext := hstop.sliceFrom
  rw [← h.pos_eq] at htext
  refine ⟨(c.reach (Byte.first x)).1, ?_, hstop⟩
  unfold Cursor.scan
  rw [h.current_cons]
  -- The kind is found from the text that is cut, which is that of the first token.
  have htoken : (⟨(c.reach (Byte.first x)).2 (firstToken x left).text,
      (firstToken x left).text⟩ : Token) = firstToken x left := by
    rw [hkind]
  simp only [htext, Except.map]
  exact congrArg (fun t => Except.ok (t, _)) htoken

theorem scan_nil (h : c.Between passed []) : c.scan = .ok (.eof, c) := by
  unfold Cursor.scan
  rw [h.current_nil]

end Between

end Cursor

/-! ## One step of a scanner -/

namespace Scanner

variable {s : Scanner} {passed left : List Char} {x : Char}

/-- The scanner stands between the characters `passed` and the characters `left`. -/
abbrev Between (s : Scanner) (passed left : List Char) : Prop :=
  s.cursor.Between passed left

theorem between_ofSource (source : Source) : (ofSource source).Between [] source.toList :=
  Cursor.Between.ofSource source

theorem between_start (h : s.Between passed left) :
    s.start.Between (passed ++ left.takeWhile Lexeme.isBlank) (left.dropWhile Lexeme.isBlank) :=
  h.eatWhile_matches Byte.matches_isBlank

theorem step_of_nil (h : s.start.Between passed []) :
    s.step.token = .eof ∧ s.step.rest.cursor = s.start := by
  have hscan := s.scan_start
  rw [h.scan_nil] at hscan
  rcases Prod.mk.inj (Except.ok.inj hscan) with ⟨htoken, hrest⟩
  exact ⟨htoken.symm, hrest.symm⟩

theorem step_of_cons (h : s.start.Between passed (x :: left)) :
    s.step.token = firstToken x left ∧
      s.step.rest.Between (passed ++ x :: more x left) (after x left) := by
  rcases h.scan_cons with ⟨stop, hstop, hbetween⟩
  have hscan := s.scan_start
  rw [hstop] at hscan
  rcases Prod.mk.inj (Except.ok.inj hscan) with ⟨htoken, hrest⟩
  refine ⟨htoken.symm, ?_⟩
  rw [Between, ← hrest]
  exact hbetween

/-! ## A whole run -/

theorem stream_of_start_nil (h : s.start.Between passed []) :
    s.stream = tokens (width passed) [] := by
  rcases step_of_nil h with ⟨htoken, hrest⟩
  have hspan : s.step.span = .point (width passed) := by
    rw [span_step, pos, hrest, h.pos_eq, Span.point]
  rw [stream_of_isEof (by rw [htoken]; rfl), tokens_nil, Located.eof, ← htoken, ← hspan]

theorem stream_of_start_cons (h : s.start.Between passed (x :: left)) :
    s.stream =
      ⟨firstToken x left, ⟨width passed, width passed + width (x :: more x left)⟩⟩ ::
        s.step.rest.stream := by
  rcases step_of_cons h with ⟨htoken, hrest⟩
  have hspan : s.step.span = ⟨width passed, width passed + width (x :: more x left)⟩ := by
    rw [span_step, pos, hrest.pos_eq, h.pos_eq, width_append]
  rw [stream_of_not_isEof (by rw [htoken, isEof_firstToken]), ← htoken, ← hspan]

/-- From any place between two characters, the stream is the reading of the characters left. -/
theorem stream_eq_tokens :
    s.Between passed left → s.stream = tokens (width passed) left := by
  induction hn : left.length using Nat.strongRecOn generalizing s passed left with
  | ind n ih =>
      intro h
      have hstart := between_start h
      rw [tokens_skip, ← width_append]
      cases hleft : left.dropWhile Lexeme.isBlank with
      | nil =>
          rw [hleft] at hstart
          exact stream_of_start_nil hstart
      | cons x rest =>
          rw [hleft] at hstart
          rcases step_of_cons hstart with ⟨htoken, hrest⟩
          -- The token takes at least `x`, so fewer characters are left.
          have hshort : (after x rest).length < n := by
            have h1 := length_after_le x rest
            have h2 := (List.dropWhile_sublist Lexeme.isBlank (l := left)).length_le
            rw [hleft, List.length_cons] at h2
            omega
          rw [stream_of_start_cons hstart, ih _ hshort rfl hrest,
            tokens_of_not_blank _ _ (isBlank_of_dropWhile_eq_cons hleft), ← width_append]

theorem stream_ofSource (source : Source) :
    (ofSource source).stream = tokens 0 source.toList :=
  stream_eq_tokens (between_ofSource source)

/-- The stream of a source, by bytes, is its reading, by characters. -/
theorem stream_eq_reading (source : Source) : (ofSource source).stream = reading source :=
  stream_eq_tokens (between_ofSource source)

end Scanner

theorem tokenize_eq_map_reading (source : Source) :
    tokenize source = (reading source).map (·.token) := by
  rw [tokenize_eq_map_stream, Scanner.stream_eq_tokens (Scanner.between_ofSource source)]
  rfl

end MonkeyTokens
