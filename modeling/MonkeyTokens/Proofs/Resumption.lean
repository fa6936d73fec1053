import MonkeyTokens.Proofs.Progress

/-!
# Resumption — a scanner remembers nothing but its position

What a scanner reads next depends on the characters that are left, and on nothing that it has read before.
`Ahead` relates two scanners, of two sources, that have the same characters left. A step of both reads the
same token and relates them again, so all further steps do. In particular, a scanner that has stopped
anywhere goes on as a fresh scanner of the rest of its source does, further on by its position. Main
statements:

- `Ahead.step`, `Ahead.isFinished_eq`: one step of both scanners;
- `Ahead.readTimes`: any number of steps;
- `readTimes_afterCalls`: a scanner that has stopped, and a fresh one.
-/

namespace MonkeyTokens

open Reading

namespace Scanner

variable {s t : Scanner} {k : Nat}

/-! ## Two scanners with the same rest -/

/-- The scanners have the same characters left, and `s` stands `k` bytes further on in its source than `t`
stands in its own. -/
inductive Ahead (k : Nat) (s t : Scanner) : Prop where
  | intro {passed seen left : List Char} (first : s.Between passed left)
      (second : t.Between seen left) (offset : s.pos = t.pos + k)

namespace Between

variable {passed left : List Char}

/-- A fresh scanner of the characters that are left has the same rest. -/
theorem ahead (h : s.Between passed left) :
    Ahead s.pos s (ofSource (String.ofList left)) := by
  have hfresh := between_ofSource (String.ofList left)
  rw [String.toList_ofList] at hfresh
  exact ⟨h, hfresh, by simp [pos, ofSource]⟩

/-- The source from the scanner on is the text of the characters that are left. -/
theorem slice?_pos_size (h : s.Between passed left) :
    s.source.slice? s.pos s.source.size = some (String.ofList left) :=
  Cursor.Between.slice?_pos_size h

end Between

namespace Ahead

/-- The blanks that the scanners skip are the same, too. -/
theorem start_cases (h : Ahead k s t) :
    s.start.pos = t.start.pos + k ∧
      ((∃ passed seen, s.start.Between passed [] ∧ t.start.Between seen []) ∨
        ∃ passed seen x left, s.start.Between passed (x :: left) ∧
          t.start.Between seen (x :: left)) := by
  rcases h with @⟨passed, seen, left, hs, ht, hoffset⟩
  have hs' := between_start hs
  have ht' := between_start ht
  refine ⟨?_, ?_⟩
  · have hs0 : s.pos = width passed := hs.pos_eq
    have ht0 : t.pos = width seen := ht.pos_eq
    rw [hs'.pos_eq, ht'.pos_eq, width_append, width_append]
    omega
  · cases hleft : left.dropWhile Lexeme.isBlank with
    | nil =>
        rw [hleft] at hs' ht'
        exact .inl ⟨_, _, hs', ht'⟩
    | cons x rest =>
        rw [hleft] at hs' ht'
        exact .inr ⟨_, _, x, rest, hs', ht'⟩

/-- The end of a step is as far on as its start. -/
theorem toLocated_step (hstart : s.start.pos = t.start.pos + k)
    (htoken : s.step.token = t.step.token) (hrest : s.step.rest.pos = t.step.rest.pos + k) :
    s.step.toLocated = t.step.toLocated.shift k := by
  calc
    s.step.toLocated = ⟨s.step.token, ⟨s.start.pos, s.step.rest.pos⟩⟩ := rfl
    _ = ⟨t.step.token, ⟨t.start.pos + k, t.step.rest.pos + k⟩⟩ := by rw [htoken, hstart, hrest]
    _ = t.step.toLocated.shift k := rfl

/-- A step of both scanners reads the same token, and leaves them with the same rest. -/
theorem step (h : Ahead k s t) :
    s.step.toLocated = t.step.toLocated.shift k ∧ Ahead k s.step.rest t.step.rest := by
  rcases h.start_cases with ⟨hstart, ⟨passed, seen, hs, ht⟩ | ⟨passed, seen, x, left, hs, ht⟩⟩
  · -- Both read the end mark, and stay where they are.
    rcases step_of_nil hs with ⟨hsToken, hsRest⟩
    rcases step_of_nil ht with ⟨htToken, htRest⟩
    have hrest : s.step.rest.pos = t.step.rest.pos + k := by
      simpa only [pos, hsRest, htRest] using hstart
    rw [← hsRest] at hs
    rw [← htRest] at ht
    exact ⟨toLocated_step hstart (hsToken.trans htToken.symm) hrest, hs, ht, hrest⟩
  · -- Both read the token that starts with `x`.
    rcases step_of_cons hs with ⟨hsToken, hsRest⟩
    rcases step_of_cons ht with ⟨htToken, htRest⟩
    have hrest : s.step.rest.pos = t.step.rest.pos + k := by
      have hsPos : s.step.rest.pos = width (passed ++ x :: more x left) := hsRest.pos_eq
      have htPos : t.step.rest.pos = width (seen ++ x :: more x left) := htRest.pos_eq
      rw [hs.pos_eq, ht.pos_eq] at hstart
      rw [hsPos, htPos, width_append, width_append]
      omega
    exact ⟨toLocated_step hstart (hsToken.trans htToken.symm) hrest, hsRest, htRest, hrest⟩

theorem isFinished_eq (h : Ahead k s t) : s.isFinished = t.isFinished := by
  rcases h.start_cases with ⟨_, ⟨passed, seen, hs, ht⟩ | ⟨passed, seen, x, left, hs, ht⟩⟩
  · simp [isFinished, Cursor.isAtEnd, hs.current_nil, ht.current_nil]
  · simp [isFinished, Cursor.isAtEnd, hs.current_cons, ht.current_cons]

/-! ## Any number of steps -/

/-- However often both scanners read, they read the same tokens, and have the same rest in the end. -/
theorem readTimes (n : Nat) (h : Ahead k s t) :
    (s.readTimes n).result.1 = (t.readTimes n).result.1.map (·.shift k) ∧
      Ahead k (s.readTimes n).result.2 (t.readTimes n).result.2 := by
  induction n generalizing s t with
  | zero => exact ⟨rfl, h⟩
  | succ n ih =>
      rcases h.step with ⟨hstep, hrest⟩
      rcases ih hrest with ⟨hmore, hlast⟩
      rw [result_readTimes_succ, result_readTimes_succ, List.map_cons, hstep, hmore]
      exact ⟨rfl, hlast⟩

end Ahead

/-! ## Stopping and going on -/

/-- Wherever calls have left a scanner, it stands between two characters, and goes on as a fresh scanner of
the rest of its source does: it reads the same tokens, further on by its position, end marks included, and
is finished when the other one is. -/
theorem readTimes_afterCalls (source : Source) (calls : List Call) :
    let s := afterCalls source calls
    source.IsBoundary s.pos ∧
      ∃ rest, source.slice? s.pos source.size = some rest ∧
        ∀ n,
          (s.readTimes n).result.1 =
              ((ofSource rest).readTimes n).result.1.map (·.shift s.pos) ∧
            (s.readTimes n).result.2.isFinished =
              ((ofSource rest).readTimes n).result.2.isFinished := by
  intro s
  have hwithin := (Stands.afterCalls source calls).within
  rcases hwithin.exists_between with ⟨passed, left, hs⟩
  have hslice := hs.slice?_pos_size
  rw [hwithin.source_eq] at hslice
  refine ⟨hwithin.boundary, String.ofList left, hslice, fun n => ?_⟩
  rcases hs.ahead.readTimes n with ⟨hread, hlast⟩
  exact ⟨hread, hlast.isFinished_eq⟩

end Scanner

end MonkeyTokens
