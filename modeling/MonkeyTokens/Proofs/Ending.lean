import MonkeyTokens.Proofs.Progress
import MonkeyTokens.Proofs.Runs

/-!
# Ending — the end of a source is met where only blanks are left, and for good

A scanner is finished as soon as nothing but blanks is before it. The next request for a token then meets the
end, and leaves the scanner in the one state that there is at the end of a source. In that state every call
has one answer, and changes nothing. Main statements:

- `Cursor.Placed.isAtEnd_eatWhile`: a run reaches the end exactly when all bytes that are left belong to it;
- `Progress.perform_of_meetsEnd`: whatever call meets the end, the progress after it is the same;
- `Progress.performAll_finish`: after the end, calls have fixed answers and make no progress;
- `end_is_exact_and_absorbing`: the same of scanners, wherever calls have left them.
-/

namespace MonkeyTokens

namespace Cursor

/-- The only place at the end of a source: on no byte, with nothing to read next. -/
def atEnd (source : Source) : Cursor :=
  ⟨source, source.size, source.size + 1, none⟩

theorem placed_atEnd (source : Source) : (atEnd source).Placed :=
  ⟨rfl, Nat.le_refl _, (Source.byteAt?_eq_none_iff.2 (Nat.le_refl _)).symm⟩

theorem Placed.eq_atEnd {c : Cursor} (h : c.Placed) :
    c.pos = c.source.size → c = atEnd c.source := by
  intro hpos
  exact h.eq_of_pos_eq (placed_atEnd _) rfl hpos

/-- A run reaches the end exactly when all bytes that are left belong to it. -/
theorem Placed.isAtEnd_eatWhile {c : Cursor} (h : c.Placed) (p : UInt8 → Bool) :
    (c.eatWhile p).isAtEnd = true ↔
      ∀ i b, c.pos ≤ i → c.source.byteAt? i = some b → p b = true := by
  rw [(h.eatWhile p).isAtEnd_iff, source_eatWhile]
  constructor
  · -- All bytes that are left are passed.
    intro hend i b hi hb
    have hlt := Source.isSome_byteAt?.1 (Option.isSome_of_eq_some hb)
    rw [← hend] at hlt
    rcases h.exists_byte_of_lt hi hlt with ⟨b', hb', hp⟩
    rw [Source.byteAt?_eq, hb'] at hb
    obtain rfl := Option.some.inj hb
    exact hp
  · -- No byte stops the run.
    intro hall
    rcases h.stopsRun_eatWhile with hend | ⟨b, hb, hp⟩
    · rw [hend, Source.length_bytes]
    · rw [← Source.byteAt?_eq] at hb
      have hpass := hall _ b (h.pos_le_pos_eatWhile p) hb
      exact absurd (hp.symm.trans hpass) Bool.false_ne_true

end Cursor

/-! ## Calls and the end -/

namespace Scanner.Call

open Scanner (Answer)

/-- The answer to the call shows that the end mark was read. -/
def meetsEnd : Call → Answer → Bool
  | .token, .token t => t.isEof
  | .located, .located t _ => t.isEof
  | .next, .item t => t.isNone
  | .nth _, .item t => t.isNone
  | .take k, .items ts => ts.length < k
  | .collect, _ => true
  | .count, _ => true
  | .last, _ => true
  | _, _ => false

/-- The answer to the call once the end mark has been read. -/
def answerAtEnd (source : Source) : Call → Answer
  | .token => .token .eof
  | .located => .located .eof (.point source.size)
  | .next => .item none
  | .nth _ => .item none
  | .take _ => .items []
  | .collect => .items []
  | .count => .number 0
  | .last => .item none
  | .pos => .number source.size
  | .isFinished => .flag true

end Scanner.Call

namespace Progress

open Scanner (Call)

variable {source : Source} {p : Progress}

/-- Whatever call meets the end, the progress after it is the same. -/
theorem perform_of_meetsEnd {call : Call} :
    call.meetsEnd (p.perform source call).1 = true → (p.perform source call).2 = finish source := by
  intro hmeets
  cases call with
  | token =>
      rw [perform, Call.meetsEnd, isEof_item, Option.isNone_iff_eq_none] at hmeets
      exact advance_succ_of_none hmeets
  | located =>
      rw [perform, Call.meetsEnd, isEof_item, Option.isNone_iff_eq_none] at hmeets
      exact advance_succ_of_none hmeets
  | next =>
      rw [perform, Call.meetsEnd, Option.isNone_map, Option.isNone_iff_eq_none] at hmeets
      exact advance_succ_of_none hmeets
  | nth k =>
      rw [perform, Call.meetsEnd, Option.isNone_map, Option.isNone_iff_eq_none,
        List.getElem?_eq_none_iff] at hmeets
      exact advance_of_lt (by omega)
  | take k =>
      have hfew : ((((items source).drop p.index).take k).map (·.token)).length < k := by
        simpa [perform, Call.meetsEnd] using hmeets
      rw [List.length_map, List.length_take, List.length_drop] at hfew
      exact advance_of_lt (by omega)
  | collect => rfl
  | count => rfl
  | last => rfl
  | pos => cases hmeets
  | isFinished => cases hmeets

/-! ## After the end -/

theorem index_finish : (finish source).index = (items source).length :=
  rfl

theorem advance_finish (k : Nat) : (finish source).advance source k = finish source := by
  simp [advance, finish]

theorem item_finish : (finish source).item source = .eof source.size := by
  simp [item, index_finish]

theorem pos_finish : (finish source).pos source = source.size :=
  rfl

theorem perform_finish (call : Call) :
    (finish source).perform source call = (call.answerAtEnd source, finish source) := by
  cases call <;>
    simp [perform, Call.answerAtEnd, Located.eof, index_finish, advance_finish, item_finish, pos_finish]

/-- After the end, calls have fixed answers and make no progress. -/
theorem performAll_finish (calls : List Call) :
    performAll source calls (finish source) = (calls.map (·.answerAtEnd source), finish source) := by
  induction calls with
  | nil => rfl
  | cons call calls ih => simp [performAll, perform_finish, ih]

/-- When all tokens have been read, they stay so, whether the end has been met or not. -/
theorem index_performAll (calls : List Call) :
    p.index = (items source).length →
      (performAll source calls p).2.index = (items source).length := by
  intro hindex
  induction calls generalizing p with
  | nil => exact hindex
  | cons call calls ih =>
      apply ih
      cases call <;> simp [advance, finish, hindex]

end Progress

/-! ## Scanners at the end -/

namespace Scanner

variable {s t : Scanner} {source : Source} {p : Progress}

namespace Stands

theorem cursor_of_finish (h : s.Stands source (.finish source)) : s.cursor = .atEnd source := by
  have hsource : s.cursor.source = source := h.within.source_eq
  have hpos : s.cursor.pos = source.size := h.pos_eq
  rw [s.placed.eq_atEnd (by rw [hpos, hsource]), hsource]

/-- The end of a source is one state. -/
theorem eq_of_finish (hs : s.Stands source (.finish source)) (ht : t.Stands source (.finish source)) :
    s = t := by
  rw [mk.injEq, hs.cursor_of_finish, ht.cursor_of_finish]

theorem perform_token_eq_iff (h : s.Stands source p) :
    (s.perform .token).result.1 = .token .eof ↔ s.isFinished = true := by
  rw [(h.reaches_perform .token).result.1, h.within.isFinished_eq, h.token_step]
  constructor
  · intro hanswer
    rw [Answer.token.inj hanswer]
    rfl
  · intro heof
    rw [Progress.isEof_item, Option.isNone_iff_eq_none] at heof
    rw [Progress.perform, Progress.item, heof]
    rfl

theorem isFinished_performAll (calls : List Call) (h : s.Stands source p) :
    s.isFinished = true → (s.performAll calls).result.2.isFinished = true := by
  rw [h.isFinished_eq, (h.reaches_performAll calls).result.2.isFinished_eq, beq_iff_eq, beq_iff_eq]
  exact Progress.index_performAll calls

theorem performAll_of_finish (calls : List Call) (h : s.Stands source (.finish source)) :
    (s.performAll calls).result = (calls.map (·.answerAtEnd source), s) := by
  have hall := (h.reaches_performAll calls).result
  rw [Progress.performAll_finish] at hall
  exact Prod.ext hall.1 (hall.2.eq_of_finish h)

end Stands

/-- Wherever calls have left a scanner, its next token is the end mark exactly when it is finished, and that
is when only blanks are left. Asking whether it is finished changes nothing, and a finished scanner stays
finished. After a call has met the end, the scanner is at the one place that there is at the end of the
source: each further call has its fixed answer there, and leaves the scanner as it is. -/
theorem end_is_exact_and_absorbing (source : Source) (calls : List Call) :
    let s := afterCalls source calls
    ((s.perform .token).result.1 = .token .eof ↔ s.isFinished = true) ∧
      (s.isFinished = true ↔
        ∀ i b, s.pos ≤ i → source.byteAt? i = some b → Byte.isBlank b = true) ∧
      (s.perform .isFinished).result = (.flag s.isFinished, s) ∧
      (s.isFinished = true → ∀ more, (s.performAll more).result.2.isFinished = true) ∧
      ∀ call : Call, call.meetsEnd (s.perform call).result.1 = true →
        let last := (s.perform call).result.2
        last.cursor = .atEnd source ∧
          ∀ more : List Call,
            (last.performAll more).result = (more.map (·.answerAtEnd source), last) := by
  intro s
  have hs : s.Stands source _ := .afterCalls source calls
  refine ⟨hs.perform_token_eq_iff, ?_, rfl, fun hfinished more => hs.isFinished_performAll more hfinished,
    fun call hmeets => ?_⟩
  · have hblank := s.placed.isAtEnd_eatWhile Byte.isBlank
    rw [show s.cursor.source = source from hs.within.source_eq] at hblank
    exact hblank
  · rcases (hs.reaches_perform call).result with ⟨hanswer, hlast⟩
    rw [hanswer] at hmeets
    rw [Progress.perform_of_meetsEnd hmeets] at hlast
    exact ⟨hlast.cursor_of_finish, fun more => hlast.performAll_of_finish more⟩

/-- The scanner stands before two blanks, which it has not read when it is finished already. -/
theorem end_is_exact_and_absorbing_sample :
    let s := afterCalls "x \n" [.token]
    s.pos = 1 ∧ s.isFinished = true ∧ (s.perform .token).result.1 = .token .eof ∧
      (∀ more, (s.performAll more).result.2.isFinished = true) ∧
      (s.perform .next).result.2.cursor = .atEnd "x \n" ∧
      ((s.perform .next).result.2.performAll [.located, .last]).result.1 =
        [.located .eof (.point 3), .item none] := by
  intro s
  have hpos : s.pos = 1 := by decide +kernel
  have hfinished : s.isFinished = true := by decide +kernel
  have hmeets : Call.next.meetsEnd (s.perform .next).result.1 = true := by decide +kernel
  rcases end_is_exact_and_absorbing "x \n" [.token] with ⟨htoken, _, _, hstays, hmet⟩
  rcases hmet .next hmeets with ⟨hcursor, hall⟩
  exact ⟨hpos, hfinished, htoken.2 hfinished, hstays hfinished, hcursor,
    congrArg Prod.fst (hall [.located, .last])⟩

end Scanner

end MonkeyTokens
