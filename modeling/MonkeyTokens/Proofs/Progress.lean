import MonkeyTokens.Proofs.Partition
import MonkeyTokens.Proofs.Steps
import MonkeyTokens.Scan.Call

/-!
# Progress — all ways to read a source go along one list of tokens

A caller may read single tokens, skip some, take some, count them or collect the rest, in any order. The
answers are those of a place in the list of tokens of the source: how many of them have been read. No token
is read twice, none is lost, and after the last one there is nothing but the end mark. `Progress.perform` says
this without a scanner; `Stands` relates a scanner to its place in the list. Main statements:

- `Stands.toLocated_step` and `Stands.step`: a step reads the token at the place of the scanner, and goes one
  place further;
- `Stands.reaches_perform`: each call answers as the list does, and goes to the place that the list says;
- `performAll_eq_index`: so do calls in any number and order, from the start of a source.
-/

namespace MonkeyTokens

/-! ## Places in a list of tokens -/

/-- How far a reader has come: how many tokens it has read, and whether it has met the end. -/
structure Progress where
  index : Nat
  ended : Bool
  deriving DecidableEq, Repr

namespace Progress

open Scanner (Call Answer)

variable (source : Source)

def start : Progress :=
  ⟨0, false⟩

def finish : Progress :=
  ⟨(items source).length, true⟩

/-- After asking for `k` more tokens. The end is met if there are fewer. -/
def advance (k : Nat) (p : Progress) : Progress :=
  ⟨min (p.index + k) (items source).length, p.ended || decide ((items source).length < p.index + k)⟩

/-- The next token with its span, or the end mark. -/
def item (p : Progress) : Located :=
  (items source)[p.index]?.getD (.eof source.size)

/-- The position in the source: the end of it if the end has been met, else the end of the last token
that has been read. -/
def pos (p : Progress) : Nat :=
  if p.ended then source.size else ((items source).take p.index).getLast?.elim 0 (·.span.stop)

/-- The answer to a request and the progress after it, by the list of tokens. -/
def perform (p : Progress) : Call → Answer × Progress
  | .token => (.token (p.item source).token, p.advance source 1)
  | .located => (.located (p.item source).token (p.item source).span, p.advance source 1)
  | .next => (.item ((items source)[p.index]?.map (·.token)), p.advance source 1)
  | .nth k => (.item ((items source)[p.index + k]?.map (·.token)), p.advance source (k + 1))
  | .take k => (.items ((((items source).drop p.index).take k).map (·.token)), p.advance source k)
  | .collect => (.items (((items source).drop p.index).map (·.token)), finish source)
  | .count => (.number ((items source).length - p.index), finish source)
  | .last =>
      (.item (if p.index < (items source).length then (items source).getLast?.map (·.token) else none),
        finish source)
  | .pos => (.number (p.pos source), p)
  | .isFinished => (.flag (p.index == (items source).length), p)

def performAll : List Call → Progress → List Answer × Progress
  | [], p => ([], p)
  | call :: calls, p =>
      let (answer, rest) := p.perform source call
      let (answers, last) := performAll calls rest
      (answer :: answers, last)

variable {source} {p : Progress}

/-! ## Asking for tokens -/

/-- The end mark is met after all tokens, and not before. -/
theorem isEof_item : (p.item source).token.isEof = (items source)[p.index]?.isNone := by
  rw [item]
  cases hx : (items source)[p.index]? with
  | none => rfl
  | some x => exact (stream_eq_items source).2 x (List.mem_of_getElem? hx)

theorem advance_of_le {k : Nat} :
    p.index + k ≤ (items source).length → p.advance source k = ⟨p.index + k, p.ended⟩ := by
  intro h
  simp [advance, Nat.min_eq_left h, Nat.not_lt.2 h]

theorem advance_of_lt {k : Nat} :
    (items source).length < p.index + k → p.advance source k = finish source := by
  intro h
  simp [advance, finish, Nat.min_eq_right (Nat.le_of_lt h), h]

theorem advance_succ_of_none {k : Nat} :
    (items source)[p.index]? = none → p.advance source (k + 1) = finish source := by
  intro h
  have hle := List.getElem?_eq_none_iff.1 h
  exact advance_of_lt (by omega)

theorem advance_one_of_some {x : Located} :
    (items source)[p.index]? = some x → p.advance source 1 = ⟨p.index + 1, p.ended⟩ :=
  fun h => advance_of_le (List.getElem?_eq_some_iff.1 h).1

theorem advance_zero : p.index ≤ (items source).length → p.advance source 0 = p :=
  fun h => advance_of_le h

/-- Asking twice is asking once for both. -/
theorem advance_advance (j k : Nat) :
    (p.advance source j).advance source k = p.advance source (j + k) := by
  rcases Nat.lt_or_ge (items source).length (p.index + j) with hlt | hle
  · have hlt' : (items source).length < p.index + (j + k) := by omega
    rw [advance_of_lt hlt, advance_of_lt hlt']
    simp [advance, finish]
  · rw [advance_of_le hle]
    simp only [advance, Nat.add_assoc]

end Progress

/-! ## Scanners and their places -/

namespace Scanner

theorem head?_stream (s : Scanner) : s.stream.head? = some s.step.toLocated := by
  cases heof : s.step.token.isEof with
  | true => simp [stream_of_isEof heof]
  | false => simp [stream_of_not_isEof heof]

/-- The scanner has read as much of the source as `p` says, and the rest is before it. -/
structure Stands (s : Scanner) (source : Source) (p : Progress) : Prop where
  within : s.Within source
  index_le : p.index ≤ (items source).length
  index_eq : p.ended = true → p.index = (items source).length
  stream_eq : s.stream = (items source).drop p.index ++ [.eof source.size]
  pos_eq : s.pos = p.pos source

namespace Stands

variable {s : Scanner} {source : Source} {p : Progress}

theorem ofSource (source : Source) : (Scanner.ofSource source).Stands source .start where
  within := .ofSource source
  index_le := Nat.zero_le _
  index_eq := by simp [Progress.start]
  stream_eq := (stream_eq_items source).1
  pos_eq := by simp [Progress.pos, Progress.start, pos, Scanner.ofSource]

/-! ## One step -/

/-- A step reads the token at the place of the scanner, or the end mark after all tokens. -/
theorem toLocated_step (h : s.Stands source p) : s.step.toLocated = p.item source := by
  have hhead := head?_stream s
  rw [h.stream_eq, List.head?_append, List.head?_drop] at hhead
  cases hx : (items source)[p.index]? <;> simpa [Progress.item, hx, eq_comm] using hhead

theorem token_step (h : s.Stands source p) : s.step.token = (p.item source).token :=
  congrArg Located.token h.toLocated_step

theorem isEof_step (h : s.Stands source p) :
    s.step.token.isEof = (items source)[p.index]?.isNone := by
  rw [h.token_step, Progress.isEof_item]

/-- A scanner is finished exactly when it stands after all tokens. -/
theorem isFinished_eq (h : s.Stands source p) :
    s.isFinished = (p.index == (items source).length) := by
  have hle := h.index_le
  rw [h.within.isFinished_eq, h.isEof_step, Bool.eq_iff_iff]
  simp only [Option.isNone_iff_eq_none, List.getElem?_eq_none_iff, beq_iff_eq]
  omega

theorem item?_step (h : s.Stands source p) :
    s.step.item? = (items source)[p.index]?.map (·.token) := by
  rw [Step.item?, h.isEof_step, h.token_step, Progress.item]
  cases (items source)[p.index]? <;> rfl

/-- After a step the scanner stands one place further. -/
theorem step (h : s.Stands source p) : s.step.rest.Stands source (p.advance source 1) := by
  have hstop : s.step.rest.pos = (p.item source).span.stop :=
    congrArg (fun x => x.span.stop) h.toLocated_step
  have hstream := h.stream_eq
  cases hx : (items source)[p.index]? with
  | some x =>
      have hlt := (List.getElem?_eq_some_iff.1 hx).1
      -- The end has not been met, since there is a token left.
      have hended : p.ended = false := by
        cases hended : p.ended with
        | false => rfl
        | true => exact absurd (h.index_eq hended) (Nat.ne_of_lt hlt)
      have heof : s.step.token.isEof = false := by rw [h.isEof_step, hx]; rfl
      rw [stream_of_not_isEof heof, List.drop_eq_getElem_cons hlt, List.cons_append] at hstream
      rw [Progress.advance_one_of_some hx]
      refine ⟨h.within.step.1, hlt, by simp [hended], (List.cons.inj hstream).2, ?_⟩
      rw [hstop]
      simp [Progress.item, Progress.pos, hended, List.getLast?_take, hx]
  | none =>
      have heof : s.step.token.isEof = true := by rw [h.isEof_step, hx]; rfl
      rw [Progress.advance_succ_of_none hx]
      refine ⟨h.within.step.1, Nat.le_refl _, fun _ => rfl, ?_, ?_⟩
      · simp [(h.within.step_of_isEof heof).2, Progress.finish]
      · rw [hstop]
        simp [Progress.item, Progress.pos, Progress.finish, hx, Located.eof, Span.point]

end Stands

/-! ## Work that reads -/

variable {α β : Type} {s : Scanner} {source : Source} {p q : Progress}

/-- The work yields `a` and a scanner that stands at `q`, whatever the log holds. -/
def Reaches (source : Source) (x : Logged (α × Scanner)) (a : α) (q : Progress) : Prop :=
  ∃ last es, x.Yields (a, last) es ∧ last.Stands source q

namespace Reaches

theorem pure {a : α} : s.Stands source p → Reaches source (pure (a, s)) a p :=
  fun h => ⟨s, [], Logged.Yields.pure _, h⟩

theorem bind {x : Logged (α × Scanner)} {f : α × Scanner → Logged (β × Scanner)} {a : α} {b : β}
    (h : Reaches source x a p)
    (hf : ∀ rest, rest.Stands source p → Reaches source (f (a, rest)) b q) :
    Reaches source (x >>= f) b q := by
  rcases h with ⟨rest, es, hx, hrest⟩
  rcases hf rest hrest with ⟨last, fs, hy, hlast⟩
  exact ⟨last, es ++ fs, hx.bind hy, hlast⟩

/-- The result of the work, without its reports. -/
theorem result {x : Logged (α × Scanner)} {a : α} :
    Reaches source x a p → x.result.1 = a ∧ x.result.2.Stands source p := by
  rintro ⟨last, es, hx, hlast⟩
  rw [hx.result_eq]
  exact ⟨rfl, hlast⟩

/-- A step is made before what is made of it. -/
theorem of_read {f : s.Step → Logged (α × Scanner)} {a : α} :
    Reaches source (f s.step) a q → Reaches source (s.read >>= f) a q := by
  rintro ⟨last, es, hf, hlast⟩
  exact ⟨last, _, yields_read_bind hf, hlast⟩

end Reaches

/-! ## Items -/

namespace Stands

theorem reaches_next (h : s.Stands source p) :
    Reaches source s.next ((items source)[p.index]?.map (·.token)) (p.advance source 1) := by
  rw [← h.item?_step]
  exact .of_read (.pure h.step)

theorem reaches_nth (k : Nat) (h : s.Stands source p) :
    Reaches source (s.nth k) ((items source)[p.index + k]?.map (·.token))
      (p.advance source (k + 1)) := by
  induction k generalizing s p with
  | zero => exact h.reaches_next
  | succ k ih =>
      refine h.reaches_next.bind fun rest hrest => ?_
      cases hx : (items source)[p.index]? with
      | none =>
          have hle := List.getElem?_eq_none_iff.1 hx
          have hnone : (items source)[p.index + (k + 1)]? = none :=
            List.getElem?_eq_none (by omega)
          rw [Progress.advance_succ_of_none hx] at hrest
          rw [hnone, Progress.advance_succ_of_none hx]
          exact .pure hrest
      | some x =>
          have hmore := ih hrest
          rw [Progress.advance_advance, Progress.advance_one_of_some hx] at hmore
          simpa [Nat.add_comm, Nat.add_left_comm] using hmore

/-- Nothing is read for `k = 0`, and nothing after the end mark. -/
theorem reaches_take (k : Nat) (h : s.Stands source p) :
    Reaches source (s.take k) ((((items source).drop p.index).take k).map (·.token))
      (p.advance source k) := by
  induction k generalizing s p with
  | zero =>
      rw [Progress.advance_zero h.index_le]
      exact .pure h
  | succ k ih =>
      refine h.reaches_next.bind fun rest hrest => ?_
      cases hx : (items source)[p.index]? with
      | none =>
          rw [Progress.advance_succ_of_none hx] at hrest
          rw [List.drop_eq_nil_of_le (List.getElem?_eq_none_iff.1 hx),
            Progress.advance_succ_of_none hx]
          exact .pure hrest
      | some x =>
          rcases List.getElem?_eq_some_iff.1 hx with ⟨hlt, rfl⟩
          have hmore := ih hrest
          rw [Progress.advance_advance, Progress.advance_one_of_some hx, Nat.add_comm 1 k] at hmore
          rw [List.drop_eq_getElem_cons hlt]
          exact hmore.bind fun last hlast => .pure hlast

theorem reaches_drain (h : s.Stands source p) :
    Reaches source s.drain (((items source).drop p.index).map (·.token)) (.finish source) := by
  induction s using rest_induction generalizing p with
  | step s ih =>
      have heof := h.isEof_step
      have htoken := h.token_step
      have hrest := h.step
      cases hx : (items source)[p.index]? with
      | none =>
          rw [hx] at heof
          rw [Progress.advance_succ_of_none hx] at hrest
          rw [List.drop_eq_nil_of_le (List.getElem?_eq_none_iff.1 hx)]
          exact ⟨s.step.rest, _, yields_drain_of_isEof heof, hrest⟩
      | some x =>
          rcases List.getElem?_eq_some_iff.1 hx with ⟨hlt, rfl⟩
          rw [hx] at heof
          rw [Progress.item, hx] at htoken
          rw [Progress.advance_one_of_some hx] at hrest
          rcases ih heof hrest with ⟨last, es, hmore, hlast⟩
          rw [List.drop_eq_getElem_cons hlt, List.map_cons]
          have hall := yields_drain_of_not_isEof heof hmore
          rw [htoken] at hall
          exact ⟨last, _, hall, hlast⟩

/-! ## Calls -/

/-- Each call answers as the list of tokens does, and goes to the place that the list says. -/
theorem reaches_perform (call : Call) (h : s.Stands source p) :
    Reaches source (s.perform call) (p.perform source call).1 (p.perform source call).2 := by
  cases call with
  | token =>
      simp only [Progress.perform, ← h.toLocated_step]
      exact .of_read (.pure h.step)
  | located =>
      simp only [Progress.perform, ← h.toLocated_step]
      exact .of_read (.pure h.step)
  | next => exact h.reaches_next.bind fun rest hrest => .pure hrest
  | nth k => exact (h.reaches_nth k).bind fun rest hrest => .pure hrest
  | take k => exact (h.reaches_take k).bind fun rest hrest => .pure hrest
  | collect => exact h.reaches_drain.bind fun rest hrest => .pure hrest
  | count =>
      refine h.reaches_drain.bind fun rest hrest => ?_
      simpa [Progress.perform] using Reaches.pure hrest
  | last =>
      refine h.reaches_drain.bind fun rest hrest => ?_
      -- The last token of the rest is the last one of all, if there is a rest.
      have hlast : (((items source).drop p.index).map (·.token)).getLast? =
          if p.index < (items source).length then (items source).getLast?.map (·.token) else none := by
        rw [List.getLast?_map, List.getLast?_drop]
        rcases Nat.lt_or_ge p.index (items source).length with hlt | hle
        · simp [hlt, Nat.not_le.2 hlt]
        · simp [hle, Nat.not_lt.2 hle]
      simp only [Progress.perform, hlast]
      exact .pure hrest
  | pos =>
      simp only [Progress.perform, ← h.pos_eq]
      exact .pure h
  | isFinished =>
      simp only [Progress.perform, ← h.isFinished_eq]
      exact .pure h

theorem reaches_performAll (calls : List Call) (h : s.Stands source p) :
    Reaches source (s.performAll calls) (Progress.performAll source calls p).1
      (Progress.performAll source calls p).2 := by
  induction calls generalizing s p with
  | nil => exact .pure h
  | cons call calls ih =>
      refine (h.reaches_perform call).bind fun rest hrest => ?_
      exact (ih hrest).bind fun last hlast => .pure hlast

/-- After any calls, a scanner stands where the list of tokens says. -/
theorem afterCalls (source : Source) (calls : List Call) :
    (Scanner.afterCalls source calls).Stands source (Progress.performAll source calls .start).2 :=
  ((Stands.ofSource source).reaches_performAll calls).result.2

end Stands

end Scanner

/-! ## Whole sources -/

/-- Any calls on a scanner of a source answer as an index into its list of tokens does. After them the
scanner is finished exactly when the index is at the end of the list, and its position is the end of the
source or the end of the last token that has been read. -/
theorem performAll_eq_index (source : Source) (calls : List Scanner.Call) :
    tokenize source = (items source).map (·.token) ++ [.eof] ∧
      ∃ s : Scanner,
        ((Scanner.ofSource source).performAll calls).result =
            ((Progress.performAll source calls .start).1, s) ∧
          s.isFinished =
            ((Progress.performAll source calls .start).2.index == (items source).length) ∧
          s.pos = (Progress.performAll source calls .start).2.pos source := by
  refine ⟨?_, ?_⟩
  · simp [tokenize_eq_map_stream, (stream_eq_items source).1, Located.eof]
  · rcases (Scanner.Stands.ofSource source).reaches_performAll calls with ⟨s, es, hrun, hs⟩
    exact ⟨s, hrun.result_eq, hs.isFinished_eq, hs.pos_eq⟩

end MonkeyTokens
