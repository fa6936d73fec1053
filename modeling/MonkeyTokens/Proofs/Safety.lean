import MonkeyTokens.Proofs.Guarded

/-!
# Safety — guarded readers never fail

A session has any number of scanners over one source, copies of each other included, and serves requests to
them in any order. `Agree` relates a guarded computation to the one without guards; it goes through
sequencing, so calls follow from steps, and sessions from calls. Main statements:

- `agree_perform`: no call fails, and each answers what the scanner without guards answers;
- `agree_serveAll`: no session fails, and between requests all scanners stand between characters;
- `reading_is_safe`: nothing fails on a source that fits in memory.
-/

namespace MonkeyTokens

open Scanner (Call Answer)

/-! ## Sessions -/

def Scanner.Answer.tokens : Answer → List Token
  | .token t | .located t _ => [t]
  | .item t => t.toList
  | .items ts => ts
  | .number _ | .flag _ => []

/-- A request of a session: a call to one of its scanners, or a copy of one. The scanners count from zero,
and a copy comes last. -/
inductive Request where
  | call (on : Nat) (call : Call)
  | clone (on : Nat)
  deriving DecidableEq, Repr

section Sessions

variable {m : Type → Type} [Monad m] {σ : Type} (perform : σ → Call → m (Answer × σ))

/-- Serve one request. A scanner that the session does not have gives no answer. -/
def serve (scanners : List σ) : Request → m (List Answer × List σ)
  | .call on call =>
      match scanners[on]? with
      | none => return ([], scanners)
      | some s => do
          let (answer, rest) ← perform s call
          return ([answer], scanners.set on rest)
  | .clone on => return ([], scanners ++ scanners[on]?.toList)

def serveAll : List Request → List σ → m (List Answer × List σ)
  | [], scanners => return ([], scanners)
  | request :: requests, scanners => do
      let (answers, rest) ← serve perform scanners request
      let (more, last) ← serveAll requests rest
      return (answers ++ more, last)

end Sessions

namespace Guarded

/-! ## Agreement -/

section Agreement

variable {α β γ δ : Type} {R : α → β → Prop} {S : γ → δ → Prop}

/-- The guarded computation does not fail, and it yields what the relation `R` allows beside the result of
the other one, whatever the log of that one holds. -/
def Agree (R : α → β → Prop) (x : Except Failure α) (y : Logged β) : Prop :=
  ∃ a b, x = .ok a ∧ (∀ log, (y.run log).1 = b) ∧ R a b

theorem Agree.pure {a : α} {b : β} : R a b → Agree R (.ok a) (pure b) := by
  intro h
  exact ⟨a, b, rfl, fun _ => rfl, h⟩

theorem Agree.bind {x : Except Failure α} {y : Logged β} {f : α → Except Failure γ}
    {g : β → Logged δ} (h : Agree R x y) (hf : ∀ a b, R a b → Agree S (f a) (g b)) :
    Agree S (x >>= f) (y >>= g) := by
  rcases h with ⟨a, b, rfl, hy, hab⟩
  rcases hf a b hab with ⟨c, d, hfa, hgb, hcd⟩
  refine ⟨c, d, hfa, fun log => ?_, hcd⟩
  change ((g (y.run log).1).run (y.run log).2).1 = d
  rw [hy]
  exact hgb _

/-- A step only adds to the log. -/
theorem Agree.of_read {s : Scanner} {x : Except Failure γ} {g : s.Step → Logged δ} :
    Agree S x (g s.step) → Agree S x (s.read >>= g) := by
  rintro ⟨c, d, hx, hg, hcd⟩
  refine ⟨c, d, hx, fun log => ?_, hcd⟩
  exact hg (log.record s.step.event)

end Agreement

/-- The two results have one value, which satisfies `P`, and the two readers stand at one place between
characters of the source. -/
inductive Kept {α : Type} (source : Source) (P : α → Prop) : α × Cursor → α × Scanner → Prop where
  | intro {a : α} {s : Scanner} (within : s.Within source) (holds : P a) :
      Kept source P (a, s.cursor) (a, s)

/-- No token but the end mark is empty. -/
def Spelled (answer : Answer) : Prop :=
  ∀ t ∈ answer.tokens, t.isEof = false → t.text ≠ ""

/-! ## Items -/

variable {s : Scanner} {source : Source}

theorem text_of_item? {t : Token} (h : s.Within source) :
    s.step.item? = some t → t.text ≠ "" := by
  intro hitem
  unfold Scanner.Step.item? at hitem
  cases heof : s.step.token.isEof with
  | true => simp [heof] at hitem
  | false =>
      simp only [heof, Bool.false_eq_true, if_false, Option.some.injEq] at hitem
      rw [← hitem]
      exact h.step.2 heof

theorem next_eq_ok (hfit : source.size < maxPosition) (h : s.Within source) :
    next s.cursor = .ok (s.step.item?, s.step.rest.cursor) := by
  simp only [next, step_eq_ok hfit h, ok_bind]
  rfl

theorem agree_next (hfit : source.size < maxPosition) (h : s.Within source) :
    Agree (Kept source fun item => ∀ t ∈ item, t.text ≠ "") (next s.cursor) s.next :=
  ⟨_, _, next_eq_ok hfit h, fun _ => rfl, ⟨h.step.1, fun _ ht => text_of_item? h ht⟩⟩

theorem agree_nth (hfit : source.size < maxPosition) (n : Nat) (h : s.Within source) :
    Agree (Kept source fun item => ∀ t ∈ item, t.text ≠ "") (nth n s.cursor) (s.nth n) := by
  induction n generalizing s with
  | zero => exact agree_next hfit h
  | succ n ih =>
      refine (agree_next hfit h).bind ?_
      rintro _ _ (@⟨item, rest, hrest, hitem⟩)
      cases item with
      | none => exact Agree.pure ⟨hrest, hitem⟩
      | some t => exact ih hrest

theorem agree_take (hfit : source.size < maxPosition) (n : Nat) (h : s.Within source) :
    Agree (Kept source fun items => ∀ t ∈ items, t.text ≠ "") (take n s.cursor) (s.take n) := by
  induction n generalizing s with
  | zero => exact Agree.pure ⟨h, by simp⟩
  | succ n ih =>
      refine (agree_next hfit h).bind ?_
      rintro _ _ (@⟨item, rest, hrest, hitem⟩)
      -- Nothing is read after the first `none`.
      cases item with
      | none => exact Agree.pure ⟨hrest, by simp⟩
      | some t =>
          refine (ih hrest).bind ?_
          rintro _ _ (@⟨items, last, hlast, hitems⟩)
          exact Agree.pure ⟨hlast, List.forall_mem_cons.2 ⟨hitem t rfl, hitems⟩⟩

/-- Reading to the end takes shorter and shorter rests. -/
theorem agree_drain (hfit : source.size < maxPosition) (h : s.Within source) :
    Agree (Kept source fun items => ∀ t ∈ items, t.text ≠ "") (drain s.cursor) s.drain := by
  induction s using Scanner.rest_induction with
  | step s ih =>
      rw [drain, Scanner.drain_eq, next_eq_ok hfit h, Scanner.next, bind_assoc]
      apply Agree.of_read
      rw [pure_bind]
      cases hitem : s.step.item? with
      | none => exact Agree.pure ⟨h.step.1, by simp⟩
      | some t =>
          have hless : unread s.step.rest.cursor < unread s.cursor :=
            Scanner.Step.unread_lt_of_item? hitem
          simp only [hless, dif_pos]
          refine (ih (Scanner.Step.not_isEof_of_item? hitem) h.step.1).bind ?_
          rintro _ _ (@⟨items, last, hlast, hitems⟩)
          exact Agree.pure ⟨hlast, List.forall_mem_cons.2 ⟨text_of_item? h hitem, hitems⟩⟩

/-! ## Calls -/

theorem spelled_of_tokens_eq_nil {answer : Answer} : answer.tokens = [] → Spelled answer := by
  intro h t ht
  rw [h] at ht
  cases ht

theorem spelled_item {item : Option Token} : (∀ t ∈ item, t.text ≠ "") → Spelled (.item item) := by
  intro h t ht _
  exact h t (Option.mem_toList.1 ht)

/-- Answering with what was read changes neither reader. -/
theorem Agree.answer {α : Type} {P : α → Prop} {x : Except Failure (α × Cursor)}
    {y : Logged (α × Scanner)} {answer : α → Answer} (h : Agree (Kept source P) x y)
    (hspelled : ∀ a, P a → Spelled (answer a)) :
    Agree (Kept source Spelled) (do let (a, rest) ← x; return (answer a, rest))
      (do let (a, rest) ← y; return (answer a, rest)) := by
  refine h.bind ?_
  rintro _ _ (@⟨a, rest, hrest, ha⟩)
  exact Agree.pure ⟨hrest, hspelled a ha⟩

/-- No call fails, and each answers what the scanner without guards answers. -/
theorem agree_perform (hfit : source.size < maxPosition) (call : Call) (h : s.Within source) :
    Agree (Kept source Spelled) (perform s.cursor call) (s.perform call) := by
  cases call with
  | token =>
      have hspelled : Spelled (.token s.step.token) := by
        simpa [Spelled, Scanner.Answer.tokens] using h.step.2
      simp only [perform, step_eq_ok hfit h, ok_bind]
      exact Agree.of_read (Agree.pure ⟨h.step.1, hspelled⟩)
  | located =>
      have hspelled : Spelled (.located s.step.token s.step.span) := by
        simpa [Spelled, Scanner.Answer.tokens] using h.step.2
      simp only [perform, step_eq_ok hfit h, ok_bind]
      exact Agree.of_read (Agree.pure ⟨h.step.1, hspelled⟩)
  | next => exact (agree_next hfit h).answer fun _ => spelled_item
  | nth n => exact (agree_nth hfit n h).answer fun _ => spelled_item
  | take n => exact (agree_take hfit n h).answer fun _ hitems t ht _ => hitems t ht
  | collect => exact (agree_drain hfit h).answer fun _ hitems t ht _ => hitems t ht
  | count =>
      have hcount (n : Nat) : Spelled (.number n) := spelled_of_tokens_eq_nil rfl
      exact (agree_drain hfit h).answer fun items _ => hcount items.length
  | last =>
      refine (agree_drain hfit h).answer fun items hitems => spelled_item ?_
      intro t ht
      exact hitems t (List.mem_of_getLast? ht)
  | pos => exact Agree.pure ⟨h, spelled_of_tokens_eq_nil rfl⟩
  | isFinished =>
      simp only [perform, isFinished_eq_ok hfit h, ok_bind]
      exact Agree.pure ⟨h, spelled_of_tokens_eq_nil rfl⟩

/-! ## Whole sessions -/

/-- The two sessions gave the same answers, and their scanners stand at the same places between characters
of the source. -/
inductive KeptAll (source : Source) :
    List Answer × List Cursor → List Answer × List Scanner → Prop where
  | intro {answers : List Answer} {scanners : List Scanner}
      (within : ∀ s ∈ scanners, s.Within source) (spelled : ∀ answer ∈ answers, Spelled answer) :
      KeptAll source (answers, scanners.map (·.cursor)) (answers, scanners)

variable {scanners : List Scanner}

theorem agree_serve (hfit : source.size < maxPosition) (request : Request) :
    (∀ s ∈ scanners, s.Within source) →
      Agree (KeptAll source) (serve perform (scanners.map (·.cursor)) request)
        (serve Scanner.perform scanners request) := by
  intro h
  have hnone : ∀ answer ∈ ([] : List Answer), Spelled answer := by simp
  cases request with
  | call on call =>
      simp only [serve, List.getElem?_map]
      cases hs : scanners[on]? with
      | none => exact Agree.pure ⟨h, hnone⟩
      | some s =>
          refine (agree_perform hfit call (h s (List.mem_of_getElem? hs))).bind ?_
          rintro _ _ (@⟨answer, rest, hrest, hanswer⟩)
          -- Only the scanner that was called has moved.
          have hset : ∀ t ∈ scanners.set on rest, t.Within source := by
            intro t ht
            rcases List.mem_or_eq_of_mem_set ht with ht | rfl
            · exact h t ht
            · exact hrest
          rw [← List.map_set]
          exact Agree.pure ⟨hset, by simpa using hanswer⟩
  | clone on =>
      have hcopy : ∀ t ∈ scanners ++ scanners[on]?.toList, t.Within source := by
        intro t ht
        rcases List.mem_append.1 ht with ht | ht
        · exact h t ht
        · exact h t (List.mem_of_getElem? (Option.mem_toList.1 ht))
      -- Copying a scanner is copying its cursor.
      have hmap : scanners.map (·.cursor) ++ (scanners.map (·.cursor))[on]?.toList =
          (scanners ++ scanners[on]?.toList).map (·.cursor) := by
        rw [List.map_append, List.getElem?_map]
        cases scanners[on]? <;> rfl
      simp only [serve]
      rw [hmap]
      exact Agree.pure ⟨hcopy, hnone⟩

/-- No session fails, and after each of its requests all scanners stand between characters. -/
theorem agree_serveAll (hfit : source.size < maxPosition) (requests : List Request) :
    (∀ s ∈ scanners, s.Within source) →
      Agree (KeptAll source) (serveAll perform requests (scanners.map (·.cursor)))
        (serveAll Scanner.perform requests scanners) := by
  induction requests generalizing scanners with
  | nil =>
      intro h
      exact Agree.pure ⟨h, by simp⟩
  | cons request requests ih =>
      intro h
      refine (agree_serve hfit request h).bind ?_
      rintro _ _ (@⟨answers, rest, hrest, hanswers⟩)
      -- What one request keeps is what the requests after it need.
      refine (ih hrest).bind ?_
      rintro _ _ (@⟨more, last, hlast, hmore⟩)
      refine Agree.pure ⟨hlast, ?_⟩
      intro answer hanswer
      rcases List.mem_append.1 hanswer with hanswer | hanswer
      · exact hanswers answer hanswer
      · exact hmore answer hanswer

/-! ## Whole sources -/

theorem readAll_eq_ok (hfit : source.size < maxPosition) (h : s.Within source) :
    readAll s.cursor = .ok (s.stream.map (·.token)) := by
  induction s using Scanner.rest_induction with
  | step s ih =>
      rw [readAll, step_eq_ok hfit h]
      -- Every token but the end mark leaves less to read, so the loop is not reported as endless.
      cases heof : s.step.token.isEof with
      | true =>
          rw [Scanner.stream_of_isEof heof]
          simp [heof]
      | false =>
          have hless : unread s.step.rest.cursor < unread s.cursor := s.step.unread_lt heof
          have hrest := ih heof h.step.1
          rw [Scanner.stream_of_not_isEof heof]
          simp only [heof, hless, hrest, ok_bind]
          rfl

theorem agree_readStrict (hfit : source.size < maxPosition) (h : s.Within source) :
    Agree Eq (readStrict s.cursor) s.readStrict := by
  induction s using Scanner.rest_induction with
  | step s ih =>
      rw [readStrict, step_eq_ok hfit h, Scanner.readStrict]
      apply Agree.of_read
      -- The reader stops at an illegal token, stops at the end mark, or goes on.
      by_cases hillegal : s.step.token.kind = .illegal
      · simp only [hillegal, if_true]
        exact Agree.pure rfl
      · cases heof : s.step.token.isEof with
        | true =>
            simp only [hillegal, if_false, heof, if_true, Bool.true_eq_false, dif_neg, not_false_eq_true]
            exact Agree.pure rfl
        | false =>
            have hless : unread s.step.rest.cursor < unread s.cursor := s.step.unread_lt heof
            simp only [hillegal, if_false, heof, Bool.false_eq_true, hless, dif_pos]
            refine (ih heof h.step.1).bind ?_
            rintro rest _ rfl
            exact Agree.pure rfl

/-- On a source that fits in memory no guard reports anything: not in any session, after which all scanners
stand between characters and all tokens that were read have a text, and not in reading the source whole,
strictly or not. -/
theorem reading_is_safe (source : Source) :
    source.size ≤ maxSize →
      (∀ requests : List Request, ∃ (answers : List Answer) (scanners : List Scanner),
        (do serveAll perform requests [← ofSource source]) =
            .ok (answers, scanners.map (·.cursor)) ∧
          (serveAll Scanner.perform requests [.ofSource source]).result = (answers, scanners) ∧
          (∀ s ∈ scanners, s.source = source ∧ source.IsBoundary s.pos) ∧
          ∀ answer ∈ answers, ∀ t ∈ answer.tokens, t.isEof = false → t.text ≠ "") ∧
      tokenize source = .ok (MonkeyTokens.tokenize source) ∧
      tokenizeStrict source = .ok (MonkeyTokens.tokenizeStrict source) := by
  intro hsize
  -- A signed size leaves room for the position after the end.
  have hfit : source.size < maxPosition := Nat.lt_of_le_of_lt hsize (by decide)
  have hwithin := Scanner.Within.ofSource source
  refine ⟨fun requests => ?_, ?_, ?_⟩
  · have hall : ∀ s ∈ [Scanner.ofSource source], s.Within source := by simpa using hwithin
    rcases agree_serveAll hfit requests hall with ⟨_, _, hguarded, hplain, hkept⟩
    rcases hkept with @⟨answers, scanners, hscanners, hspelled⟩
    refine ⟨answers, scanners, ?_, hplain _, ?_, hspelled⟩
    · rw [ofSource_eq_ok]
      exact hguarded
    · exact fun s hs => ⟨(hscanners s hs).source_eq, (hscanners s hs).boundary⟩
  · rw [tokenize, ofSource_eq_ok, tokenize_eq_map_stream]
    exact readAll_eq_ok hfit hwithin
  · rcases agree_readStrict hfit hwithin with ⟨_, _, hguarded, hplain, rfl⟩
    rw [tokenizeStrict, ofSource_eq_ok, MonkeyTokens.tokenizeStrict, tokenizeStrictLogged,
      Logged.result, hplain]
    exact hguarded

theorem reading_is_safe_sample :
    Source.size "é ==" ≤ maxSize ∧
      (∃ (answers : List Answer) (scanners : List Scanner),
        (do serveAll perform [.call 0 .token, .clone 0, .call 1 .located, .call 0 .isFinished]
              [← ofSource "é =="]) =
            .ok (answers, scanners.map (·.cursor)) ∧
          ∀ s ∈ scanners, Source.IsBoundary "é ==" s.pos) ∧
      tokenize "é ==" = .ok [⟨.illegal, "é"⟩, ⟨.eq, "=="⟩, .eof] := by
  have hsize : Source.size "é ==" ≤ maxSize := by decide
  rcases reading_is_safe "é ==" hsize with ⟨hsessions, htokens, _⟩
  rcases hsessions [.call 0 .token, .clone 0, .call 1 .located, .call 0 .isFinished] with
    ⟨answers, scanners, hanswers, _, hscanners, _⟩
  refine ⟨hsize, ⟨answers, scanners, hanswers, fun s hs => (hscanners s hs).2⟩, ?_⟩
  rw [htokens, tokenize_eq_map_reading]
  exact congrArg Except.ok (by decide +kernel)

end Guarded

end MonkeyTokens
