import MonkeyTokens.Proofs.Progress
import MonkeyTokens.Proofs.Strict

/-!
# Reports — the log of a reader is the stream that it reads

Four readers go over a source: one reads it all, one iterates over it, one stops at the first illegal
character, and one reads a number of times. Each reports the tokens that it reads, once and in order, so
their logs are the same stream, or a beginning of it, or the stream with the end mark repeated. Only the
reader of whole sources adds a summary, and the summary counts what was reported. The level of a log
changes what is kept, and nothing that is read. Main statements:

- `reports_tokenizeLogged`, `reports_drain`: the readers that go to the end;
- `reports_tokenizeStrictLogged`: what strict reading reports is a beginning of the stream;
- `reports_readTimes`: what is read, and reported, in a number of steps;
- `reports_mirror_stream`: the logs of all four readers, at each level.
-/

namespace MonkeyTokens

/-! ## Reports at each level -/

/-- The event reports a token of the kind that is called illegal. -/
def Event.isIllegal : Event → Bool
  | token kind _ _ => kind == "illegal character"
  | summary _ _ => false

/-- Only illegal tokens are called illegal. -/
theorem Event.isIllegal_comp_event : Event.isIllegal ∘ Located.event = Located.isIllegal := by
  have hname (k : Kind) : (k.name == "illegal character") = (k == .illegal) := by
    cases k <;> decide
  funext x
  exact hname x.token.kind

namespace Logged

variable {α : Type} {x : Logged α} {a : α} {steps totals : List Event}

/-- The work yields `a` at every level. It reports `steps` and then `totals`: the level of traces keeps all,
the level of debugging keeps the totals, and the level above keeps nothing. -/
structure Reports (x : Logged α) (a : α) (steps totals : List Event) : Prop where
  value : ∀ level, (x.run (.empty level)).1 = a
  trace : x.events .trace = steps ++ totals
  debug : x.events .debug = totals
  info : x.events .info = []

/-- Reports of one level are kept or dropped together. -/
theorem filter_of_level {es : List Event} {l : Level} (level : Level) :
    (∀ e ∈ es, e.level = l) →
      es.filter (level.rank ≤ ·.level.rank) = if level.rank ≤ l.rank then es else [] := by
  intro h
  split
  case isTrue hle =>
      refine List.filter_eq_self.2 fun e he => ?_
      simpa [h e he] using hle
  case isFalse hlt =>
      refine List.filter_eq_nil_iff.2 fun e he => ?_
      simpa [h e he] using hlt

theorem Yields.reports (h : x.Yields a (steps ++ totals))
    (hsteps : ∀ e ∈ steps, e.level = .trace) (htotals : ∀ e ∈ totals, e.level = .debug) :
    x.Reports a steps totals := by
  have hevents (level : Level) : x.events level =
      (if level.rank ≤ Level.trace.rank then steps else []) ++
        if level.rank ≤ Level.debug.rank then totals else [] := by
    rw [h.events_eq, List.filter_append, filter_of_level level hsteps, filter_of_level level htotals]
  exact ⟨fun level => congrArg Prod.fst (h (.empty level)), hevents .trace, hevents .debug,
    hevents .info⟩

end Logged

theorem level_of_mem_map_event {xs : List Located} {e : Event} :
    e ∈ xs.map Located.event → e.level = .trace := by
  intro he
  rcases List.mem_map.1 he with ⟨x, _, rfl⟩
  rfl

/-- Work that reports the tokens that it reads, and nothing else. -/
theorem Logged.Yields.reports_of_map {α : Type} {x : Logged α} {a : α} {xs : List Located} :
    x.Yields a (xs.map Located.event) → x.Reports a (xs.map Located.event) [] := by
  intro h
  rw [← List.append_nil (xs.map _)] at h
  exact h.reports (fun _ => level_of_mem_map_event) (by simp)

/-! ## Reading to the end -/

/-- Reading a whole source reports its stream, and then how long it is and how much of it is illegal. -/
theorem yields_tokenizeLogged (source : Source) :
    (tokenizeLogged source).Yields (tokenize source)
      ((Scanner.ofSource source).stream.map Located.event ++
        [.summary (tokenize source).length ((tokenize source).countP (·.kind == .illegal))]) := by
  have hall : (Scanner.ofSource source).readAll.Yields _ _ := Scanner.run_readAll _
  rw [tokenize_eq_map_stream]
  exact hall.bind ((Logged.Yields.emit _).bind (Logged.Yields.pure _))

/-- The summary counts what was reported. -/
theorem summary_eq (source : Source) :
    (Event.summary (tokenize source).length ((tokenize source).countP (·.kind == .illegal))) =
      .summary ((Scanner.ofSource source).stream.map Located.event).length
        (((Scanner.ofSource source).stream.map Located.event).countP Event.isIllegal) := by
  rw [tokenize_eq_map_stream, List.length_map, List.length_map, List.countP_map, List.countP_map,
    Event.isIllegal_comp_event]
  rfl

theorem reports_tokenizeLogged (source : Source) :
    let steps := (Scanner.ofSource source).stream.map Located.event
    (tokenizeLogged source).Reports (tokenize source) steps
      [.summary steps.length (steps.countP Event.isIllegal)] := by
  intro steps
  have hall := yields_tokenizeLogged source
  rw [summary_eq] at hall
  exact hall.reports (fun _ => level_of_mem_map_event) (by simp [Event.level])

namespace Scanner

theorem stream_ne_nil (s : Scanner) : s.stream ≠ [] := by
  intro hnil
  have hhead := head?_stream s
  rw [hnil] at hhead
  cases hhead

/-- Iterating to the end reports the stream, the end mark included. -/
theorem exists_yields_drain (s : Scanner) :
    ∃ last, s.drain.Yields (s.stream.dropLast.map (·.token), last) (s.stream.map Located.event) := by
  induction s using rest_induction with
  | step s ih =>
      cases heof : s.step.token.isEof with
      | true =>
          rw [stream_of_isEof heof]
          exact ⟨s.step.rest, yields_drain_of_isEof heof⟩
      | false =>
          rcases ih heof with ⟨last, hrest⟩
          rw [stream_of_not_isEof heof, List.dropLast_cons_of_ne_nil (stream_ne_nil _)]
          exact ⟨last, yields_drain_of_not_isEof heof hrest⟩

end Scanner

theorem reports_drain (source : Source) :
    ∃ last, (Scanner.ofSource source).drain.Reports ((items source).map (·.token), last)
      ((Scanner.ofSource source).stream.map Located.event) [] := by
  rcases (Scanner.ofSource source).exists_yields_drain with ⟨last, hall⟩
  exact ⟨last, hall.reports_of_map⟩

/-! ## Reading up to the first illegal token -/

/-- Strict reading goes over a beginning of the stream: up to the first illegal token, or over all of it. -/
theorem Strict.visited_eq_take (xs : List Located) :
    Strict.visited xs = xs.take (xs.findIdx Located.isIllegal + 1) := by
  induction xs with
  | nil => rfl
  | cons x xs ih =>
      cases hx : x.isIllegal with
      | true => simp [visited_cons_of_isIllegal hx, List.findIdx_cons, hx]
      | false => simp [visited_cons_of_legal hx, List.findIdx_cons, hx, ih]

theorem reports_tokenizeStrictLogged (source : Source) :
    let steps := (Scanner.ofSource source).stream.map Located.event
    (tokenizeStrictLogged source).Reports (tokenizeStrict source)
      (steps.take (steps.findIdx Event.isIllegal + 1)) [] := by
  intro steps
  have hall := (Scanner.yields_readStrict (.ofSource source)).reports_of_map
  rwa [← tokenizeStrict_eq_outcome, Strict.visited_eq_take, List.map_take,
    ← Event.isIllegal_comp_event, ← List.findIdx_map] at hall

/-! ## Reading a number of times -/

/-- The first `n` tokens are read, and the end mark as often as there are fewer. -/
theorem Scanner.Within.readTimes_eq {s : Scanner} {source : Source} (n : Nat)
    (h : s.Within source) :
    (s.readTimes n).result.1 =
      s.stream.take n ++ List.replicate (n - s.stream.length) (.eof source.size) := by
  induction n generalizing s with
  | zero =>
      have hnone : (s.readTimes 0).result.1 = [] := rfl
      simp [hnone]
  | succ n ih =>
      rw [result_readTimes_succ]
      cases heof : s.step.token.isEof with
      | true =>
          -- The end mark is read again from behind itself.
          rcases h.step_of_isEof heof with ⟨hmark, hagain⟩
          have hmarks : (s.step.rest.readTimes n).result.1 = List.replicate n (.eof source.size) := by
            rw [ih h.step.1, hagain]
            cases n <;> simp [List.replicate_succ]
          rw [stream_of_isEof heof, hmark, hmarks]
          simp
      | false =>
          rw [stream_of_not_isEof heof, ih h.step.1]
          simp

theorem reports_readTimes (source : Source) (n : Nat) :
    let steps := (Scanner.ofSource source).stream.map Located.event
    ∃ last, ((Scanner.ofSource source).readTimes n).Reports
      ((Scanner.ofSource source).stream.take n ++
        List.replicate (n - steps.length) (.eof source.size), last)
      (steps.take n ++ List.replicate (n - steps.length) (Located.eof source.size).event) [] := by
  intro steps
  have hlength : steps.length = (Scanner.ofSource source).stream.length := List.length_map _
  have hread := (Scanner.Within.ofSource source).readTimes_eq n
  have hall := (Scanner.yields_readTimes n (.ofSource source)).reports_of_map
  refine ⟨((Scanner.ofSource source).readTimes n).result.2, ?_⟩
  rw [hlength, ← hread]
  rwa [hread, List.map_append, List.map_take, List.map_replicate] at hall

/-! ## All readers -/

/-- The logs of four readers of a source. Reading it all reports its tokens in order, then the end mark, and
then the totals of these reports. Iterating over it reports the same without the totals, strict reading what
it has read up to the first illegal token, and reading `n` times the first `n` of the reports and the end
mark again and again. What is read is the same at every level. -/
theorem reports_mirror_stream (source : Source) :
    let mark := Event.token "end of file" source.size source.size
    let steps := (items source).map
      (fun x => Event.token x.token.kind.name x.span.start x.span.stop) ++ [mark]
    (tokenize source).length = steps.length ∧
      (tokenizeLogged source).Reports (tokenize source) steps
        [.summary steps.length (steps.countP Event.isIllegal)] ∧
      (∃ last, (Scanner.ofSource source).drain.Reports ((items source).map (·.token), last) steps []) ∧
      (tokenizeStrictLogged source).Reports (tokenizeStrict source)
        (steps.take (steps.findIdx Event.isIllegal + 1)) [] ∧
      ∀ n, ∃ last, ((Scanner.ofSource source).readTimes n).Reports
        ((Scanner.ofSource source).stream.take n ++
          List.replicate (n - steps.length) (.eof source.size), last)
        (steps.take n ++ List.replicate (n - steps.length) mark) [] := by
  intro mark steps
  have hsteps : steps = (Scanner.ofSource source).stream.map Located.event := by
    rw [(stream_eq_items source).1, List.map_append]
    rfl
  rw [hsteps]
  refine ⟨?_, reports_tokenizeLogged source, reports_drain source, reports_tokenizeStrictLogged source,
    reports_readTimes source⟩
  rw [tokenize_eq_map_stream, List.length_map, List.length_map]

end MonkeyTokens
