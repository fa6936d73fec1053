/-!
# Events — what a reader reports while it works

Each token that is read is reported, and reading a whole source is reported once more with its totals.
A report has a level, and a log keeps the reports from its own level upwards.
-/

namespace MonkeyTokens

/-- How important a report is, from the finest detail upwards. -/
inductive Level where
  | trace
  | debug
  | info
  deriving DecidableEq, Repr

def Level.rank : Level → Nat
  | trace => 0
  | debug => 1
  | info => 2

inductive Event where
  /-- A token was read: the name of its kind and the ends of its span. -/
  | token (kind : String) (start stop : Nat)
  /-- A whole source was read: how many tokens it has, and how many of them are illegal. -/
  | summary (tokens illegal : Nat)
  deriving DecidableEq, Repr

namespace Event

def level : Event → Level
  | token .. => .trace
  | summary .. => .debug

/-- Where a report comes from, as a path: single tokens from the scanner, totals from above it. -/
def target : Event → String
  | token .. => "monkey_lexer::scanner"
  | summary .. => "monkey_lexer"

def message : Event → String
  | token .. => "token"
  | summary .. => "tokenized"

end Event

/-! ## Logs -/

/-- The reports kept so far, and the lowest level kept. -/
structure Log where
  level : Level
  events : Array Event
  deriving DecidableEq, Repr

namespace Log

def empty (level : Level) : Log :=
  ⟨level, #[]⟩

def keeps (log : Log) (e : Event) : Bool :=
  log.level.rank ≤ e.level.rank

/-- Append a report if the log keeps its level. -/
def record (log : Log) (e : Event) : Log :=
  if log.keeps e then { log with events := log.events.push e } else log

@[simp] theorem level_record (log : Log) (e : Event) : (log.record e).level = log.level := by
  unfold record
  split <;> rfl

theorem toList_record (log : Log) (e : Event) :
    (log.record e).events.toList = log.events.toList ++ [e].filter log.keeps := by
  unfold record
  split <;> simp_all

def recordAll (log : Log) (es : List Event) : Log :=
  es.foldl record log

/-- A log keeps the reports of its level and above, in their order. -/
theorem toList_recordAll (log : Log) (es : List Event) :
    (log.recordAll es).events.toList = log.events.toList ++ es.filter log.keeps := by
  induction es generalizing log with
  | nil => simp [recordAll]
  | cons e es ih =>
      have hkeeps : (log.record e).keeps = log.keeps := by
        funext f
        simp [keeps]
      have h := ih (log.record e)
      rw [toList_record, hkeeps] at h
      rw [List.append_assoc, ← List.filter_append] at h
      exact h

theorem recordAll_append (log : Log) (es fs : List Event) :
    log.recordAll (es ++ fs) = (log.recordAll es).recordAll fs :=
  List.foldl_append

end Log

/-! ## Work that reports -/

abbrev Logged := StateM Log

namespace Logged

def emit (e : Event) : Logged Unit :=
  modify fun log => log.record e

def result {α : Type} (x : Logged α) : α :=
  (x.run (.empty .info)).1

/-- The reports of a computation from a level upwards. -/
def events {α : Type} (x : Logged α) (level : Level) : List Event :=
  (x.run (.empty level)).2.events.toList

/-- Whatever the log holds already, the computation yields `a` and reports `es`. -/
def Yields {α : Type} (x : Logged α) (a : α) (es : List Event) : Prop :=
  ∀ log : Log, x.run log = (a, log.recordAll es)

theorem Yields.pure {α : Type} (a : α) : Yields (pure a) a [] :=
  fun _ => rfl

theorem Yields.emit (e : Event) : Yields (emit e) () [e] :=
  fun _ => rfl

theorem Yields.bind {α β : Type} {x : Logged α} {f : α → Logged β} {a : α} {b : β}
    {es fs : List Event} :
    Yields x a es → Yields (f a) b fs → Yields (x >>= f) b (es ++ fs) := by
  intro hx hf log
  calc
    (x >>= f).run log = (f (x.run log).1).run (x.run log).2 := rfl
    _ = (b, log.recordAll (es ++ fs)) := by rw [hx, hf, Log.recordAll_append]

/-- Work without reports after a computation adds none. -/
theorem Yields.bind_pure {α β : Type} {x : Logged α} {a : α} {es : List Event} (f : α → β) :
    Yields x a es → Yields (do return f (← x)) (f a) es := by
  intro hx log
  calc
    StateT.run (do return f (← x)) log = (f (x.run log).1, (x.run log).2) := rfl
    _ = (f a, log.recordAll es) := by rw [hx]

theorem Yields.result_eq {α : Type} {x : Logged α} {a : α} {es : List Event} :
    Yields x a es → x.result = a :=
  fun h => congrArg Prod.fst (h (.empty .info))

/-- At each level, the reports are those that the level keeps. -/
theorem Yields.events_eq {α : Type} {x : Logged α} {a : α} {es : List Event} (level : Level) :
    Yields x a es → x.events level = es.filter (level.rank ≤ ·.level.rank) := by
  intro h
  calc
    x.events level = ((Log.empty level).recordAll es).events.toList := by rw [events, h]
    _ = es.filter (level.rank ≤ ·.level.rank) := Log.toList_recordAll (.empty level) es

end Logged

end MonkeyTokens
