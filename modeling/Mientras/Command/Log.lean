/-!
# Logs

While a command works, it tells a log what it has done.  What is told is an `Event`, and every
event has a `Level`.  A `Log` writes the events that its directives let through, each with the time
and in a form of its own; `Log.lines` writes a line for each.  The directives are those of the
environment, or else those of the command.
-/

namespace Mientras

/-- The levels of what is told, from the gravest to the slightest. -/
inductive Level where
  | error
  | warn
  | info
  | debug
  | trace
  deriving DecidableEq, Repr, Inhabited

namespace Level

/-- The directive that lets the level and all graver ones through. -/
def name : Level → String
  | error => "error"
  | warn => "warn"
  | info => "info"
  | debug => "debug"
  | trace => "trace"

/-- The number of graver levels. -/
def rank : Level → Nat
  | error => 0
  | warn => 1
  | info => 2
  | debug => 3
  | trace => 4

/-- The level as it stands in a line. -/
def label : Level → String
  | error => "ERROR"
  | warn => " WARN"
  | info => " INFO"
  | debug => "DEBUG"
  | trace => "TRACE"

/-- Whether a directive lets the level through. -/
def passes (directive : String) (level : Level) : Bool :=
  [error, warn, info, debug, trace].any fun other =>
    other.name == directive && level.rank ≤ other.rank

theorem passes_name (level other : Level) :
  level.passes other.name = decide (level.rank ≤ other.rank)
  := by
  cases level <;> cases other <;> decide

end Level

/-- What a command tells a log.  Every single token and statement is told too, but only as a trace,
which is left to the log. -/
inductive Event where
  /-- The source was scanned. -/
  | scanned (tokens : Nat)
  /-- The compiler is done with the tokens. -/
  | tokenized
  /-- The program was read. -/
  | read (statements : Nat)
  /-- The compiler is done with the program. -/
  | parsed
  /-- The program was written as Python text. -/
  | emitted (lines : Nat)
  /-- The compiler has written its output file. -/
  | written (output : String)
  /-- The token dump has written its output file. -/
  | dumped (bytes : Nat) (output : String)
  deriving DecidableEq, Repr, Inhabited

/-- The level of an event. -/
def Event.level : Event → Level
  | .written _ => .info
  | _ => .debug

/-- What is said about an event, where `elapsed` is the time since the start. -/
def Event.message (elapsed : String) : Event → String
  | .scanned tokens => "transpiler::lexer::lexer: scanned source tokens=" ++ toString tokens
  | .tokenized => "transpiler: tokenized elapsed=" ++ elapsed
  | .read statements => "transpiler::parser::parser: parsed program statements=" ++ toString statements
  | .parsed => "transpiler: parsed elapsed=" ++ elapsed
  | .emitted lines => "transpiler::emitter::emitter: emitted program lines=" ++ toString lines
  | .written output => "transpiler: translation written output=" ++ output
  | .dumped bytes output =>
    "dump_tokens: token dump written bytes=" ++ toString bytes ++ " output=" ++ output

/-- The line of an event. -/
def Event.line (time elapsed : String) (event : Event) : String :=
  time ++ " " ++ event.level.label ++ " " ++ event.message elapsed ++ "\n"

/-- A place where events are told. -/
structure Log where
  /-- The directives of the environment, if it has any. -/
  directives? : Option String
  /-- What is written under directives by the time the events have been told. -/
  text : String → List Event → String
  /-- Nothing is written under the directive of a level when the level is too grave for all of the
  events.  Only under that of traces more than the events is told. -/
  silent : ∀ {level : Level} {events : List Event}, level ≠ .trace →
    (∀ event ∈ events, level.rank < event.level.rank) → text level.name events = ""

/-- The log of an environment that wants none. -/
def Log.off : Log where
  directives? := some "off"
  text _ _ := ""
  silent _ _ := rfl

/-- A log of lines, on a clock that stands still. -/
def Log.lines (time elapsed : String) (directives? : Option String) : Log where
  directives? := directives?
  text directive events :=
    String.join ((events.filter (·.level.passes directive)).map (Event.line time elapsed))
  silent := by
    intro level events _ hevents
    have hnone : events.filter (·.level.passes level.name) = [] := by
      apply List.filter_eq_nil_iff.mpr
      intro event hevent
      rw [Level.passes_name, decide_eq_true_iff]
      exact Nat.not_le_of_lt (hevents event hevent)
    rw [hnone]
    rfl

end Mientras
