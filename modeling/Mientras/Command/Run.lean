import Mientras.Command.Disk
import Mientras.Command.Log
import Mientras.Command.Request
import Mientras.Compile
import Mientras.Fault.Report
import Mientras.Token.Dump
import Mientras.Tree.Outline

/-!
# Running the commands

`Tool.answer host log` does what the arguments of a command ask for.  A `Host` reads and writes its
files; a `Disk` is such a host.  The `Outcome` is the exit code and what is printed, where the `Log`
is a part of the standard error.  A command writes its output file only when all else went well,
and then the whole of it.  `Tool.run` reads the arguments and logs nothing.
-/

namespace Mientras

/-- What a run of a command leaves behind, its files apart. -/
structure Outcome where
  /-- The exit code: 0 for success, 1 for failure, 2 for wrong arguments. -/
  code : UInt32
  stdout : String
  stderr : String
  deriving DecidableEq, Repr, Inhabited

/-- A place that holds files, where reading and writing are effects in `m`. -/
structure Host (m : Type → Type) where
  /-- The content of the file of a path. -/
  read : String → m (Except Refusal ByteArray)
  /-- Puts content into the file of a path. -/
  write : String → ByteArray → m (Except Refusal Unit)

/-- A disk as a place that holds files. -/
def Disk.host : Host (StateM Disk) where
  read path := do
    return (← get).read path
  write path content := do
    match (← get).write path content with
    | .ok disk =>
      set disk
      return .ok ()
    | .error refusal => return .error refusal

/-- What a command makes of a source text. -/
structure Product where
  /-- What is printed before the output file is written. -/
  before : String
  /-- What the log is told before the output file is written. -/
  events : List Event
  /-- What is written to the output file. -/
  content : Except Fault String
  /-- What is printed after the output file is written. -/
  after : String

/-- The number of lines of a text, the last of which may be without a newline. -/
def lineCount (text : String) : Nat :=
  let newlines := text.toList.count '\n'
  if text.toList.getLast?.all (· == '\n') then newlines else newlines + 1

namespace Tool

/-- What the compiler makes of a source text. -/
def compilerProduct (request : Request) (source : String) : Product :=
  match tokenize source with
  | .error fault => ⟨"", [], .error fault, ""⟩
  | .ok tokens =>
    let shownTokens := if request.debug then "Tokens:\n" ++ Token.displayLines tokens else ""
    let events := [.scanned tokens.length, .tokenized]
    match Program.ofTokens tokens with
    | .error fault => ⟨shownTokens, events, .error fault, ""⟩
    | .ok program =>
      let shownTree := if request.debug then "Tree:\n" ++ program.outline.render 0 ++ "\n" else ""
      let style : Style := { sourceParensOnly := request.sourceParens }
      let output := program.toPython style
      ⟨shownTokens ++ shownTree,
        events ++ [.read program.body.length, .parsed, .emitted (lineCount output)], .ok output, ""⟩

/-- What the token dump makes of a source text. -/
def dumpProduct (source : String) : Product :=
  match tokenize source with
  | .error fault => ⟨"", [], .error fault, ""⟩
  | .ok tokens =>
    ⟨"", [.scanned tokens.length], .ok (Token.dumpAll tokens), Token.displayLines tokens⟩

/-- What a command makes of a source text. -/
def product : Tool → Request → String → Product
  | compiler, request, source => compilerProduct request source
  | tokenDump, _, source => dumpProduct source

/-- What the log is told when the output file is written. -/
def finished : Tool → Request → String → Event
  | compiler, request, _ => .written request.output
  | tokenDump, request, content => .dumped content.utf8ByteSize request.output

/-- The directives of a command, which those of the environment take the place of. -/
def directives : Tool → Request → String
  | compiler, request => if request.debug then Level.debug.name else Level.warn.name
  | tokenDump, _ => Level.error.name

/-- What the log of a command has written by the time the events have been told. -/
def logged (log : Log) (tool : Tool) (request : Request) (events : List Event) : String :=
  log.text (log.directives?.getD (tool.directives request)) events

/-- What is said about an input file that cannot be read. -/
def readFailure : Tool → String → Refusal → String
  | compiler, path, .missing => "ERROR: input file not found: " ++ path ++ "\n"
  | _, path, refusal => "ERROR: cannot read input file " ++ path ++ ": " ++ refusal.message ++ "\n"

/-- What is said about an output file that cannot be written. -/
def writeFailure (path : String) (refusal : Refusal) : String :=
  "ERROR: cannot write output file " ++ path ++ ": " ++ refusal.message ++ "\n"

/-- What is said about the arguments of a command. -/
def usage (tool : Tool) : String :=
  let options := match tool with
    | compiler => " [-o FILE] [-d] [--source-parens] INPUT\n"
    | tokenDump => " [-o FILE] INPUT\n"
  "Usage: " ++ tool.name ++ options

/-- What is said about the version of a command. -/
def version (tool : Tool) : String :=
  tool.name ++ " 0.1.0\n"

/-- The source text in a file that was read. -/
def sourceOf (content : Except Refusal ByteArray) : Except Refusal String :=
  match content with
  | .error refusal => .error refusal
  | .ok bytes =>
    match String.fromUTF8? bytes with
    | some source => .ok source
    | none => .error .notText

/-- Runs a command that is asked to do its work. -/
def work {m : Type → Type} [Monad m] (host : Host m) (log : Log) (tool : Tool) (request : Request) :
    m Outcome := do
  match sourceOf (← host.read request.input) with
  | .error refusal => return ⟨1, "", tool.readFailure request.input refusal⟩
  | .ok source =>
    let product := tool.product request source
    let logged := tool.logged log request
    match product.content with
    | .error fault =>
      return ⟨1, product.before, logged product.events ++ fault.report source request.input⟩
    | .ok content =>
      match ← host.write request.output content.toUTF8 with
      | .error refusal =>
        return ⟨1, product.before, logged product.events ++ writeFailure request.output refusal⟩
      | .ok () =>
        let events := product.events ++ [tool.finished request content]
        return ⟨0, product.before ++ product.after, logged events⟩

/-- Does what the arguments of a command were read as, if they are not wrong. -/
def answer {m : Type → Type} [Monad m] (host : Host m) (log : Log) (tool : Tool) :
    Option Invocation → m Outcome
  | none => pure ⟨2, "", tool.usage⟩
  | some .version => pure ⟨0, tool.version, ""⟩
  | some .help => pure ⟨0, tool.usage, ""⟩
  | some (.work request) => tool.work host log request

/-- Runs a command without a log. -/
def run {m : Type → Type} [Monad m] (host : Host m) (tool : Tool) (arguments : List String) :
    m Outcome :=
  tool.answer host .off (tool.invocation? arguments)

end Tool

end Mientras
