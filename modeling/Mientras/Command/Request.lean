/-!
# Arguments of the commands

There are two commands, the compiler and the token dump.  `Tool.invocation?` takes the arguments
of a command to what they ask for, unless they are wrong.  An option may stand before or after
the input file, short options may share a hyphen, a value may be joined to its option, and after
`--` there are no more options.
-/

namespace Mientras

/-- The commands. -/
inductive Tool where
  /-- Compiles a source file to a Python file. -/
  | compiler
  /-- Writes the tokens of a source file to a file. -/
  | tokenDump
  deriving DecidableEq, Repr, Inhabited

/-- What a command is asked to do with its files. -/
structure Request where
  input : String
  output : String
  /-- The tokens and the tree are shown. -/
  debug : Bool
  /-- Only the parentheses of the source are written. -/
  sourceParens : Bool
  deriving DecidableEq, Repr, Inhabited

/-- What the arguments of a command ask for. -/
inductive Invocation where
  | work (request : Request)
  | version
  | help
  deriving DecidableEq, Repr, Inhabited

/-- The options. -/
inductive Switch where
  | output
  | debug
  | sourceParens
  | version
  | help
  deriving DecidableEq, Repr, Inhabited

namespace Tool

/-- The name of a command. -/
def name : Tool → String
  | compiler => "transpiler"
  | tokenDump => "dump_tokens"

/-- The output file of a command that is told none. -/
def defaultOutput : Tool → String
  | compiler => "salida.py"
  | tokenDump => "tokens.bin"

/-- The option that a letter after one hyphen stands for. -/
def shortSwitch? : Tool → Char → Option Switch
  | _, 'o' => some .output
  | compiler, 'd' => some .debug
  | _, 'V' => some .version
  | _, 'h' => some .help
  | _, _ => none

/-- The option that a word after two hyphens stands for. -/
def longSwitch? : Tool → String → Option Switch
  | _, "output" => some .output
  | compiler, "debug" => some .debug
  | compiler, "source-parens" => some .sourceParens
  | _, "version" => some .version
  | _, "help" => some .help
  | _, _ => none

end Tool

/-- What some of the arguments of a command said. -/
structure Draft where
  input? : Option String := none
  output? : Option String := none
  debug : Bool := false
  sourceParens : Bool := false

/-- What an argument leads to. -/
inductive Draft.Step where
  /-- More arguments may follow. -/
  | more (draft : Draft)
  /-- The value of an option follows. -/
  | value (draft : Draft)
  /-- The rest of the arguments does not matter. -/
  | stop (invocation : Invocation)
  /-- The argument is wrong. -/
  | wrong

namespace Draft

/-- The draft with an input file.  There is one, and it has a name. -/
def addInput (draft : Draft) (path : String) : Step :=
  if path.isEmpty || draft.input?.isSome then .wrong else .more { draft with input? := some path }

/-- The draft with an output file.  There is at most one, and it has a name. -/
def addOutput (draft : Draft) (path : String) : Step :=
  if path.isEmpty || draft.output?.isSome then .wrong else .more { draft with output? := some path }

/-- The draft with an option that takes no value, which is given at most once. -/
def addSwitch (draft : Draft) : Switch → Step
  | .output => .value draft
  | .debug => if draft.debug then .wrong else .more { draft with debug := true }
  | .sourceParens =>
    if draft.sourceParens then .wrong else .more { draft with sourceParens := true }
  | .version => .stop .version
  | .help => .stop .help

/-- The draft with the options whose letters follow one hyphen.  What follows the letter of an
option with a value is its value. -/
def addLetters (tool : Tool) (draft : Draft) : List Char → Step
  | [] => .more draft
  | letter :: letters =>
    match tool.shortSwitch? letter with
    | none => .wrong
    | some .output =>
      match letters with
      | [] => .value draft
      | '=' :: path => draft.addOutput (String.ofList path)
      | path => draft.addOutput (String.ofList path)
    | some switch =>
      match draft.addSwitch switch with
      | .more draft => addLetters tool draft letters
      | step => step

/-- The draft with the option whose name follows two hyphens.  A value may follow the name and
an equals sign. -/
def addLong (tool : Tool) (draft : Draft) (text : List Char) : Step :=
  match tool.longSwitch? (String.ofList (text.takeWhile (· != '='))), text.dropWhile (· != '=') with
  | some switch, [] => draft.addSwitch switch
  | some .output, _ :: path => draft.addOutput (String.ofList path)
  | _, _ => .wrong

/-- The draft with an argument before which no `--` stands. -/
def addArgument (tool : Tool) (draft : Draft) (argument : String) : Step :=
  match argument.toList with
  | '-' :: '-' :: text => draft.addLong tool text
  | '-' :: letter :: letters => draft.addLetters tool (letter :: letters)
  | _ => draft.addInput argument

/-- The argument may be the value of an option that stands before it. -/
def isValue (argument : String) : Bool :=
  match argument.toList with
  | '-' :: _ :: _ => false
  | _ => true

/-- What a draft asks for when no more arguments follow. -/
def finish (tool : Tool) (draft : Draft) : Option Invocation :=
  draft.input?.map fun input =>
    .work ⟨input, draft.output?.getD tool.defaultOutput, draft.debug, draft.sourceParens⟩

/-- What a draft and the arguments after a `--` ask for. -/
def finishWith (tool : Tool) : Draft → List String → Option Invocation
  | draft, [] => draft.finish tool
  | draft, path :: paths =>
    match draft.addInput path with
    | .more draft => finishWith tool draft paths
    | _ => none

/-- What a draft and more arguments ask for. -/
def invocation? (tool : Tool) : Draft → List String → Option Invocation
  | draft, [] => draft.finish tool
  | draft, "--" :: paths => draft.finishWith tool paths
  | draft, argument :: arguments =>
    match draft.addArgument tool argument with
    | .more draft => invocation? tool draft arguments
    | .stop invocation => some invocation
    | .wrong => none
    | .value draft =>
      match arguments with
      | [] => none
      | path :: arguments =>
        if isValue path then
          match draft.addOutput path with
          | .more draft => invocation? tool draft arguments
          | _ => none
        else none

end Draft

/-- What the arguments of a command ask for, unless they are wrong. -/
def Tool.invocation? (tool : Tool) (arguments : List String) : Option Invocation :=
  Draft.invocation? tool {} arguments

end Mientras
