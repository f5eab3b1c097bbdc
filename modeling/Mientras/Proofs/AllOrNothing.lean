import Mathlib.Tactic.Common
import Mientras.Command.Run

/-!
# All or nothing

A run of the compiler writes the whole of its output file, or it changes nothing
(`run_all_or_nothing`).  What it writes is what `compile` makes of the source text, whether or not
the tokens and the tree are shown on the way.  The report on a source that is refused ends the
standard error.  Before it stands what was logged, which is nothing unless the environment asks for
it or the run shows the tokens (`stderr_ne_report_of_debug`).

This holds in every `FileSystem`, where a file is written as a whole or not at all, with every `Log`
and for every `ArgumentReader`, which reads the options of a request as the request.  A `Disk` and
`Tool.invocation?` are such.
-/

namespace Mientras

/-- Files that a host reads and writes, which are part of a state. -/
structure FileSystem (σ : Type) where
  host : Host (StateM σ)
  /-- The places where files may stand. -/
  Place : Type
  /-- What stands at a place. -/
  node? : σ → Place → Option Node
  /-- The place that a path leads to. -/
  place? : σ → String → Option Place
  /-- Reading changes nothing. -/
  read_state : ∀ (path : String) (state : σ), (host.read path state).2 = state
  /-- Writing that fails changes nothing. -/
  write_error : ∀ {path : String} {content : ByteArray} {before after : σ} {refusal : Refusal},
    host.write path content before = (.error refusal, after) → after = before
  /-- Writing that succeeds puts the content at the place that the path leads to, and changes
  nothing at the others. -/
  write_ok : ∀ {path : String} {content : ByteArray} {before after : σ},
    host.write path content before = (.ok (), after) →
    ∃ place, place? before path = some place ∧ node? after place = some (.file content)
      ∧ ∀ other, other ≠ place → node? after other = node? before other
  /-- What was written is read. -/
  read_of_write : ∀ {path : String} {content : ByteArray} {before after : σ},
    host.write path content before = (.ok (), after) → (host.read path after).1 = .ok content

/-! ### Disks -/

namespace Disk

variable {disk : Disk} {names : List String}

/-- A file that is put on a disk stands in no way that led to a directory. -/
theorem enter_put (h : disk.node? names ≠ some .directory) (content : ByteArray)
    {route here there : List String} (henter : disk.enter here route = .ok there) :
  (disk.put names content).enter here route = .ok there
  := by
  induction route generalizing here with
  | nil => exact henter
  | cons name route ih =>
    rw [enter] at henter ⊢
    split at henter
    · rename_i hname
      rw [if_pos hname]
      apply ih henter
    rename_i hname
    rw [if_neg hname]
    split at henter
    · rename_i hname
      rw [if_pos hname]
      apply ih henter
    rename_i hname
    rw [if_neg hname]
    cases hnode : disk.node? (here ++ [name]) with
    | none =>
      rw [hnode] at henter
      cases henter
    | some node =>
      cases node with
      | file _ =>
        rw [hnode] at henter
        cases henter
      | directory =>
        rw [hnode] at henter
        have hne : here ++ [name] ≠ names := by
          rintro rfl
          exact h hnode
        rw [node?_put_of_ne disk hne, hnode]
        apply ih henter

theorem locate_eq_ok_iff {route : Route} :
  disk.locate route = .ok names
    ↔ ∃ here, disk.enter [] route.directories = .ok here
        ∧ ¬ (route.name = "." ∨ route.name = "..") ∧ here ++ [route.name] = names
  := by
  rw [locate]
  cases disk.enter [] route.directories with
  | error refusal => simp [bind, Except.bind]
  | ok here =>
    by_cases hname : route.name = "." ∨ route.name = ".." <;> simp [bind, Except.bind, hname]

theorem locate_put (h : disk.node? names ≠ some .directory) (content : ByteArray) {route : Route}
    {there : List String} (hlocate : disk.locate route = .ok there) :
  (disk.put names content).locate route = .ok there
  := by
  obtain ⟨here, henter, hname, rfl⟩ := locate_eq_ok_iff.mp hlocate
  apply locate_eq_ok_iff.mpr ⟨here, enter_put h content henter, hname, rfl⟩

theorem ne_nil_of_locate {route : Route} (hlocate : disk.locate route = .ok names) :
  names ≠ []
  := by
  obtain ⟨here, _, _, rfl⟩ := locate_eq_ok_iff.mp hlocate
  simp

/-- Writing puts a file where the path leads to, unless a directory stands there. -/
theorem write_eq_ok {path : String} {content : ByteArray} {after : Disk}
    (hwrite : disk.write path content = .ok after) :
  ∃ names, disk.locate (Route.ofPath path) = .ok names
    ∧ (Route.ofPath path).toDirectory = false ∧ disk.node? names ≠ some .directory
    ∧ after = disk.put names content
  := by
  rw [write] at hwrite
  cases hlocate : disk.locate (Route.ofPath path) with
  | error refusal =>
    rw [hlocate] at hwrite
    cases hwrite
  | ok names =>
    simp only [hlocate, bind, Except.bind] at hwrite
    split at hwrite
    · cases hwrite
    rename_i hslash
    split at hwrite
    · cases hwrite
    · rename_i hnode
      exact ⟨names, rfl, Bool.eq_false_iff.mpr hslash, hnode, (Except.ok.inj hwrite).symm⟩

theorem read_of_write {path : String} {content : ByteArray} {after : Disk}
    (hwrite : disk.write path content = .ok after) :
  after.read path = .ok content
  := by
  obtain ⟨names, hlocate, hslash, hnode, rfl⟩ := write_eq_ok hwrite
  have hself := node?_put_self disk (ne_nil_of_locate hlocate) content
  simp [read, locate_put hnode content hlocate, bind, Except.bind, hself, hslash]

theorem host_write_eq {path : String} {content : ByteArray} :
  host.write path content disk
    = match disk.write path content with
      | .ok after => (.ok (), after)
      | .error refusal => (.error refusal, disk)
  := by
  change (match disk.write path content with
    | .ok after => (do set after; return .ok ())
    | .error refusal => return .error refusal : StateM Disk (Except Refusal Unit)) disk = _
  cases disk.write path content <;> rfl

theorem write_of_host_write {path : String} {content : ByteArray} {after : Disk}
    (h : host.write path content disk = (.ok (), after)) :
  disk.write path content = .ok after
  := by
  rw [host_write_eq] at h
  split at h
  · rename_i hwrite
    rw [hwrite, (Prod.mk.inj h).2]
  · cases h

/-- The files of a disk. -/
def fileSystem : FileSystem Disk where
  host := host
  Place := List String
  node? := node?
  place? disk path := (disk.locate (Route.ofPath path)).toOption
  read_state _ _ := rfl
  write_error := by
    intro path content before after refusal h
    rw [host_write_eq] at h
    split at h
    · cases h
    · exact (Prod.mk.inj h).2.symm
  write_ok := by
    intro path content before after h
    obtain ⟨names, hlocate, _, _, rfl⟩ := write_eq_ok (write_of_host_write h)
    refine ⟨names, ?_, node?_put_self before (ne_nil_of_locate hlocate) content, ?_⟩
    · rw [hlocate]
      rfl
    · intro other hother
      apply node?_put_of_ne before hother
  read_of_write h := read_of_write (write_of_host_write h)

end Disk

/-! ### What may become of a run -/

/-- The style that is asked for. -/
def Request.style (request : Request) : Style :=
  { sourceParensOnly := request.sourceParens }

/-- What is shown on the way makes no difference to what is written. -/
theorem content_compilerProduct (request : Request) (source : String) :
  (Tool.compilerProduct request source).content = compile request.style source
  := by
  rw [Tool.compilerProduct, compile, Program.ofSource]
  cases tokenize source with
  | error fault => rfl
  | ok tokens =>
    simp only [bind, Except.bind]
    cases Program.ofTokens tokens <;> rfl

/-- What the log is told of a source that is refused: the tokens, if there are any. -/
def scanEvents (source : String) : List Event :=
  match tokenize source with
  | .error _ => []
  | .ok tokens => [.scanned tokens.length, .tokenized]

theorem events_compilerProduct {request : Request} {source : String} {fault : Fault}
    (h : compile request.style source = .error fault) :
  (Tool.compilerProduct request source).events = scanEvents source
  := by
  rw [← content_compilerProduct, Tool.compilerProduct] at h
  rw [Tool.compilerProduct, scanEvents]
  cases htokens : tokenize source with
  | error => rfl
  | ok tokens =>
    rw [htokens] at h
    dsimp only at h ⊢
    cases hprogram : Program.ofTokens tokens with
    | error => rfl
    | ok program =>
      rw [hprogram] at h
      cases h

/-- Nothing is logged of a source that is refused, unless the environment asks for it or the tokens
are shown. -/
theorem logged_scanEvents {log : Log} {request : Request} {source : String} {fault : Fault}
    (hdirectives : log.directives? = none)
    (hdebug : request.debug = true → tokenize source = .error fault) :
  Tool.compiler.logged log request (scanEvents source) = ""
  := by
  rw [Tool.logged, hdirectives, Option.getD_none, Tool.directives]
  split
  · rename_i hshown
    rw [scanEvents, hdebug hshown]
    apply log.silent (by decide)
    simp
  · apply log.silent (by decide)
    rw [scanEvents]
    split
    · simp
    · simp [Event.level, Level.rank]

namespace FileSystem

variable {σ : Type} (files : FileSystem σ) (log : Log)

/-- The file of the path can be read, and it holds the source text in UTF-8. -/
def Reads (state : σ) (path source : String) : Prop :=
  ∃ bytes, (files.host.read path state).1 = .ok bytes ∧ String.fromUTF8? bytes = some source

/-- The content can be written to the file of the path. -/
def Writes (state : σ) (path : String) (content : ByteArray) : Prop :=
  ∃ after, files.host.write path content state = (.ok (), after)

theorem reads_iff {state : σ} {path source : String} :
  files.Reads state path source ↔ Tool.sourceOf (files.host.read path state).1 = .ok source
  := by
  rw [Reads]
  cases (files.host.read path state).1 with
  | error refusal => simp [Tool.sourceOf]
  | ok bytes => cases hsource : String.fromUTF8? bytes <;> simp [Tool.sourceOf, hsource]

/-- What may become of a run of the compiler: how it ends, and what state it leaves. -/
inductive Ends (request : Request) (before : σ) : Outcome → σ → Prop
  /-- The input file cannot be read, or holds no text. -/
  | unreadable {stdout stderr : String}
      (hinput : ∀ source, ¬ files.Reads before request.input source) :
      Ends request before ⟨1, stdout, stderr⟩ before
  /-- The source text is refused. -/
  | refused {source stdout : String} {fault : Fault}
      (hinput : files.Reads before request.input source)
      (hcompile : compile request.style source = .error fault) :
      Ends request before
        ⟨1, stdout, Tool.compiler.logged log request (scanEvents source)
          ++ fault.report source request.input⟩
        before
  /-- The output file cannot be written. -/
  | unwritable {source output stdout stderr : String}
      (hinput : files.Reads before request.input source)
      (hcompile : compile request.style source = .ok output)
      (houtput : ¬ files.Writes before request.output output.toUTF8) :
      Ends request before ⟨1, stdout, stderr⟩ before
  /-- The output file is written. -/
  | written {source output stdout stderr : String} {after : σ}
      (hinput : files.Reads before request.input source)
      (hcompile : compile request.style source = .ok output)
      (houtput : files.host.write request.output output.toUTF8 before = (.ok (), after)) :
      Ends request before ⟨0, stdout, stderr⟩ after

/-- What a command does with its files, one after the other. -/
theorem work_eq (tool : Tool) (request : Request) (before : σ) :
  tool.work files.host log request before
    = match Tool.sourceOf (files.host.read request.input before).1 with
      | .error refusal => (⟨1, "", tool.readFailure request.input refusal⟩, before)
      | .ok source =>
        match (tool.product request source).content with
        | .error fault =>
          (⟨1, (tool.product request source).before,
              tool.logged log request (tool.product request source).events
                ++ fault.report source request.input⟩,
            before)
        | .ok content =>
          match files.host.write request.output content.toUTF8 before with
          | (.error refusal, after) =>
            (⟨1, (tool.product request source).before,
                tool.logged log request (tool.product request source).events
                  ++ Tool.writeFailure request.output refusal⟩,
              after)
          | (.ok (), after) =>
            (⟨0, (tool.product request source).before ++ (tool.product request source).after,
                tool.logged log request
                  ((tool.product request source).events ++ [tool.finished request content])⟩,
              after)
  := by
  have hstate := files.read_state request.input before
  simp only [Tool.work, bind, StateT.bind]
  cases hread : files.host.read request.input before with
  | mk input state =>
    rw [hread] at hstate
    obtain rfl : state = before := hstate
    dsimp only
    cases Tool.sourceOf input with
    | error refusal => rfl
    | ok source =>
      dsimp only
      cases (tool.product request source).content with
      | error fault => rfl
      | ok content =>
        dsimp only [StateT.bind]
        cases files.host.write request.output content.toUTF8 state with
        | mk result after => cases result <;> rfl

theorem ends_work (request : Request) (before : σ) :
  files.Ends log request before (Tool.compiler.work files.host log request before).1
    (Tool.compiler.work files.host log request before).2
  := by
  rw [work_eq]
  cases hinput : Tool.sourceOf (files.host.read request.input before).1 with
  | error refusal =>
    apply Ends.unreadable
    intro source hsource
    rw [reads_iff, hinput] at hsource
    cases hsource
  | ok source =>
    have hinput := files.reads_iff.mpr hinput
    simp only [Tool.product, content_compilerProduct]
    cases hcompile : compile request.style source with
    | error fault =>
      rw [events_compilerProduct hcompile]
      apply Ends.refused hinput hcompile
    | ok output =>
      cases hwrite : files.host.write request.output output.toUTF8 before with
      | mk result after =>
        dsimp only
        rw [hwrite]
        cases result with
        | error refusal =>
          obtain rfl := files.write_error hwrite
          apply Ends.unwritable hinput hcompile
          rintro ⟨after', hwrite'⟩
          rw [hwrite] at hwrite'
          cases hwrite'
        | ok _ => apply Ends.written hinput hcompile hwrite

variable {files log}

theorem Reads.unique {state : σ} {path first second : String} (h : files.Reads state path first)
    (h' : files.Reads state path second) :
  first = second
  := by
  rw [reads_iff] at h h'
  exact Except.ok.inj (h.symm.trans h')

namespace Ends

variable {request : Request} {before after : σ} {outcome : Outcome}
  (h : files.Ends log request before outcome after)

include h

theorem code_eq_zero_iff :
  outcome.code = 0
    ↔ ∃ source output, files.Reads before request.input source
        ∧ compile request.style source = .ok output
        ∧ files.Writes before request.output output.toUTF8
  := by
  constructor
  · intro hcode
    cases h with
    | written hinput hcompile houtput => exact ⟨_, _, hinput, hcompile, _, houtput⟩
    | _ => exact absurd hcode (show (1 : UInt32) ≠ 0 by decide)
  · rintro ⟨source, output, hinput, hcompile, houtput⟩
    cases h with
    | unreadable hinput' => exact absurd hinput (hinput' source)
    | refused hinput' hcompile' =>
      obtain rfl := hinput.unique hinput'
      rw [hcompile] at hcompile'
      cases hcompile'
    | unwritable hinput' hcompile' houtput' =>
      obtain rfl := hinput.unique hinput'
      obtain rfl := Except.ok.inj (hcompile.symm.trans hcompile')
      exact absurd houtput houtput'
    | written => rfl

theorem host_write_eq (hcode : outcome.code = 0) {source output : String}
    (hinput : files.Reads before request.input source)
    (hcompile : compile request.style source = .ok output) :
  files.host.write request.output output.toUTF8 before = (.ok (), after)
  := by
  cases h with
  | written hinput' hcompile' houtput =>
    obtain rfl := hinput.unique hinput'
    obtain rfl := Except.ok.inj (hcompile.symm.trans hcompile')
    exact houtput
  | _ => exact absurd hcode (show (1 : UInt32) ≠ 0 by decide)

theorem unchanged (hcode : outcome.code ≠ 0) :
  outcome.code = 1 ∧ after = before
  := by
  cases h with
  | written => exact absurd rfl hcode
  | _ => exact ⟨rfl, rfl⟩

theorem stderr_eq {source : String} {fault : Fault}
    (hinput : files.Reads before request.input source)
    (hcompile : compile request.style source = .error fault) :
  outcome.stderr = Tool.compiler.logged log request (scanEvents source)
    ++ fault.report source request.input
  := by
  cases h with
  | unreadable hinput' => exact absurd hinput (hinput' source)
  | refused hinput' hcompile' =>
    obtain rfl := hinput.unique hinput'
    rw [Except.error.inj (hcompile.symm.trans hcompile')]
  | unwritable hinput' hcompile' _ =>
    obtain rfl := hinput.unique hinput'
    rw [hcompile] at hcompile'
    cases hcompile'
  | written hinput' hcompile' _ =>
    obtain rfl := hinput.unique hinput'
    rw [hcompile] at hcompile'
    cases hcompile'

end Ends

end FileSystem

section Names

variable {disk : Disk} {name : String} (hroute : Route.ofPath name = ⟨[], name, false⟩)
  (hname : ¬ (name = "." ∨ name = ".."))

include hname

theorem Disk.locate_name :
  disk.locate ⟨[], name, false⟩ = .ok [name]
  := locate_eq_ok_iff.mpr ⟨[], rfl, hname, rfl⟩

include hroute

theorem Disk.reads_name {source : String}
    (hnode : disk.node? [name] = some (.file source.toUTF8)) :
  fileSystem.Reads disk name source
  := by
  have hread : disk.read name = .ok source.toUTF8 := by
    simp only [read, hroute, locate_name hname, bind, Except.bind, hnode]
    rfl
  exact ⟨source.toUTF8, hread, dif_pos source.isValidUTF8⟩

theorem Disk.writes_name (hnode : disk.node? [name] = none) (content : ByteArray) :
  fileSystem.Writes disk name content
  := by
  have hwrite : disk.write name content = .ok (disk.put [name] content) := by
    simp only [write, hroute, locate_name hname, bind, Except.bind, hnode]
    rfl
  refine ⟨disk.put [name] content, ?_⟩
  change host.write name content disk = _
  rw [host_write_eq, hwrite]

end Names

/-! ### Arguments -/

/-- The arguments that ask the compiler for the request. -/
def Request.arguments (request : Request) : List String :=
  (if request.debug then ["--debug"] else [])
    ++ (if request.sourceParens then ["--source-parens"] else [])
    ++ ["--output=" ++ request.output, "--", request.input]

/-- A way to read the arguments of the compiler. -/
structure ArgumentReader where
  /-- What the arguments ask for, unless they are wrong. -/
  invocation? : List String → Option Invocation
  /-- An option is read as what it asks for, and so is the path after the options. -/
  invocation?_arguments : ∀ {request : Request}, request.input ≠ "" → request.output ≠ "" →
    invocation? request.arguments = some (.work request)

theorem addArgument_output {draft : Draft} {path : String} (hpath : path ≠ "")
    (houtput : draft.output? = none) :
  draft.addArgument .compiler ("--output=" ++ path) = .more { draft with output? := some path }
  := by
  have htext : ("--output=" ++ path).toList = '-' :: '-' :: ("output=".toList ++ path.toList) := by
    rw [String.toList_append]
    rfl
  have hname : ("output=".toList ++ path.toList).takeWhile (· != '=') = "output".toList := rfl
  have hvalue : ("output=".toList ++ path.toList).dropWhile (· != '=') = '=' :: path.toList := rfl
  simp only [Draft.addArgument, htext, Draft.addLong, hname, hvalue, String.ofList_toList]
  simp [Tool.longSwitch?, Draft.addOutput, hpath, houtput]

theorem invocation?_arguments {request : Request} (hinput : request.input ≠ "")
    (houtput : request.output ≠ "") :
  Tool.compiler.invocation? request.arguments = some (.work request)
  := by
  obtain ⟨input, output, debug, sourceParens⟩ := request
  -- the value joins its option, which is no end of the options
  have hvalue : "--output=" ++ output ≠ "--" := by
    intro h
    have htext := congrArg String.toList h
    rw [String.toList_append] at htext
    simp at htext
  have hdebug : Draft.addArgument .compiler {} "--debug" = .more { debug := true } := rfl
  have hparens (debug : Bool) : Draft.addArgument .compiler { debug := debug } "--source-parens"
      = .more { debug := debug, sourceParens := true } := rfl
  cases debug <;> cases sourceParens <;>
    simp [Request.arguments, Tool.invocation?, Draft.invocation?, hdebug, hparens,
      addArgument_output, hinput, houtput, Draft.finishWith, Draft.addInput, Draft.finish]

/-- The arguments as they are read option by option. -/
def Tool.argumentReader : ArgumentReader where
  invocation? := Tool.compiler.invocation?
  invocation?_arguments := invocation?_arguments

/-- A run with the arguments of a request does the work that the request asks for. -/
theorem FileSystem.ends_answer {σ : Type} (files : FileSystem σ) (reader : ArgumentReader)
    (log : Log) {request : Request} (hnamed : request.input ≠ "" ∧ request.output ≠ "")
    (before : σ) :
  let result := Tool.compiler.answer files.host log (reader.invocation? request.arguments) before
  files.Ends log request before result.1 result.2
  := by
  rw [reader.invocation?_arguments hnamed.1 hnamed.2]
  apply files.ends_work

/-! ### All or nothing -/

/-- A run ends well or changes nothing, where `before` and `after` are the states before and after
it. -/
structure AllOrNothing {σ : Type} (files : FileSystem σ) (log : Log) (request : Request)
    (before : σ) (outcome : Outcome) (after : σ) : Prop where
  /-- The run ends well if the input file can be read, its text spells a program, and the output
  file can be written, and not otherwise. -/
  code_eq_zero_iff : outcome.code = 0
    ↔ ∃ source output, files.Reads before request.input source
        ∧ compile request.style source = .ok output
        ∧ files.Writes before request.output output.toUTF8
  /-- If the run ends well, then the Python text for the source text is all that the output file
  holds, and nothing changed elsewhere. -/
  written : ∀ {source output : String}, outcome.code = 0 →
    files.Reads before request.input source → compile request.style source = .ok output →
    files.Reads after request.output output
      ∧ ∃ place, files.place? before request.output = some place
          ∧ files.node? after place = some (.file output.toUTF8)
          ∧ ∀ other, other ≠ place → files.node? after other = files.node? before other
  /-- If the run does not end well, then nothing changed. -/
  unchanged : outcome.code ≠ 0 → outcome.code = 1 ∧ after = before
  /-- What is said about a source text that spells no program comes after what was logged. -/
  reported : ∀ {source : String} {fault : Fault}, files.Reads before request.input source →
    compile request.style source = .error fault →
    outcome.stderr = Tool.compiler.logged log request (scanEvents source)
      ++ fault.report source request.input
  /-- It stands alone, unless the environment asks for a log or the tokens are shown. -/
  reported_alone : ∀ {source : String} {fault : Fault}, files.Reads before request.input source →
    compile request.style source = .error fault → log.directives? = none →
    (request.debug = true → tokenize source = .error fault) →
    outcome.stderr = fault.report source request.input

/-- A run of the compiler that is asked to do its work either ends well, and then it wrote the whole
of the output file and nothing else, or changes nothing. -/
theorem run_all_or_nothing {σ : Type} (files : FileSystem σ) (reader : ArgumentReader) (log : Log)
    {request : Request} (hnamed : request.input ≠ "" ∧ request.output ≠ "") (before : σ) :
  let result := Tool.compiler.answer files.host log (reader.invocation? request.arguments) before
  AllOrNothing files log request before result.1 result.2
  := by
  have hends := files.ends_answer reader log hnamed before
  constructor
  case code_eq_zero_iff => apply hends.code_eq_zero_iff
  case written =>
    intro source output hcode hinput hcompile
    have hwrite := hends.host_write_eq hcode hinput hcompile
    exact ⟨⟨output.toUTF8, files.read_of_write hwrite, dif_pos output.isValidUTF8⟩,
      files.write_ok hwrite⟩
  case unchanged => apply hends.unchanged
  case reported =>
    intro source fault hinput hcompile
    apply hends.stderr_eq hinput hcompile
  case reported_alone =>
    intro source fault hinput hcompile hdirectives hdebug
    have hstderr := hends.stderr_eq hinput hcompile
    rwa [logged_scanEvents hdirectives hdebug, String.empty_append] at hstderr

/-- A program is written with both switches on.  With none, the report on a text that spells no
program stands alone. -/
theorem run_all_or_nothing_two_files :
  let disk : Disk := ⟨[(["a.txt"], .file "x = 1;".toUTF8), (["b.txt"], .file "x = ;".toUTF8)]⟩
  let log : Log := .lines "2026-01-05T10:00:00.000000Z" "41.5µs" none
  let run (request : Request) := Tool.compiler.answer Disk.host log
    (Tool.argumentReader.invocation? request.arguments) disk
  let good : Request := ⟨"a.txt", "salida.py", true, true⟩
  let bad : Request := ⟨"b.txt", "salida.py", false, false⟩
  AllOrNothing Disk.fileSystem log good disk (run good).1 (run good).2
    ∧ AllOrNothing Disk.fileSystem log bad disk (run bad).1 (run bad).2
    ∧ (run good).1.code = 0
    ∧ (run bad).1.stderr
      = "SyntaxError: syntax error at line 1, column 5: expected an expression, found `;`\n"
        ++ "-> b.txt\n  |\n1 | x = ;\n  | ----^\n"
  := by
  intro disk log run good bad
  have hgood : AllOrNothing Disk.fileSystem log good disk (run good).1 (run good).2 :=
    run_all_or_nothing Disk.fileSystem Tool.argumentReader log (by decide) disk
  have hbad : AllOrNothing Disk.fileSystem log bad disk (run bad).1 (run bad).2 :=
    run_all_or_nothing Disk.fileSystem Tool.argumentReader log (by decide) disk
  have hprogram : compile good.style "x = 1;" = .ok "x = 1\n" := by decide +kernel
  have hfault : compile bad.style "x = ;"
      = .error ⟨.unexpected "an expression" "`;`", ⟨4, 1, 5⟩⟩ := by decide +kernel
  refine ⟨hgood, hbad, hgood.code_eq_zero_iff.mpr ⟨_, _, ?_, hprogram, ?_⟩, ?_⟩
  · apply Disk.reads_name (by decide +kernel) (by decide) rfl
  · apply Disk.writes_name (by decide +kernel) (by decide) rfl
  · have hinput : Disk.fileSystem.Reads disk bad.input "x = ;" :=
      Disk.reads_name (by decide +kernel) (by decide) rfl
    rw [hbad.reported_alone hinput hfault rfl nofun]
    decide +kernel

/-- With `--debug` the report on tokens that spell no program does not stand alone: lines about the
tokens come before it, although the environment asks for no log. -/
theorem stderr_ne_report_of_debug :
  let disk : Disk := ⟨[(["a.txt"], .file "x = ;".toUTF8)]⟩
  let log : Log := .lines "2026-01-05T10:00:00.000000Z" "41.5µs" none
  let request : Request := ⟨"a.txt", "salida.py", true, false⟩
  let outcome := (Tool.compiler.answer Disk.host log
    (Tool.argumentReader.invocation? request.arguments) disk).1
  ∃ fault, Disk.fileSystem.Reads disk request.input "x = ;"
    ∧ compile request.style "x = ;" = .error fault
    ∧ outcome.stderr
      = "2026-01-05T10:00:00.000000Z DEBUG transpiler::lexer::lexer: scanned source tokens=4\n"
        ++ "2026-01-05T10:00:00.000000Z DEBUG transpiler: tokenized elapsed=41.5µs\n"
        ++ fault.report "x = ;" request.input
    ∧ outcome.stderr ≠ fault.report "x = ;" request.input
  := by
  intro disk log request outcome
  have hinput : Disk.fileSystem.Reads disk request.input "x = ;" :=
    Disk.reads_name (by decide +kernel) (by decide) rfl
  have hfault : compile request.style "x = ;"
      = .error ⟨.unexpected "an expression" "`;`", ⟨4, 1, 5⟩⟩ := by decide +kernel
  have hlogged : Tool.compiler.logged log request (scanEvents "x = ;")
      = "2026-01-05T10:00:00.000000Z DEBUG transpiler::lexer::lexer: scanned source tokens=4\n"
        ++ "2026-01-05T10:00:00.000000Z DEBUG transpiler: tokenized elapsed=41.5µs\n" := by
    decide +kernel
  have hstderr : outcome.stderr = _ :=
    (Disk.fileSystem.ends_answer Tool.argumentReader log (by decide) disk).stderr_eq hinput hfault
  rw [hlogged] at hstderr
  refine ⟨_, hinput, hfault, hstderr, ?_⟩
  rw [hstderr]
  decide +kernel

end Mientras
