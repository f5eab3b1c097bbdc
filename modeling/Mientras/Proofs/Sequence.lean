import Mathlib.Tactic.Common
import Mientras.Compile
import Mientras.Proofs.Complete
import Mientras.Proofs.Lookahead
import Mientras.Proofs.Newline

/-!
# Sources one after the other

When a source compiles, what follows it after a newline compiles as it does alone, and is refused as
it is alone (`compile_newline`).  The statements of the first source are read as before, save that
the last of them may take a semicolon from the front of the second source; since a semicolon alone
is no statement, this makes no difference.  Only an alternative at the front of the second source
may belong to a conditional at the end of the first.
-/

namespace Mientras

namespace Grammar

variable {depth : Nat} {inFunction : Bool}

theorem Statements.cons_append {first second third : List Token} {stmts body others : List Stmt}
    (h : Statement depth inFunction first stmts)
    (hs : Statements depth inFunction (second ++ third) (body ++ others)) :
  Statements depth inFunction (first ++ second ++ third) (stmts ++ body ++ others)
  := by
  rw [List.append_assoc, List.append_assoc]
  apply Statements.cons h hs

theorem Statements.append {second : List Token} {others : List Stmt}
    (hs : Statements depth inFunction second others) :
  ∀ {first : List Token} {body : List Stmt}, Statements depth inFunction first body →
    Statements depth inFunction (first ++ second) (body ++ others)
  | _, _, .nil => hs
  | _, _, .cons h hfirst => Statements.cons_append h (Statements.append hs hfirst)

end Grammar

namespace Read

open Grammar

/-! ### Runs that end in a failure -/

theorem Runs.trans {read : Read (List Stmt)} {cursor next last : Cursor} {body others : List Stmt}
    (h : Runs read cursor body next) (h' : Runs read next others last) :
  Runs read cursor (body ++ others) last
  := by
  induction h with
  | nil => exact h'
  | cons hclose hend hread hlength _ ih =>
    rw [List.append_assoc]
    apply Runs.cons hclose hend hread hlength (ih h')

/-- A failure before the end of the input comes after a run. -/
theorem exists_runs_of_stmtsToEnd {read : Read (List Stmt)} (hsound : Sound read Statement)
    {count : Nat} {cursor last : Cursor} {fault : Fault} (hvalid : cursor.Valid)
    (h : stmtsToEnd read count cursor = .error fault last) :
  ∃ body next, Runs read cursor body next ∧ next.rest ≠ [] ∧ read next = .error fault last
  := by
  induction count generalizing cursor with
  | zero => simp [stmtsToEnd, pure, EStateM.pure] at h
  | succ count ih =>
    cases hrest : cursor.rest with
    | nil =>
      rw [stmtsToEnd_of_nil hrest] at h
      simp at h
    | cons token rest =>
      rw [stmtsToEnd_of_cons hrest] at h
      cases hread : read cursor with
      | error fault' last' =>
        rw [bind_of_error hread] at h
        obtain ⟨rfl, rfl⟩ := EStateM.Result.error.inj h
        exact ⟨[], cursor, Runs.nil, by simp [hrest], hread⟩
      | ok stmts next =>
        rw [bind_of_ok hread] at h
        obtain ⟨hstarts, rest', rfl, hlength⟩ := hsound.starts hvalid hread
        cases hothers : stmtsToEnd read count (cursor.withRest rest') with
        | ok others last' =>
          rw [bind_of_ok hothers] at h
          contradiction
        | error fault' last' =>
          rw [bind_of_error hothers] at h
          obtain ⟨rfl, rfl⟩ := EStateM.Result.error.inj h
          obtain ⟨body, next, hruns, hne, hnext⟩ := ih (hvalid.withRest _) hothers
          refine ⟨stmts ++ body, next, Runs.cons ?_ ?_ hread hlength hruns, hne, hnext⟩
          · intro hkind
            simp [StartsStatement, hkind, Kind.form] at hstarts
          · intro hkind
            simp [StartsStatement, hkind, Kind.form] at hstarts

theorem Runs.stmtsToEnd_of_error {read : Read (List Stmt)} {cursor next last : Cursor}
    {body : List Stmt} {fault : Fault} (h : Runs read cursor body next) (hne : next.rest ≠ [])
    (hnext : read next = .error fault last) :
  ∀ {count : Nat}, cursor.rest.length ≤ count →
    Read.stmtsToEnd read count cursor = .error fault last
  := by
  induction h with
  | nil =>
    intro count hcount
    obtain ⟨token, rest, hrest⟩ := List.exists_cons_of_ne_nil hne
    rw [hrest, List.length_cons] at hcount
    obtain ⟨count, rfl⟩ : ∃ n, count = n + 1 := ⟨count - 1, by omega⟩
    rw [stmtsToEnd_of_cons hrest, bind_of_error hnext]
  | @cons cursor _ _ _ _ _ _ hread hlength _ ih =>
    intro count hcount
    obtain ⟨token, rest, hrest⟩ := List.exists_cons_of_ne_nil
      (List.ne_nil_of_length_pos (show 0 < cursor.rest.length by omega))
    obtain ⟨count, rfl⟩ : ∃ n, count = n + 1 := ⟨count - 1, by omega⟩
    rw [stmtsToEnd_of_cons hrest, bind_of_ok hread, bind_of_error (ih hne hnext (by omega))]

/-- A run that ends in a failure goes past a semicolon in front of it, which is no statement. -/
theorem Runs.tail_of_semicolon {block : Scope → Read (List Stmt)} {cursor next last : Cursor}
    {ending : Token} {rest : List Token} {body : List Stmt} {fault : Fault}
    (h : Runs (whole (stmtOf block)) cursor body next)
    (hnext : whole (stmtOf block) next = .error fault last) (hrest : cursor.rest = ending :: rest)
    (hending : ending.kind = .semicolon) :
  Runs (whole (stmtOf block)) (cursor.withRest rest) body next
  := by
  have hread : whole (stmtOf block) cursor = .ok [] (cursor.withRest rest) := by
    rw [whole_stmtOf, kind_bind, Cursor.kind_of_cons hrest, hending]
    apply ok_bind (advance_of_cons hrest)
    rfl
  cases h with
  | nil =>
    rw [hread] at hnext
    contradiction
  | cons _ _ hread' _ hothers =>
    rw [hread] at hread'
    obtain ⟨rfl, rfl⟩ := EStateM.Result.ok.inj hread'
    exact hothers

theorem program_eq_error_iff {cursor last : Cursor} {fault : Fault} :
  program cursor = .error fault last
    ↔ stmtsToEnd (whole stmt) cursor.rest.length cursor = .error fault last
  := by
  rw [program, get_bind]
  cases hbody : stmtsToEnd (whole stmt) cursor.rest.length cursor with
  | ok body next =>
    rw [bind_of_ok hbody]
    constructor <;> intro h <;> contradiction
  | error fault' next => rw [bind_of_error hbody]; simp

/-- Statements before tokens that are refused do not change why and where they are refused, unless
an alternative stands first. -/
theorem program_of_statements {cursor last : Cursor} {fault : Fault} {tokens : List Token}
    {body : List Stmt} (hvalid : cursor.Valid) (hdepth : cursor.depth = 0)
    (hfunction : cursor.inFunction = false) (hnext : cursor.kind ≠ .sino)
    (h : Statements 0 false tokens body) (herror : program cursor = .error fault last) :
  program (cursor.withRest (tokens ++ cursor.rest)) = .error fault last
  := by
  have hsound : Sound (whole stmt) Statement := sound_stmtOf (sound_blockWithin _)
  obtain ⟨others, next, hothers, hne, hfails⟩ :=
    exists_runs_of_stmtsToEnd hsound hvalid (program_eq_error_iff.mp herror)
  obtain ⟨rest, hrest, hbody⟩ := (runsOver_of_statements (complete_blockWithin (maxDepth + 1))
    hvalid hdepth (by omega) hfunction hnext h).runs
  have hothers : Runs (whole stmt) (cursor.withRest rest) others next := by
    obtain rfl | ⟨ending, hrest, hending⟩ := hrest
    · exact hothers
    · apply hothers.tail_of_semicolon hfails hrest hending
  apply program_eq_error_iff.mpr
  apply (hbody.trans hothers).stmtsToEnd_of_error hne hfails (Nat.le_refl _)

end Read

/-! ### Tokens one after the other -/

section

variable {front others : List Token} (hfront : ∀ token ∈ front, token.isEnd = false)

include hfront

theorem takeWhile_append_tokens :
  (front ++ others).takeWhile (!·.isEnd) = front ++ others.takeWhile (!·.isEnd)
  := by
  apply List.takeWhile_append_of_pos
  simpa using hfront

/-- Tokens that spell programs spell the programs together. -/
theorem ofTokens_append_of_ok {first second : Program} (h : Grammar.Derives front first)
    (hothers : Program.ofTokens others = .ok second) :
  Program.ofTokens (front ++ others) = .ok ⟨first.body ++ second.body⟩
  := by
  apply Grammar.ofTokens_eq_ok_iff.mpr
  rw [takeWhile_append_tokens hfront]
  apply Grammar.Statements.append (Grammar.ofTokens_eq_ok_iff.mp hothers) h

/-- Tokens that spell a program do not change why and where those after them are refused. -/
theorem ofTokens_append_of_error {first : Program} {fault : Fault}
    (h : Grammar.Derives front first) (hend : ∃ token ∈ others, token.isEnd = true)
    (hkind : (Cursor.ofTokens others).kind ≠ .sino)
    (hothers : Program.ofTokens others = .error fault) :
  Program.ofTokens (front ++ others) = .error fault
  := by
  have hstop : Cursor.stopOf (front ++ others) = Cursor.stopOf others := by
    obtain ⟨stop, hstop⟩ := Option.isSome_iff_exists.mp (List.find?_isSome.mpr hend)
    rw [Cursor.stopOf, Cursor.stopOf, List.find?_append,
      List.find?_eq_none.mpr (by simpa using hfront), hstop]
    rfl
  have hcursor : Cursor.ofTokens (front ++ others)
      = (Cursor.ofTokens others).withRest (front ++ (Cursor.ofTokens others).rest) := by
    rw [Cursor.ofTokens, hstop, takeWhile_append_tokens hfront]
    rfl
  rw [Program.ofTokens] at hothers
  split at hothers
  · simp at hothers
  · rename_i last hprogram
    obtain rfl := Except.error.inj hothers
    rw [Program.ofTokens, hcursor,
      Read.program_of_statements (Cursor.valid_ofTokens others) rfl rfl hkind h hprogram]

end

/-- An alternative that stands first is refused. -/
theorem ofTokens_of_sino {tokens : List Token} (h : (Cursor.ofTokens tokens).kind = .sino) :
  ∃ token, tokens.head? = some token
    ∧ Program.ofTokens tokens = .error ⟨.strayAlternative, token.span.start⟩
  := by
  obtain ⟨token, rest, hrest, _⟩ :=
    Cursor.rest_eq_of_kind (Cursor.valid_ofTokens tokens) (by simp [h])
  have hfail : Read.whole Read.stmt (Cursor.ofTokens tokens)
      = .error ⟨.strayAlternative, token.span.start⟩ (Cursor.ofTokens tokens) := by
    rw [Read.stmt, Read.whole_stmtOf, Read.kind_bind, h]
    simp only [Kind.form, Read.fail, Cursor.current, hrest, List.headD_cons]
  use token
  constructor
  · have hhead : tokens.takeWhile (!·.isEnd) = token :: rest := hrest
    cases tokens with
    | nil => simp at hhead
    | cons first tokens =>
      rw [List.takeWhile_cons] at hhead
      split at hhead
      · rw [List.head?_cons, (List.cons.inj hhead).1]
      · simp at hhead
  · have hprogram := Read.program_eq_error_iff.mpr
      (Read.Runs.nil.stmtsToEnd_of_error (by simp [hrest]) hfail (Nat.le_refl _))
    rw [Program.ofTokens, hprogram]

/-! ### Sources one after the other -/

theorem toEnd_after {second : String} {tokens : List Token} (h : tokenize second = .ok tokens)
    (first : String) :
  (Cursor.ofTokens (tokens.map (·.after first))).toEnd = tokens.map (·.after first)
  := by
  obtain ⟨lexemes, hscans, rfl⟩ := tokenize_eq_ok_iff.mp h
  rw [List.map_append]
  apply Cursor.toEnd_ofTokens
  · rw [List.forall_mem_map]
    exact hscans.isEnd_kept _
  · rfl

theorem ahead_after {second : String} {tokens : List Token} (h : tokenize second = .ok tokens)
    (first : String) :
  (Cursor.ofTokens tokens).ahead = (Cursor.ofTokens (tokens.map (·.after first))).ahead
  := by
  rw [Cursor.ahead, Cursor.ahead, toEnd_of_tokenize h, toEnd_after h, List.map_map]
  rfl

/-- A source is refused for the same cause after another one and a newline. -/
theorem ofTokens_after {second : String} {tokens : List Token} (h : tokenize second = .ok tokens)
    (first : String) :
  Program.ofTokens (tokens.map (·.after first))
    = match Program.ofTokens tokens with
      | .ok program => .ok program
      | .error fault => .error (fault.after first)
  := by
  have hprogram := corresponds_ofTokens (ahead_after h first)
  rw [toEnd_of_tokenize h, toEnd_after h] at hprogram
  generalize Program.ofTokens tokens = result at hprogram
  generalize Program.ofTokens (tokens.map (·.after first)) = result' at hprogram
  cases hprogram with
  | ok program => rfl
  | error cause htoken hother =>
    rw [List.getElem?_map, htoken] at hother
    obtain rfl := Option.some.inj hother
    rfl

/-- A source that is read as a program has tokens, and those before the end spell the program. -/
theorem exists_kept_of_ofSource {source : String} {program : Program}
    (h : Program.ofSource source = .ok program) :
  ∃ lexemes, Scans source.toList lexemes ∧ Grammar.Derives (kept .start lexemes) program
  := by
  rw [Program.ofSource] at h
  cases htokens : tokenize source with
  | error fault =>
    rw [htokens] at h
    contradiction
  | ok tokens =>
    rw [htokens] at h
    obtain ⟨lexemes, hscans, rfl⟩ := tokenize_eq_ok_iff.mp htokens
    use lexemes, hscans
    have hderives := Grammar.ofTokens_eq_ok_iff.mp h
    rw [takeWhile_append_tokens (hscans.isEnd_kept _)] at hderives
    simpa using hderives

/-- What follows a source that is read as a program, after a newline, is read as it is alone, or is
refused as it is alone, unless an alternative stands first in it. -/
theorem ofSource_newline {first second : String} {program : Program}
    (h : Program.ofSource first = .ok program)
    (hsecond : ∀ tokens, tokenize second = .ok tokens → (Cursor.ofTokens tokens).kind ≠ .sino) :
  Program.ofSource (first ++ "\n" ++ second)
    = match Program.ofSource second with
      | .ok other => .ok ⟨program.body ++ other.body⟩
      | .error fault => .error (fault.after first)
  := by
  obtain ⟨lexemes, hscans, hderives⟩ := exists_kept_of_ofSource h
  have hfront := hscans.isEnd_kept .start
  rw [Program.ofSource, Program.ofSource, tokenize_newline hscans]
  cases htokens : tokenize second with
  | error fault => rfl
  | ok tokens =>
    have hafter := ofTokens_after htokens first
    change Program.ofTokens (kept .start lexemes ++ tokens.map (·.after first))
      = match Program.ofTokens tokens with
        | .ok other => .ok ⟨program.body ++ other.body⟩
        | .error fault => .error (fault.after first)
    cases hprogram : Program.ofTokens tokens with
    | ok other =>
      rw [hprogram] at hafter
      apply ofTokens_append_of_ok hfront hderives hafter
    | error fault =>
      rw [hprogram] at hafter
      apply ofTokens_append_of_error hfront hderives _ _ hafter
      · obtain ⟨_, _, rfl⟩ := tokenize_eq_ok_iff.mp htokens
        exact ⟨_, List.mem_map_of_mem (List.mem_append_right _ List.mem_cons_self), rfl⟩
      · have hhead := congrArg List.head? (ahead_after htokens first)
        rw [Cursor.head_ahead, Cursor.head_ahead] at hhead
        have hkind : (Cursor.ofTokens tokens).kind
            = (Cursor.ofTokens (tokens.map (·.after first))).kind :=
          congrArg Lexeme.kind (Option.some.inj hhead)
        rw [← hkind]
        apply hsecond tokens htokens

/-- What follows a source that compiles, after a newline, compiles as it does alone, or is refused
as it is alone.  Only an alternative that stands first in it may be refused alone and not there. -/
theorem compile_newline {style : Style} {first text : String}
    (h : compile style first = .ok text) (second : String) :
  (∀ more, compile style second = .ok more →
      compile style (first ++ "\n" ++ second) = .ok (text ++ more))
    ∧ ∀ fault, compile style second = .error fault →
        (∀ tokens token, tokenize second = .ok tokens → tokens.head? = some token →
          fault ≠ ⟨.strayAlternative, token.span.start⟩) →
        compile style (first ++ "\n" ++ second) = .error (fault.after first)
  := by
  rw [compile] at h
  cases hfirst : Program.ofSource first with
  | error fault =>
    rw [hfirst] at h
    contradiction
  | ok program =>
    rw [hfirst] at h
    obtain rfl := Except.ok.inj h
    -- an alternative in front is a failure of the kind that is left out
    have hsino {tokens : List Token} (htokens : tokenize second = .ok tokens)
        (hkind : (Cursor.ofTokens tokens).kind = .sino) :
        ∃ token, tokens.head? = some token
          ∧ compile style second = .error ⟨.strayAlternative, token.span.start⟩ := by
      obtain ⟨token, hhead, hfault⟩ := ofTokens_of_sino hkind
      use token, hhead
      rw [compile, Program.ofSource, htokens]
      change (Program.ofTokens tokens).map _ = _
      rw [hfault]
      rfl
    constructor
    · intro more hmore
      have hplain : ∀ tokens, tokenize second = .ok tokens → (Cursor.ofTokens tokens).kind ≠ .sino
          := by
        intro tokens htokens hkind
        obtain ⟨token, _, hfault⟩ := hsino htokens hkind
        rw [hmore] at hfault
        contradiction
      rw [compile] at hmore ⊢
      rw [ofSource_newline hfirst hplain]
      cases hsecond : Program.ofSource second with
      | error fault =>
        rw [hsecond] at hmore
        contradiction
      | ok other =>
        rw [hsecond] at hmore
        obtain rfl := Except.ok.inj hmore
        simp only [Except.map, Program.toPython, Stmt.listToPython_append]
    · intro fault hfault hother
      have hplain : ∀ tokens, tokenize second = .ok tokens → (Cursor.ofTokens tokens).kind ≠ .sino
          := by
        intro tokens htokens hkind
        obtain ⟨token, hhead, hfault'⟩ := hsino htokens hkind
        rw [hfault] at hfault'
        exact hother tokens token htokens hhead (Except.error.inj hfault')
      rw [compile] at hfault ⊢
      rw [ofSource_newline hfirst hplain]
      cases hsecond : Program.ofSource second with
      | ok other =>
        rw [hsecond] at hfault
        contradiction
      | error fault' =>
        rw [hsecond] at hfault
        obtain rfl := Except.error.inj hfault
        rfl

/-- A call that ends in a comment gets its semicolon from the next source; an unknown character two
lines on is refused with its own line and column. -/
theorem compile_call_and_newline :
  compile ⟨"  ", true⟩ ("f(1)//c" ++ "\n" ++ ";g()") = .ok ("f(1)\n" ++ "g()\n")
    ∧ compile ⟨"  ", true⟩ ("f(1)//c" ++ "\n" ++ ";\n x=@")
      = .error ⟨.unrecognised '@' " x=@" 4, ⟨13, 3, 4⟩⟩
  := by
  have hfirst : compile ⟨"  ", true⟩ "f(1)//c" = .ok "f(1)\n" := by decide +kernel
  constructor
  · apply (compile_newline hfirst ";g()").1
    decide +kernel
  · have hsecond : compile ⟨"  ", true⟩ ";\n x=@"
        = .error ⟨.unrecognised '@' " x=@" 4, ⟨5, 2, 4⟩⟩ := by
      decide +kernel
    apply (compile_newline hfirst ";\n x=@").2 _ hsecond
    intro tokens token _ _
    simp

end Mientras
