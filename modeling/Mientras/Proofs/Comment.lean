import Mathlib.Tactic.Common
import Mientras.Proofs.Truncation

/-!
# The ends of block comments

A block comment starts with a slash and a star and ends with the first star and slash that stand
after them.  Before the rules of the language are tried, a scanner looks whether there is such an
end at all, and the rule for block comments looks for it again.  Both agree: where a comment starts,
either it is found up to its first end, or the source is refused there
(`block_comment_ends_at_first_close`).  So no part of a comment is taken for operators.
-/

namespace Mientras

open Text

/-- The first star and slash of the text stand between `inside` and `more`. -/
structure FirstClose (text inside more : List Char) : Prop where
  text_eq : text = inside ++ '*' :: '/' :: more
  first : ∀ before after, text = before ++ '*' :: '/' :: after → inside.length ≤ before.length

namespace Rule

/-! ### The first end of a comment -/

theorem exists_firstClose {text : List Char} {n : Nat} (h : commentClose? text = some n) :
  ∃ inside more, FirstClose text inside more ∧ n = inside.length + 2
  := by
  induction text using commentClose?.induct generalizing n with
  | case1 => simp [commentClose?] at h
  | case2 rest =>
    obtain rfl := Option.some.inj h
    exact ⟨[], rest, ⟨rfl, by simp⟩, rfl⟩
  | case3 c rest hc ih =>
    rw [commentClose?] at h
    · obtain ⟨m, hm, rfl⟩ := Option.map_eq_some_iff.mp h
      obtain ⟨inside, more, hclose, rfl⟩ := ih hm
      refine ⟨c :: inside, more, ⟨by rw [hclose.text_eq, List.cons_append], ?_⟩, rfl⟩
      intro before after htext
      cases before with
      | nil =>
        obtain ⟨rfl, rfl⟩ := List.cons.inj htext
        exact absurd rfl (hc after rfl)
      | cons d before =>
        have hle := hclose.first before after (List.cons.inj htext).2
        simpa using hle
    · exact hc

theorem commentClose?_eq_none_iff {text : List Char} :
  commentClose? text = none ↔ ¬ ['*', '/'] <:+: text
  := by
  induction text using commentClose?.induct with
  | case1 => simp [commentClose?]
  | case2 rest =>
    simp only [commentClose?, reduceCtorEq, false_iff, not_not]
    exact ⟨[], rest, rfl⟩
  | case3 c rest hc ih =>
    have hfront : ¬ ['*', '/'] <+: c :: rest := by
      rintro ⟨after, hafter⟩
      obtain ⟨rfl, rfl⟩ := List.cons.inj hafter
      exact hc after rfl rfl
    rw [commentClose?, Option.map_eq_none_iff, ih, List.infix_cons_iff, not_or]
    · simp [hfront]
    · exact hc

/-- Where a comment starts, only the rule for block comments and the sign find anything. -/
theorem firstMatch?_of_comment (after : List Char) :
  firstMatch? ('/' :: '*' :: after)
    = ((commentClose? after).map fun n => (Kind.blockComment, n + 2)).or (some (.slash, 1))
  := by
  have hclass : classOf '/' = .sign := by decide
  have hline : lineCommentLength? ('/' :: '*' :: after) = none := rfl
  have hsign : Kind.signs.find? (·.1.toList.isPrefixOf ('/' :: '*' :: after))
      = some ("/", .slash) := rfl
  rw [firstMatch?_of_signClass rfl hclass, hline, hsign, blockCommentLength?, Option.map_map]
  rfl

end Rule

/-- The guard of the scanner and the rule for block comments agree. -/
theorem isUnterminated_eq (after : List Char) :
  Scanner.isUnterminated ('/' :: '*' :: after) = (Rule.commentClose? after).isNone
  := by
  have hguard : Scanner.isUnterminated ('/' :: '*' :: after) = !hasInfix ['*', '/'] after := rfl
  rw [hguard, Bool.eq_iff_iff, Bool.not_eq_true', Bool.eq_false_iff, Ne, hasInfix_iff,
    Option.isNone_iff_eq_none, Rule.commentClose?_eq_none_iff]

/-! ### Lexemes -/

theorem Written.of_slash {text : List Char} (h : Written .slash text) :
  text = ['/']
  := by
  have hwords : ∀ word ∈ Kind.words, word.2 ≠ .slash := by decide
  have hsigns : ∀ sign ∈ Kind.signs, sign.2 = .slash → sign.1.toList = ['/'] := by decide
  generalize hkind : Kind.slash = kind at h
  cases h with
  | word h => exact absurd hkind.symm (hwords _ h)
  | sign h => exact hsigns _ h hkind.symm
  | _ => cases hkind

/-- A block comment has no end before its own, but for a slash that follows its start. -/
theorem Written.of_blockComment {text : List Char} (h : Written .blockComment text) :
  ∃ inside, text = '/' :: '*' :: inside ++ ['*', '/']
    ∧ ∀ before after, text = before ++ '*' :: '/' :: after → before = ['/'] ∨ after = []
  := by
  have hothers : ∀ word ∈ Kind.words ++ Kind.signs, word.2 ≠ .blockComment := by decide
  generalize hkind : Kind.blockComment = kind at h
  cases h with
  | word h => exact absurd hkind.symm (hothers _ (List.mem_append_left _ h))
  | sign h => exact absurd hkind.symm (hothers _ (List.mem_append_right _ h))
  | @blockComment text h =>
    obtain ⟨inside, more, hclose, hlength⟩ := Rule.exists_firstClose h
    have htext := hclose.text_eq
    obtain rfl : more = [] := by
      rw [htext] at hlength
      simpa using hlength
    refine ⟨inside, by rw [htext]; rfl, ?_⟩
    intro before after hsplit
    match before with
    | [] => cases hsplit
    | [c] =>
      obtain ⟨rfl, _⟩ := List.cons.inj hsplit
      exact .inl rfl
    | c :: d :: before =>
      right
      have hsplit : text = before ++ '*' :: '/' :: after :=
        (List.cons.inj (List.cons.inj hsplit).2).2
      have hle := hclose.first before after hsplit
      rw [hsplit] at htext
      have hlengths := congrArg List.length htext
      simp only [List.length_append, List.length_cons, List.length_nil] at hlengths
      exact List.length_eq_zero_iff.mp (by omega)
  | _ => cases hkind

/-- A slash is found only where neither a slash nor a star follows it. -/
theorem Lexeme.Fronts.of_slash {lexeme : Lexeme} {rest : List Char} (h : lexeme.Fronts rest)
    (hkind : lexeme.kind = .slash) :
  lexeme.text = ['/'] ∧ ∀ c ∈ rest.head?, c ≠ '/' ∧ c ≠ '*'
  := by
  have hwritten := h.written
  rw [hkind] at hwritten
  have htext := hwritten.of_slash
  obtain ⟨hterminated, hmatch⟩ := h
  rw [htext, hkind, List.singleton_append] at hmatch
  rw [htext, List.singleton_append] at hterminated
  refine ⟨htext, fun c hc => ?_⟩
  obtain ⟨after, rfl⟩ := List.head?_eq_some_iff.mp hc
  constructor
  · rintro rfl
    have hclass : classOf '/' = .sign := by decide
    rw [Rule.firstMatch?_of_signClass rfl hclass, Rule.lineCommentLength?] at hmatch
    cases hmatch
  · rintro rfl
    rw [isUnterminated_eq] at hterminated
    obtain ⟨n, hn⟩ := Option.isSome_iff_exists.mp (by simpa using hterminated)
    rw [Rule.firstMatch?_of_comment, hn] at hmatch
    cases hmatch

/-- Every token of a source but the end of the input is what is found in front of what follows it.
-/
theorem Scans.exists_fronts {text : List Char} {lexemes : List Lexeme} (h : Scans text lexemes)
    {position : Position} {token : Token} (htoken : token ∈ placed position lexemes)
    (hkind : token.kind ≠ .endOfInput) :
  ∃ before after, text = before ++ token.value.toList ++ after
    ∧ token.span = ⟨position.past before, position.past (before ++ token.value.toList)⟩
    ∧ token.lexeme.Fronts after
  := by
  induction h generalizing position with
  | nil =>
    obtain rfl := List.mem_singleton.mp htoken
    exact absurd rfl hkind
  | @cons lexeme rest lexemes hfronts _ ih =>
    rcases List.mem_cons.mp htoken with rfl | htoken
    · exact ⟨[], rest, rfl, rfl, hfronts⟩
    · obtain ⟨before, after, htext, hspan, hfronts⟩ := ih htoken
      refine ⟨lexeme.text ++ before, after, ?_, ?_, hfronts⟩
      · rw [htext, List.append_assoc, List.append_assoc, List.append_assoc]
      · simp only [hspan, List.append_assoc, Position.past_append]

/-! ### Whole sources -/

/-- Where the scanner stands before a slash, a star and the text `after`, it takes the block comment
up to its first end. -/
def Scanner.TakesComment (scanner : Scanner) (after : List Char) : Prop :=
  ∃ inside more, FirstClose after inside more
    ∧ Rule.firstMatch? scanner.rest
      = some (.blockComment, ('/' :: '*' :: inside ++ ['*', '/']).length)
    ∧ scanner.step
      = .ok (scanner.record .blockComment ('/' :: '*' :: inside ++ ['*', '/']) more)

/-- The token is no slash that a comment starts with, and no comment that goes on after its end. -/
structure Token.KeepsComments (source : String) (token : Token) : Prop where
  /-- Neither a slash nor a star follows a slash. -/
  slash : token.kind = .slash → ∃ before after, source.toList = before ++ '/' :: after
    ∧ token.span = ⟨Position.start.past before, Position.start.past (before ++ ['/'])⟩
    ∧ ∀ c ∈ after.head?, c ≠ '/' ∧ c ≠ '*'
  /-- A star and a slash stand only at the end of a block comment, or share the star with its start.
  -/
  block : token.kind = .blockComment → ∃ inside,
    token.value.toList = '/' :: '*' :: inside ++ ['*', '/']
      ∧ ∀ before after, token.value.toList = before ++ '*' :: '/' :: after →
        before = ['/'] ∨ after = []

namespace Scanner

variable {scanner : Scanner} {after : List Char} (hrest : scanner.rest = '/' :: '*' :: after)

include hrest

theorem takesComment_of_infix (h : ['*', '/'] <:+: after) :
  scanner.TakesComment after
  := by
  obtain ⟨n, hn⟩ := Option.ne_none_iff_exists'.mp fun hnone =>
    Rule.commentClose?_eq_none_iff.mp hnone h
  obtain ⟨inside, more, hclose, rfl⟩ := Rule.exists_firstClose hn
  let lexeme : Lexeme := ⟨.blockComment, String.ofList ('/' :: '*' :: inside ++ ['*', '/'])⟩
  have htext : lexeme.text = '/' :: '*' :: inside ++ ['*', '/'] := String.toList_ofList
  have hparts : scanner.rest = lexeme.text ++ more := by
    rw [hrest, htext, hclose.text_eq]
    simp
  have hmatch : Rule.firstMatch? scanner.rest = some (lexeme.kind, lexeme.text.length) := by
    rw [hrest, Rule.firstMatch?_of_comment, hn, htext]
    simp [lexeme]
  have hfronts : lexeme.Fronts more := by
    rw [Lexeme.Fronts, ← hparts, hmatch, hrest, isUnterminated_eq, hn]
    exact ⟨rfl, rfl⟩
  have hstep := step_of_fronts hparts hfronts
  rw [htext] at hmatch hstep
  exact ⟨inside, more, hclose, hmatch, hstep⟩

theorem step_of_not_infix (h : ¬ ['*', '/'] <:+: after) :
  scanner.step = .error (scanner.fault .unterminated)
  := by
  rw [step_eq_error_iff, hrest, isUnterminated_eq, Rule.commentClose?_eq_none_iff.mpr h]
  exact .inl ⟨rfl, rfl⟩

end Scanner

theorem keepsComments_of_scan {source : String} {keepTrivia : Bool} {tokens : List Token}
    (h : scan source keepTrivia = .ok tokens) {token : Token} (htoken : token ∈ tokens) :
  token.KeepsComments source
  := by
  obtain ⟨lexemes, hscans, rfl⟩ := scan_eq_ok_iff.mp h
  have hplaced := List.mem_of_mem_filter htoken
  constructor
  case slash =>
    intro hkind
    obtain ⟨before, after, htext, hspan, hfronts⟩ :=
      hscans.exists_fronts hplaced (by simp [hkind])
    obtain ⟨hslash, hafter⟩ := hfronts.of_slash hkind
    have hvalue : token.value.toList = ['/'] := hslash
    rw [hvalue] at htext hspan
    exact ⟨before, after, by simpa using htext, hspan, hafter⟩
  case block =>
    intro hkind
    obtain ⟨_, _, _, _, hfronts⟩ := hscans.exists_fronts hplaced (by simp [hkind])
    have hwritten : Written token.kind token.value.toList := hfronts.written
    rw [hkind] at hwritten
    exact hwritten.of_blockComment

/-- Wherever a scan of the source comes to a slash and a star, it takes a block comment up to its
first end, and the source is refused there if there is no end.  So a slash that is found is not the
start of a comment, and a block comment that is found does not go on after its end. -/
theorem block_comment_ends_at_first_close (source : String) (keepTrivia : Bool) :
  (∀ scanner after, Scanner.Reaches (Scanner.start source keepTrivia) scanner →
      scanner.rest = '/' :: '*' :: after →
      (['*', '/'] <:+: after → scanner.TakesComment after)
        ∧ (¬ ['*', '/'] <:+: after → ∃ line,
          scan source keepTrivia
            = .error ⟨.unterminated line scanner.position.column, scanner.position⟩))
    ∧ ∀ tokens, scan source keepTrivia = .ok tokens → ∀ token ∈ tokens, token.KeepsComments source
  := by
  constructor
  · intro scanner after hreaches hrest
    refine ⟨Scanner.takesComment_of_infix hrest, fun hnone => ?_⟩
    have hstep := Scanner.step_of_not_infix hrest hnone
    exact ⟨_, scan_eq_error_iff.mpr ⟨scanner, hreaches, by simp [hrest], hstep⟩⟩
  · intro tokens h token htoken
    exact keepsComments_of_scan h htoken

/-- A slash after the start of a comment does not end it.  The first source goes on after the
comment with an operator, the second has no end of the comment. -/
theorem block_comment_with_slash :
  scan "/*/*//" true = .ok
      [⟨.blockComment, "/*/*/", ⟨⟨0, 1, 1⟩, ⟨5, 1, 6⟩⟩⟩, ⟨.slash, "/", ⟨⟨5, 1, 6⟩, ⟨6, 1, 7⟩⟩⟩,
        Token.endAt ⟨6, 1, 7⟩]
    ∧ (Scanner.start "/*/*//" true).TakesComment ['/', '*', '/', '/']
    ∧ Token.KeepsComments "/*/*//" ⟨.slash, "/", ⟨⟨5, 1, 6⟩, ⟨6, 1, 7⟩⟩⟩
    ∧ Token.KeepsComments "/*/*//" ⟨.blockComment, "/*/*/", ⟨⟨0, 1, 1⟩, ⟨5, 1, 6⟩⟩⟩
    ∧ ∃ line, scan "/*/" false = .error ⟨.unterminated line 1, ⟨0, 1, 1⟩⟩
  := by
  have hscan : scan "/*/*//" true = .ok
      [⟨.blockComment, "/*/*/", ⟨⟨0, 1, 1⟩, ⟨5, 1, 6⟩⟩⟩, ⟨.slash, "/", ⟨⟨5, 1, 6⟩, ⟨6, 1, 7⟩⟩⟩,
        Token.endAt ⟨6, 1, 7⟩] := by decide +kernel
  obtain ⟨htakes, hkeeps⟩ := block_comment_ends_at_first_close "/*/*//" true
  have hopen := ((block_comment_ends_at_first_close "/*/" false).1 _ ['/'] (.refl _) rfl).2
  refine ⟨hscan, (htakes _ _ (.refl _) rfl).1 ?_, hkeeps _ hscan _ (by simp),
    hkeeps _ hscan _ (by simp), hopen ?_⟩
  · exact ⟨['/'], ['/'], rfl⟩
  · rw [← hasInfix_iff]
    decide

end Mientras
