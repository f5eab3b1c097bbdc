import Mathlib.Data.List.TakeWhile
import Mientras.Proofs.Complete
import Mientras.Proofs.Viable

/-!
# The first wrong token

Tokens are refused at the first of them that no program can go on with
(`refused_at_first_wrong_token`).  The readers look no further than that token, so that it does not
matter what comes after it; and they fail only after tokens that can be completed.
-/

namespace Mientras

/-- The tokens, with an end of the input after them unless they end with one. -/
def closed (tokens : List Token) : List Token :=
  if tokens.getLast?.any (·.isEnd) then tokens
  else tokens ++ [Token.endAt ((tokens.getLast?.map (·.span.stop)).getD Position.start)]

theorem exists_closed_eq (tokens : List Token) :
  ∃ more, closed tokens = (Cursor.ofTokens tokens).toEnd ++ more
  := by
  cases hfind : tokens.find? (·.isEnd) with
  | none =>
    have hinside : ∀ token ∈ tokens, token.isEnd = false := by
      simpa using List.find?_eq_none.mp hfind
    have hlast : tokens.getLast?.any (·.isEnd) = false := by
      rw [Option.any_eq_false]
      intro token htoken
      simpa using hinside token (List.mem_of_getLast? htoken)
    use []
    rw [closed, hlast, if_neg (by simp), List.append_nil, Cursor.toEnd, Cursor.ofTokens,
      Cursor.stopOf, hfind, List.takeWhile_eq_self_iff.mpr (by simpa using hinside)]
    rfl
  | some stop =>
    obtain ⟨hstop, front, more, rfl, hfront⟩ := List.find?_eq_some_iff_append.mp hfind
    obtain ⟨ending, hending⟩ :
        ∃ ending, closed (front ++ stop :: more) = front ++ stop :: more ++ ending := by
      rw [closed]
      split
      · exact ⟨[], by rw [List.append_nil]⟩
      · exact ⟨[_], rfl⟩
    use more ++ ending
    rw [hending, Cursor.toEnd_ofTokens (by simpa using hfront) hstop]
    simp

theorem take_closed {tokens : List Token} {index : Nat}
    (h : index ≤ (Cursor.ofTokens tokens).rest.length) :
  (closed tokens).take (index + 1) = (Cursor.ofTokens tokens).toEnd.take (index + 1)
  := by
  obtain ⟨more, hclosed⟩ := exists_closed_eq tokens
  rw [hclosed, List.take_append_of_le_length]
  rw [Cursor.toEnd, List.length_append, List.length_singleton]
  omega

theorem take_closed_eq_rest {tokens : List Token} {index : Nat}
    (h : index ≤ (Cursor.ofTokens tokens).rest.length) :
  (closed tokens).take index = (Cursor.ofTokens tokens).rest.take index
  := by
  obtain ⟨more, hclosed⟩ := exists_closed_eq tokens
  rw [hclosed, Cursor.toEnd, List.append_assoc, List.take_append_of_le_length h]

/-- Tokens before the first end of the input are seen. -/
theorem le_length_of_inside {tokens : List Token} {index : Nat}
    (h : Grammar.Inside ((closed tokens).take index)) :
  index ≤ (Cursor.ofTokens tokens).rest.length
  := by
  by_contra hlt
  obtain ⟨more, hclosed⟩ := exists_closed_eq tokens
  apply h (Cursor.ofTokens tokens).stop _ (Cursor.valid_ofTokens tokens).closed
  rw [hclosed, Cursor.toEnd, List.append_assoc, List.take_append, List.mem_append]
  right
  rw [List.take_append, List.mem_append]
  left
  rw [List.take_of_length_le (by simp; omega)]
  simp

/-- Reading the tokens ends in a failure at the token of the given index, where the cursor `last`
is.  It stands at the first end of the input or before it. -/
structure FailsAt (tokens : List Token) (fault : Fault) (index : Nat) (last : Cursor) : Prop where
  reads : Read.program (Cursor.ofTokens tokens) = .error fault last
  passes : Cursor.Passes index (Cursor.ofTokens tokens) last
  inside : Grammar.Inside ((closed tokens).take index)
  token : (closed tokens)[index]? = some last.current
  position : fault.position = last.current.span.start

/-- Tokens that are refused are refused at a token. -/
theorem exists_failsAt {tokens : List Token} {fault : Fault}
    (h : Program.ofTokens tokens = .error fault) :
  ∃ index last, FailsAt tokens fault index last
  := by
  have hsealed := Cursor.sealed_ofTokens tokens
  rw [Program.ofTokens] at h
  split at h
  · simp at h
  rename_i last hread
  obtain rfl := Except.error.inj h
  obtain ⟨index, hpasses, _, hlocal⟩ :=
    Read.local_program hsealed (Cursor.ofTokens tokens).rest.length
  obtain ⟨_, _, hsame⟩ := hlocal (Nat.le_refl _) (.refl (index + 0) hsealed)
  rw [hread] at hpasses hsame
  obtain ⟨_, _, _, _, hposition, _⟩ := hsame.of_error
  have hle : index ≤ (Cursor.ofTokens tokens).rest.length := by
    have := hpasses.length
    omega
  refine ⟨index, last, hread, hpasses, ?_, ?_, hposition⟩
  · rw [take_closed_eq_rest hle]
    intro token htoken
    apply hsealed.inside token (List.mem_of_mem_take htoken)
  · obtain ⟨more, hclosed⟩ := exists_closed_eq tokens
    rw [hclosed, List.getElem?_append_left, hpasses.current_eq]
    · rfl
    · rw [Cursor.toEnd, List.length_append, List.length_singleton]
      omega

namespace FailsAt

variable {tokens : List Token} {fault : Fault} {index : Nat} {last : Cursor}

theorem le_length (h : FailsAt tokens fault index last) :
  index ≤ (Cursor.ofTokens tokens).rest.length
  := by
  have := h.passes.length
  omega

theorem take_eq (h : FailsAt tokens fault index last) {passed : List Token}
    (hpassed : (Cursor.ofTokens tokens).rest = passed ++ last.rest) :
  (closed tokens).take index = passed
  := by
  have hlength := congrArg List.length hpassed
  rw [List.length_append, ← h.passes.length] at hlength
  rw [take_closed_eq_rest h.le_length, hpassed]
  apply List.take_left'
  omega

/-- No token after the one at which tokens are refused makes a difference. -/
theorem ofTokens_of_take (h : FailsAt tokens fault index last) {others : List Token}
    (hothers : (closed others).take (index + 1) = (closed tokens).take (index + 1)) :
  Program.ofTokens others = .error fault
  := by
  have hsealed := Cursor.sealed_ofTokens tokens
  -- the other tokens have no end of the input before the index either
  have hle : index ≤ (Cursor.ofTokens others).rest.length := by
    apply le_length_of_inside
    have := congrArg (List.take index) hothers
    rw [List.take_take, List.take_take, Nat.min_eq_left (by omega)] at this
    rw [this]
    exact h.inside
  obtain ⟨passed, hpasses, _, hlocal⟩ :=
    Read.local_program hsealed (Cursor.ofTokens others).rest.length
  rw [h.reads] at hpasses hlocal
  rw [Read.last_error] at hpasses
  obtain rfl : passed = index := by
    have := hpasses.length
    have := h.passes.length
    omega
  rw [take_closed hle, take_closed h.le_length] at hothers
  have halike : Cursor.Alike (passed + 0) (Cursor.ofTokens tokens) (Cursor.ofTokens others) := by
    refine ⟨hsealed, Cursor.sealed_ofTokens others, rfl, rfl, ?_⟩
    rw [Cursor.ahead, Cursor.ahead, ← List.map_take, ← List.map_take, Nat.add_zero, hothers]
  obtain ⟨hpasses', _, hsame⟩ := hlocal (Nat.le_refl _) halike
  obtain ⟨fault', last', hreads, hcause, _, hposition⟩ := hsame.of_error
  rw [hreads] at hpasses'
  have hcurrent : last'.current = last.current := by
    have htoken := congrArg (fun list => list[passed]?) hothers
    simp only [List.getElem?_take_of_lt (Nat.lt_succ_self passed)] at htoken
    rw [hpasses'.current_eq, h.passes.current_eq] at htoken
    exact Option.some.inj htoken
  rw [Program.ofTokens, hreads]
  obtain ⟨cause, position⟩ := fault
  obtain ⟨cause', position'⟩ := fault'
  obtain rfl : cause = cause' := hcause
  have hsame : position' = position := by
    rw [show position' = _ from hposition, hcurrent]
    exact h.position.symm
  rw [hsame]

/-- The tokens before the one at which tokens are refused are the beginning of a program. -/
theorem exists_program (h : FailsAt tokens fault index last) (hshallow : Read.Shallow fault last) :
  ∃ more program, Program.ofTokens ((closed tokens).take index ++ more) = .ok program
  := by
  obtain ⟨_, passed, more, program, hpassed, hprogram⟩ :=
    (Read.viable_program 0 false).completed (Cursor.valid_ofTokens tokens) rfl rfl h.reads hshallow
  use more, program
  rw [h.take_eq hpassed]
  apply Grammar.Derives.ofTokens_eq hprogram

end FailsAt

/-- Tokens that are refused are refused at the first of them that no program can start with.  The
fault is where this token starts, which is the first end of the input or stands before it.  Whatever
comes after the token, the tokens up to it are refused in the same way; and unless too much is open,
the tokens before it are the beginning of a program. -/
theorem refused_at_first_wrong_token {tokens : List Token} {fault : Fault}
    (h : Program.ofTokens tokens = .error fault) :
  ∃ index last, FailsAt tokens fault index last
    ∧ (∀ others, (closed others).take (index + 1) = (closed tokens).take (index + 1) →
        Program.ofTokens others = .error fault)
    ∧ (fault.cause ≠ .tooDeep maxDepth → fault.opened last < maxDepth →
        ∃ more program, Program.ofTokens ((closed tokens).take index ++ more) = .ok program)
  := by
  obtain ⟨index, last, hfails⟩ := exists_failsAt h
  refine ⟨index, last, hfails, ?_, ?_⟩
  · intro others hothers
    apply hfails.ofTokens_of_take hothers
  · intro hcause hopened
    apply hfails.exists_program ⟨hcause, hopened⟩

/-- The call in a condition that a semicolon cuts short is refused at the semicolon.  Up to there it
could have become a program. -/
theorem refused_at_semicolon_in_call :
  let tokens : List Token :=
    [⟨.mientras, "mientras", default⟩, ⟨.openParen, "(", default⟩, ⟨.identifier, "f", default⟩,
      ⟨.openParen, "(", default⟩, ⟨.integer, "1", default⟩, ⟨.semicolon, ";", default⟩]
  Program.ofTokens tokens = .error ⟨.unexpected "`,` or `)`" "`;`", default⟩
    ∧ ∃ more program, Program.ofTokens (tokens.take 5 ++ more) = .ok program
  := by
  intro tokens
  have hrefused : Program.ofTokens tokens = .error ⟨.unexpected "`,` or `)`" "`;`", default⟩ := rfl
  use hrefused
  obtain ⟨index, last, hfails, _, hviable⟩ := refused_at_first_wrong_token hrefused
  have hlast : last = ⟨[⟨.semicolon, ";", default⟩], Token.endAt default, [.program], 1⟩ :=
    (EStateM.Result.error.inj (hfails.reads.symm.trans rfl)).2
  have hindex : index = 5 := by
    have := hfails.passes.length
    rw [hlast] at this
    exact Nat.add_left_cancel this
  rw [hlast, hindex] at hviable
  exact hviable (by decide) (by decide)

end Mientras
