import Literate.Proofs.Shell.Quoting
import Literate.Shell.Evaluation

/-!
# A command whose words are in quotes

Words in quotes on a line are read as they are written (`nextCommand_quoted`), and the command that
the first one names is called with just the texts that the others stand for (`script_quoted`).
-/

namespace Literate.Shell

/-! ### Reading the line -/

/-- The words of a command after the first one, each in quotes and behind a blank. -/
def quotedWords (ts : List Octets) : Octets :=
  ts.flatMap fun t => ' ' :: singleQuoted t

/-- The text of a command whose words are in quotes, up to the end of its line. -/
def quotedCommand (name : Octets) (operands : List Octets) : Octets :=
  singleQuoted name ++ quotedWords operands

namespace Reader

variable {α β : Type}

theorem bind_apply_of_eq_ok {x : Reader α} {f : α → Reader β} {s s' : Script} {a : α}
    (h : x s = .ok (a, s')) : (x >>= f) s = f a s' := by
  show StateT.bind x f s = _
  unfold StateT.bind
  rw [h]
  rfl

theorem rest_bind_apply (f : Octets → Reader α) (s : Script) : (rest >>= f) s = f s.rest s :=
  rfl

theorem get_bind_apply (f : Script → Reader α) (s : Script) : (get >>= f) s = f s s :=
  rfl

theorem bound_bind_apply (f : Nat → Reader α) (s : Script) :
    (bound >>= f) s = f (s.rest.length + 1) s :=
  rfl

/-- There is nothing to pass over in front of a quote. -/
theorem blanks_quote (t : Octets) (line skipped : Nat) :
    blanks ⟨'\'' :: t, line, skipped⟩ = .ok ((), ⟨'\'' :: t, line, skipped⟩) := by
  show Except.ok ((), (⟨'\'' :: t, line +
    (('\'' :: t).count '\n' - ('\'' :: t).count '\n'), skipped⟩ : Script)) = _
  rw [Nat.sub_self, Nat.add_zero]

theorem blanks_blank (t : Octets) (line skipped : Nat) :
    blanks ⟨' ' :: '\'' :: t, line, skipped⟩ = .ok ((), ⟨'\'' :: t, line, skipped⟩) := by
  show Except.ok ((), (⟨'\'' :: t, line +
    ((' ' :: '\'' :: t).count '\n' - ('\'' :: t).count '\n'), skipped⟩ : Script)) = _
  rw [List.count_cons_of_ne (by decide), Nat.sub_self, Nat.add_zero]

theorem blanks_newline (t : Octets) (line skipped : Nat) :
    blanks ⟨'\n' :: t, line, skipped⟩ = .ok ((), ⟨'\n' :: t, line, skipped⟩) := by
  show Except.ok ((), (⟨'\n' :: t, line +
    (('\n' :: t).count '\n' - ('\n' :: t).count '\n'), skipped⟩ : Script)) = _
  rw [Nat.sub_self, Nat.add_zero]

theorem redirect?_quote (t : Octets) (line skipped : Nat) :
    redirect? ⟨'\'' :: t, line, skipped⟩ = .ok (none, ⟨'\'' :: t, line, skipped⟩) :=
  rfl

theorem redirect?_newline (t : Octets) (line skipped : Nat) :
    redirect? ⟨'\n' :: t, line, skipped⟩ = .ok (none, ⟨'\n' :: t, line, skipped⟩) :=
  rfl

theorem readCompound_quote (fuel : Nat) (t : Octets) (line skipped : Nat) :
    readCompound fuel ⟨'\'' :: t, line, skipped⟩ = .ok (none, ⟨'\'' :: t, line, skipped⟩) := by
  cases fuel with
  | zero =>
    rw [readCompound]
    rfl
  | succ fuel =>
    rw [readCompound]
    rfl

theorem word_singleQuoted (t : Octets) {after : Octets}
    (h : ∀ c, after.head? = some c → isMeta c = true) (line skipped : Nat) :
    word ⟨singleQuoted t ++ after, line, skipped⟩ =
      .ok (singleQuoted t, ⟨after, line + (singleQuoted t).count '\n', skipped⟩) := by
  unfold word
  rw [rest_bind_apply, scanWord_singleQuoted t h]
  show Except.ok (singleQuoted t, (⟨after, line +
    ((singleQuoted t ++ after).count '\n' - after.count '\n'), skipped⟩ : Script)) = _
  rw [List.count_append, Nat.add_sub_cancel]

/-- One more word of a command. -/
theorem simple_singleQuoted {s : Script} {t after : Octets} {line skipped : Nat}
    (hs : blanks s = .ok ((), ⟨singleQuoted t ++ after, line, skipped⟩))
    (h : ∀ c, after.head? = some c → isMeta c = true) (count : Nat) (words : List Word)
    (redirects : List Redirect) :
    simple (count + 1) words redirects s = simple count (singleQuoted t :: words) redirects
      ⟨after, line + (singleQuoted t).count '\n', skipped⟩ := by
  have hquote : redirect? ⟨singleQuoted t ++ after, line, skipped⟩ =
      .ok (none, ⟨singleQuoted t ++ after, line, skipped⟩) :=
    redirect?_quote _ line skipped
  rw [simple, bind_apply_of_eq_ok hs, bind_apply_of_eq_ok hquote]
  show (word >>= fun w => simple count (w :: words) redirects)
    ⟨singleQuoted t ++ after, line, skipped⟩ = _
  exact bind_apply_of_eq_ok (word_singleQuoted t h line skipped)

theorem quotedWords_cons (t : Octets) (ts : List Octets) (rest : Octets) :
    quotedWords (t :: ts) ++ rest = ' ' :: (singleQuoted t ++ (quotedWords ts ++ rest)) := by
  rw [quotedWords, List.flatMap_cons, List.cons_append, List.cons_append, List.append_assoc]
  rfl

theorem isMeta_of_head?_quotedWords {ts : List Octets} {rest : Octets} {c : Char}
    (h : (quotedWords ts ++ '\n' :: rest).head? = some c) : isMeta c = true := by
  cases ts with
  | nil =>
    cases h
    rfl
  | cons t ts =>
    cases h
    rfl

theorem simple_quotedWords {count : Nat} {ts : List Octets} (h : ts.length < count)
    (words : List Word) (rest : Octets) (line skipped : Nat) :
    simple count words [] ⟨quotedWords ts ++ '\n' :: rest, line, skipped⟩ =
      .ok ((words.reverse ++ ts.map singleQuoted, []),
        ⟨'\n' :: rest, line + (quotedWords ts).count '\n', skipped⟩) := by
  induction ts generalizing count words line with
  | nil =>
    cases count with
    | zero => cases h
    | succ count =>
      show simple (count + 1) words [] ⟨'\n' :: rest, line, skipped⟩ = _
      rw [simple, bind_apply_of_eq_ok (blanks_newline rest line skipped)]
      rw [bind_apply_of_eq_ok (redirect?_newline rest line skipped), List.map_nil, List.append_nil]
      rfl
  | cons t ts ih =>
    cases count with
    | zero => cases h
    | succ count =>
      have hblanks : blanks ⟨quotedWords (t :: ts) ++ '\n' :: rest, line, skipped⟩ =
          .ok ((), ⟨singleQuoted t ++ (quotedWords ts ++ '\n' :: rest), line, skipped⟩) := by
        rw [quotedWords_cons]
        exact blanks_blank _ line skipped
      rw [simple_singleQuoted hblanks fun _ => isMeta_of_head?_quotedWords]
      rw [ih (Nat.lt_of_succ_lt_succ h)]
      have hcount : (quotedWords (t :: ts)).count '\n' =
          (singleQuoted t).count '\n' + (quotedWords ts).count '\n' := by
        rw [← List.append_nil (quotedWords (t :: ts)), quotedWords_cons, List.append_nil,
          List.count_cons_of_ne (by decide), List.count_append]
      rw [hcount, Nat.add_assoc]
      simp

theorem length_lt_quotedCommand (name : Octets) (operands : List Octets) :
    operands.length < (quotedCommand name operands).length := by
  have hwords : operands.length ≤ (quotedWords operands).length := by
    induction operands with
    | nil => exact Nat.zero_le _
    | cons t ts ih =>
      rw [quotedWords, List.flatMap_cons, List.length_append]
      rw [quotedWords] at ih
      simp only [List.length_cons]
      omega
  have hname : 0 < (singleQuoted name).length := by
    simp [singleQuoted_eq]
  rw [quotedCommand, List.length_append]
  omega

theorem simple_quotedCommand (name : Octets) (operands : List Octets) (rest : Octets)
    (line skipped : Nat) :
    simple ((quotedCommand name operands ++ '\n' :: rest).length + 1) [] []
        ⟨quotedCommand name operands ++ '\n' :: rest, line, skipped⟩ =
      .ok (((name :: operands).map singleQuoted, []),
        ⟨'\n' :: rest, line + (quotedCommand name operands).count '\n', skipped⟩) := by
  have hblanks : blanks ⟨quotedCommand name operands ++ '\n' :: rest, line, skipped⟩ =
      .ok ((), ⟨singleQuoted name ++ (quotedWords operands ++ '\n' :: rest), line, skipped⟩) := by
    rw [quotedCommand, List.append_assoc]
    exact blanks_quote _ line skipped
  have hlength := length_lt_quotedCommand name operands
  rw [simple_singleQuoted hblanks fun _ => isMeta_of_head?_quotedWords, simple_quotedWords]
  · rw [quotedCommand, List.count_append, Nat.add_assoc]
    rfl
  · rw [List.length_append]
    omega

theorem readCommand_quoted (fuel : Nat) (name : Octets) (operands : List Octets) (rest : Octets)
    (line skipped : Nat) :
    readCommand (fuel + 1) ⟨quotedCommand name operands ++ '\n' :: rest, line, skipped⟩ =
      .ok (.simple line ((name :: operands).map singleQuoted) [],
        ⟨'\n' :: rest, line + (quotedCommand name operands).count '\n', skipped⟩) := by
  have hblanks : blanks ⟨quotedCommand name operands ++ '\n' :: rest, line, skipped⟩ =
      .ok ((), ⟨quotedCommand name operands ++ '\n' :: rest, line, skipped⟩) :=
    blanks_quote _ line skipped
  have hcompound : readCompound fuel ⟨quotedCommand name operands ++ '\n' :: rest, line, skipped⟩ =
      .ok (none, ⟨quotedCommand name operands ++ '\n' :: rest, line, skipped⟩) :=
    readCompound_quote fuel _ line skipped
  have hcloser : isCloser (quotedCommand name operands ++ '\n' :: rest) = false := rfl
  rw [readCommand, bind_apply_of_eq_ok hblanks, bind_apply_of_eq_ok hcompound]
  dsimp only
  rw [rest_bind_apply, hcloser]
  rw [if_neg Bool.false_ne_true, get_bind_apply, bound_bind_apply]
  rw [bind_apply_of_eq_ok (simple_quotedCommand name operands rest line skipped)]
  cases operands with
  | nil => rfl
  | cons t ts => rfl

theorem readAndOr_quoted (fuel : Nat) (name : Octets) (operands : List Octets) (rest : Octets)
    (line skipped : Nat) :
    readAndOr (fuel + 4) ⟨quotedCommand name operands ++ '\n' :: rest, line, skipped⟩ =
      .ok (.simple line ((name :: operands).map singleQuoted) [],
        ⟨'\n' :: rest, line + (quotedCommand name operands).count '\n', skipped⟩) := by
  have hblanks : blanks ⟨quotedCommand name operands ++ '\n' :: rest, line, skipped⟩ =
      .ok ((), ⟨quotedCommand name operands ++ '\n' :: rest, line, skipped⟩) :=
    blanks_quote _ line skipped
  have hstages : readStages (fuel + 2)
      ⟨quotedCommand name operands ++ '\n' :: rest, line, skipped⟩ =
      .ok ([.simple line ((name :: operands).map singleQuoted) []],
        ⟨'\n' :: rest, line + (quotedCommand name operands).count '\n', skipped⟩) := by
    rw [readStages, bind_apply_of_eq_ok (readCommand_quoted fuel name operands rest line skipped)]
    rw [bind_apply_of_eq_ok (blanks_newline _ _ _)]
    rfl
  have hpipeline : readPipeline (fuel + 3)
      ⟨quotedCommand name operands ++ '\n' :: rest, line, skipped⟩ =
      .ok (.simple line ((name :: operands).map singleQuoted) [],
        ⟨'\n' :: rest, line + (quotedCommand name operands).count '\n', skipped⟩) := by
    have hnot : nextIs "!" (quotedCommand name operands ++ '\n' :: rest) = false := rfl
    rw [readPipeline, bind_apply_of_eq_ok hblanks, rest_bind_apply, hnot,
      if_neg Bool.false_ne_true, bind_apply_of_eq_ok hstages]
    rfl
  rw [readAndOr, bind_apply_of_eq_ok hpipeline, readAndOrRest]
  rw [bind_apply_of_eq_ok (blanks_newline _ _ _)]
  rfl

end Reader

/-- **Words in quotes on a line are read as they are.** -/
theorem nextCommand_quoted (name : Octets) (operands : List Octets) (rest : Octets) (line : Nat) :
    nextCommand ⟨quotedCommand name operands ++ '\n' :: rest, line, 0⟩ =
      .ok (some (.simple line ((name :: operands).map singleQuoted) [],
        ⟨rest, line + (quotedCommand name operands).count '\n' + 1, 0⟩)) := by
  have hblanks : Reader.blanks ⟨quotedCommand name operands ++ '\n' :: rest, line, 0⟩ =
      .ok ((), ⟨quotedCommand name operands ++ '\n' :: rest, line, 0⟩) :=
    Reader.blanks_quote _ line 0
  have hfuel : 4 * ((quotedCommand name operands ++ '\n' :: rest).length + 1) + 8 =
      4 * (quotedCommand name operands ++ '\n' :: rest).length + 8 + 4 := by
    omega
  have hline : readLine ((quotedCommand name operands ++ '\n' :: rest).length + 1)
      ⟨quotedCommand name operands ++ '\n' :: rest, line, 0⟩ =
      .ok (.simple line ((name :: operands).map singleQuoted) [],
        ⟨rest, line + (quotedCommand name operands).count '\n' + 1, 0⟩) := by
    rw [readLine, Reader.bind_apply_of_eq_ok hblanks, Reader.rest_bind_apply]
    show (Reader.bound >>= fun bound => readAndOr (4 * bound + 8) >>= _) _ = _
    rw [Reader.bound_bind_apply, hfuel]
    rw [Reader.bind_apply_of_eq_ok (Reader.readAndOr_quoted _ name operands rest line 0)]
    rw [Reader.bind_apply_of_eq_ok (Reader.blanks_newline _ _ _)]
    rfl
  have hrun : (readLine ((quotedCommand name operands ++ '\n' :: rest).length + 1)).run
      ⟨quotedCommand name operands ++ '\n' :: rest, line, 0⟩ = _ :=
    hline
  unfold nextCommand
  split
  · rename_i heq
    exact absurd heq (by simp)
  · rw [hrun]

/-! ### Carrying out the line -/

theorem assignment?_singleQuoted (t : Octets) : assignment? (singleQuoted t) = none := by
  have hname : isName ((singleQuoted t).takeWhile (· ≠ '=')) = false := by
    rw [singleQuoted_eq, List.takeWhile_cons_of_pos (by decide)]
    rfl
  unfold assignment?
  dsimp only
  split
  · rw [hname, if_neg Bool.false_ne_true]
  · rfl

namespace Run

theorem step_apply {s : State} (h : s.world.steps ≠ 0) :
    step s = .ok () ⟨s.session, { s.world with steps := s.world.steps - 1 }⟩ := by
  obtain ⟨steps, hsteps⟩ := Nat.exists_eq_succ_of_ne_zero h
  rw [step, world_bind_apply, hsteps]
  rfl

theorem withVariables_nil (act : Run Unit) : withVariables [] act = act := by
  funext s
  rw [withVariables, List.mapM_nil, pure_bind_apply, attempt_bind_apply]
  unfold outcome after
  cases act s <;> rfl

theorem withRedirects_nil (command : Octets → Run Octets) (otherwise act : Run Unit) :
    withRedirects command [] otherwise act = act :=
  if_pos rfl

/-- Words in quotes call what the first one names with the texts that the others stand for. -/
theorem simple_quoted (fuel : Nat) {name : Octets} (operands : List Octets) (line : Nat) {s : State}
    (hname : isSpecial name = false) (hflags : 'x' ∉ s.session.flags) (hsteps : s.world.steps ≠ 0) :
    simple (fuel + 1) line ((name :: operands).map singleQuoted) [] s =
      (call fuel true name operands >>= fun _ => checkFailure)
        ⟨{ s.session with line }, { s.world with steps := s.world.steps - 1 }⟩ := by
  have hassigned : (((name :: operands).map singleQuoted).takeWhile fun w =>
      (assignment? w).isSome).filterMap assignment? = [] := by
    rw [List.map_cons, List.takeWhile_cons_of_neg (by simp [assignment?_singleQuoted])]
    rfl
  have hexec : ¬(name = Text.ofString "exec" ∧ operands = []) := by
    rintro ⟨rfl, -⟩
    revert hname
    decide
  rw [simple, bind_apply_of_eq_ok (step_apply hsteps), changeSession_bind_apply]
  dsimp only
  rw [hassigned, List.length_nil, List.drop_zero,
    bind_apply_of_eq_ok (Expansion.allArguments_singleQuoted _ _ _), List.mapM_nil, pure_bind_apply,
    session_bind_apply, if_neg (by simpa using hflags)]
  dsimp only
  rw [if_neg hexec, session_bind_apply, hname, withVariables_nil, withRedirects_nil]
  rfl

/-- **A command in quotes is called with just the texts that its words stand for**, whatever is in
them. -/
theorem script_quoted (fuel : Nat) {name : Octets} (operands : List Octets) (line : Nat) {s : State}
    (hname : isSpecial name = false) (hflags : 'x' ∉ s.session.flags) (hsteps : s.world.steps ≠ 0) :
    script (fuel + 3) line (quotedCommand name operands ++ ['\n']) s =
      (call fuel true name operands >>= fun _ => checkFailure)
        ⟨{ s.session with line }, { s.world with steps := s.world.steps - 1 }⟩ := by
  have hlength : (quotedCommand name operands ++ ['\n']).length + 1 =
      (quotedCommand name operands).length + 1 + 1 := by
    rw [List.length_append, List.length_singleton]
  rw [script, hlength, iterate_succ]
  dsimp only
  rw [nextCommand_quoted]
  dsimp only
  rw [bind_assoc, command]
  -- Nothing is left of the script after its one line.
  show (simple (fuel + 1) line ((name :: operands).map singleQuoted) [] >>= fun _ => pure ()) s = _
  rw [bind_pure_unit, simple_quoted fuel operands line hname hflags hsteps]

end Run

end Literate.Shell
