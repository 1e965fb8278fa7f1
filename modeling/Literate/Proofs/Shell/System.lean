import Literate.Main
import Literate.Proofs.Compile.Independence
import Literate.Proofs.Shell.Isolation
import Literate.Proofs.Shell.Line
import Literate.Proofs.Text.Octets
import Literate.Shell.System

/-!
# What a launch of the shell prints

A script whose only command is `printf` with words in quotes is followed from the launch to the
outcome: it ends at once, with the operands on lines of their own and nothing on the channel for
faults (`system_printing`).  A text keeps its characters on the way there and back, because a
character is read back from its octets and only the quote has the octet of a quote (`run_printing`).
-/

namespace Literate.Shell

/-! ### Writing with a format -/

namespace Format

theorem pad_of_width {l : Layout} (h : l.width = 0) (t : Octets) : l.pad t = t := by
  rw [Layout.pad, h, Nat.zero_sub, List.replicate_zero, List.append_nil, List.nil_append, ite_self]

/-- One operand on a line of its own. -/
theorem run_line (hexEscapes : Bool) (acc : Octets) (faults : List Octets) (t : Octets)
    (ts : List Octets) :
    Written.run ((Text.ofString "%s\n").length + 1) ⟨hexEscapes, acc, faults, t :: ts, false⟩
        (Text.ofString "%s\n") =
      ⟨hexEscapes, '\n' :: (t.reverse ++ acc), faults, ts, false⟩ := by
  have hrun : Written.run ((Text.ofString "%s\n").length + 1)
      ⟨hexEscapes, acc, faults, t :: ts, false⟩ (Text.ofString "%s\n") =
      Written.put (Written.put ⟨hexEscapes, acc, faults, ts, false⟩
        (Layout.pad ⟨false, false, false, false, false, 0, none⟩ t)) ['\n'] :=
    rfl
  rw [hrun, pad_of_width rfl]
  rfl

theorem runAll_lines {count : Nat} {ts : List Octets} (hcount : ts.length < count) (hts : ts ≠ [])
    (hexEscapes : Bool) (acc : Octets) :
    Written.runAll count ⟨hexEscapes, acc, [], ts, false⟩ (Text.ofString "%s\n") =
      ⟨hexEscapes, (ts.flatMap fun t => t ++ ['\n']).reverse ++ acc, [], [], false⟩ := by
  induction ts generalizing count acc with
  | nil => exact absurd rfl hts
  | cons t ts ih =>
    cases count with
    | zero => cases hcount
    | succ count =>
      rw [Written.runAll, run_line]
      cases ts with
      | nil => simp
      | cons t' ts =>
        rw [if_neg (by simp), ih (Nat.lt_of_succ_lt_succ hcount) (List.cons_ne_nil _ _)]
        simp

/-- **Each operand is written on a line of its own**, as it is. -/
theorem printf_lines (hexEscapes : Bool) {ts : List Octets} (hts : ts ≠ []) :
    printf hexEscapes (Text.ofString "%s\n") ts = (ts.flatMap fun t => t ++ ['\n'], []) := by
  rw [printf, runAll_lines (Nat.lt_succ_self _) hts]
  simp

end Format

namespace Run

theorem call_ownUtility (fuel : Nat) {name : Octets} {utility : Utility}
    (h : ownUtility? name = some utility) (operands : List Octets) {s : State}
    (hfunctions : (s.session.functions.any fun f => f.1 == name) = false) :
    call (fuel + 1) true name operands s =
      startUtility utility (s.session.name ++ Text.ofString ": " ++ Text.decimal s.session.line ++
        Text.ofString ": " ++ name) operands s := by
  have hfind : (s.session.functions.find? fun f => f.1 == name) = none := by
    rw [List.find?_eq_none]
    simpa using hfunctions
  unfold ownUtility? at h
  split at h <;> cases h
  all_goals
    rename_i hname
    have hnamed : name = Text.ofString (Text.toString name) := String.toList_ofList.symm
    rw [hname] at hnamed
    subst hnamed
    unfold call
    rw [session_bind_apply, if_pos rfl, hfind]
    rfl

/-- A utility that writes a text and does nothing else. -/
theorem perform_text {s : State} {n m : Nat} {text : Octets} (htext : text ≠ [])
    (hout : s.session.channel? 1 = some (.sink n)) (herr : s.session.channel? 2 = some (.sink m)) :
    perform ⟨text, [], 0, s.world.files, 0, false⟩ s =
      .ok () ⟨{ s.session with status := 0 }, { s.world with
        sinks := s.world.sinks.modify n fun sink =>
          { sink with pieces := (s.session.clock, text) :: sink.pieces } }⟩ := by
  have hwrite : write 1 text s = .ok () ⟨s.session, { s.world with
      sinks := s.world.sinks.modify n fun sink =>
        { sink with pieces := (s.session.clock, text) :: sink.pieces } }⟩ := by
    rw [write, session_bind_apply, session_bind_apply, hout]
    dsimp only
    rw [if_pos (by simpa using htext)]
    rfl
  have hwait : waitUntil (s.session.clock + 0) s = .ok () s := by
    show EStateM.Result.ok () (s.atTime (max s.session.clock (s.session.clock + 0))) = _
    rw [Nat.add_zero, Nat.max_self]
    rfl
  have hnothing (w : World) : write 2 [] ⟨s.session, w⟩ = .ok () ⟨s.session, w⟩ := by
    rw [write, session_bind_apply, session_bind_apply, herr]
    rfl
  unfold perform
  rw [changeWorld_bind_apply, session_bind_apply]
  show (waitUntil (s.session.clock + 0) >>= _) s = _
  rw [bind_apply_of_eq_ok hwait, bind_apply_of_eq_ok hwrite]
  exact bind_apply_of_eq_ok (hnothing _)

/-- `printf` writes its operands on lines of their own. -/
theorem startUtility_printf {s : State} {n m : Nat} {ts : List Octets} (hts : ts ≠ [])
    (hout : s.session.channel? 1 = some (.sink n)) (herr : s.session.channel? 2 = some (.sink m))
    (label : Octets) :
    startUtility (Utility.printf false) label (Text.ofString "%s\n" :: ts) s =
      .ok () ⟨{ s.session with status := 0 }, { s.world with
        sinks := s.world.sinks.modify n fun sink =>
          { sink with
            pieces := (s.session.clock, ts.flatMap fun t => t ++ ['\n']) :: sink.pieces } }⟩ := by
  have htext : ts.flatMap (fun t => t ++ ['\n']) ≠ [] := by
    cases ts with
    | nil => exact absurd rfl hts
    | cons t ts => simp
  have hutility (setting : Setting) : Utility.printf false setting (Text.ofString "%s\n" :: ts) =
      .done ⟨ts.flatMap fun t => t ++ ['\n'], [], 0, setting.files, 0, false⟩ := by
    show Started.done { setting.writing (Format.printf false (Text.ofString "%s\n") ts).1 with
      errors := (Format.printf false (Text.ofString "%s\n") ts).2.flatMap setting.complaint
      status := if (Format.printf false (Text.ofString "%s\n") ts).2 = [] then 0 else 1 } = _
    rw [Format.printf_lines false hts]
    rfl
  rw [← perform_text htext hout herr]
  have hsetting : setting label s = .ok ⟨label, s.session.directory, s.world.files,
      s.session.exported⟩ s :=
    rfl
  rw [startUtility, bind_apply_of_eq_ok hsetting, hutility]

/-- A script that prints texts on lines of their own. -/
def printing (ts : List Octets) : Octets :=
  quotedCommand (Text.ofString "printf") (Text.ofString "%s\n" :: ts) ++ ['\n']

theorem script_printing (fuel line : Nat) {s : State} {n m : Nat} {ts : List Octets} (hts : ts ≠ [])
    (hout : s.session.channel? 1 = some (.sink n)) (herr : s.session.channel? 2 = some (.sink m))
    (hfunctions : s.session.functions = []) (hflags : 'x' ∉ s.session.flags)
    (hsteps : s.world.steps ≠ 0) :
    script (fuel + 4) line (printing ts) s =
      .ok () ⟨{ s.session with line, status := 0 }, { s.world with
        steps := s.world.steps - 1
        sinks := s.world.sinks.modify n fun sink =>
          { sink with
            pieces := (s.session.clock, ts.flatMap fun t => t ++ ['\n']) :: sink.pieces } }⟩ := by
  have hnone : ((State.mk { s.session with line } { s.world with
      steps := s.world.steps - 1 }).session.functions.any
        fun f => f.1 == Text.ofString "printf") = false := by
    rw [hfunctions]
    rfl
  have hprinted (label : Octets) := @startUtility_printf ⟨{ s.session with line }, { s.world with
    steps := s.world.steps - 1 }⟩ n m ts hts hout herr label
  have hcall := (call_ownUtility fuel rfl (Text.ofString "%s\n" :: ts) hnone).trans (hprinted _)
  rw [printing, script_quoted (fuel + 1) _ line rfl hflags hsteps, bind_apply_of_eq_ok hcall]
  rfl

/-- A shell of its own that comes to its end without anything to be carried out there. -/
theorem child_apply {finish : Octets → Run Unit} {prepare : Session → Session} {act : Run Unit}
    {s s' : State} (h : act ⟨prepare { s.session with onExit := none }, s.world⟩ = .ok () s')
    (hexit : s'.session.onExit = none) :
    child finish prepare act s =
      .ok (s'.session, none) ⟨s.session.atTime s'.session.clock, s'.world⟩ := by
  have hattempt : attempt act ⟨prepare { s.session with onExit := none }, s.world⟩ =
      .ok (.ok ()) s' := by
    unfold attempt
    rw [h]
  unfold child
  rw [session_bind_apply, changeSession_bind_apply, bind_apply_of_eq_ok hattempt,
    session_bind_apply, if_pos rfl, hexit]
  rfl

end Run

/-! ### Launches -/

/-- The state after a launch of `printf`. -/
theorem shell_printing (fuel : Nat) (tree : FileTree) (directory : Path)
    (bindings : List (Octets × Octets)) {ts : List Octets} (hts : ts ≠ []) : ∃ s,
    Run.shell (fuel + 5) [Text.ofString "-s"]
        (launchState tree directory bindings (Run.printing ts)) = .ok none s ∧
      s.session.clock = 0 ∧ s.world.jobs = [] ∧
        s.world.sinks = (#[⟨[], false⟩, ⟨[], false⟩] : Array Sink).modify 0 fun sink =>
          { sink with pieces := (0, ts.flatMap fun t => t ++ ['\n']) :: sink.pieces } := by
  rw [Run.shell, Run.world_bind_apply]
  dsimp only
  rw [Run.changeWorld_bind_apply]
  have hread (s : State) (h : s.session.channel? 0 = some (.source 0))
      (h' : s.world.sources[0]? = some ⟨Run.printing ts, 0⟩) : Run.readAll 0 s =
        .ok (Run.printing ts) ⟨s.session, { s.world with
          sources := s.world.sources.modify 0 fun s => { s with rest := [] } }⟩ := by
    rw [Run.readAll, Run.session_bind_apply, h]
    dsimp only
    rw [Run.world_bind_apply, h']
    show EStateM.Result.ok (Run.printing ts) (⟨s.session.atTime (max s.session.clock 0),
      { s.world with sources := s.world.sources.modify 0 fun s => { s with rest := [] } }⟩ :
        State) = _
    rw [Nat.max_eq_left (Nat.zero_le _)]
    rfl
  refine ⟨_, Run.bind_apply_of_eq_ok (Run.child_apply ((Run.bind_apply_of_eq_ok
    (hread _ rfl rfl)).trans (Run.script_printing fuel 1 hts rfl rfl rfl ?_ ?_)) rfl), ?_⟩
  · exact (by decide : 'x' ∉ ['s'])
  · exact (by decide : greatestSteps ≠ 0)
  · exact ⟨rfl, rfl, rfl⟩

/-- **A shell snippet prints any texts that stand in it in quotes**, each on a line of its own. -/
theorem system_printing (files : FileTree) (directory : Path) (bindings : List (Octets × Octets))
    {ts : List Octets} (hts : ts ≠ []) :
    system files directory bindings
        ⟨Text.ofString "sh", [Text.ofString "-s"], Run.printing ts, none⟩ =
      .ok ⟨some ⟨0⟩, ts.flatMap fun t => t ++ ['\n'], []⟩ := by
  have hnul : ([Text.ofString "sh", Text.ofString "-s"].any fun t => t.contains '\x00') = false :=
    rfl
  have hfind (tree : FileTree) : Program.find tree directory (Octets.encode (Text.ofString "sh")) =
      .ok .shell :=
    rfl
  have harguments : [Text.ofString "-s"].map Octets.encode = [Text.ofString "-s"] := rfl
  obtain ⟨s, hs, hclock, hjobs, hsinks⟩ :=
    shell_printing 15995 (launchTree files directory none) directory bindings hts
  have hstart : start .shell (Octets.encode (Text.ofString "sh")) [Text.ofString "-s"]
      (launchState (launchTree files directory none) directory bindings (Run.printing ts)) =
      .ok () s :=
    Run.bind_apply_of_eq_ok hs
  unfold system
  dsimp only
  rw [hnul, if_neg Bool.false_ne_true, hfind, harguments]
  dsimp only
  rw [hstart]
  dsimp only
  rw [outcome, hclock, hjobs, hsinks]
  simp [Sink.octets]

/-! ### Snippets -/

/-- No other character has the octet of a quote. -/
theorem ne_quote_of_mem_ofChar {c b : Char} (hc : c ≠ '\'') (hb : b ∈ Octets.ofChar c) :
    b ≠ '\'' := by
  intro heq
  by_cases hascii : c.toNat < 0x80
  · have hone : Octets.ofChar c = [c] := if_pos hascii
    rw [hone, List.mem_singleton] at hb
    exact hc (hb.symm.trans heq)
  · have hlarge := Octets.le_toNat_of_mem_ofChar (Nat.le_of_not_lt hascii) hb
    rw [heq] at hlarge
    exact absurd hlarge (by decide)

theorem encode_singleQuoted (t : Text) :
    Octets.encode (singleQuoted t) = singleQuoted (Octets.encode t) := by
  have hinner : Octets.encode
      (t.flatMap fun c => if c = '\'' then Text.ofString "'\"'\"'" else [c]) =
      (Octets.encode t).flatMap fun c => if c = '\'' then Text.ofString "'\"'\"'" else [c] := by
    induction t with
    | nil => rfl
    | cons c t ih =>
      have hcons : Octets.encode (c :: t) = Octets.ofChar c ++ Octets.encode t := rfl
      rw [hcons, List.flatMap_cons, Octets.encode_append, List.flatMap_append, ih]
      congr 1
      by_cases hc : c = '\''
      · subst hc
        rfl
      · have hkept : ∀ b ∈ Octets.ofChar c,
            (if b = '\'' then Text.ofString "'\"'\"'" else [b]) = [b] := by
          intro b hb
          rw [if_neg (ne_quote_of_mem_ofChar hc hb)]
        rw [if_neg hc]
        show Octets.ofChar c ++ [] = _
        rw [List.append_nil, List.flatMap, List.map_congr_left hkept, ← List.flatMap]
        exact (List.flatMap_singleton' _).symm
  rw [singleQuoted, singleQuoted, Octets.encode_append, Octets.encode_append, hinner]
  rfl

theorem encode_quotedWords (ts : List Text) :
    Octets.encode (quotedWords ts) = quotedWords (ts.map Octets.encode) := by
  induction ts with
  | nil => rfl
  | cons t ts ih =>
    have hcons : quotedWords (t :: ts) = [' '] ++ singleQuoted t ++ quotedWords ts := rfl
    rw [hcons, Octets.encode_append, Octets.encode_append, encode_singleQuoted, ih]
    rfl

theorem encode_printing (ts : List Text) :
    Octets.encode (Run.printing ts) = Run.printing (ts.map Octets.encode) := by
  rw [Run.printing, Run.printing, quotedCommand, quotedCommand, Octets.encode_append,
    Octets.encode_append, encode_singleQuoted, encode_quotedWords]
  rfl

theorem encode_lines (ts : List Text) :
    Octets.encode (ts.flatMap fun t => t ++ ['\n']) =
      (ts.map Octets.encode).flatMap fun t => t ++ ['\n'] := by
  induction ts with
  | nil => rfl
  | cons t ts ih =>
    rw [List.flatMap_cons, Octets.encode_append, Octets.encode_append, ih]
    rfl

/-- **A snippet that prints texts in quotes gives them back.** -/
theorem run_printing {interpreters : Interpreters} {language : Text}
    (hlanguage : interpreters.get? language =
      some ⟨Text.ofString "sh", [Text.ofString "-s"], none⟩)
    (files : FileTree) (directory : Path) (bindings : List (Octets × Octets)) {limit : Duration}
    (hlimit : 0 < limit.nanoseconds) (history : List Call) {ts : List Text} (hts : ts ≠ []) :
    interpreters.run (system files directory bindings) limit history ⟨language, Run.printing ts⟩ =
      .ok (ts.flatMap fun t => t ++ ['\n']) := by
  have hlaunch : Interpreter.launch ⟨Text.ofString "sh", [Text.ofString "-s"], none⟩
      (Run.printing ts) = ⟨Text.ofString "sh", [Text.ofString "-s"],
        Run.printing (ts.map Octets.encode), none⟩ := by
    rw [← encode_printing]
    rfl
  unfold Interpreters.run
  dsimp only
  rw [hlanguage]
  dsimp only
  rw [hlaunch, system_printing files directory bindings (by simpa using hts)]
  dsimp only
  have hnothing : Octets.decodeLossy [] = [] := Octets.decodeLossy_encode []
  rw [Interpreters.collect, if_pos (by simpa using hlimit), ← encode_lines,
    Octets.decodeLossy_encode, hnothing, List.append_nil]

/-- What a snippet answers does not depend on the calls made before. -/
theorem runner_isPure (home : Text) (config : Config) : (Main.runner home config).IsPure :=
  fun _ _ _ => rfl

/-- With the standard configuration a shell snippet prints what stands in it in quotes. -/
theorem runner_printing (home : Text) (history : List Call) {ts : List Text} (hts : ts ≠ []) :
    Main.runner home .standard history ⟨Text.ofString "sh", Run.printing ts⟩ =
      .ok (ts.flatMap fun t => t ++ ['\n']) := by
  have hlanguage : (Interpreters.ofLanguages Config.standard.languages).get? (Text.ofString "sh") =
      some ⟨Text.ofString "sh", [Text.ofString "-s"], none⟩ :=
    rfl
  have hlimit : 0 < Config.standard.timeout.nanoseconds :=
    Nat.mul_pos (by decide) (by decide)
  exact run_printing hlanguage _ _ _ hlimit history hts

end Literate.Shell
