import Literate.Proofs.Shell.Builtin
import Literate.Shell.Evaluation

/-!
# Carrying out commands never undoes anything

Whatever a script does, and however it ends, the shell gets to a later state only (`keeps_script`).
-/

namespace Literate.Shell

/-- Why a shell has not come to its end by itself. -/
def Flow.IsFatal : Flow → Prop
  | .killed _ | .endless => True
  | .exit | .leave _ | .again _ | .giveBack => False

namespace Run

variable {command : Octets → Run Octets} {act : Run Unit}

/-! ### Utilities -/

theorem keeps_perform (effect : Effect) : Keeps (perform effect) := by
  unfold perform
  refine Keeps.bind (keeps_changeWorld fun w => w.later_files _) fun _ => ?_
  refine keeps_session.bind fun s => (keeps_waitUntil _).bind fun _ => ?_
  refine (keeps_write _ _).bind fun _ => (keeps_write _ _).bind fun _ => ?_
  refine (keeps_setStatus _).bind fun _ => .ite (keeps_world.bind fun w => ?_) (keeps_pure _)
  refine keeps_session.bind fun s => ?_
  split
  · exact .ite (keeps_throw _) (keeps_pure _)
  · exact keeps_throw _

theorem keeps_setting (name : Octets) : Keeps (setting name) :=
  keeps_session.bind fun _ => keeps_world.bind fun _ => keeps_pure _

theorem keeps_startUtility (utility : Utility) (name : Octets) (operands : List Octets) :
    Keeps (startUtility utility name operands) := by
  refine (keeps_setting name).bind fun setting => ?_
  split
  · exact keeps_perform _
  · exact (keeps_readAll 0).bind fun _ => keeps_perform _

/-! ### Redirections -/

theorem keeps_outputChannel (isAppend : Bool) (path : Octets) :
    Keeps (outputChannel isAppend path) := by
  have hempty (place : Path) : Keeps (changeWorld fun w =>
      { w with files := w.files.insert place (some []) }) :=
    keeps_changeWorld fun w => w.later_files _
  unfold outputChannel
  refine keeps_session.bind fun s => keeps_world.bind fun w => ?_
  dsimp only
  split
  · exact keeps_pure _
  · exact keeps_pure _
  · exact keeps_pure _
  · split
    · exact keeps_pure _
    · split
      · exact keeps_pure _
      · exact .ite ((hempty _).bind fun _ => keeps_pure _) (keeps_pure _)
      · exact (hempty _).bind fun _ => keeps_pure _

theorem keeps_inputChannel (path : Octets) : Keeps (inputChannel path) := by
  unfold inputChannel
  refine keeps_session.bind fun s => ?_
  split
  · exact keeps_pure _
  · exact keeps_pure _
  · exact keeps_pure _
  · refine keeps_world.bind fun w => ?_
    split
    · exact (keeps_openSource _ _).bind fun _ => keeps_pure _
    · exact keeps_pure _
    · exact keeps_pure _
    · exact keeps_pure _

section Words

variable (h : ∀ script, Keeps (command script))

include h

theorem keeps_redirectOne (r : Redirect) : Keeps (redirectOne command r) := by
  unfold redirectOne
  extract_lets opened
  have hopened (words : String) (path : Octets) (channel : Except String Channel) :
      Keeps (opened words path channel) := by
    cases channel with
    | error reason => exact (keeps_complain _).bind fun _ => keeps_pure _
    | ok channel => exact (keeps_setChannel _ _).bind fun _ => keeps_pure _
  have htext (context : Context) := Expansion.keeps_text h context r.target
  split
  · rename_i expand _
    have hfinish (text : Octets) : Keeps (do
        setChannel r.descriptor (some (← openSource text 0))
        return true) :=
      (keeps_openSource _ _).bind fun _ => (keeps_setChannel _ _).bind fun _ => keeps_pure _
    exact .ite ((htext _).bind hfinish) ((keeps_pure _).bind hfinish)
  · exact (htext _).bind fun _ => (keeps_inputChannel _).bind fun _ => hopened _ _ _
  · exact (htext _).bind fun _ => (keeps_outputChannel _ _).bind fun _ => hopened _ _ _
  · exact (htext _).bind fun _ => (keeps_outputChannel _ _).bind fun _ => hopened _ _ _
  · refine (htext _).bind fun target => .ite ?_ ?_
    · exact (keeps_setChannel _ _).bind fun _ => keeps_pure _
    · split
      · exact keeps_fatal _
      · refine keeps_session.bind fun s => ?_
        split
        · exact (keeps_setChannel _ _).bind fun _ => keeps_pure _
        · exact (keeps_complain _).bind fun _ => keeps_pure _

theorem keeps_redirect (redirects : List Redirect) : Keeps (redirect command redirects) := by
  induction redirects with
  | nil => exact keeps_pure _
  | cons r rest ih => exact (keeps_redirectOne h r).bind fun _ => .ite ih (keeps_pure _)

theorem keeps_withRedirects {otherwise : Run Unit} (hotherwise : Keeps otherwise)
    (hact : Keeps act) (redirects : List Redirect) :
    Keeps (withRedirects command redirects otherwise act) := by
  refine .ite hact (keeps_session.bind fun s => ?_)
  refine ((keeps_redirect h _).bind fun _ => .ite hact hotherwise).attempt.bind fun result => ?_
  refine Keeps.bind (keeps_settle fun _ => rfl) fun _ => ?_
  cases result with
  | error flow => exact keeps_throw _
  | ok _ => exact keeps_pure _

theorem keeps_findArm (text : Octets) (arms : List (List Word × Command)) :
    Keeps (findArm command text arms) := by
  induction arms with
  | nil => exact keeps_pure _
  | cons arm rest ih =>
    refine (keeps_mapM fun w _ => Expansion.keeps_patternOf h w).bind fun items => ?_
    exact .ite (keeps_pure _) ih

end Words

/-! ### Parts of commands -/

theorem keeps_tested (h : Keeps act) : Keeps (tested act) := by
  refine keeps_session.bind fun s => ?_
  refine Keeps.bind (keeps_settle fun _ => rfl) fun _ => ?_
  exact h.bind fun _ => keeps_settle fun _ => rfl

theorem keeps_checkFailure : Keeps checkFailure :=
  keeps_session.bind fun _ => .ite (keeps_throw _) (keeps_pure _)

theorem keeps_loopRound {round : Run Bool} (h : Keeps round) (depth : Nat) :
    Keeps (loopRound depth round) := by
  refine Keeps.bind (keeps_settle fun _ => rfl) fun _ => ?_
  refine h.attempt.bind fun result => ?_
  split
  · exact keeps_pure _
  · exact .ite (keeps_pure _) (keeps_throw _)
  · exact .ite (keeps_pure _) (keeps_throw _)
  · exact keeps_throw _

theorem later_foldl_put (saved : List (Octets × Option Variable)) (s : Session) :
    s.Later (saved.foldl (fun s v => s.put v.1 v.2) s) := by
  induction saved generalizing s with
  | nil => exact .refl s
  | cons v saved ih => exact (s.later_put v.1 v.2).trans (ih _)

theorem keeps_withVariables (h : Keeps act) (assigned : List (Octets × Octets)) :
    Keeps (withVariables assigned act) := by
  refine (keeps_mapM fun v _ => keeps_session.bind fun s => ?_).bind fun saved => ?_
  · refine (keeps_setVariable _ _).bind fun _ => ?_
    exact Keeps.bind (keeps_changeSession fun s => s.later_put _ _) fun _ => keeps_pure _
  · refine h.attempt.bind fun result => ?_
    refine Keeps.bind (keeps_changeSession fun s => later_foldl_put _ s) fun _ => ?_
    cases result with
    | error flow => exact keeps_throw _
    | ok _ => exact keeps_pure _

/-! ### Shells of their own -/

/-- **A shell of its own always gives the control back**, and of what it has changed in itself only
the time is left.  It ends in a later state than the one it was prepared in. -/
theorem exists_of_child {finish : Octets → Run Unit} (hfinish : ∀ action, Keeps (finish action))
    (h : Keeps act) (prepare : Session → Session) (s : State) : ∃ ending flow? w,
      child finish prepare act s = .ok (ending, flow?) ⟨s.session.atTime ending.clock, w⟩ ∧
        State.Later ⟨prepare { s.session with onExit := none }, s.world⟩ ⟨ending, w⟩ ∧
          ∀ flow, flow? = some flow → flow.IsFatal := by
  unfold child
  rw [session_bind_apply, changeSession_bind_apply, attempt_bind_apply, session_bind_apply]
  have hact := h ⟨prepare { s.session with onExit := none }, s.world⟩
  generalize act.after ⟨prepare { s.session with onExit := none }, s.world⟩ = s' at hact ⊢
  split
  · exact ⟨_, _, _, rfl, hact, fun _ h => by cases h; trivial⟩
  · exact ⟨_, _, _, rfl, hact, fun _ h => by cases h; trivial⟩
  · rw [if_pos rfl]
    cases s'.session.onExit with
    | none => exact ⟨_, _, _, rfl, hact, nofun⟩
    | some action =>
      -- What is to be carried out at the end is carried out without an end of its own.
      dsimp only
      rw [changeSession_bind_apply, attempt_bind_apply]
      have hcleared : s'.Later ⟨{ s'.session with onExit := none }, s'.world⟩ :=
        ⟨s'.session.later_of_standing_eq rfl, .refl _⟩
      have hlast := hcleared.trans (hfinish action _)
      have hstatus := hlast.trans (keeps_setStatus s'.session.status _)
      cases (finish action).outcome ⟨{ s'.session with onExit := none }, s'.world⟩ with
      | ok _ => exact ⟨_, _, _, rfl, hact.trans hstatus, nofun⟩
      | error flow =>
        cases flow with
        | exit => exact ⟨_, _, _, rfl, hact.trans hlast, nofun⟩
        | _ => exact ⟨_, _, _, rfl, hact.trans hstatus, nofun⟩

theorem keeps_child {finish : Octets → Run Unit} (hfinish : ∀ action, Keeps (finish action))
    (h : Keeps act) {prepare : Session → Session}
    (hprepare : ∀ s : Session, (prepare s).clock = s.clock) :
    Keeps (child finish prepare act) := by
  intro s
  obtain ⟨ending, flow?, w, heq, hlater, -⟩ := exists_of_child hfinish h prepare s
  rw [after_of_eq_ok heq]
  have hclock := hlater.session.clock
  rw [hprepare] at hclock
  exact ⟨⟨hclock, rfl, rfl⟩, hlater.world⟩

theorem keeps_childStatus {finish : Octets → Run Unit} (hfinish : ∀ action, Keeps (finish action))
    (h : Keeps act) {prepare : Session → Session}
    (hprepare : ∀ s : Session, (prepare s).clock = s.clock) :
    Keeps (childStatus finish prepare act) := by
  refine (keeps_child hfinish h hprepare).bind fun result => ?_
  split
  · exact keeps_pure _
  · exact keeps_throw _

/-! ### Commands -/

/-- What is known of the commands that are nested less deep. -/
structure Keeping (fuel : Nat) : Prop where
  command : ∀ c, Keeps (Run.command fuel c)
  simple : ∀ line words redirects, Keeps (simple fuel line words redirects)
  call : ∀ functions name operands, Keeps (call fuel functions name operands)
  program : ∀ label name operands, Keeps (program fuel label name operands)
  shell : ∀ operands, Keeps (shell fuel operands)
  /-- The clock goes back to the time at which the pipeline began, and no further. -/
  pipeline : ∀ input began ended stages (s : State), began ≤ s.session.clock →
    (s.atTime began).Later ((pipeline fuel input began ended stages).after s)
  background : ∀ c, Keeps (background fuel c)
  capture : ∀ text, Keeps (capture fuel text)
  script : ∀ line text, Keeps (script fuel line text)

section Step

variable {fuel : Nat} (h : Keeping fuel)

include h

theorem keeps_command_succ (c : Command) : Keeps (Run.command (fuel + 1) c) := by
  cases c with
  | nothing =>
    rw [Run.command]
    exact keeps_pure _
  | simple line words redirects =>
    rw [Run.command]
    exact h.simple _ _ _
  | pipeline stages =>
    rw [Run.command]
    intro s
    have hstages := h.pipeline none s.session.clock s.session.clock stages s (Nat.le_refl _)
    rw [after_session_bind]
    exact later_after_bind hstages fun _ _ _ hs' => keeps_checkFailure.later hs'
  | negated c =>
    rw [Run.command]
    exact (keeps_tested (h.command _)).bind fun _ => keeps_session.bind fun _ => keeps_setStatus _
  | both first second =>
    rw [Run.command]
    refine (keeps_tested (h.command _)).bind fun _ => keeps_session.bind fun _ => ?_
    exact .ite (h.command _) (keeps_pure _)
  | either first second =>
    rw [Run.command]
    refine (keeps_tested (h.command _)).bind fun _ => keeps_session.bind fun _ => ?_
    exact .ite (h.command _) (keeps_pure _)
  | sequence first second =>
    rw [Run.command]
    exact (h.command _).bind fun _ => h.command _
  | background c =>
    rw [Run.command]
    exact h.background _
  | subshell body =>
    rw [Run.command]
    refine (keeps_childStatus (h.script 1) (h.command _) fun s => rfl).bind fun _ => ?_
    exact (keeps_setStatus _).bind fun _ => keeps_checkFailure
  | redirected body redirects =>
    rw [Run.command]
    exact keeps_withRedirects h.capture (keeps_setStatus _) (h.command _) _
  | branch condition yes no =>
    rw [Run.command]
    refine (keeps_tested (h.command _)).bind fun _ => keeps_session.bind fun _ => ?_
    exact .ite (h.command _) ((keeps_setStatus _).bind fun _ => h.command _)
  | loop whileFails condition body =>
    rw [Run.command]
    refine keeps_session.bind fun s => ?_
    extract_lets before round
    have hround (last : Nat) : Keeps (round last) := by
      refine keeps_step.bind fun _ => (keeps_loopRound ?_ _).bind fun goesOn => ?_
      · refine (keeps_tested (h.command _)).bind fun _ => keeps_session.bind fun _ => .ite ?_ ?_
        · exact (keeps_setStatus _).bind fun _ => keeps_pure _
        · exact (h.command _).bind fun _ => keeps_pure _
      · exact keeps_session.bind fun _ => .ite (keeps_pure _) (keeps_pure _)
    refine keeps_world.bind fun w => (keeps_iterate hround _ _).bind fun _ => ?_
    exact keeps_settle fun _ => rfl
  | each line name words body =>
    rw [Run.command]
    refine Keeps.bind (keeps_settle fun _ => rfl) fun _ => ?_
    refine keeps_session.bind fun s => ?_
    extract_lets arguments loop
    have hloop (values : List Octets) : Keeps (loop values) := by
      refine keeps_session.bind fun s => (keeps_setStatus _).bind fun _ => ?_
      refine (keeps_iterate (fun values => ?_) _ _).bind fun _ => ?_
      · split
        · exact keeps_pure _
        · refine keeps_step.bind fun _ => (keeps_setVariable _ _).bind fun _ => ?_
          refine (keeps_loopRound ((h.command _).bind fun _ => keeps_pure _) _).bind fun _ => ?_
          exact .ite (keeps_pure _) (keeps_pure _)
      · exact keeps_settle fun _ => rfl
    split
    · exact (Expansion.keeps_allArguments h.capture _).bind hloop
    · exact (keeps_pure _).bind hloop
  | choice line w arms =>
    rw [Run.command]
    refine Keeps.bind (keeps_settle fun _ => rfl) fun _ => ?_
    refine (Expansion.keeps_text h.capture _ _).bind fun text => ?_
    refine (keeps_findArm h.capture _ _).bind fun body => ?_
    exact (keeps_setStatus _).bind fun _ => h.command _
  | define name body =>
    rw [Run.command]
    exact keeps_settle fun _ => rfl

theorem keeps_simple_succ (line : Nat) (words : List Word) (redirects : List Redirect) :
    Keeps (simple (fuel + 1) line words redirects) := by
  rw [simple]
  refine keeps_step.bind fun _ => ?_
  refine Keeps.bind (keeps_settle fun _ => rfl) fun _ => ?_
  refine (Expansion.keeps_allArguments h.capture _).bind fun arguments => ?_
  refine Keeps.bind (keeps_mapM fun v _ => ?_) fun values => ?_
  · refine (Expansion.keeps_text h.capture _ _).bind fun value => ?_
    exact .ite ((keeps_setVariable _ _).bind fun _ => keeps_pure _) (keeps_pure _)
  · refine keeps_session.bind fun s => ?_
    extract_lets last finish carryOut shown
    have hlast (u : Unit) : Keeps (last u) := keeps_checkFailure
    have hcarryOut (u : Unit) : Keeps (carryOut u) := by
      unfold carryOut
      split
      · have hfinish (u : Unit) : Keeps (finish u) :=
          (keeps_withRedirects h.capture (keeps_setStatus _) (keeps_pure _) _).bind hlast
        exact .ite ((keeps_setStatus _).bind hfinish) (hfinish ())
      · refine .ite ((keeps_setStatus _).bind fun _ => ?_) (keeps_session.bind fun s => ?_)
        · refine (keeps_redirect h.capture _).bind fun _ => .ite ?_ (hlast ())
          exact (keeps_setStatus _).bind fun _ => (keeps_throw _).bind hlast
        · extract_lets isFunction failed act
          have hfailed : Keeps failed :=
            (keeps_setStatus _).bind fun _ => .ite (keeps_throw _) (keeps_pure _)
          have hact : Keeps act := keeps_withRedirects h.capture hfailed (h.call _ _ _) _
          refine .ite ?_ ((keeps_withVariables hact _).bind hlast)
          refine Keeps.bind (keeps_forIn (fun v _ => ?_) _ _) fun _ => hact.bind hlast
          exact (keeps_setVariable _ _).bind fun _ => keeps_pure _
    exact .ite ((keeps_write _ _).bind hcarryOut) (hcarryOut ())

theorem keeps_call_succ (functions : Bool) (name : Octets) (operands : List Octets) :
    Keeps (call (fuel + 1) functions name operands) := by
  unfold call
  intro s
  rw [after_session_bind]
  extract_lets body?
  cases body? with
  | some body =>
    dsimp only
    rw [after_changeSession_bind, after_attempt_bind]
    have hbody : Keeps (if greatestCalls < s.session.locals.length then do
        fatal (Text.ofString "Maximum function recursion depth (1000) reached")
        Run.command fuel body
      else Run.command fuel body) :=
      .ite ((keeps_fatal _).bind fun _ => h.command _) (h.command _)
    have hs' := hbody ⟨{ s.session with
      arguments := operands, loops := 0, locals := [] :: s.session.locals }, s.world⟩
    -- The function has its own arguments and local variables, which end with it.
    refine later_after_bind ⟨⟨?_, ?_, rfl⟩, hs'.world⟩ fun _ s' _ => Keeps.later ?_
    · exact Nat.le_trans hs'.session.clock (later_foldl_put _ _).clock
    · exact (later_foldl_put _ _).number.trans hs'.session.number
    · split
      · exact keeps_pure _
      · exact keeps_pure _
      · exact keeps_throw _
  | none =>
    dsimp only
    split
    · exact (keeps_setStatus _).bind (fun _ => h.script _ _) s
    · refine keeps_world.bind (fun w => ?_) s
      split
      · refine (h.script _ _).attempt.bind fun result => ?_
        split
        · exact keeps_pure _
        · exact keeps_pure _
        · exact keeps_throw _
      · exact .ite (keeps_fatalIn _ _) (keeps_fatalIn _ _)
    · exact (h.program _ _ _).bind (fun _ => keeps_throw _) s
    · split
      · exact keeps_findCommands _ s
      · exact keeps_setStatus _ s
      · exact h.call _ _ _ s
    · split
      · rename_i act hact
        exact keeps_builtin? hact _ s
      · split
        · exact keeps_startUtility _ _ _ s
        · exact h.program _ _ _ s

theorem keeps_program_succ (label : String) (name : Octets) (operands : List Octets) :
    Keeps (program (fuel + 1) label name operands) := by
  rw [program]
  refine keeps_session.bind fun s => keeps_world.bind fun w => ?_
  split
  · exact (keeps_complain _).bind fun _ => keeps_setStatus _
  · exact (keeps_complain _).bind fun _ => keeps_setStatus _
  · refine (h.shell _).bind fun result => ?_
    split
    · exact keeps_pure _
    · refine (keeps_setStatus _).bind fun _ => ?_
      split
      · exact keeps_pure _
      · exact keeps_write _ _
  · extract_lets assigned
    split
    · exact keeps_withVariables (keeps_startUtility _ _ _) _
    · exact keeps_withVariables (h.program _ _ _) _
  · refine (keeps_readAll _).bind fun input => ?_
    extract_lets words
    split
    refine Keeps.bind (keeps_forIn (fun group _ => ?_) _ _) fun _ => keeps_pure _
    exact (h.program _ _ _).bind fun _ => keeps_pure _
  · exact keeps_startUtility _ _ _

theorem keeps_startScript (start : Start) : Keeps (do
    match start.script, start.path with
    | some text, _ => script fuel 1 text
    | none, none => script fuel 1 (← readAll 0)
    | none, some path =>
      match (← world).files.stateAt (← session).directory path with
      | .content text => script fuel 1 text
      | _ =>
        changeSession fun s => { s with name := ['s', 'h'], line := 0 }
        complain (Text.ofString "cannot open " ++ path ++ Text.ofString ": No such file")
        setStatus 2) := by
  split
  · exact h.script _ _
  · exact (keeps_readAll _).bind fun _ => h.script _ _
  · refine keeps_world.bind fun w => keeps_session.bind fun s => ?_
    split
    · exact h.script _ _
    · refine Keeps.bind (keeps_settle fun _ => rfl) fun _ => ?_
      exact (keeps_complain _).bind fun _ => keeps_setStatus _

theorem keeps_shell_succ (operands : List Octets) : Keeps (shell (fuel + 1) operands) := by
  rw [shell]
  intro s
  rw [after_world_bind]
  have hnumber : s.Later ⟨s.session, { s.world with nextNumber := s.world.nextNumber + 1 }⟩ :=
    ⟨.refl _, s.world.later_nextNumber⟩
  refine later_after_bind hnumber fun _ s' _ hs' => Keeps.later (Keeps.bind ?_ ?_) hs'
  · exact keeps_child (h.script 1) (keeps_startScript h _) fun s => rfl
  · intro result
    split
    · exact (keeps_setStatus _).bind fun _ => keeps_pure _
    · exact keeps_pure _
    · exact keeps_throw _

theorem keeps_capture_succ (text : Octets) : Keeps (capture (fuel + 1) text) := by
  rw [capture]
  refine (keeps_openSink _).bind fun sink => keeps_session.bind fun s => ?_
  refine Keeps.bind ?_ fun status => ?_
  · exact keeps_childStatus (h.script 1) (h.script _ _) fun s => rfl
  refine keeps_session.bind fun s => (keeps_closeSink _ _).bind fun written => ?_
  exact (keeps_waitUntil _).bind fun _ => (keeps_setStatus _).bind fun _ => keeps_pure _

theorem keeps_script_succ (line : Nat) (text : Octets) : Keeps (script (fuel + 1) line text) := by
  rw [script]
  refine keeps_iterate (fun s => ?_) _ _
  split
  · refine Keeps.bind (keeps_settle fun _ => rfl) fun _ => ?_
    exact keeps_fatal _
  · exact keeps_pure _
  · exact (h.command _).bind fun _ => keeps_pure _

theorem keeps_background_succ (c : Command) : Keeps (background (fuel + 1) c) := by
  rw [background]
  intro s
  rw [after_get_bind]
  have hnumber : s.Later ⟨s.session, { s.world with nextNumber := s.world.nextNumber + 1 }⟩ :=
    ⟨.refl _, s.world.later_nextNumber⟩
  refine later_after_bind hnumber fun _ s' _ hs' => ?_
  split
  refine later_after_bind ?_ fun result s' _ hs' => ?_
  · refine Keeps.later (keeps_child (h.script 1) ?_ fun s => rfl) hs'
    exact (keeps_redirect h.capture _).bind fun _ => .ite (h.command _) (keeps_setStatus _)
  · -- The clock and the steps are set to what they were, or to less.
    refine ⟨⟨Nat.le_refl _, hs'.session.number, hs'.session.depth⟩, ?_⟩
    have hworld := hs'.world
    refine ⟨hworld.sources, hworld.sinks, ?_, hworld.nextNumber, ?_⟩
    · exact hworld.jobs.trans (List.suffix_cons _ _)
    · have hsteps := hworld.steps
      show max s'.world.steps (s.world.steps / 2) ≤ s.world.steps
      omega

theorem later_pipeline_succ (input : Option Channel) (began ended : Nat) (stages : List Command)
    (s : State) (hs : began ≤ s.session.clock) :
    (s.atTime began).Later ((pipeline (fuel + 1) input began ended stages).after s) := by
  have hback := State.atTime_later hs
  cases stages with
  | nil =>
    rw [pipeline]
    exact (keeps_waitUntil _).later hback
  | cons stage rest =>
    cases rest with
    | nil =>
      rw [pipeline, after_changeSession_bind]
      refine Keeps.bind (keeps_childStatus (h.script 1) (h.command _) fun s => ?_)
        (fun status => ?_) _
      · cases input with
        | none => rfl
        | some channel => rfl
      · exact (keeps_waitUntil _).bind fun _ => keeps_setStatus _
    | cons next rest =>
      rw [pipeline]
      · refine later_after_bind ((keeps_openSink true).later hback) fun pipe s' _ hs' => ?_
        rw [after_changeSession_bind]
        refine later_after_bind (Keeps.later ?_ hs'.atTime) fun _ s' _ hs' => ?_
        · refine keeps_childStatus (h.script 1) (h.command _) fun s => ?_
          cases input with
          | none => rfl
          | some channel => rfl
        · rw [after_session_bind]
          refine later_after_bind ((keeps_closeSink _ _).later hs') fun _ s' _ hs' => ?_
          refine later_after_bind ((keeps_openSource _ _).later hs') fun source s' _ hs' => ?_
          exact hs'.atTime.trans (h.pipeline _ _ _ _ s' hs'.session.clock)
      · exact List.cons_ne_nil _ _

end Step

theorem keeping (fuel : Nat) : Keeping fuel := by
  induction fuel with
  | zero =>
    refine
      { command := fun c => ?_
        simple := fun line words redirects => ?_
        call := fun functions name operands => ?_
        program := fun label name operands => ?_
        shell := fun operands => ?_
        pipeline := fun input began ended stages s hs => ?_
        background := fun c => ?_
        capture := fun text => ?_
        script := fun line text => ?_ }
    · rw [Run.command]
      exact keeps_throw _
    · rw [simple]
      exact keeps_throw _
    · rw [call]
      exact keeps_throw _
    · rw [program]
      exact keeps_throw _
    · rw [shell]
      exact keeps_throw _
    · rw [pipeline]
      exact (keeps_throw _).later (State.atTime_later hs)
    · rw [background]
      exact keeps_throw _
    · rw [capture]
      exact keeps_throw _
    · rw [script]
      exact keeps_throw _
  | succ fuel ih =>
    exact
      { command := keeps_command_succ ih
        simple := keeps_simple_succ ih
        call := keeps_call_succ ih
        program := keeps_program_succ ih
        shell := keeps_shell_succ ih
        pipeline := later_pipeline_succ ih
        background := keeps_background_succ ih
        capture := keeps_capture_succ ih
        script := keeps_script_succ ih }

/-- **Whatever a command does, and however it ends, it leads to a later state only.** -/
theorem keeps_command (fuel : Nat) (c : Command) : Keeps (Run.command fuel c) :=
  (keeping fuel).command c

/-- **Whatever is in a script, and however it ends, it leads to a later state only.** -/
theorem keeps_script (fuel line : Nat) (text : Octets) : Keeps (script fuel line text) :=
  (keeping fuel).script line text

end Run

end Literate.Shell
