import Literate.Proofs.Shell.Evaluation

/-!
# What is left of a part of a script

A command in parentheses, a pipeline, a command whose output a word takes and a shell that a script
starts are carried out by shells of their own.  Whatever they do to their variables, functions,
directory or descriptors, only the time and the status are left of it (`isIsolated_subshell`,
`isIsolated_pipeline`, `isIsolated_capture`, `isIsolated_shell`).  A command in the background
leaves not even the time that it takes (`exists_of_background`).

A redirection ends with its command (`channels_withRedirects`), and a function gives back the
arguments and the loops of its caller (`arguments_call`).  All of this holds however the part ends.
-/

namespace Literate.Shell

/-- Two states of a shell that differ in the time and in the status only. -/
def Session.Alike (s s' : Session) : Prop :=
  ∃ clock status, s' = { s with clock, status }

theorem Session.Alike.refl (s : Session) : s.Alike s :=
  ⟨s.clock, s.status, rfl⟩

theorem Session.Alike.trans {a b c : Session} (h : a.Alike b) (h' : b.Alike c) : a.Alike c := by
  obtain ⟨_, _, rfl⟩ := h
  obtain ⟨clock, status, rfl⟩ := h'
  exact ⟨clock, status, rfl⟩

namespace Run

variable {α β : Type}

/-- **Of what the action does to the shell, only the time and the status are left**, whether it
succeeds or not. -/
def IsIsolated (act : Run α) : Prop :=
  ∀ s : State, s.session.Alike (act.after s).session

theorem IsIsolated.bind {x : Run α} {f : α → Run β} (hx : IsIsolated x)
    (hf : ∀ a, IsIsolated (f a)) : IsIsolated (x >>= f) := by
  intro s
  have hs := hx s
  rw [after_bind]
  cases h : x s with
  | ok a s' =>
    rw [after_of_eq_ok h] at hs
    exact hs.trans (hf a s')
  | error flow s' =>
    rw [after_of_eq_error h] at hs
    exact hs

theorem IsIsolated.ite {c : Prop} [Decidable c] {x y : Run α} (hx : IsIsolated x)
    (hy : IsIsolated y) : IsIsolated (if c then x else y) := by
  split
  · exact hx
  · exact hy

theorem isIsolated_pure (a : α) : IsIsolated (pure a : Run α) :=
  fun s => .refl s.session

theorem isIsolated_throw (flow : Flow) : IsIsolated (throw flow : Run α) :=
  fun s => .refl s.session

theorem isIsolated_session : IsIsolated session :=
  fun s => .refl s.session

theorem isIsolated_world : IsIsolated world :=
  fun s => .refl s.session

theorem isIsolated_changeWorld (f : World → World) : IsIsolated (changeWorld f) :=
  fun s => .refl s.session

theorem isIsolated_setStatus (status : Nat) : IsIsolated (setStatus status) :=
  fun s => ⟨s.session.clock, status, rfl⟩

theorem isIsolated_setClock (clock : Nat) : IsIsolated (changeSession fun s => { s with clock }) :=
  fun s => ⟨clock, s.session.status, rfl⟩

theorem isIsolated_waitUntil (time : Nat) : IsIsolated (waitUntil time) :=
  fun s => ⟨_, s.session.status, rfl⟩

theorem isIsolated_checkFailure : IsIsolated checkFailure :=
  isIsolated_session.bind fun _ => .ite (isIsolated_throw _) (isIsolated_pure _)

theorem isIsolated_openSink (isPipe : Bool) : IsIsolated (openSink isPipe) :=
  isIsolated_world.bind fun _ => (isIsolated_changeWorld _).bind fun _ => isIsolated_pure _

theorem isIsolated_openSource (octets : Octets) (closedAt : Nat) :
    IsIsolated (openSource octets closedAt) :=
  isIsolated_world.bind fun _ => (isIsolated_changeWorld _).bind fun _ => isIsolated_pure _

theorem isIsolated_closeSink (channel : Channel) (time : Nat) :
    IsIsolated (closeSink channel time) := by
  refine isIsolated_world.bind fun w => ?_
  split
  · exact isIsolated_pure _
  · exact isIsolated_pure _

/-! ### Shells of their own -/

section Child

variable {act : Run Unit} (h : Keeps act) (fuel : Nat) (prepare : Session → Session)

include h

theorem isIsolated_child : IsIsolated (child (script fuel 1) prepare act) := by
  intro s
  obtain ⟨ending, flow?, w, heq, -, -⟩ := exists_of_child (keeps_script fuel 1) h prepare s
  rw [after_of_eq_ok heq]
  exact ⟨ending.clock, s.session.status, rfl⟩

theorem isIsolated_childStatus : IsIsolated (childStatus (script fuel 1) prepare act) := by
  refine (isIsolated_child h fuel prepare).bind fun result => ?_
  split
  · exact isIsolated_pure _
  · exact isIsolated_throw _

end Child

/-- **A command in parentheses changes nothing in the shell around it.** -/
theorem isIsolated_subshell (fuel : Nat) (body : Command) :
    IsIsolated (command fuel (.subshell body)) := by
  cases fuel with
  | zero =>
    rw [command]
    exact isIsolated_throw _
  | succ fuel =>
    rw [command]
    refine (isIsolated_childStatus (keeps_command _ _) _ _).bind fun status => ?_
    exact (isIsolated_setStatus _).bind fun _ => isIsolated_checkFailure

theorem isIsolated_stages (fuel : Nat) (input : Option Channel) (began ended : Nat)
    (stages : List Command) : IsIsolated (pipeline fuel input began ended stages) := by
  induction stages generalizing fuel input ended with
  | nil =>
    cases fuel with
    | zero =>
      rw [pipeline]
      exact isIsolated_throw _
    | succ fuel =>
      rw [pipeline]
      exact isIsolated_waitUntil _
  | cons stage rest ih =>
    cases fuel with
    | zero =>
      rw [pipeline]
      exact isIsolated_throw _
    | succ fuel =>
      cases rest with
      | nil =>
        rw [pipeline]
        refine (isIsolated_setClock _).bind fun _ => ?_
        refine (isIsolated_childStatus (keeps_command _ _) _ _).bind fun status => ?_
        exact (isIsolated_waitUntil _).bind fun _ => isIsolated_setStatus _
      | cons next rest =>
        rw [pipeline]
        · refine (isIsolated_openSink _).bind fun pipe => (isIsolated_setClock _).bind fun _ => ?_
          refine (isIsolated_childStatus (keeps_command _ _) _ _).bind fun _ => ?_
          refine isIsolated_session.bind fun s => (isIsolated_closeSink _ _).bind fun _ => ?_
          exact (isIsolated_openSource _ _).bind fun _ => ih _ _ _
        · exact List.cons_ne_nil _ _

/-- **The commands of a pipeline change nothing in the shell**, the last one neither. -/
theorem isIsolated_pipeline (fuel : Nat) (stages : List Command) :
    IsIsolated (command fuel (.pipeline stages)) := by
  cases fuel with
  | zero =>
    rw [command]
    exact isIsolated_throw _
  | succ fuel =>
    rw [command]
    refine isIsolated_session.bind fun s => (isIsolated_stages _ _ _ _ _).bind fun _ => ?_
    exact isIsolated_checkFailure

/-- **A script whose output is taken changes nothing in the shell.** -/
theorem isIsolated_capture (fuel : Nat) (text : Octets) : IsIsolated (capture fuel text) := by
  cases fuel with
  | zero =>
    rw [capture]
    exact isIsolated_throw _
  | succ fuel =>
    rw [capture]
    refine (isIsolated_openSink _).bind fun sink => isIsolated_session.bind fun s => ?_
    refine (isIsolated_childStatus (keeps_script _ _ _) _ _).bind fun status => ?_
    refine isIsolated_session.bind fun s => (isIsolated_closeSink _ _).bind fun written => ?_
    refine (isIsolated_waitUntil _).bind fun _ => (isIsolated_setStatus _).bind fun _ => ?_
    exact isIsolated_pure _

/-- **A command in the background takes no time**, and the script goes on whatever becomes of it.
The shell has another last job and the status 0. -/
theorem exists_of_background (fuel : Nat) (c : Command) (s : State) : ∃ w,
    background (fuel + 1) c s =
      .ok () ⟨{ s.session with lastJob := some s.world.nextNumber, status := 0 }, w⟩ := by
  rw [background, get_bind_apply, changeWorld_bind_apply]
  have hact : Keeps (redirect (capture fuel) c.peel.1 >>= fun goesOn =>
      if goesOn then command fuel c.peel.2 else setStatus 2) :=
    (keeps_redirect (keeping fuel).capture _).bind fun _ =>
      .ite (keeps_command _ _) (keeps_setStatus _)
  obtain ⟨ending, flow?, w, heq, -, -⟩ := exists_of_child (keeps_script fuel 1) hact
    (fun s => s.lead 0 (some .null)) ⟨s.session, { s.world with
      nextNumber := s.world.nextNumber + 1 }⟩
  exact ⟨_, (bind_apply_of_eq_ok heq).trans rfl⟩

/-- **A shell that a script starts changes nothing in the one that starts it.** -/
theorem isIsolated_shell (fuel : Nat) (operands : List Octets) :
    IsIsolated (shell fuel operands) := by
  cases fuel with
  | zero =>
    rw [shell]
    exact isIsolated_throw _
  | succ fuel =>
    rw [shell]
    refine isIsolated_world.bind fun w => (isIsolated_changeWorld _).bind fun _ => ?_
    refine (isIsolated_child (keeps_startScript (keeping fuel) _) _ _).bind fun result => ?_
    split
    · exact (isIsolated_setStatus _).bind fun _ => isIsolated_pure _
    · exact isIsolated_pure _
    · exact isIsolated_throw _

/-- Such a shell is cut short by nothing that happens in it: it fails only by never coming to its
end. -/
theorem eq_endless_of_shell {fuel : Nat} {operands : List Octets} {s s' : State} {flow : Flow}
    (h : shell fuel operands s = .error flow s') : flow = .endless := by
  cases fuel with
  | zero =>
    rw [shell] at h
    cases h
    rfl
  | succ fuel =>
    rw [shell] at h
    obtain ⟨ending, flow?, w, heq, -, hfatal⟩ := exists_of_child (keeps_script fuel 1)
      (keeps_startScript (keeping fuel) (Start.ofOperands false false [] operands)) _ _
    replace h := (bind_apply_of_eq_ok heq).symm.trans h
    cases flow? with
    | none => cases h
    | some flow' =>
      cases flow' with
      | killed signal => cases h
      | endless =>
        cases h
        rfl
      | exit => cases hfatal _ rfl
      | leave => cases hfatal _ rfl
      | again => cases hfatal _ rfl
      | giveBack => cases hfatal _ rfl

/-! ### Redirections and functions -/

/-- **A redirection ends with its command.** -/
theorem channels_withRedirects (command : Octets → Run Octets) {redirects : List Redirect}
    (hredirects : redirects ≠ []) (otherwise act : Run Unit) (s : State) :
    ((withRedirects command redirects otherwise act).after s).session.channels =
      s.session.channels := by
  unfold withRedirects
  rw [if_neg hredirects, after_session_bind, after_attempt_bind, after_changeSession_bind]
  split
  · rfl
  · rfl

/-- **A function gives back the arguments and the loops of its caller.** -/
theorem arguments_call (fuel : Nat) {name : Octets} (operands : List Octets) {s : State}
    (hname : s.session.functions.any fun f => f.1 == name) :
    ((call fuel true name operands).after s).session.arguments = s.session.arguments ∧
      ((call fuel true name operands).after s).session.loops = s.session.loops := by
  cases fuel with
  | zero =>
    rw [call]
    exact ⟨rfl, rfl⟩
  | succ fuel =>
    obtain ⟨found, hfound⟩ := Option.isSome_iff_exists.mp (List.find?_isSome.mpr
      (List.any_eq_true.mp hname))
    unfold call
    rw [after_session_bind, if_pos rfl, hfound, Option.map_some]
    dsimp only
    rw [after_changeSession_bind, after_attempt_bind, after_changeSession_bind]
    split
    · exact ⟨rfl, rfl⟩
    · exact ⟨rfl, rfl⟩
    · exact ⟨rfl, rfl⟩

end Run

end Literate.Shell
