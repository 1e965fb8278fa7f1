import Literate.Proofs.Shell.Expansion
import Literate.Shell.Builtin

/-!
# Commands of the shell itself never undo anything

One lemma for each command that looks at the state or changes it, and `keeps_builtin?` for all of
them.
-/

namespace Literate.Shell.Run

variable {α : Type}

theorem keeps_fatalIn (name : String) (message : Octets) : Keeps (fatalIn name message : Run α) :=
  keeps_fatal _

theorem keeps_failIn (name : String) (status : Nat) (message : Octets) :
    Keeps (failIn name status message) :=
  (keeps_complain _).bind fun _ => keeps_setStatus _

theorem keeps_countOperand (name : String) (other : Nat) (operands : List Octets) :
    Keeps (countOperand name other operands) := by
  unfold countOperand
  split
  · exact keeps_pure _
  · split
    · exact keeps_pure _
    · exact keeps_fatalIn _ _

/-! ### Directories, loops, arguments and options -/

theorem keeps_goTo (operands : List Octets) : Keeps (goTo operands) := by
  unfold goTo
  refine keeps_session.bind fun s => ?_
  extract_lets home path
  refine keeps_world.bind fun w => ?_
  dsimp only
  split
  · refine .ite ?_ (keeps_failIn _ _ _)
    refine Keeps.bind (keeps_settle fun _ => rfl) fun _ => ?_
    refine (keeps_setVariable _ _).bind fun _ => (keeps_setVariable _ _).bind fun _ => ?_
    exact .ite ((keeps_write _ _).bind fun _ => keeps_setStatus _) (keeps_setStatus _)
  · exact keeps_failIn _ _ _

theorem keeps_leaveLoop (name : String) (flow : Nat → Flow) (operands : List Octets) :
    Keeps (leaveLoop name flow operands) := by
  refine (keeps_countOperand _ _ _).bind fun n => keeps_session.bind fun s => ?_
  exact (keeps_setStatus _).bind fun _ => .ite (keeps_pure _) (keeps_throw _)

theorem keeps_shiftArguments (operands : List Octets) : Keeps (shiftArguments operands) := by
  refine (keeps_countOperand _ _ _).bind fun n => keeps_session.bind fun s => ?_
  have hdrop : Keeps (do
      changeSession fun s => { s with arguments := s.arguments.drop n }
      setStatus 0) :=
    .bind (keeps_settle fun _ => rfl) fun _ => keeps_setStatus _
  exact .ite ((keeps_fatalIn _ _).bind fun _ => hdrop) hdrop

theorem keeps_setFlags (on : Bool) (letters : Octets) : Keeps (setFlags on letters) :=
  keeps_settle fun _ => rfl

theorem keeps_setOptions (count : Nat) (operands : List Octets) :
    Keeps (setOptions count operands) := by
  induction count generalizing operands with
  | zero =>
    rw [setOptions]
    exact keeps_pure _
  | succ count ih =>
    unfold setOptions
    split
    · exact keeps_pure _
    · exact keeps_settle fun _ => rfl
    · exact (keeps_setFlags _ _).bind fun _ => ih _
    · exact (keeps_setFlags _ _).bind fun _ => ih _
    · exact (keeps_setFlags _ _).bind fun _ => ih _
    · exact (keeps_setFlags _ _).bind fun _ => ih _
    · exact keeps_settle fun _ => rfl

/-! ### Variables -/

theorem keeps_markVariables (name : String) (mark : Variable → Variable) (operands : List Octets) :
    Keeps (markVariables name mark operands) := by
  unfold markVariables
  refine (keeps_forIn (fun operand _ => ?_) _ _).bind fun _ => ?_
  · split
    · refine (keeps_setVariable _ _).bind fun _ => ?_
      exact (keeps_changeSession fun s => s.later_put _ _).bind fun _ => keeps_pure _
    · refine .ite ?_ ?_
      · exact (keeps_changeSession fun s => s.later_put _ _).bind fun _ => keeps_pure _
      · exact (keeps_fatalIn _ _).bind fun _ => keeps_pure _
  · refine .ite (keeps_session.bind fun s => ?_) (keeps_setStatus _)
    refine (keeps_forIn (fun v _ => ?_) _ _).bind fun _ => keeps_setStatus _
    exact .ite ((keeps_write _ _).bind fun _ => keeps_pure _) (keeps_pure _)

theorem keeps_unset (operands : List Octets) : Keeps (unset operands) := by
  unfold unset
  split
  · refine Keeps.bind (keeps_settle fun _ => rfl) fun _ => ?_
    exact keeps_setStatus _
  · refine (keeps_forIn (fun name _ => keeps_session.bind fun s => ?_) _ _).bind fun _ => ?_
    · split
      · refine .ite ((keeps_fatalIn _ _).bind fun _ => keeps_pure _) ?_
        exact (keeps_changeSession fun s => s.later_put _ _).bind fun _ => keeps_pure _
      · exact Keeps.bind (keeps_settle fun _ => rfl) fun _ => keeps_pure _
    · exact keeps_setStatus _

theorem keeps_makeLocal (operands : List Octets) : Keeps (makeLocal operands) := by
  unfold makeLocal
  refine keeps_session.bind fun s => .ite ((keeps_fatalIn _ _).bind fun _ => ?_) ?_
  all_goals
    refine (keeps_forIn (fun operand _ => ?_) _ _).bind fun _ => keeps_setStatus _
    refine (keeps_changeSession fun s => ?_).bind fun _ => ?_
    · split
      · exact .refl s
      · rename_i frame outer hlocals
        exact ⟨Nat.le_refl _, rfl, by rw [hlocals]; rfl⟩
    · split
      · exact (keeps_setVariable _ _).bind fun _ => keeps_pure _
      · exact keeps_pure _

/-! ### Reading -/

theorem keeps_markedLine (raw : Bool) (count : Nat) : Keeps (markedLine raw count) := by
  induction count with
  | zero =>
    rw [markedLine]
    exact keeps_pure _
  | succ count ih =>
    unfold markedLine
    refine (keeps_readLine _).bind fun line => .ite (keeps_pure _) ?_
    exact .ite (ih.bind fun _ => keeps_pure _) (keeps_pure _)

theorem keeps_readVariables (operands : List Octets) : Keeps (readVariables operands) := by
  unfold readVariables
  refine .ite (keeps_failIn _ _ _) ((keeps_markedLine _ _).bind fun line => ?_)
  refine keeps_separators.bind fun _ => ?_
  refine (keeps_forIn (fun v _ => ?_) _ _).bind fun _ => keeps_setStatus _
  exact (keeps_setVariable _ _).bind fun _ => keeps_pure _

/-! ### Commands in the background and signals -/

theorem keeps_waitFor (operands : List Octets) : Keeps (waitFor operands) := by
  unfold waitFor
  refine keeps_world.bind fun w => (keeps_setStatus _).bind fun _ => ?_
  extract_lets waited finish
  have hfinish (u : Unit) : Keeps (finish u) := by
    refine Keeps.bind (keeps_forIn (fun job _ => ?_) _ _) fun _ => keeps_pure _
    refine (keeps_waitUntil _).bind fun _ => ?_
    extract_lets report
    have hreport (u : Unit) : Keeps (report u) := by
      unfold report
      split
      · exact keeps_pure _
      · exact keeps_pure _
      · exact (keeps_write _ _).bind fun _ => keeps_pure _
    exact .ite ((keeps_setStatus _).bind hreport) (hreport ())
  exact .ite ((keeps_setStatus _).bind hfinish) (hfinish ())

theorem keeps_signalTo (signal : Nat) (t : Octets) : Keeps (signalTo signal t) := by
  unfold signalTo
  refine keeps_session.bind fun s => ?_
  extract_lets number?
  refine keeps_world.bind fun w => ?_
  refine .ite (.ite (keeps_throw _) (.ite (keeps_throw _) (keeps_pure _))) (.ite (.ite ?_ ?_) ?_)
  · refine keeps_changeWorld fun w => ?_
    have h := World.Later.refl w
    refine ⟨h.sources, h.sinks, ?_, h.nextNumber, h.steps⟩
    refine ⟨[], ?_⟩
    rw [List.nil_append, List.map_map]
    refine List.map_congr_left fun job _ => ?_
    rw [Function.comp_apply]
    split
    · rfl
    · rfl
  · exact keeps_pure _
  · exact keeps_failIn _ _ _

theorem keeps_kill (operands : List Octets) : Keeps (kill operands) := by
  unfold kill
  refine (keeps_setStatus _).bind fun _ => ?_
  split
  split
  · exact keeps_failIn _ _ _
  · refine Keeps.bind (keeps_forIn (fun target _ => ?_) _ _) fun _ => keeps_pure _
    exact (keeps_signalTo _ _).bind fun _ => keeps_pure _

theorem keeps_setTrap (operands : List Octets) : Keeps (setTrap operands) := by
  unfold setTrap
  split
  · exact .ite (.bind (keeps_settle fun _ => rfl) fun _ => keeps_setStatus _) (keeps_setStatus _)
  · exact keeps_setStatus _

/-! ### What names stand for -/

theorem keeps_commandKind (name : Octets) : Keeps (commandKind name) := by
  unfold commandKind
  refine keeps_session.bind fun s => ?_
  refine .ite (keeps_pure _) (.ite (keeps_pure _) (.ite (keeps_pure _) (.ite (keeps_pure _) ?_)))
  refine keeps_world.bind fun w => ?_
  split
  · exact keeps_pure _
  · exact keeps_pure _

theorem keeps_describe (names : List Octets) : Keeps (describe names) := by
  refine (keeps_setStatus _).bind fun _ => Keeps.bind ?_ fun _ => keeps_pure _
  refine keeps_forIn (fun name _ => (keeps_commandKind name).bind fun kind => ?_) _ _
  split
  · exact (keeps_write _ _).bind fun _ => keeps_pure _
  · exact (keeps_write _ _).bind fun _ => (keeps_setStatus _).bind fun _ => keeps_pure _

theorem keeps_findCommands (names : List Octets) : Keeps (findCommands names) := by
  refine (keeps_setStatus _).bind fun _ => Keeps.bind ?_ fun _ => keeps_pure _
  refine keeps_forIn (fun name _ => (keeps_commandKind name).bind fun kind => ?_) _ _
  split
  · exact (keeps_write _ _).bind fun _ => keeps_pure _
  · exact (keeps_setStatus _).bind fun _ => keeps_pure _

/-- **No command of the shell undoes anything.** -/
theorem keeps_builtin? {name : Octets} {act : List Octets → Run Unit} (h : builtin? name = some act)
    (operands : List Octets) : Keeps (act operands) := by
  have hleave (word : String) (flow : Flow) : Keeps (do
      setStatus ((← countOperand word (← session).status operands) % 256)
      throw flow : Run Unit) := by
    refine keeps_session.bind fun s => (keeps_countOperand _ _ _).bind fun n => ?_
    exact (keeps_setStatus _).bind fun _ => keeps_throw _
  unfold builtin? at h
  split at h <;> cases h
  case h_1 | h_2 => exact keeps_setStatus _
  case h_3 | h_5 => exact keeps_leaveLoop _ _ _
  case h_4 => exact keeps_goTo _
  case h_6 => exact (keeps_write _ _).bind fun _ => keeps_setStatus _
  case h_7 => exact hleave "exit" _
  case h_8 | h_12 => exact keeps_markVariables _ _ _
  case h_9 => exact keeps_kill _
  case h_10 => exact keeps_makeLocal _
  case h_11 => exact keeps_readVariables _
  case h_13 => exact hleave "return" _
  case h_14 => exact (keeps_setOptions _ _).bind fun _ => keeps_setStatus _
  case h_15 => exact keeps_shiftArguments _
  case h_16 => exact keeps_setTrap _
  case h_17 => exact keeps_describe _
  case h_18 => exact .ite ((keeps_write _ _).bind fun _ => keeps_setStatus _) (keeps_setStatus _)
  case h_19 => exact keeps_unset _
  case h_20 => exact keeps_waitFor _

end Literate.Shell.Run
