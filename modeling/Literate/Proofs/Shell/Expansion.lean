import Literate.Proofs.Shell.Later
import Literate.Shell.Expansion

/-!
# Expansion never undoes anything

The expansion of words keeps what commands keep, if the commands in them do
(`keeps_allArguments`).
-/

namespace Literate.Shell

namespace Run

theorem keeps_parameter? (name : Octets) : Keeps (parameter? name) := by
  unfold parameter?
  refine keeps_session.bind fun s => ?_
  split
  · exact keeps_pure _
  · exact keeps_pure _
  · exact keeps_pure _
  · exact keeps_pure _
  · exact keeps_pure _
  · exact keeps_pure _
  · split
    · exact keeps_pure _
    · exact keeps_pure _

theorem keeps_setVariable (name value : Octets) : Keeps (setVariable name value) := by
  unfold setVariable
  refine keeps_session.bind fun s => ?_
  split
  · exact keeps_changeSession fun s => s.later_put _ _
  · exact .ite (keeps_fatal _) (keeps_changeSession fun s => s.later_put _ _)

theorem keeps_separators : Keeps separators :=
  keeps_session.bind fun _ => keeps_pure _

end Run

namespace Expansion

open Run

variable {expand : Context → Word → Run (List Piece)} {command : Octets → Run Octets}

theorem keeps_plainValue (quoted : Bool) (name : Octets) (value : Option Octets) :
    Keeps (plainValue quoted name value) := by
  unfold plainValue
  split
  · exact keeps_pure _
  · exact keeps_session.bind fun s => .ite (keeps_fatal _) (keeps_pure _)

theorem keeps_parameter (h : ∀ context w, Keeps (expand context w)) (quoted : Bool) (name : Octets)
    (use : ParameterUse) : Keeps (parameter expand quoted name use) := by
  unfold parameter
  refine keeps_session.bind fun s => ?_
  extract_lets isList inside finish
  have hfinish (value : Option Octets) : Keeps (finish value) := by
    unfold finish
    extract_lets whole
    have hwhole : Keeps whole :=
      .ite (keeps_separators.bind fun _ => keeps_pure _) (keeps_plainValue _ _ _)
    have hloosen (w : Word) : Keeps (do return loosen quoted (← expand inside w)) :=
      (h _ w).bind fun _ => keeps_pure _
    cases use with
    | value => exact hwhole
    | length => exact keeps_plainValue _ _ _
    | dropStart longest w => exact (h _ w).bind fun _ => keeps_pure _
    | dropEnd longest w => exact (h _ w).bind fun _ => keeps_pure _
    | otherwise op orEmpty w =>
      dsimp only
      split
      · exact .ite (hloosen w) (keeps_pure _)
      · exact .ite hwhole (hloosen w)
      · refine .ite hwhole ((h _ w).bind fun _ => ?_)
        exact (keeps_setVariable _ _).bind fun _ => keeps_pure _
      · exact .ite hwhole ((h _ w).bind fun _ => keeps_fatal _)
  split
  · exact (keeps_pure _).bind hfinish
  · exact (keeps_parameter? name).bind hfinish

theorem keeps_arithmetic (expression : Octets) : Keeps (arithmetic expression) := by
  unfold arithmetic
  refine keeps_session.bind fun s => ?_
  dsimp only
  split
  · exact keeps_fatal _
  · refine Keeps.bind (keeps_forIn (fun v _ => ?_) _ _) fun _ => keeps_pure _
    exact (keeps_setVariable _ _).bind fun _ => keeps_pure _

section Words

variable (h : ∀ script, Keeps (command script))

include h

theorem keeps_pieces (depth : Nat) (context : Context) (w : Word) :
    Keeps (pieces command depth context w) := by
  induction depth generalizing context w with
  | zero =>
    rw [pieces]
    exact keeps_pure _
  | succ depth ih =>
    rw [pieces]
    refine Keeps.bind (keeps_mapM fun segment _ => ?_) fun _ => keeps_pure _
    cases segment with
    | char c quoted => exact keeps_pure _
    | quotes => exact keeps_pure _
    | home => exact keeps_session.bind fun _ => keeps_pure _
    | command quoted script => exact (h script).bind fun _ => keeps_pure _
    | arithmetic quoted expression =>
      refine (ih _ _).bind fun _ => ?_
      exact (keeps_arithmetic _).bind fun _ => keeps_pure _
    | parameter quoted body =>
      dsimp only
      split
      · exact keeps_parameter ih _ _ _
      · exact keeps_fatal _

theorem keeps_text (context : Context) (w : Word) : Keeps (text command context w) :=
  (keeps_pieces h _ _ _).bind fun _ => keeps_pure _

theorem keeps_patternOf (w : Word) : Keeps (patternOf command w) :=
  (keeps_pieces h _ _ _).bind fun _ => keeps_pure _

theorem keeps_arguments (w : Word) : Keeps (arguments command w) := by
  unfold arguments
  refine keeps_separators.bind fun _ => (keeps_pieces h _ _ _).bind fun _ => ?_
  refine keeps_session.bind fun s => .ite (keeps_pure _) ?_
  exact keeps_world.bind fun _ => keeps_pure _

/-- **What words give is found without undoing anything.** -/
theorem keeps_allArguments (words : List Word) : Keeps (allArguments command words) :=
  (keeps_mapM fun w _ => keeps_arguments h w).bind fun _ => keeps_pure _

end Words

end Expansion

end Literate.Shell
