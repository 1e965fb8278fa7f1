import Literate.Shell.State

/-!
# What commands never undo

`State.Later s s'` says that a shell may get from `s` to `s'`: time does not go back, what has been
written stays written, what has been read is gone, and the commands in the background keep their
numbers.  The shell keeps its own number, and it leaves as many functions as it enters.

`Run.Keeps act` says that an action leads only there, whether it succeeds or not.  Actions that keep
it can be put together in every way in which commands are.
-/

namespace Literate.Shell

/-! ### What has been read and written -/

/-- A source that has been read on. -/
structure Source.Later (source source' : Source) : Prop where
  rest : source'.rest <:+ source.rest
  closedAt : source'.closedAt = source.closedAt

/-- A sink that has been written on; the last piece stands first. -/
structure Sink.Later (sink sink' : Sink) : Prop where
  pieces : sink.pieces <:+ sink'.pieces
  isPipe : sink'.isPipe = sink.isPipe

theorem Source.Later.refl (source : Source) : source.Later source :=
  ⟨List.suffix_rfl, rfl⟩

theorem Source.Later.trans {a b c : Source} (h : a.Later b) (h' : b.Later c) : a.Later c :=
  ⟨h'.rest.trans h.rest, h'.closedAt.trans h.closedAt⟩

theorem Sink.Later.refl (sink : Sink) : sink.Later sink :=
  ⟨List.suffix_rfl, rfl⟩

theorem Sink.Later.trans {a b c : Sink} (h : a.Later b) (h' : b.Later c) : a.Later c :=
  ⟨h.pieces.trans h'.pieces, h'.isPipe.trans h.isPipe⟩

/-- The members of an array are still there, and `r` holds of what has become of them. -/
def Continued {α : Type} (r : α → α → Prop) (xs ys : Array α) : Prop :=
  ∀ (n : Nat) (x : α), xs[n]? = some x → ∃ y, ys[n]? = some y ∧ r x y

section Continued

variable {α : Type} {r : α → α → Prop} {xs ys zs : Array α}

theorem Continued.refl (hr : ∀ x, r x x) (xs : Array α) : Continued r xs xs :=
  fun _ x h => ⟨x, h, hr x⟩

theorem Continued.trans (hr : ∀ {x y z}, r x y → r y z → r x z) (h : Continued r xs ys)
    (h' : Continued r ys zs) : Continued r xs zs := by
  intro n x hx
  obtain ⟨y, hy, hxy⟩ := h n x hx
  obtain ⟨z, hz, hyz⟩ := h' n y hy
  exact ⟨z, hz, hr hxy hyz⟩

theorem Continued.push (hr : ∀ x, r x x) (xs : Array α) (y : α) : Continued r xs (xs.push y) := by
  intro n x hx
  obtain ⟨hn, rfl⟩ := Array.getElem?_eq_some_iff.mp hx
  refine ⟨xs[n], ?_, hr _⟩
  rw [Array.getElem?_push, if_neg (Nat.ne_of_lt hn), hx]

theorem Continued.modify (hr : ∀ x, r x x) (xs : Array α) (n : Nat) {f : α → α}
    (hf : ∀ x, r x (f x)) : Continued r xs (xs.modify n f) := by
  intro m x hx
  rw [Array.getElem?_modify, hx]
  by_cases h : n = m
  · exact ⟨f x, by simp [h], hf x⟩
  · exact ⟨x, by simp [h], hr x⟩

end Continued

/-! ### The state -/

/-- A world that commands may lead to. -/
structure World.Later (w w' : World) : Prop where
  sources : Continued Source.Later w.sources w'.sources
  sinks : Continued Sink.Later w.sinks w'.sinks
  jobs : w.jobs.map Job.number <:+ w'.jobs.map Job.number
  nextNumber : w.nextNumber ≤ w'.nextNumber
  steps : w'.steps ≤ w.steps

/-- A shell at another time. -/
def Session.atTime (s : Session) (clock : Nat) : Session :=
  { s with clock }

/-- A state at another time. -/
def State.atTime (s : State) (clock : Nat) : State :=
  { s with session := s.session.atTime clock }

/-- A state of a shell that commands may lead to. -/
structure Session.Later (s s' : Session) : Prop where
  clock : s.clock ≤ s'.clock
  number : s'.number = s.number
  depth : s'.locals.length = s.locals.length

/-- What a change of the settings of a shell leaves as it is: the time, the number and how many
functions are being called. -/
def Session.standing (s : Session) : Nat × Nat × Nat :=
  (s.clock, s.number, s.locals.length)

/-- **A state that commands may lead to.** -/
structure State.Later (s s' : State) : Prop where
  session : s.session.Later s'.session
  world : s.world.Later s'.world

theorem World.Later.refl (w : World) : w.Later w :=
  ⟨.refl Source.Later.refl _, .refl Sink.Later.refl _, List.suffix_rfl, Nat.le_refl _,
    Nat.le_refl _⟩

theorem World.Later.trans {a b c : World} (h : a.Later b) (h' : b.Later c) : a.Later c where
  sources := h.sources.trans Source.Later.trans h'.sources
  sinks := h.sinks.trans Sink.Later.trans h'.sinks
  jobs := h.jobs.trans h'.jobs
  nextNumber := Nat.le_trans h.nextNumber h'.nextNumber
  steps := Nat.le_trans h'.steps h.steps

/-- The next number is given away. -/
theorem World.later_nextNumber (w : World) :
    w.Later { w with nextNumber := w.nextNumber + 1 } := by
  have h := World.Later.refl w
  exact ⟨h.sources, h.sinks, h.jobs, Nat.le_succ _, h.steps⟩

/-- What commands do to the files is not looked at. -/
theorem World.later_files (w : World) (files : FileTree) : w.Later { w with files } := by
  have h := World.Later.refl w
  exact ⟨h.sources, h.sinks, h.jobs, h.nextNumber, h.steps⟩

theorem Session.later_of_standing_eq (s : Session) {s' : Session}
    (h : s'.standing = s.standing) : s.Later s' := by
  obtain ⟨hclock, hrest⟩ := Prod.mk.inj h
  obtain ⟨hnumber, hdepth⟩ := Prod.mk.inj hrest
  exact ⟨Nat.le_of_eq hclock.symm, hnumber, hdepth⟩

theorem Session.Later.refl (s : Session) : s.Later s :=
  s.later_of_standing_eq rfl

theorem Session.Later.trans {a b c : Session} (h : a.Later b) (h' : b.Later c) : a.Later c :=
  ⟨Nat.le_trans h.clock h'.clock, h'.number.trans h.number, h'.depth.trans h.depth⟩

theorem State.Later.refl (s : State) : s.Later s :=
  ⟨.refl _, .refl _⟩

theorem State.Later.trans {a b c : State} (h : a.Later b) (h' : b.Later c) : a.Later c :=
  ⟨h.session.trans h'.session, h.world.trans h'.world⟩

/-- The clock may go back to where it was, and from there on. -/
theorem State.atTime_later {s : State} {clock : Nat} (h : clock ≤ s.session.clock) :
    (s.atTime clock).Later s :=
  ⟨⟨h, rfl, rfl⟩, .refl _⟩

theorem State.Later.atTime {s s' : State} {clock : Nat} (h : (s.atTime clock).Later s') :
    (s.atTime clock).Later (s'.atTime clock) :=
  ⟨⟨Nat.le_refl _, h.session.number, h.session.depth⟩, h.world⟩

theorem Session.later_put (s : Session) (name : Octets) (v : Option Variable) :
    s.Later (s.put name v) := by
  unfold Session.put
  split
  · exact s.later_of_standing_eq rfl
  · split
    · exact s.later_of_standing_eq rfl
    · exact s.later_of_standing_eq rfl

namespace Run

/-! ### Actions -/

/-- The state after an action, whether it succeeds or not. -/
def after {α : Type} (act : Run α) (s : State) : State :=
  match act s with
  | .ok _ s => s
  | .error _ s => s

/-- The result of an action, or why it did not go on. -/
def outcome {α : Type} (act : Run α) (s : State) : Except Flow α :=
  match act s with
  | .ok a _ => .ok a
  | .error flow _ => .error flow

/-- **The action leads to a later state only.** -/
def Keeps {α : Type} (act : Run α) : Prop :=
  ∀ s : State, s.Later (act.after s)

variable {α β σ : Type}

theorem after_bind (x : Run α) (f : α → Run β) (s : State) :
    (x >>= f).after s =
      match x s with
      | .ok a s => (f a).after s
      | .error _ s => s := by
  unfold after
  show (match EStateM.bind x f s with | .ok _ s => s | .error _ s => s) = _
  unfold EStateM.bind
  cases x s <;> rfl

theorem keeps_pure (a : α) : Keeps (pure a : Run α) :=
  State.Later.refl

theorem keeps_throw (flow : Flow) : Keeps (throw flow : Run α) :=
  State.Later.refl

theorem bind_apply_of_eq_ok {x : Run α} {f : α → Run β} {s s' : State} {a : α}
    (h : x s = .ok a s') : (x >>= f) s = f a s' := by
  show EStateM.bind x f s = _
  rw [EStateM.bind, h]

theorem exists_of_bind_apply_eq_ok {x : Run α} {f : α → Run β} {s s' : State} {b : β}
    (h : (x >>= f) s = .ok b s') : ∃ a s₁, x s = .ok a s₁ ∧ f a s₁ = .ok b s' := by
  cases hx : x s with
  | ok a s₁ => exact ⟨a, s₁, rfl, (bind_apply_of_eq_ok hx).symm.trans h⟩
  | error flow s₁ =>
    have herror : (x >>= f) s = .error flow s₁ := by
      show EStateM.bind x f s = _
      unfold EStateM.bind
      rw [hx]
    rw [herror] at h
    cases h

/-- Actions that leave the state alone, one after the other. -/
theorem mapM_apply {f : α → Run β} {g : α → β} {xs : List α} {s : State}
    (h : ∀ x ∈ xs, f x s = .ok (g x) s) : xs.mapM f s = .ok (xs.map g) s := by
  induction xs with
  | nil =>
    rw [List.mapM_nil]
    rfl
  | cons x xs ih =>
    rw [List.forall_mem_cons] at h
    rw [List.mapM_cons, bind_apply_of_eq_ok h.1, bind_apply_of_eq_ok (ih h.2)]
    rfl

theorem after_of_eq_ok {x : Run α} {s s' : State} {a : α} (h : x s = .ok a s') :
    x.after s = s' := by
  rw [after, h]

theorem after_of_eq_error {x : Run α} {s s' : State} {flow : Flow} (h : x s = .error flow s') :
    x.after s = s' := by
  rw [after, h]

/-- One action after another, from a state on that the first one keeps. -/
theorem later_after_bind {x : Run α} {f : α → Run β} {s₀ s : State} (hx : s₀.Later (x.after s))
    (hf : ∀ a s', x s = .ok a s' → s₀.Later s' → s₀.Later ((f a).after s')) :
    s₀.Later ((x >>= f).after s) := by
  rw [after_bind]
  cases hs : x s with
  | ok a s' =>
    rw [after_of_eq_ok hs] at hx
    exact hf a s' hs hx
  | error flow s' =>
    rw [after_of_eq_error hs] at hx
    exact hx

theorem Keeps.later {act : Run α} {s₀ s : State} (h : Keeps act) (hs : s₀.Later s) :
    s₀.Later (act.after s) :=
  hs.trans (h s)

theorem Keeps.bind {x : Run α} {f : α → Run β} (hx : Keeps x) (hf : ∀ a, Keeps (f a)) :
    Keeps (x >>= f) :=
  fun s => later_after_bind (hx s) fun a _ _ hs' => (hf a).later hs'

theorem Keeps.ite {c : Prop} [Decidable c] {x y : Run α} (hx : Keeps x) (hy : Keeps y) :
    Keeps (if c then x else y) := by
  split
  · exact hx
  · exact hy

theorem attempt_apply (act : Run α) (s : State) :
    attempt act s = .ok (act.outcome s) (act.after s) := by
  unfold attempt outcome after
  cases act s <;> rfl

theorem attempt_bind_apply (act : Run α) (f : Except Flow α → Run β) (s : State) :
    (attempt act >>= f) s = f (act.outcome s) (act.after s) :=
  bind_apply_of_eq_ok (attempt_apply act s)

theorem after_attempt_bind (act : Run α) (f : Except Flow α → Run β) (s : State) :
    (attempt act >>= f).after s = (f (act.outcome s)).after (act.after s) := by
  unfold after
  rw [attempt_bind_apply]
  rfl

theorem Keeps.attempt {act : Run α} (h : Keeps act) : Keeps (attempt act) := by
  intro s
  rw [after_of_eq_ok (attempt_apply act s)]
  exact h s

theorem keeps_mapM {f : α → Run β} {xs : List α} (h : ∀ x ∈ xs, Keeps (f x)) :
    Keeps (xs.mapM f) := by
  induction xs with
  | nil =>
    rw [List.mapM_nil]
    exact keeps_pure _
  | cons x xs ih =>
    rw [List.forall_mem_cons] at h
    rw [List.mapM_cons]
    exact h.1.bind fun y => (ih h.2).bind fun ys => keeps_pure _

theorem keeps_forIn {f : α → σ → Run (ForInStep σ)} (h : ∀ x b, Keeps (f x b)) (xs : List α)
    (b : σ) : Keeps (forIn xs b f) := by
  induction xs generalizing b with
  | nil =>
    rw [List.forIn_nil]
    exact keeps_pure b
  | cons x xs ih =>
    rw [List.forIn_cons]
    refine (h x b).bind fun next => ?_
    cases next with
    | done b => exact keeps_pure b
    | yield b => exact ih b

theorem iterate_succ (step : σ → Run (Option σ)) (count : Nat) (x : σ) :
    iterate step (count + 1) x = step x >>= fun next => match next with
      | some y => iterate step count y
      | none => pure () := by
  funext s
  show iterate step (count + 1) x s = EStateM.bind (step x) _ s
  simp only [iterate, EStateM.bind]
  cases step x s with
  | error flow s' => rfl
  | ok next s' => cases next <;> rfl

theorem keeps_iterate {step : σ → Run (Option σ)} (h : ∀ x, Keeps (step x)) (count : Nat) (x : σ) :
    Keeps (iterate step count x) := by
  induction count generalizing x with
  | zero => exact keeps_throw .endless
  | succ count ih =>
    rw [iterate_succ]
    refine (h x).bind fun next => ?_
    cases next with
    | none => exact keeps_pure ()
    | some y => exact ih y

/-! ### Parts of the state -/

theorem keeps_session : Keeps session :=
  State.Later.refl

theorem keeps_world : Keeps world :=
  State.Later.refl

theorem keeps_changeSession {f : Session → Session} (h : ∀ s : Session, s.Later (f s)) :
    Keeps (changeSession f) :=
  fun s => ⟨h s.session, .refl s.world⟩

/-- A change of settings. -/
theorem keeps_settle {f : Session → Session} (h : ∀ s : Session, (f s).standing = s.standing) :
    Keeps (changeSession f) :=
  keeps_changeSession fun s => s.later_of_standing_eq (h s)

theorem keeps_changeWorld {f : World → World} (h : ∀ w : World, w.Later (f w)) :
    Keeps (changeWorld f) :=
  fun s => ⟨.refl s.session, h s.world⟩

theorem keeps_setStatus (status : Nat) : Keeps (setStatus status) :=
  keeps_settle fun _ => rfl

theorem keeps_waitUntil (time : Nat) : Keeps (waitUntil time) :=
  keeps_changeSession fun _ => ⟨Nat.le_max_left _ _, rfl, rfl⟩

theorem keeps_setChannel (descriptor : Nat) (channel : Option Channel) :
    Keeps (setChannel descriptor channel) :=
  keeps_settle fun _ => rfl

/-- What is done with the world at hand. -/
theorem after_world_bind (f : World → Run α) (s : State) :
    (world >>= f).after s = (f s.world).after s :=
  rfl

theorem after_get_bind (f : State → Run α) (s : State) : (get >>= f).after s = (f s).after s :=
  rfl

theorem after_session_bind (f : Session → Run α) (s : State) :
    (session >>= f).after s = (f s.session).after s :=
  rfl

theorem after_changeSession_bind (change : Session → Session) (f : Unit → Run α) (s : State) :
    (changeSession change >>= f).after s =
      (f ()).after { s with session := change s.session } :=
  rfl

theorem get_bind_apply (f : State → Run α) (s : State) : (get >>= f) s = f s s :=
  rfl

theorem session_bind_apply (f : Session → Run α) (s : State) : (session >>= f) s = f s.session s :=
  rfl

theorem pure_bind_apply (a : α) (f : α → Run β) (s : State) : (pure a >>= f) s = f a s :=
  rfl

theorem world_bind_apply (f : World → Run α) (s : State) : (world >>= f) s = f s.world s :=
  rfl

theorem changeWorld_bind_apply (change : World → World) (f : Unit → Run α) (s : State) :
    (changeWorld change >>= f) s = f () { s with world := change s.world } :=
  rfl

theorem changeSession_bind_apply (change : Session → Session) (f : Unit → Run α) (s : State) :
    (changeSession change >>= f) s = f () { s with session := change s.session } :=
  rfl

theorem keeps_step : Keeps step := by
  intro s
  rw [step, after_world_bind]
  cases hsteps : s.world.steps with
  | zero => exact .refl s
  | succ steps =>
    refine ⟨.refl _, ?_⟩
    have h := World.Later.refl s.world
    exact ⟨h.sources, h.sinks, h.jobs, h.nextNumber, by show steps ≤ s.world.steps; omega⟩

/-! ### Channels -/

theorem keeps_write (descriptor : Nat) (octets : Octets) : Keeps (write descriptor octets) := by
  unfold write
  refine keeps_session.bind fun s => keeps_session.bind fun s' => ?_
  split
  · refine .ite (keeps_changeWorld fun w => ?_) (keeps_pure ())
    have h := World.Later.refl w
    exact ⟨h.sources, .modify Sink.Later.refl _ _ fun sink => ⟨List.suffix_cons _ _, rfl⟩, h.jobs,
      h.nextNumber, h.steps⟩
  · exact keeps_changeWorld fun w => w.later_files _
  · exact keeps_pure ()

theorem keeps_readAll (descriptor : Nat) : Keeps (readAll descriptor) := by
  unfold readAll
  refine keeps_session.bind fun s => ?_
  split
  · refine keeps_world.bind fun w => ?_
    split
    · refine (keeps_waitUntil _).bind fun _ => ?_
      refine Keeps.bind (keeps_changeWorld fun w => ?_) fun _ => keeps_pure _
      have h := World.Later.refl w
      exact ⟨.modify Source.Later.refl _ _ fun source => ⟨List.nil_suffix, rfl⟩, h.sinks, h.jobs,
        h.nextNumber, h.steps⟩
    · exact keeps_pure _
  · exact keeps_pure _
  · exact keeps_pure _

theorem keeps_readLine (descriptor : Nat) : Keeps (readLine descriptor) := by
  unfold readLine
  refine keeps_session.bind fun s => ?_
  split
  · refine keeps_world.bind fun w => ?_
    split
    · refine (keeps_waitUntil _).bind fun _ => ?_
      refine Keeps.bind (keeps_changeWorld fun w => ?_) fun _ => keeps_pure _
      have h := World.Later.refl w
      exact ⟨.modify Source.Later.refl _ _ fun source => ⟨List.drop_suffix _ _, rfl⟩, h.sinks,
        h.jobs, h.nextNumber, h.steps⟩
    · exact keeps_pure _
  · exact keeps_pure _

theorem keeps_openSource (octets : Octets) (closedAt : Nat) :
    Keeps (openSource octets closedAt) := by
  unfold openSource
  refine keeps_world.bind fun w => Keeps.bind (keeps_changeWorld fun w => ?_) fun _ => keeps_pure _
  have h := World.Later.refl w
  exact ⟨.push Source.Later.refl _ _, h.sinks, h.jobs, h.nextNumber, h.steps⟩

theorem keeps_openSink (isPipe : Bool) : Keeps (openSink isPipe) := by
  unfold openSink
  refine keeps_world.bind fun w => Keeps.bind (keeps_changeWorld fun w => ?_) fun _ => keeps_pure _
  have h := World.Later.refl w
  exact ⟨h.sources, .push Sink.Later.refl _ _, h.jobs, h.nextNumber, h.steps⟩

theorem keeps_closeSink (channel : Channel) (time : Nat) : Keeps (closeSink channel time) := by
  unfold closeSink
  refine keeps_world.bind fun w => ?_
  split <;> exact keeps_pure _

theorem keeps_complain (message : Octets) : Keeps (complain message) :=
  keeps_session.bind fun _ => keeps_write _ _

theorem keeps_fatal (message : Octets) : Keeps (fatal message : Run α) :=
  (keeps_complain message).bind fun _ => (keeps_setStatus 2).bind fun _ => keeps_throw _

end Run

end Literate.Shell
