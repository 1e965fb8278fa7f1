import Literate.CommandLine.Run
import Literate.Proofs.Compile.Independence
import Literate.Proofs.Text.Lines
import Literate.Proofs.Text.Octets
import Mathlib.Logic.Function.Basic

/-!
# A conversion keeps the files

`Machine` are the files that a run finds, and `Machine.after` are those that it leaves.  A run that
is to convert a block of a document either fails and leaves everything as it was, or comes to one
text, the converted document, which compiles (`run_convert`).  Whether that text is printed or
written has no part in it: the two ways of running differ in where the text goes and in nothing else
(`runConfigured_convert`).

Interpreters do not change files here, and their answers do not depend on earlier calls.
-/

namespace Literate

/-- **The files of a machine.**  A path leads to a place; several paths may lead to the same one. -/
structure Machine (Place : Type) where
  place : Text → Place
  state : Place → FileState

namespace Machine

variable {Place : Type}

/-- What stands at a path. -/
def files (m : Machine Place) (path : Text) : FileState :=
  m.state (m.place path)

variable [DecidableEq Place]

/-- The machine with a text in the file at a path. -/
def write (m : Machine Place) (path text : Text) : Machine Place :=
  { m with state := Function.update m.state (m.place path) (.content (Octets.encode text)) }

/-- The machine after a run with the given report. -/
def after (m : Machine Place) (report : CommandLine.Report) : Machine Place :=
  match report.written with
  | none => m
  | some (path, text) => m.write path text

variable {m : Machine Place} {path text : Text} {place : Place}

/-- A text that is written is read back. -/
theorem read_files_write : ((m.write path text).files path).read = .ok text := by
  have hstate : (m.write path text).files path = .content (Octets.encode text) :=
    Function.update_self ..
  rw [hstate, FileState.read, Octets.decode?_encode]

theorem state_write_of_ne (h : place ≠ m.place path) :
    (m.write path text).state place = m.state place :=
  Function.update_of_ne h ..

end Machine

namespace CommandLine

/-- **`t` is the document at `path` with a block converted**, and it compiles: with the
configuration that is found, and the text that is read. -/
def IsConverted (s : Surroundings) (config : Option Text) (path : Text) (line : Nat) (form : Form)
    (t : Text) : Prop :=
  ∃ settings source, Config.load s.environment s.files config = .ok settings ∧
    (s.files path).read = .ok source ∧
    (Conversion.document (Tools.standard (s.runner settings)) [] source line form).result = .ok t ∧
    ∃ output, (Compile.document (Tools.standard (s.runner settings)) [] t).result = .ok output

/-- The answer of a conversion that comes to a text. -/
def Answer.ofConverted (path t : Text) (write : Bool) : Answer :=
  if write then .written path t else .printed t

/-! ### One outcome in both modes -/

/-- **A conversion comes to the same in both modes**: to a failure, or to a text that compiles. -/
theorem convert_cases (tools : Tools) (hpure : tools.run.IsPure) (path source : Text) (line : Nat)
    (form : Form) :
    (∃ failure, ∀ write, convert tools path source line form write = .error failure) ∨
      ∃ t, (Conversion.document tools [] source line form).result = .ok t ∧
        (∃ output, (Compile.document tools [] t).result = .ok output) ∧
        ∀ write, convert tools path source line form write =
          .ok (Answer.ofConverted path t write) := by
  rcases hd : Conversion.document tools [] source line form with ⟨calls, cause | t⟩
  · refine Or.inl ⟨.convert path cause, fun write => ?_⟩
    rw [convert, hd]
  · -- The document is compiled after the calls of the conversion, which have no part in it.
    have hc := Compile.document_of_isPure hpure calls [] t
    cases ho : (Compile.document tools [] t).result with
    | error cause =>
      refine Or.inl ⟨.broken path cause, fun write => ?_⟩
      rw [convert, hd]
      simp only [hc, ho]
    | ok output =>
      refine Or.inr ⟨t, rfl, ⟨output, ho⟩, fun write => ?_⟩
      rw [convert, hd]
      simp only [hc, ho, Answer.ofConverted]

/-- **A task of converting comes to the same in both modes.** -/
theorem runConfigured_convert (s : Surroundings) (hpure : ∀ settings, (s.runner settings).IsPure)
    (config : Option Text) (path : Text) (line : Nat) (form : Form) :
    (∃ failure, ∀ write,
      (Task.convert path line form write).runConfigured s config = .error failure) ∨
      ∃ t, IsConverted s config path line form t ∧ ∀ write,
        (Task.convert path line form write).runConfigured s config =
          .ok (Answer.ofConverted path t write) := by
  unfold Task.runConfigured
  cases hload : Config.load s.environment s.files config with
  | error cause => exact Or.inl ⟨.config cause, fun _ => rfl⟩
  | ok settings =>
    simp only [Task.run, readDocument]
    cases hread : (s.files path).read with
    | error cause => exact Or.inl ⟨.unreadable path cause, fun _ => rfl⟩
    | ok source =>
      rcases convert_cases (Tools.standard (s.runner settings)) (hpure settings) path source line
        form with ⟨failure, hfail⟩ | ⟨t, ht, hcompiles, hok⟩
      · exact Or.inl ⟨failure, hfail⟩
      · exact Or.inr ⟨t, ⟨settings, source, hload, hread, ht, hcompiles⟩, hok⟩

/-! ### What becomes of the files -/

variable {Place : Type} [DecidableEq Place]

/-- **A run delivers a text**: it prints the text and changes no file, or it is to write, prints
nothing and changes the file at `path` alone, where the text is read from then on. -/
def Delivers (m : Machine Place) (path : Text) (write : Bool) (t : Text) (report : Report) : Prop :=
  if write then
    report.output = [] ∧ ((m.after report).files path).read = .ok t ∧
      ∀ place, place ≠ m.place path → (m.after report).state place = m.state place
  else
    report.output = t ∧ m.after report = m

theorem delivers_ofConverted (m : Machine Place) (path t : Text) (write : Bool) :
    Delivers m path write t (Report.ofResult (.ok (Answer.ofConverted path t write))) := by
  cases write with
  | false => exact ⟨rfl, rfl⟩
  | true => exact ⟨rfl, Machine.read_files_write, fun _ => Machine.state_write_of_ne⟩

/-- **A conversion never damages the document.**  Either every run that is asked for it fails, exits
with 1, prints nothing and changes no file.  Or there is one text, the document with the block
converted, which compiles; every such run exits with 0 and delivers that text, be it to print or to
write. -/
theorem run_convert (m : Machine Place) (environment : Environment) (runner : Config → Runner)
    (hpure : ∀ settings, (runner settings).IsPure) (config : Option Text) (path : Text) (line : Nat)
    (form : Form) :
    let s : Surroundings := ⟨environment, m.files, runner⟩
    (∀ arguments write,
      Invocation.ofArguments arguments = .carryOut (.convert path line form write) config →
        (run s arguments).status = 1 ∧ (run s arguments).output = [] ∧
          m.after (run s arguments) = m) ∨
    ∃ t, IsConverted s config path line form t ∧ ∀ arguments write,
      Invocation.ofArguments arguments = .carryOut (.convert path line form write) config →
        (run s arguments).status = 0 ∧ Delivers m path write t (run s arguments) := by
  intro s
  rcases runConfigured_convert s hpure config path line form with
    ⟨failure, hfail⟩ | ⟨t, ht, hok⟩
  · refine Or.inl fun arguments write hasked => ?_
    have hrun : run s arguments = Report.ofResult (.error failure) := by
      rw [run, hasked, Invocation.run, hfail]
    rw [hrun]
    exact ⟨rfl, rfl, rfl⟩
  · refine Or.inr ⟨t, ht, fun arguments write hasked => ?_⟩
    have hrun : run s arguments = Report.ofResult (.ok (Answer.ofConverted path t write)) := by
      rw [run, hasked, Invocation.run, hok]
    rw [hrun]
    refine ⟨?_, delivers_ofConverted m path t write⟩
    cases write <;> rfl

/-- A diff block is converted, once to print and once to write. -/
theorem run_convert_diff :
    let path := Text.ofString "a.rst"
    let source := Text.ofLines [".. diff-doc:: start a", "    :language: sh", "    :render: True", "",
      "    b", ".. diff-doc:: diff a", "    :render: True", "", "    @@ -1 +1 @@", "    -b", "    +c",
      ".. diff-doc:: output a", "    :render: True", "", "    c"]
    let m : Machine Text :=
      ⟨id, fun p => if p = path then .content (Octets.encode source) else .missing⟩
    let runner : Config → Runner := fun _ _ call => .ok call.code
    let s : Surroundings := ⟨[], m.files, runner⟩
    let printing := ["convert", "a.rst", "--line", "6", "--to", "replace"].map Text.ofString
    let writing := printing ++ [Text.ofString "--write"]
    (∀ settings, (runner settings).IsPure) ∧
      Invocation.ofArguments printing = .carryOut (.convert path 6 .replace false) none ∧
      Invocation.ofArguments writing = .carryOut (.convert path 6 .replace true) none ∧
      ∃ t, IsConverted s none path 6 .replace t ∧
        (run s printing).status = 0 ∧ Delivers m path false t (run s printing) ∧
        (run s writing).status = 0 ∧ Delivers m path true t (run s writing) := by
  intro path source m runner s printing writing
  have hpure : ∀ settings, (runner settings).IsPure := fun _ _ _ _ => rfl
  have hprinting : Invocation.ofArguments printing =
      .carryOut (.convert path 6 .replace false) none := by decide +kernel
  have hwriting : Invocation.ofArguments writing =
      .carryOut (.convert path 6 .replace true) none := by decide +kernel
  refine ⟨hpure, hprinting, hwriting, ?_⟩
  rcases run_convert m [] runner hpure none path 6 .replace with hfails | ⟨t, ht, hruns⟩
  · have hstatus : (run s printing).status = 0 := by decide +kernel
    exact absurd (hstatus.symm.trans (hfails printing false hprinting).1) (by decide)
  · obtain ⟨hstatus, hprints⟩ := hruns printing false hprinting
    obtain ⟨hstatus', hwrites⟩ := hruns writing true hwriting
    exact ⟨t, ht, hstatus, hprints, hstatus', hwrites⟩

end CommandLine

end Literate
