import Literate.Proofs.Config.Written
import Literate.Proofs.Text.Octets

/-!
# A configuration saved and loaded again

Loading expands the program of each language, so that a saved configuration is expanded a second
time when it is loaded again.  Everything else stays (`Config.expandedBy`), and the programs stay
exactly if the second expansion leaves them alone.  `ofTextBy_saved` says so for any reader and any
writer, provided that what is written is read back, and for any expansion.  `ofFile_saved` is the
case of TOML and of the variables of an environment.  A program without a dollar sign and without a
tilde at its start is left alone (`Expansion.apply_eq_self`); one that has got another reference out
of a variable is not, as `ofFile_saved_expanded` shows.
-/

namespace Literate

/-! ### Texts with nothing to expand -/

namespace Expansion

variable {t : Text}

theorem variablesFrom_eq_self (env : Environment) (h : '$' ∉ t) :
    variablesFrom env 0 t = some t := by
  induction t with
  | nil => rfl
  | cons c t ih =>
    rw [List.mem_cons, not_or] at h
    rw [variablesFrom, if_neg (Ne.symm h.1), ih h.2]
    rfl

theorem tilde_eq_self (env : Environment) (h : t.head? ≠ some '~') : tilde env t = t := by
  unfold tilde
  split
  · exact absurd rfl h
  · exact absurd rfl h
  · rfl

/-- A text without references and without a tilde at its start stays as it is. -/
theorem apply_eq_self (env : Environment) (hdollar : '$' ∉ t) (htilde : t.head? ≠ some '~') :
    apply env t = t := by
  rw [apply, full?, bindings?, variablesFrom_eq_self env hdollar, Option.map_some,
    if_neg fun h => htilde h.2, tilde_eq_self env htilde, Option.getD_some]

end Expansion

/-! ### Programs expanded -/

/-- The language with its program expanded by `expand`, if it has one. -/
def Language.expandedBy (expand : Text → Text) (l : Language) : Language :=
  { l with command := (l.command.head?.map expand).toList ++ l.command.tail }

namespace Config

/-- The settings with the program of every language expanded by `expand`. -/
def expandedBy (expand : Text → Text) (config : Config) : Config :=
  { config with
    languages := config.languages.map fun entry => (entry.1, entry.2.expandedBy expand) }

/-- The settings with the program of every language expanded in an environment. -/
def expanded (env : Environment) (config : Config) : Config :=
  config.expandedBy (Expansion.apply env)

/-- Every language has a program. -/
def HasPrograms (config : Config) : Prop :=
  ∀ entry ∈ config.languages, entry.2.command ≠ []

variable {env : Environment} {expand : Text → Text} {read : Text → Option Config}
  {write : Config → Text} {config : Config} {path t : Text} {file : FileState}

theorem HasPrograms.expandedBy (h : config.HasPrograms) (expand : Text → Text) :
    (config.expandedBy expand).HasPrograms := by
  intro entry hentry
  obtain ⟨⟨name, command, extension⟩, hmem, rfl⟩ := List.mem_map.mp hentry
  cases command with
  | nil => exact absurd rfl (h _ hmem)
  | cons program arguments => exact List.cons_ne_nil _ _

theorem expandedBy_eq_self_iff : config.expandedBy expand = config ↔
    ∀ entry ∈ config.languages, ∀ program ∈ entry.2.command.head?, expand program = program := by
  have hlanguage : ∀ l : Language, l.expandedBy expand = l ↔
      ∀ program ∈ l.command.head?, expand program = program := by
    rintro ⟨_ | ⟨program, arguments⟩, extension⟩
    · simp [Language.expandedBy]
    · simp [Language.expandedBy]
  have hmap : config.expandedBy expand = config ↔
      config.languages.map (fun entry => (entry.1, entry.2.expandedBy expand)) =
        config.languages.map id := by
    obtain ⟨seconds, languages⟩ := config
    simp [expandedBy]
  rw [hmap, List.map_inj_left]
  refine forall₂_congr fun entry _ => ?_
  rw [← hlanguage, Prod.ext_iff]
  simp

/-! ### Any way to read, to write and to expand -/

/-- The settings in a text that `read` reads, with the programs that `expand` makes of them. The
first language without a program is refused. -/
def ofTextBy (read : Text → Option Config) (expand : Text → Text) (path t : Text) :
    Except ConfigError Config :=
  match read t with
  | none => .error (.malformed path)
  | some config =>
    match config.languages.find? fun entry => entry.2.command.isEmpty with
    | some entry => .error (.emptyCommand path entry.1)
    | none => .ok (config.expandedBy expand)

theorem ofTextBy_eq_ok_iff : ofTextBy read expand path t = .ok config ↔
    ∃ written, read t = some written ∧ written.HasPrograms ∧
      config = written.expandedBy expand := by
  unfold ofTextBy
  split
  · next h => simp [h]
  · next written h =>
    simp only [h, Option.some.injEq, exists_eq_left']
    split
    · next entry hentry =>
      have hnot : ¬written.HasPrograms := by
        intro hall
        exact hall entry (List.mem_of_find?_eq_some hentry) (by simpa using List.find?_some hentry)
      simp [hnot]
    · next hnone =>
      have hprograms : written.HasPrograms := by simpa [HasPrograms] using hnone
      simp [hprograms, eq_comm]

/-- **Settings that are written and read back are expanded once more**, by whatever reads back what
is written and whatever expands. -/
theorem ofTextBy_write (hback : read (write config) = some config)
    (hprograms : config.HasPrograms) (expand : Text → Text) (path : Text) :
    ofTextBy read expand path (write config) = .ok (config.expandedBy expand) :=
  ofTextBy_eq_ok_iff.mpr ⟨config, hback, hprograms, rfl⟩

/-- **What is loaded survives saving, but for its programs**, by whatever reads back what is written
and whatever expands: the programs are expanded once more, and all survives exactly if this leaves
every program as it is. -/
theorem ofTextBy_saved (h : ofTextBy read expand path t = .ok config)
    (hback : read (write config) = some config) (saved : Text) :
    ofTextBy read expand saved (write config) = .ok (config.expandedBy expand) ∧
    (ofTextBy read expand saved (write config) = .ok config ↔
      ∀ entry ∈ config.languages, ∀ program ∈ entry.2.command.head?,
        expand program = program) := by
  obtain ⟨written, -, hprograms, rfl⟩ := ofTextBy_eq_ok_iff.mp h
  have hsaved := ofTextBy_write hback (hprograms.expandedBy expand) expand saved
  refine ⟨hsaved, ?_⟩
  rw [hsaved, ← expandedBy_eq_self_iff, Except.ok.injEq]

/-! ### TOML and an environment -/

theorem expandLanguages_eq (env : Environment) (languages : List (Text × Language)) :
    expandLanguages env languages =
      match languages.find? fun entry => entry.2.command.isEmpty with
      | some entry => .error entry.1
      | none =>
        .ok (languages.map fun entry => (entry.1, entry.2.expandedBy (Expansion.apply env))) := by
  induction languages with
  | nil => rfl
  | cons entry languages ih =>
    obtain ⟨name, command, extension⟩ := entry
    cases command with
    | nil => rfl
    | cons program arguments =>
      have hexpand : expandLanguage env ⟨program :: arguments, extension⟩ =
          some (Language.expandedBy (Expansion.apply env) ⟨program :: arguments, extension⟩) := rfl
      simp only [expandLanguages, hexpand, ih, List.find?_cons, List.isEmpty_cons]
      cases languages.find? fun entry => entry.2.command.isEmpty <;> rfl

theorem ofText_eq (env : Environment) (path t : Text) :
    ofText env path t = ofTextBy parse? (Expansion.apply env) path t := by
  rw [ofText, ofTextBy]
  cases parse? t with
  | none => rfl
  | some config =>
    simp only [expandLanguages_eq]
    cases config.languages.find? fun entry => entry.2.command.isEmpty <;> rfl

/-- The settings in a file that is written as `t`. -/
theorem ofFile_encode (env : Environment) (path t : Text) :
    ofFile env path (.content (Octets.encode t)) = (ofText env path t).map some := by
  simp only [ofFile, FileState.read, Octets.decode?_encode]
  cases ofText env path t <;> rfl

theorem exists_of_ofFile_eq_ok (h : ofFile env path file = .ok (some config)) :
    ∃ t, ofText env path t = .ok config := by
  unfold ofFile at h
  split at h
  · cases h
  · cases h
  · split at h
    · cases h
    · next t ht =>
      split at h
      · cases h
      · next loaded hloaded =>
        cases h
        exact ⟨t, hloaded⟩

theorem IsOrdered.expandedBy (h : config.IsOrdered) (expand : Text → Text) :
    (config.expandedBy expand).IsOrdered where
  seconds := h.seconds
  sorted := List.pairwise_map.mpr h.sorted
  names := by
    have hnames : (config.expandedBy expand).languages.map Prod.fst =
        config.languages.map Prod.fst := by
      simp [Config.expandedBy, Function.comp_def]
    rw [hnames]
    exact h.names

/-- Settings that are loaded are in order. -/
theorem isOrdered_of_ofText (h : ofText env path t = .ok config) : config.IsOrdered := by
  rw [ofText_eq] at h
  obtain ⟨written, hparse, -, rfl⟩ := ofTextBy_eq_ok_iff.mp h
  exact (isOrdered_of_parse? hparse).expandedBy (Expansion.apply env)

/-- **Settings that are saved and loaded again are expanded once more.** -/
theorem ofFile_encode_text (hordered : config.IsOrdered) (hprograms : config.HasPrograms)
    (env : Environment) (path : Text) :
    ofFile env path (.content (Octets.encode config.text)) = .ok (some (config.expanded env)) := by
  rw [ofFile_encode, ofText_eq, ofTextBy_write (parse?_text hordered) hprograms]
  rfl

/-- Programs without a dollar sign and without a tilde at their start stay as they are. -/
theorem expanded_eq_self_of_plain (h : ∀ entry ∈ config.languages,
    ∀ program ∈ entry.2.command.head?, '$' ∉ program ∧ program.head? ≠ some '~')
    (env : Environment) : config.expanded env = config :=
  expandedBy_eq_self_iff.mpr fun entry hentry program hprogram =>
    have hplain := h entry hentry program hprogram
    Expansion.apply_eq_self env hplain.1 hplain.2

/-- The standard settings survive saving, with any time limit and in any environment. -/
theorem ofFile_encode_standard {seconds : Nat} (h : seconds < wordBound) (env : Environment)
    (path : Text) :
    let config : Config := ⟨seconds, standard.languages⟩
    ofFile env path (.content (Octets.encode config.text)) = .ok (some config) := by
  intro config
  have hordered : config.IsOrdered := ⟨h, isOrdered_standard.sorted, isOrdered_standard.names⟩
  have hprograms : ∀ entry ∈ standard.languages, entry.2.command ≠ [] := by decide
  have hplain : ∀ entry ∈ config.languages, ∀ program ∈ entry.2.command.head?,
      '$' ∉ program ∧ program.head? ≠ some '~' := by
    show ∀ entry ∈ standard.languages, _
    decide
  have hself : config.expanded env = config := expanded_eq_self_of_plain hplain env
  rw [ofFile_encode_text hordered hprograms, hself]

/-- **What is loaded survives saving, but for its programs**, which are expanded once more; it
survives altogether exactly if this leaves every program as it is. -/
theorem ofFile_saved (h : ofFile env path file = .ok (some config)) (saved : Text) :
    ofFile env saved (.content (Octets.encode config.text)) = .ok (some (config.expanded env)) ∧
    (ofFile env saved (.content (Octets.encode config.text)) = .ok (some config) ↔
      ∀ entry ∈ config.languages, ∀ program ∈ entry.2.command.head?,
        Expansion.apply env program = program) := by
  obtain ⟨t, ht⟩ := exists_of_ofFile_eq_ok h
  have hback : parse? config.text = some config := parse?_text (isOrdered_of_ofText ht)
  rw [ofText_eq] at ht
  obtain ⟨hsaved, hself⟩ := ofTextBy_saved ht hback saved
  rw [ofFile_encode, ofText_eq, ← hself, hsaved]
  refine ⟨rfl, ?_⟩
  simp [Except.map]

/-- A configuration with one language, the shell, which the program runs. -/
def ofProgram (program : Text) : Config where
  timeoutSeconds := 10
  languages := [(Text.ofString "sh", ⟨[program], none⟩)]

/-- A program that a variable has a part in, and that survives. -/
theorem ofFile_saved_kept :
    let env := [(Text.ofString "A", Text.ofString "/bin")]
    let path := Text.ofString "config.toml"
    let file := Text.ofString "[languages.sh]\ncommand = [\"$A/sh\"]\n"
    let config := ofProgram (Text.ofString "/bin/sh")
    ofFile env path (.content (Octets.encode file)) = .ok (some config) ∧
      ofFile env path (.content (Octets.encode config.text)) = .ok (some config) := by
  intro env path file config
  have h : ofFile env path (.content (Octets.encode file)) = .ok (some config) := by
    decide +kernel
  exact ⟨h, (ofFile_saved h path).2.mpr (by decide)⟩

/-- **A program whose variable has a reference for its value does not survive**: the reference is
replaced when the saved configuration is loaded. -/
theorem ofFile_saved_expanded :
    let env := [(Text.ofString "A", Text.ofString "$B"), (Text.ofString "B", Text.ofString "x")]
    let path := Text.ofString "config.toml"
    let file := Text.ofString "[languages.sh]\ncommand = [\"$A\"]\n"
    let config := ofProgram (Text.ofString "$B")
    ofFile env path (.content (Octets.encode file)) = .ok (some config) ∧
      ofFile env path (.content (Octets.encode config.text)) =
        .ok (some (ofProgram (Text.ofString "x"))) ∧
      ofProgram (Text.ofString "x") ≠ config := by
  decide +kernel

end Config

end Literate
