import Literate.Config.Read
import Literate.Config.Write
import Literate.Proofs.Toml.Statements
import Literate.Proofs.Toml.Tables

/-!
# A configuration read back

Settings that are in order (`Config.IsOrdered`) are read back from the document that is written for
them: `parse?_text`.  The document consists of certain statements (`reads_text`), and these build
the tables of the settings (`build_statements`), from which the settings are taken
(`execution?_table`, `languages?_table`).
Whatever is read as settings is in order: `isOrdered_of_parse?`.
-/

namespace Literate.Config

open Toml (Value Entries Statement)

/-- The time limit fits in 64 bits, and the languages stand in the order of their names, none of
which occurs twice. -/
structure IsOrdered (config : Config) : Prop where
  seconds : config.timeoutSeconds < wordBound
  sorted : config.languages.Pairwise fun a b => Text.le a.1 b.1 = true
  names : (config.languages.map Prod.fst).Nodup

/-! ### The statements of the document -/

/-- The fields of the table of a language. -/
def languageFields (l : Language) : Entries :=
  (Text.ofString "command", .array (l.command.map Value.string)) ::
    l.extension.toList.map fun extension => (Text.ofString "extension", .string extension)

/-- The fields of the table `execution`. -/
def executionFields (config : Config) : Entries :=
  [(Text.ofString "timeout_secs", .integer config.timeoutSeconds)]

/-- The statements of a table. -/
def tableStatements (path : List Text) (fields : Entries) : List Statement :=
  .header path :: fields.map fun field => .assign [field.1] field.2

/-- The tables of the document, each with its statements. -/
def parts (config : Config) : List (Text × List Statement) :=
  (Toml.headerText [Text.ofString "execution"] ++
      Toml.line (Text.ofString "timeout_secs") (Text.decimal config.timeoutSeconds),
    tableStatements [Text.ofString "execution"] config.executionFields) ::
    match config.languages with
    | [] => [(Toml.headerText [Text.ofString "languages"],
        tableStatements [Text.ofString "languages"] [])]
    | languages => languages.map fun entry => (languageText entry.1 entry.2,
        tableStatements [Text.ofString "languages", entry.1] (languageFields entry.2))

/-- The statements of the document. -/
def statements (config : Config) : List Statement :=
  config.parts.flatMap Prod.snd

theorem text_eq_join (config : Config) :
    config.text = Text.join ['\n'] (config.parts.map Prod.fst) := by
  match config with
  | ⟨_, []⟩ => rfl
  | ⟨_, entry :: languages⟩ => simp [text, parts, Function.comp_def]

theorem reads_languageText (name : Text) (l : Language) : Toml.Reads (languageText name l)
    (tableStatements [Text.ofString "languages", name] (languageFields l)) := by
  have hheader : Toml.Reads (Toml.headerText [Text.ofString "languages", name])
      [.header [Text.ofString "languages", name]] := .header (List.cons_ne_nil _ _)
  have hcommand : Toml.Reads
      (Toml.line (Text.ofString "command") (Toml.arrayText l.command))
      [.assign [Text.ofString "command"] (.array (l.command.map Value.string))] :=
    .line (Toml.readsValue_arrayText l.command) _
  match l with
  | ⟨command, none⟩ => exact (hheader.append hcommand).append .nil
  | ⟨command, some extension⟩ =>
    exact (hheader.append hcommand).append (.line (Toml.readsValue_stringText extension) _)

/-- **The document is read** as these statements. -/
theorem reads_text {config : Config} (h : config.timeoutSeconds < wordBound) :
    Toml.Reads config.text config.statements := by
  have hheader : Toml.Reads (Toml.headerText [Text.ofString "execution"])
      [.header [Text.ofString "execution"]] := .header (List.cons_ne_nil _ _)
  rw [text_eq_join]
  refine .join fun part hpart => ?_
  obtain rfl | hpart := List.mem_cons.mp hpart
  · exact hheader.append (.line (Toml.readsValue_decimal h) _)
  · split at hpart
    · obtain rfl := List.mem_singleton.mp hpart
      exact .header (List.cons_ne_nil _ _)
    · obtain ⟨entry, -, rfl⟩ := List.mem_map.mp hpart
      exact reads_languageText entry.1 entry.2

/-! ### The tables that they build -/

/-- The tables of languages. -/
def languageTables (languages : List (Text × Language)) : Entries :=
  languages.map fun entry => (entry.1, .table .header (languageFields entry.2))

/-- The table `execution`, as the only one. -/
def executionTable (config : Config) : Entries :=
  [(Text.ofString "execution", .table .header config.executionFields)]

/-- The tables of the settings with some of the languages. -/
def tables (config : Config) (languages : List (Text × Language)) : Entries :=
  config.executionTable ++
    if languages = [] then []
    else [(Text.ofString "languages", .table .implied (languageTables languages))]

variable {config : Config} {languages : List (Text × Language)} {name : Text}

theorem nodup_languageFields (l : Language) : ((languageFields l).map Prod.fst).Nodup := by
  match l with
  | ⟨command, none⟩ => exact List.nodup_singleton _
  | ⟨command, some extension⟩ =>
    show [Text.ofString "command", Text.ofString "extension"].Nodup
    decide

theorem languages_not_mem_executionTable (config : Config) :
    Text.ofString "languages" ∉ config.executionTable.map Prod.fst := by
  show Text.ofString "languages" ∉ [Text.ofString "execution"]
  decide

theorem build_language (hname : name ∉ languages.map Prod.fst) (l : Language) (path : List Text)
    (rest : List Statement) :
    Toml.build (config.tables languages) path
        (tableStatements [Text.ofString "languages", name] (languageFields l) ++ rest) =
      Toml.build (config.tables (languages ++ [(name, l)])) [Text.ofString "languages", name]
        rest := by
  let within : Entries → Entries := fun inner => config.executionTable ++
    [(Text.ofString "languages", .table .implied
      (languageTables languages ++ [(name, .table .header inner)]))]
  have hfirst := languages_not_mem_executionTable config
  have hkeys : name ∉ (languageTables languages).map Prod.fst := by
    simpa [languageTables] using hname
  have himplied : Toml.Origin.implied ≠ .inline := by decide
  have hheader : Toml.Origin.header ≠ .inline := by decide
  have hopen : (config.tables languages).openTable [Text.ofString "languages", name] =
      some (within []) := by
    show Entries.descend false _ [Text.ofString "languages"] .header _ = _
    unfold tables
    split
    · next h =>
      subst h
      rw [List.append_nil, Entries.descend_of_not_mem hfirst]
      rfl
    · rw [Entries.descend_append hfirst himplied, Entries.descend, Entries.alter_of_not_mem hkeys]
      rfl
  have hset : ∀ inner key v, key ∉ inner.map Prod.fst →
      Entries.assignIn (within inner) [Text.ofString "languages", name] [key] v =
        some (within (inner ++ [(key, v)])) := by
    intro inner key v hkey
    rw [Entries.assignIn, Entries.descend_append hfirst himplied,
      Entries.descend_append hkeys hheader, Entries.descend,
      Entries.assign_singleton hkey (by decide)]
    rfl
  have hdone : within (languageFields l) = config.tables (languages ++ [(name, l)]) := by
    simp [within, tables, languageTables]
  show ((config.tables languages).openTable _).bind _ = _
  rw [hopen, ← hdone]
  exact Toml.build_fields hset (languageFields l) [] (nodup_languageFields l) rest

theorem build_languages (remaining languages : List (Text × Language))
    (hnames : ((languages ++ remaining).map Prod.fst).Nodup) (path : List Text) :
    Toml.build (config.tables languages) path (remaining.flatMap fun entry =>
        tableStatements [Text.ofString "languages", entry.1] (languageFields entry.2)) =
      some (config.tables (languages ++ remaining)) := by
  induction remaining generalizing languages path with
  | nil => rw [List.append_nil, List.flatMap_nil, Toml.build]
  | cons entry remaining ih =>
    have hsplit : languages ++ entry :: remaining = (languages ++ [entry]) ++ remaining := by
      rw [List.append_assoc, List.singleton_append]
    have hname : entry.1 ∉ languages.map Prod.fst := by
      rw [List.map_append, List.map_cons, List.nodup_append'] at hnames
      exact fun h => hnames.2.2 h List.mem_cons_self
    rw [hsplit] at hnames ⊢
    rw [List.flatMap_cons, build_language hname]
    exact ih (languages ++ [entry]) hnames _

theorem build_execution (config : Config) (rest : List Statement) :
    Toml.build [] [] (tableStatements [Text.ofString "execution"] config.executionFields ++ rest) =
      Toml.build (config.tables []) [Text.ofString "execution"] rest := by
  have hopen : Entries.openTable [] [Text.ofString "execution"] =
      some [(Text.ofString "execution", .table .header [])] := rfl
  have hset : ∀ v, Entries.assignIn [(Text.ofString "execution", .table .header [])]
      [Text.ofString "execution"] [Text.ofString "timeout_secs"] v =
        some [(Text.ofString "execution", .table .header [(Text.ofString "timeout_secs", v)])] :=
    fun _ => rfl
  simp only [tableStatements, executionFields, List.map_cons, List.map_nil, List.cons_append,
    List.nil_append, Toml.build, hopen, Option.bind_eq_bind, Option.bind_some, hset]
  rfl

/-- The tables of all settings; a table without languages has a header of its own. -/
def allTables (config : Config) : Entries :=
  config.executionTable ++ [(Text.ofString "languages",
    .table (if config.languages = [] then .header else .implied) (languageTables config.languages))]

/-- **The statements of the document build the tables** of the settings. -/
theorem build_statements (hnames : (config.languages.map Prod.fst).Nodup) :
    Toml.build [] [] config.statements = some config.allTables := by
  rw [statements, parts, List.flatMap_cons, build_execution]
  split
  · next h =>
    have hfirst := languages_not_mem_executionTable config
    have hopen : (config.tables []).openTable [Text.ofString "languages"] =
        some config.allTables := by
      show Entries.alter (Text.ofString "languages") _ _ = _
      rw [tables, if_pos rfl, List.append_nil, Entries.alter_of_not_mem hfirst]
      simp [allTables, h, languageTables]
    rw [List.flatMap_singleton, tableStatements, Toml.build, hopen]
    rfl
  · next h =>
    have htables : config.tables config.languages = config.allTables := by
      rw [tables, allTables, if_neg h, if_neg h]
    rw [List.flatMap_map, build_languages config.languages [] hnames, List.nil_append, htables]

/-! ### The settings in the tables -/

theorem optional_of_get? {α : Type} {read : Value → Option α} {entries : Entries} {key : Text}
    {v : Value} (h : entries.get? key = some v) :
    optional read entries key = (read v).map some := by
  rw [optional, h]

theorem seconds?_integer {n : Nat} (h : n < wordBound) : seconds? (.integer n) = some n := by
  have hrange : (0 : Int) ≤ n ∧ (n : Int) < wordBound := by omega
  rw [seconds?, if_pos hrange, Int.toNat_natCast]

theorem execution?_of_optional {origin : Toml.Origin} {entries : Entries} {n : Nat}
    (h : optional seconds? entries (Text.ofString "timeout_secs") = some (some n)) :
    execution? (.table origin entries) = some n := by
  simp [execution?, record, h]

theorem execution?_table (h : config.timeoutSeconds < wordBound) :
    execution? (.table .header config.executionFields) = some config.timeoutSeconds := by
  have hget : Entries.get? config.executionFields (Text.ofString "timeout_secs") =
      some (.integer config.timeoutSeconds) := rfl
  refine execution?_of_optional ?_
  rw [optional_of_get? hget, seconds?_integer h]
  rfl

theorem mapM_string? (texts : List Text) : (texts.map Value.string).mapM string? = some texts := by
  induction texts with
  | nil => rfl
  | cons t texts ih => simp [string?, ih]

theorem language?_table (l : Language) :
    language? (.table .header (languageFields l)) = some l := by
  have hcommand := mapM_string? l.command
  match l with
  | ⟨command, none⟩ =>
    simp [language?, record, optional, languageFields, Entries.get?, strings?, hcommand,
      Text.ofString]
  | ⟨command, some extension⟩ =>
    simp [language?, record, optional, languageFields, Entries.get?, strings?, string?, hcommand,
      Text.ofString]

theorem languages?_table (origin : Toml.Origin)
    (hsorted : languages.Pairwise fun a b => Text.le a.1 b.1 = true) :
    languages? (.table origin (languageTables languages)) = some languages := by
  have hread : ∀ languages : List (Text × Language),
      (languageTables languages).mapM
        (fun entry => (language? entry.2).map fun l => (entry.1, l)) = some languages := by
    intro languages
    induction languages with
    | nil => rfl
    | cons entry languages ih =>
      rw [languageTables, List.map_cons, List.mapM_cons, ← languageTables, ih, language?_table]
      rfl
  rw [languages?, hread]
  exact congrArg some (Text.sortByKey_eq_self hsorted)

/-- **A configuration is read back** from the document that is written for it. -/
theorem parse?_text (h : config.IsOrdered) : parse? config.text = some config := by
  have hmark : config.text.head? ≠ some '\ufeff' := by
    match config with
    | ⟨_, []⟩ => exact show some '[' ≠ some '\ufeff' by decide
    | ⟨_, [_]⟩ => exact show some '[' ≠ some '\ufeff' by decide
    | ⟨_, _ :: _ :: _⟩ => exact show some '[' ≠ some '\ufeff' by decide
  have hparse : Toml.parse config.text = some config.allTables :=
    ((reads_text h.seconds).parse_eq hmark).trans (build_statements h.names)
  have hseconds : optional execution? config.allTables (Text.ofString "execution") =
      some (some config.timeoutSeconds) := by
    have hget : config.allTables.get? (Text.ofString "execution") =
        some (.table .header config.executionFields) := rfl
    rw [optional_of_get? hget, execution?_table h.seconds]
    rfl
  have hlanguages : optional languages? config.allTables (Text.ofString "languages") =
      some (some config.languages) := by
    have hget : config.allTables.get? (Text.ofString "languages") = some (.table
        (if config.languages = [] then .header else .implied) (languageTables config.languages)) :=
      rfl
    rw [optional_of_get? hget, languages?_table _ h.sorted]
    rfl
  refine Option.bind_eq_some_iff.mpr ⟨_, hparse, ?_⟩
  refine Option.bind_eq_some_iff.mpr ⟨_, hseconds, ?_⟩
  refine Option.bind_eq_some_iff.mpr ⟨_, hlanguages, ?_⟩
  rfl

/-! ### Settings that are read -/

theorem lt_wordBound_of_execution? {v : Value} {n : Nat} (h : execution? v = some n) :
    n < wordBound := by
  obtain ⟨entries, -, h⟩ := Option.bind_eq_some_iff.mp h
  obtain ⟨seconds, hseconds, h⟩ := Option.bind_eq_some_iff.mp h
  cases h
  unfold optional at hseconds
  split at hseconds
  · cases hseconds
    decide
  · obtain ⟨n, hn, rfl⟩ := Option.map_eq_some_iff.mp hseconds
    unfold seconds? at hn
    split at hn
    · split at hn
      · next hrange =>
        cases hn
        rw [Option.getD_some]
        omega
      · cases hn
    · cases hn

/-- Languages that are read stand in the order of their names. -/
theorem of_languages?_eq_some {v : Value} (hkeys : v.HasDistinctKeys)
    (h : languages? v = some languages) :
    (languages.Pairwise fun a b => Text.le a.1 b.1 = true) ∧ (languages.map Prod.fst).Nodup := by
  unfold languages? at h
  split at h
  · next origin entries =>
    obtain ⟨read, hread, rfl⟩ := Option.map_eq_some_iff.mp h
    have hnames : read.map Prod.fst = entries.map Prod.fst := by
      clear h hkeys
      induction entries generalizing read with
      | nil =>
        cases hread
        rfl
      | cons entry entries ih =>
        rw [List.mapM_cons] at hread
        obtain ⟨first, hfirst, hread⟩ := Option.bind_eq_some_iff.mp hread
        obtain ⟨more, hmore, hread⟩ := Option.bind_eq_some_iff.mp hread
        obtain ⟨l, -, rfl⟩ := Option.map_eq_some_iff.mp hfirst
        cases hread
        rw [List.map_cons, List.map_cons, ih more hmore]
    refine ⟨Text.pairwise_sortByKey read, ?_⟩
    rw [((Text.sortByKey_perm read).map Prod.fst).nodup_iff, hnames]
    exact (Entries.hasDistinctKeys_table.mp hkeys).keys
  · cases h

theorem isOrdered_standard : standard.IsOrdered := by
  constructor <;> decide

/-- **Settings that are read are in order.** -/
theorem isOrdered_of_parse? {t : Text} (h : parse? t = some config) : config.IsOrdered := by
  obtain ⟨entries, hparse, h⟩ := Option.bind_eq_some_iff.mp h
  obtain ⟨seconds, hseconds, h⟩ := Option.bind_eq_some_iff.mp h
  obtain ⟨languages, hlanguages, h⟩ := Option.bind_eq_some_iff.mp h
  cases h
  have hkeys := Entries.hasDistinctKeys_of_parse hparse
  have hlt : seconds.getD standard.timeoutSeconds < wordBound := by
    unfold optional at hseconds
    split at hseconds
    · cases hseconds
      exact isOrdered_standard.seconds
    · obtain ⟨n, hn, rfl⟩ := Option.map_eq_some_iff.mp hseconds
      exact lt_wordBound_of_execution? hn
  unfold optional at hlanguages
  split at hlanguages
  · cases hlanguages
    exact ⟨hlt, isOrdered_standard.sorted, isOrdered_standard.names⟩
  · next v hv =>
    obtain ⟨read, hread, rfl⟩ := Option.map_eq_some_iff.mp hlanguages
    obtain ⟨entry, hentry, rfl⟩ := Option.map_eq_some_iff.mp hv
    have hdistinct := hkeys.values entry (List.mem_of_find?_eq_some hentry)
    obtain ⟨hsorted, hnames⟩ := of_languages?_eq_some hdistinct hread
    exact ⟨hlt, hsorted, hnames⟩

end Literate.Config
