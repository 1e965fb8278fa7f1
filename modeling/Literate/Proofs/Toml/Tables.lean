import Literate.Toml.Reader
import Mathlib.Data.List.Nodup
import Mathlib.Data.Option.Basic

/-!
# Tables that are read

`Entries.alter` sets the value of one key and keeps all others (`alter_eq_some_iff`).  In whatever a
document is read as, no key occurs twice in a table, however deep it stands
(`Entries.hasDistinctKeys_of_parse`): each step of the reader keeps it so.
-/

namespace Literate.Toml

/-- No key occurs twice in a table of the value. -/
inductive Value.HasDistinctKeys : Value → Prop
  | string (t : Text) : HasDistinctKeys (.string t)
  | integer (n : Int) : HasDistinctKeys (.integer n)
  | boolean (b : Bool) : HasDistinctKeys (.boolean b)
  | float : HasDistinctKeys .float
  | date : HasDistinctKeys .date
  | array {items : List Value} (h : ∀ v ∈ items, HasDistinctKeys v) : HasDistinctKeys (.array items)
  | table {origin : Origin} {entries : Entries} (keys : (entries.map Prod.fst).Nodup)
      (values : ∀ entry ∈ entries, HasDistinctKeys entry.2) :
      HasDistinctKeys (.table origin entries)
  | tables {tables : List Entries} (keys : ∀ entries ∈ tables, (entries.map Prod.fst).Nodup)
      (values : ∀ entries ∈ tables, ∀ entry ∈ entries, HasDistinctKeys entry.2) :
      HasDistinctKeys (.tables tables)

namespace Entries

variable {entries result : Entries} {key : Text} {f : Option Value → Option Value}

/-- No key occurs twice, in these entries or in a table of their values. -/
structure HasDistinctKeys (entries : Entries) : Prop where
  keys : (entries.map Prod.fst).Nodup
  values : ∀ entry ∈ entries, entry.2.HasDistinctKeys

theorem hasDistinctKeys_table {origin : Origin} :
    (Value.table origin entries).HasDistinctKeys ↔ entries.HasDistinctKeys :=
  ⟨fun h => by cases h with | table keys values => exact ⟨keys, values⟩,
    fun h => .table h.keys h.values⟩

theorem hasDistinctKeys_tables {tables : List Entries} :
    (Value.tables tables).HasDistinctKeys ↔ ∀ entries ∈ tables, entries.HasDistinctKeys :=
  ⟨fun h => by cases h with | tables keys values => exact fun e he => ⟨keys e he, values e he⟩,
    fun h => .tables (fun e he => (h e he).keys) fun e he => (h e he).values⟩

/-! ### Changing the value of a key -/

/-- A new key is added at the end. -/
theorem alter_of_not_mem (h : key ∉ entries.map Prod.fst) (f : Option Value → Option Value) :
    entries.alter key f = (f none).map fun v => entries ++ [(key, v)] := by
  induction entries with
  | nil => rfl
  | cons entry entries ih =>
    rw [List.map_cons, List.mem_cons, not_or] at h
    rw [alter, if_neg (Ne.symm h.1), ih h.2, Option.map_map]
    rfl

/-- The value of a key that is there is changed in its place. -/
theorem alter_append {before : Entries} (h : key ∉ before.map Prod.fst)
    (f : Option Value → Option Value) (old : Value) (after : Entries) :
    alter key f (before ++ (key, old) :: after) =
      (f (some old)).map fun v => before ++ (key, v) :: after := by
  induction before with
  | nil => exact if_pos rfl
  | cons entry before ih =>
    rw [List.map_cons, List.mem_cons, not_or] at h
    rw [List.cons_append, alter, if_neg (Ne.symm h.1), ih h.2, Option.map_map]
    rfl

/-- Where a key occurs first. -/
theorem exists_of_mem_keys (h : key ∈ entries.map Prod.fst) :
    ∃ before old after, entries = before ++ (key, old) :: after ∧ key ∉ before.map Prod.fst := by
  obtain ⟨keys, keys', hkeys, hnot⟩ := List.eq_append_cons_of_mem h
  obtain ⟨before, rest, rfl, rfl, hrest⟩ := List.map_eq_append_iff.mp hkeys
  obtain ⟨⟨_, old⟩, after, rfl, rfl, -⟩ := List.map_eq_cons_iff.mp hrest
  exact ⟨before, old, after, rfl, hnot⟩

/-! ### Ways into a table -/

variable {path : List Text} {origin way : Origin} {change : Origin → Entries → Option Entries}

/-- The way of a header into a table that is not there yet. -/
theorem descend_of_not_mem (h : key ∉ entries.map Prod.fst) :
    descend false change (key :: path) origin entries =
      (descend false change path .implied []).map fun inner =>
        entries ++ [(key, .table .implied inner)] := by
  rw [descend, alter_of_not_mem h, Option.map_map]
  rfl

/-- The way of a header into a table that is there. -/
theorem descend_append {before : Entries} (h : key ∉ before.map Prod.fst) (hway : way ≠ .inline)
    (inner after : Entries) :
    descend false change (key :: path) origin (before ++ (key, .table way inner) :: after) =
      (descend false change path way inner).map fun inner =>
        before ++ (key, .table way inner) :: after := by
  have hgo : ¬(way = .inline ∨ (false = true ∧ way = .header)) := by simp [hway]
  rw [descend, alter_append h]
  simp only [if_neg hgo, Option.map_map]
  rfl

/-- A new key of one part. -/
theorem assign_singleton (h : key ∉ entries.map Prod.fst) (horigin : origin ≠ .dotted) (v : Value) :
    assign origin entries [key] v = some (entries ++ [(key, v)]) := by
  show define false key v origin entries = _
  rw [define, if_pos (by simp [horigin]), alter_of_not_mem h]
  rfl

/-! ### No key occurs twice -/

theorem hasDistinctKeys_nil : HasDistinctKeys [] :=
  ⟨List.nodup_nil, by simp⟩

namespace HasDistinctKeys

theorem alter (h : entries.HasDistinctKeys)
    (hf : ∀ old v, (∀ w ∈ old, w.HasDistinctKeys) → f old = some v → v.HasDistinctKeys)
    (hr : entries.alter key f = some result) : result.HasDistinctKeys := by
  by_cases hkey : key ∈ entries.map Prod.fst
  · obtain ⟨before, old, after, rfl, hnot⟩ := exists_of_mem_keys hkey
    rw [alter_append hnot] at hr
    obtain ⟨v, hv, rfl⟩ := Option.map_eq_some_iff.mp hr
    have hold := h.values (key, old) (by simp)
    refine ⟨by simpa using h.keys, fun entry he => ?_⟩
    obtain hb | rfl | ha : entry ∈ before ∨ entry = (key, v) ∨ entry ∈ after := by simpa using he
    · exact h.values entry (by simp [hb])
    · exact hf (some old) v (by rintro _ ⟨⟩; exact hold) hv
    · exact h.values entry (by simp [ha])
  · rw [alter_of_not_mem hkey] at hr
    obtain ⟨v, hv, rfl⟩ := Option.map_eq_some_iff.mp hr
    have hkeys : ((entries ++ [(key, v)]).map Prod.fst).Nodup := by
      rw [List.map_append]
      exact List.Nodup.append h.keys (List.nodup_singleton key) (by simpa using hkey)
    refine ⟨hkeys, fun entry he => ?_⟩
    obtain he | rfl : entry ∈ entries ∨ entry = (key, v) := by simpa using he
    · exact h.values entry he
    · exact hf none v (by simp) hv

/-- A change of one table inside keeps it so for all of them. -/
theorem descend {dotted : Bool} {f : Origin → Entries → Option Entries}
    (hf : ∀ origin entries result, entries.HasDistinctKeys → f origin entries = some result →
      result.HasDistinctKeys)
    {path : List Text} {origin : Origin} (h : entries.HasDistinctKeys)
    (hr : Entries.descend dotted f path origin entries = some result) :
    result.HasDistinctKeys := by
  induction path generalizing origin entries result with
  | nil => exact hf origin entries result h hr
  | cons key path ih =>
    rw [Entries.descend] at hr
    refine h.alter (fun old v hold hv => ?_) hr
    split at hv
    · obtain ⟨inner, hinner, rfl⟩ := Option.map_eq_some_iff.mp hv
      exact hasDistinctKeys_table.mpr (ih hasDistinctKeys_nil hinner)
    · next inner =>
      split at hv
      · cases hv
      · obtain ⟨inner', hinner, rfl⟩ := Option.map_eq_some_iff.mp hv
        have htable := hasDistinctKeys_table.mp (hold _ rfl)
        exact hasDistinctKeys_table.mpr (ih htable hinner)
    · next tables =>
      have htables := hasDistinctKeys_tables.mp (hold _ rfl)
      split at hv
      · cases hv
      · next last hlast =>
        obtain ⟨last', hlast', rfl⟩ := Option.map_eq_some_iff.mp hv
        have hmem := List.mem_of_getLast? hlast
        refine hasDistinctKeys_tables.mpr fun e he => ?_
        obtain he | rfl : e ∈ tables.dropLast ∨ e = last' := by simpa using he
        · exact htables e (List.dropLast_subset tables he)
        · exact ih (htables last hmem) hlast'
    · cases hv

theorem define {dotted : Bool} {v : Value} {origin : Origin} (h : entries.HasDistinctKeys)
    (hv : v.HasDistinctKeys) (hr : entries.define dotted key v origin = some result) :
    result.HasDistinctKeys := by
  unfold Entries.define at hr
  split at hr
  · refine h.alter (fun old w _ hw => ?_) hr
    split at hw
    · cases hw
      exact hv
    · cases hw
  · cases hr

theorem assign {path : List Text} {v : Value} {origin : Origin} (h : entries.HasDistinctKeys)
    (hv : v.HasDistinctKeys) (hr : Entries.assign origin entries path v = some result) :
    result.HasDistinctKeys := by
  unfold Entries.assign at hr
  split at hr
  · cases hr
  · exact h.descend (fun _ _ _ h hr => h.define hv hr) hr

theorem openTable {path : List Text} (h : entries.HasDistinctKeys)
    (hr : entries.openTable path = some result) : result.HasDistinctKeys := by
  unfold Entries.openTable at hr
  split at hr
  · cases hr
  · refine h.descend (fun _ inner _ h hr => h.alter (fun old v hold hv => ?_) hr) hr
    split at hv
    · cases hv
      exact hasDistinctKeys_table.mpr hasDistinctKeys_nil
    · cases hv
      exact hasDistinctKeys_table.mpr (hasDistinctKeys_table.mp (hold _ rfl))
    · cases hv

theorem openItem {path : List Text} (h : entries.HasDistinctKeys)
    (hr : entries.openItem path = some result) : result.HasDistinctKeys := by
  unfold Entries.openItem at hr
  split at hr
  · cases hr
  · refine h.descend (fun _ inner _ h hr => h.alter (fun old v hold hv => ?_) hr) hr
    split at hv
    · cases hv
      exact hasDistinctKeys_tables.mpr fun e he => by
        rw [List.mem_singleton.mp he]
        exact hasDistinctKeys_nil
    · next tables =>
      cases hv
      refine hasDistinctKeys_tables.mpr fun e he => ?_
      obtain he | rfl : e ∈ tables ∨ e = [] := by simpa using he
      · exact hasDistinctKeys_tables.mp (hold _ rfl) e he
      · exact hasDistinctKeys_nil
    · cases hv

theorem assignIn {path key : List Text} {v : Value} (h : entries.HasDistinctKeys)
    (hv : v.HasDistinctKeys) (hr : entries.assignIn path key v = some result) :
    result.HasDistinctKeys :=
  h.descend (fun _ _ _ h hr => h.assign hv hr) hr

end HasDistinctKeys

end Entries

/-! ### Tables that are built -/

/-- The lines of a table that has been begun.  `within inner` is the whole document when the table
has the entries `inner`. -/
theorem build_fields {within : Entries → Entries} {path : List Text}
    (hset : ∀ inner key v, key ∉ inner.map Prod.fst →
      Entries.assignIn (within inner) path [key] v = some (within (inner ++ [(key, v)])))
    (fields inner : Entries) (hkeys : ((inner ++ fields).map Prod.fst).Nodup)
    (rest : List Statement) :
    build (within inner) path ((fields.map fun field => .assign [field.1] field.2) ++ rest) =
      build (within (inner ++ fields)) path rest := by
  induction fields generalizing inner with
  | nil => rw [List.append_nil, List.map_nil, List.nil_append]
  | cons field fields ih =>
    have hsplit : inner ++ field :: fields = (inner ++ [field]) ++ fields := by
      rw [List.append_assoc, List.singleton_append]
    have hnew : field.1 ∉ inner.map Prod.fst := by
      rw [List.map_append, List.map_cons, List.nodup_append'] at hkeys
      exact fun h => hkeys.2.2 h List.mem_cons_self
    rw [hsplit] at hkeys ⊢
    show (Entries.assignIn (within inner) path [field.1] field.2).bind _ = _
    rw [hset inner field.1 field.2 hnew]
    exact ih (inner ++ [field]) hkeys

/-! ### What is read -/

open Entries

theorem hasDistinctKeys_of_ofWord {word : Text} {v : Value} (h : ofWord word = some v) :
    v.HasDistinctKeys := by
  unfold ofWord at h
  split at h
  · cases h
    exact .boolean true
  · split at h
    · cases h
      exact .boolean false
    · split at h
      · split at h
        · cases h
          exact .integer _
        · cases h
      · split at h
        · cases h
          exact .float
        · split at h
          · cases h
            exact .date
          · cases h

/-- The readers of values, of the members of an array and of the fields of an inline table; the
induction is on their fuel. -/
theorem hasDistinctKeys_of_fuel (fuel : Nat) :
    (∀ depth t v rest, value fuel depth t = some (v, rest) → v.HasDistinctKeys) ∧
    (∀ depth t vs rest, items fuel depth t = some (vs, rest) → ∀ v ∈ vs, v.HasDistinctKeys) ∧
    (∀ depth entries t result rest, entries.HasDistinctKeys →
      fields fuel depth entries t = some (result, rest) → result.HasDistinctKeys) := by
  induction fuel with
  | zero => exact ⟨by simp [value], by simp [items], by simp [fields]⟩
  | succ fuel ih =>
    obtain ⟨hvalue, hitems, hfields⟩ := ih
    refine ⟨?value, ?items, ?fields⟩
    case value =>
      intro depth t v rest h
      unfold value at h
      simp only at h
      split at h
      · obtain ⟨-, -, h⟩ := Option.bind_eq_some_iff.mp h
        obtain ⟨⟨vs, after⟩, hvs, h⟩ := Option.bind_eq_some_iff.mp h
        cases h
        exact .array (hitems _ _ _ _ hvs)
      · obtain ⟨-, -, h⟩ := Option.bind_eq_some_iff.mp h
        obtain ⟨⟨entries, after⟩, hentries, h⟩ := Option.bind_eq_some_iff.mp h
        cases h
        exact hasDistinctKeys_table.mpr (hfields _ _ _ _ _ hasDistinctKeys_nil hentries)
      · obtain ⟨⟨s, after⟩, -, h⟩ := Option.bind_eq_some_iff.mp h
        cases h
        exact .string s
      · obtain ⟨⟨s, after⟩, -, h⟩ := Option.bind_eq_some_iff.mp h
        cases h
        exact .string s
      · obtain ⟨w, hw, h⟩ := Option.bind_eq_some_iff.mp h
        cases h
        exact hasDistinctKeys_of_ofWord hw
    case items =>
      intro depth t vs rest h
      rw [items] at h
      obtain ⟨s, -, h⟩ := Option.bind_eq_some_iff.mp h
      split at h
      · cases h
        simp
      · obtain ⟨⟨v, after⟩, hv, h⟩ := Option.bind_eq_some_iff.mp h
        obtain ⟨s', -, h⟩ := Option.bind_eq_some_iff.mp h
        have hv := hvalue _ _ _ _ hv
        split at h
        · obtain ⟨⟨vs', after'⟩, hvs, h⟩ := Option.bind_eq_some_iff.mp h
          cases h
          exact List.forall_mem_cons.mpr ⟨hv, hitems _ _ _ _ hvs⟩
        · cases h
          exact List.forall_mem_singleton.mpr hv
        · cases h
    case fields =>
      intro depth entries t result rest hentries h
      rw [fields] at h
      obtain ⟨s, -, h⟩ := Option.bind_eq_some_iff.mp h
      split at h
      · cases h
        exact hentries
      · obtain ⟨⟨path, after⟩, -, h⟩ := Option.bind_eq_some_iff.mp h
        obtain ⟨after', -, h⟩ := Option.bind_eq_some_iff.mp h
        obtain ⟨⟨v, after''⟩, hv, h⟩ := Option.bind_eq_some_iff.mp h
        obtain ⟨entries', hassign, h⟩ := Option.bind_eq_some_iff.mp h
        obtain ⟨s', -, h⟩ := Option.bind_eq_some_iff.mp h
        have hentries' := hentries.assign (hvalue _ _ _ _ hv) hassign
        split at h
        · exact hfields _ _ _ _ _ hentries' h
        · cases h
          exact hentries'
        · cases h

theorem hasDistinctKeys_of_statement {t rest : Text} {path : List Text} {v : Value}
    (h : statement t = some (.assign path v, rest)) : v.HasDistinctKeys := by
  unfold statement at h
  split at h
  · obtain ⟨_, -, h⟩ := Option.bind_eq_some_iff.mp h
    cases h
  · obtain ⟨_, -, h⟩ := Option.bind_eq_some_iff.mp h
    cases h
  · obtain ⟨_, -, h⟩ := Option.bind_eq_some_iff.mp h
    obtain ⟨after, -, h⟩ := Option.bind_eq_some_iff.mp h
    obtain ⟨⟨w, after'⟩, hw, h⟩ := Option.bind_eq_some_iff.mp h
    obtain ⟨_, -, h⟩ := Option.bind_eq_some_iff.mp h
    cases h
    exact (hasDistinctKeys_of_fuel _).1 _ _ _ _ hw

theorem hasDistinctKeys_of_statements {count : Nat} {t : Text} {ss : List Statement}
    (h : statements count t = some ss) : ∀ path v, .assign path v ∈ ss → v.HasDistinctKeys := by
  induction count generalizing t ss with
  | zero => cases h
  | succ count ih =>
    rw [statements] at h
    obtain ⟨s, -, h⟩ := Option.bind_eq_some_iff.mp h
    split at h
    · cases h
      simp
    · obtain ⟨⟨first, after⟩, hfirst, h⟩ := Option.bind_eq_some_iff.mp h
      obtain ⟨more, hmore, h⟩ := Option.bind_eq_some_iff.mp h
      cases h
      intro path v hv
      obtain rfl | hv := List.mem_cons.mp hv
      · exact hasDistinctKeys_of_statement hfirst
      · exact ih hmore path v hv

theorem Entries.HasDistinctKeys.build {entries result : Entries} {path : List Text}
    {ss : List Statement} (h : entries.HasDistinctKeys)
    (hss : ∀ path v, .assign path v ∈ ss → v.HasDistinctKeys)
    (hr : build entries path ss = some result) : result.HasDistinctKeys := by
  induction ss generalizing entries path with
  | nil =>
    cases hr
    exact h
  | cons s ss ih =>
    have hss' : ∀ path v, .assign path v ∈ ss → v.HasDistinctKeys := fun path v hv =>
      hss path v (.tail s hv)
    cases s with
    | header path' =>
      obtain ⟨entries', hopen, hr⟩ := Option.bind_eq_some_iff.mp hr
      exact ih (h.openTable hopen) hss' hr
    | itemHeader path' =>
      obtain ⟨entries', hopen, hr⟩ := Option.bind_eq_some_iff.mp hr
      exact ih (h.openItem hopen) hss' hr
    | assign key v =>
      obtain ⟨entries', hassign, hr⟩ := Option.bind_eq_some_iff.mp hr
      exact ih (h.assignIn (hss key v (.head ss)) hassign) hss' hr

/-- **No key occurs twice in a table that was read.** -/
theorem Entries.hasDistinctKeys_of_parse {t : Text} {entries : Entries}
    (h : parse t = some entries) : entries.HasDistinctKeys := by
  unfold parse at h
  obtain ⟨ss, hss, h⟩ := Option.bind_eq_some_iff.mp h
  exact hasDistinctKeys_nil.build (hasDistinctKeys_of_statements hss) h

end Literate.Toml
