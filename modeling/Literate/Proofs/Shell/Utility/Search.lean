import Literate.Proofs.Shell.Regex
import Literate.Shell.Utility.Search
import Literate.Shell.Utility.StreamEditor

/-!
# Lines that are found and lines that are edited

`grep` takes a line if one of its expressions matches in it (`Search.accepts_iff`), and what it
shows of the line stands there (`Search.standsIn_of_mem_found`).  For texts that stand for
themselves this is to say that one of them occurs in the line (`accepts_search_iff`).  `sed` changes
a line only where an expression matches: a match that is replaced by itself leaves the line as it is
(`substitute_itself`).
-/

namespace Literate.Shell.Utility

/-! ### Searching -/

namespace Search

variable {search : Search} {line : Octets}

theorem allMatches_of_mem_found {m : Octets} (h : m ∈ search.found line) :
    ∃ r ∈ search.expressions, ∃ found ∈
      (r.allMatches search.fold (line.length + 1) true false line).1, found.text = m := by
  obtain ⟨r, hr, h⟩ := List.mem_flatMap.mp h
  obtain ⟨⟨found, next⟩, hmem, h⟩ := List.mem_filterMap.mp h
  refine ⟨r, hr, found, (List.of_mem_zip hmem).1, ?_⟩
  dsimp only at h
  split at h
  · cases h
  · exact Option.some.inj h

theorem mem_found_of_allMatches (hwords : search.words = false) {r : Regex} {found : Regex.Match}
    (hr : r ∈ search.expressions)
    (hfound : found ∈ (r.allMatches search.fold (line.length + 1) true false line).1) :
    found.text ∈ search.found line := by
  have hzip {ms : List Regex.Match} (last : Octets) (hm : found ∈ ms) : ∃ next, (found, next) ∈
      ms.zip ((ms.drop 1).map (fun m => m.before ++ m.text) ++ [last]) := by
    have hlength : ms.length ≤
        ((ms.drop 1).map (fun m => m.before ++ m.text) ++ [last]).length := by
      rw [List.length_append, List.length_map, List.length_drop, List.length_singleton]
      omega
    rw [← List.map_fst_zip hlength] at hm
    obtain ⟨⟨m, next⟩, hmem, heq⟩ := List.mem_map.mp hm
    obtain rfl : m = found := heq
    exact ⟨next, hmem⟩
  obtain ⟨next, hnext⟩ := hzip (r.allMatches search.fold (line.length + 1) true false line).2 hfound
  refine List.mem_flatMap.mpr ⟨r, hr, List.mem_filterMap.mpr ⟨(found, next), hnext, ?_⟩⟩
  dsimp only
  rw [hwords, Bool.false_and, if_neg Bool.false_ne_true]

/-- **What is shown of a line is a match in it.** -/
theorem standsIn_of_mem_found {m : Octets} (h : m ∈ search.found line) :
    ∃ r ∈ search.expressions, ∃ found : Regex.Match,
      found.text = m ∧ found.StandsIn r search.fold line := by
  obtain ⟨r, hr, found, hfound, htext⟩ := allMatches_of_mem_found h
  exact ⟨r, hr, found, htext, Regex.standsIn_of_mem_allMatches hfound⟩

theorem occursIn_iff {r : Regex} {fold : Bool} {t : Octets} :
    r.occursIn fold t = true ↔ (r.allMatches fold (t.length + 1) true false t).1 ≠ [] := by
  rw [Ne, Regex.allMatches_eq_nil_iff, Regex.occursIn, Option.isSome_iff_ne_none]

theorem occursIn_of_accepts (h : search.accepts line = true) :
    ∃ r ∈ search.expressions, r.occursIn search.fold line = true := by
  obtain ⟨m, hm⟩ := List.exists_mem_of_ne_nil _ (bne_iff_ne.mp h)
  obtain ⟨r, hr, found, hfound, -⟩ := allMatches_of_mem_found hm
  exact ⟨r, hr, occursIn_iff.mpr (List.ne_nil_of_mem hfound)⟩

/-- **A line is found if one of the expressions matches in it.** -/
theorem accepts_iff (hwords : search.words = false) :
    search.accepts line = true ↔
      ∃ r ∈ search.expressions, r.occursIn search.fold line = true := by
  refine ⟨occursIn_of_accepts, fun ⟨r, hr, h⟩ => bne_iff_ne.mpr ?_⟩
  obtain ⟨found, hfound⟩ := List.exists_mem_of_ne_nil _ (occursIn_iff.mp h)
  exact List.ne_nil_of_mem (mem_found_of_allMatches hwords hr hfound)

end Search

/-- **Texts that stand for themselves are found where they occur.** -/
theorem accepts_search_iff {given : List (Char × Octets)} (hfixed : hasOption given 'F' = true)
    (hcase : hasOption given 'i' = false) (hwhole : hasOption given 'x' = false)
    (hwords : hasOption given 'w' = false) (written line : Octets) :
    (search given written).accepts line = true ↔ ∃ w ∈ Text.pieces written, w <:+: line := by
  have hsearch : search given written =
      ⟨(Text.pieces written).map Regex.literal, false, false⟩ := by
    unfold search
    simp [hfixed, hcase, hwhole, hwords]
  rw [hsearch, Search.accepts_iff rfl]
  constructor
  · rintro ⟨_, hr, h⟩
    obtain ⟨w, hw, rfl⟩ := List.mem_map.mp hr
    exact ⟨w, hw, Regex.occursIn_literal_iff.mp h⟩
  · rintro ⟨w, hw, h⟩
    exact ⟨_, List.mem_map_of_mem hw, Regex.occursIn_literal_iff.mpr h⟩

/-! ### Editing -/

theorem replacement_itself (text : Octets) (groups : List (Nat × Octets)) :
    replacement text groups ['&'] = text :=
  List.append_nil text

/-- **A match that is replaced by itself leaves the line as it is.** -/
theorem substitute_itself {r : Regex} {fold all : Bool} {nth : Nat} {line changed : Octets}
    (h : substitute r fold all ['&'] nth line = some changed) : changed = line := by
  unfold substitute at h
  dsimp only at h
  split at h
  · cases h
  · refine (Option.some.inj h).symm.trans ?_
    have hpieces (ms : List Regex.Match) (chosen : Regex.Match × Nat → Bool) :
        (ms.zipIdx 1).map (fun x => x.1.before ++
          if chosen x then replacement x.1.text x.1.groups ['&'] else x.1.text) =
        ms.map fun m => m.before ++ m.text := by
      conv => rhs; rw [← List.zipIdx_map_fst 1 ms, List.map_map]
      refine List.map_congr_left fun x _ => ?_
      rw [replacement_itself, ite_self]
      rfl
    refine Eq.trans ?_ (Regex.joined_allMatches r fold (line.length + 1) true false line)
    rw [Regex.Match.joined, List.flatMap_def]
    exact congrArg (fun pieces => List.flatten pieces ++ _) (hpieces _ _)

end Literate.Shell.Utility
