import Literate.Diff.Middle

/-!
# The middle lies within the old list

A round may push its places beyond the end of the old list or of the new one, where nothing runs any
more.  `Reached n m d front` is what the fronts of the forward search keep all the same: beyond the
end of the old list a place comes from the diagonal below by a deletion, and beyond the end of the
new list from the diagonal above by an insertion.

Suppose that the forward search meets the backward one at a place beyond the end of the old list.
Then a neighbouring place of the round before was at the end already, and that round would have met
the backward search (`Inside`).  So `fst_le_of_middle`: a script is cut at a place that the old list
has.
-/

namespace Literate.Diff

/-! ### One round -/

theorem runLength_le_left (as bs : Array Text) (i j : Nat) :
    i + runLength as bs i j ≤ max i as.size := by
  induction hk : as.size - i using Nat.strongRecOn generalizing i j with
  | ind k ih =>
    rw [runLength]
    split
    · next h =>
      split
      · have := ih (as.size - (i + 1)) (by omega) (i + 1) (j + 1) rfl
        omega
      · omega
    · omega

theorem runLength_le_right (as bs : Array Text) (i j : Nat) :
    j + runLength as bs i j ≤ max j bs.size := by
  induction hk : as.size - i using Nat.strongRecOn generalizing i j with
  | ind k ih =>
    rw [runLength]
    split
    · next h =>
      split
      · have := ih (as.size - (i + 1)) (by omega) (i + 1) (j + 1) rfl
        omega
      · omega
    · omega

/-- Entry `i` of round `d`: where its path ends on the diagonal. -/
def Front.next (as bs : Array Text) (last : Front) (d i : Nat) : Nat :=
  last.entry d i + runLength as bs (last.entry d i) (last.entry d i + 2 * i - d)

/-- What entry `i` of round `d` meets. -/
def Front.meets? (as bs : Array Text) (last : Front) (d : Nat)
    (meeting : (diagonal : Int) → (x y x' y' : Nat) → Option (Nat × Nat)) (i : Nat) :
    Option (Nat × Nat) :=
  meeting ((d : Int) - 2 * i) (last.entry d i) (last.entry d i + 2 * i - d) (last.next as bs d i)
    (last.entry d i + 2 * i - d +
      runLength as bs (last.entry d i) (last.entry d i + 2 * i - d))

theorem round_succ (as bs : Array Text) (last : Front) (d : Nat)
    (meeting : (diagonal : Int) → (x y x' y' : Nat) → Option (Nat × Nat)) (count i : Nat)
    (front : Front) : round as bs last d meeting (count + 1) i front =
      match last.meets? as bs d meeting i with
      | some (x, y) => .met x y
      | none => round as bs last d meeting count (i + 1) (front.push (last.next as bs d i)) :=
  rfl

theorem Front.getD_push_of_lt {front : Front} {j : Nat} (h : j < front.size) (x : Nat) :
    (front.push x).getD j 0 = front.getD j 0 := by
  rw [Array.getD_eq_getD_getElem?, Array.getD_eq_getD_getElem?,
    Array.getElem?_push, if_neg (Nat.ne_of_lt h)]

theorem Front.getD_push_size (front : Front) (x : Nat) : (front.push x).getD front.size 0 = x := by
  rw [Array.getD_eq_getD_getElem?, Array.getElem?_push, if_pos rfl]
  rfl

variable {as bs : Array Text} {last front : Front} {d count i : Nat}
  {meeting : (diagonal : Int) → (x y x' y' : Nat) → Option (Nat × Nat)}

/-- A round that meets the other search does so at one of its entries. -/
theorem exists_of_round_eq_met {x y : Nat}
    (h : round as bs last d meeting count i front = .met x y) :
    ∃ j, i ≤ j ∧ j < i + count ∧ last.meets? as bs d meeting j = some (x, y) := by
  induction count generalizing i front with
  | zero => cases h
  | succ count ih =>
    rw [round_succ] at h
    split at h
    · next hm =>
      obtain ⟨rfl, rfl⟩ := Round.met.inj h
      exact ⟨i, Nat.le_refl i, by omega, hm⟩
    · obtain ⟨j, h₁, h₂, hj⟩ := ih h
      exact ⟨j, by omega, by omega, hj⟩

/-- A round that does not meet the other search leaves all of its entries. -/
theorem of_round_eq_reached {reached : Front} (hi : front.size = i)
    (h : round as bs last d meeting count i front = .reached reached) :
    reached.size = i + count ∧ (∀ j < i, reached.getD j 0 = front.getD j 0) ∧
      ∀ j, i ≤ j → j < i + count → reached.getD j 0 = last.next as bs d j ∧
        last.meets? as bs d meeting j = none := by
  induction count generalizing i front with
  | zero =>
    obtain rfl := Round.reached.inj h
    exact ⟨hi, fun j _ => rfl, fun j h₁ h₂ => absurd h₂ (by omega)⟩
  | succ count ih =>
    rw [round_succ] at h
    split at h
    · cases h
    · next hm =>
      have hsize : (front.push (last.next as bs d i)).size = i + 1 := by
        rw [Array.size_push, hi]
      obtain ⟨hs, hkept, hnew⟩ := ih hsize h
      refine ⟨by omega, fun j hj => ?_, fun j h₁ h₂ => ?_⟩
      · rw [hkept j (by omega), Front.getD_push_of_lt (by omega)]
      · rcases Nat.lt_or_ge i j with hj | hj
        · exact hnew j (by omega) (by omega)
        · obtain rfl : j = i := by omega
          refine ⟨?_, hm⟩
          rw [hkept j (by omega), ← hi, Front.getD_push_size]

/-! ### Places beyond the ends -/

/-- **What a front keeps** after round `d`, in lists of lengths `n` and `m`: the places in the new
list are there, and a place beyond an end comes straight from a neighbour. -/
structure Reached (n m d : Nat) (front : Front) : Prop where
  size_eq : front.size = d + 1
  above : ∀ i ≤ d, d ≤ front.getD i 0 + 2 * i
  beyondOld : ∀ i ≤ d, n < front.getD i 0 →
    i < d ∧ front.getD i 0 ≤ front.getD (i + 1) 0 + 1
  beyondNew : ∀ i ≤ d, m + d < front.getD i 0 + 2 * i →
    0 < i ∧ front.getD i 0 + 1 ≤ front.getD (i - 1) 0

/-- Where the runs of round `d + 1` begin: at the further one of the two neighbours. -/
theorem Front.entry_succ (last : Front) (d i : Nat) :
    last.entry (d + 1) i =
      if i = d + 1 then last.getD (i - 1) 0
      else if i = 0 then last.getD 0 0 + 1
      else max (last.getD (i - 1) 0) (last.getD i 0 + 1) := by
  rw [Front.entry, if_neg (Nat.succ_ne_zero d)]
  split
  · rfl
  · split
    · rfl
    · split <;> omega

theorem Front.le_next (as bs : Array Text) (last : Front) (d i : Nat) :
    last.entry d i ≤ last.next as bs d i :=
  Nat.le_add_right _ _

/-- A path that ends beyond the end of the old list has not run. -/
theorem Front.next_eq_entry_of_beyondOld (h : as.size < last.next as bs d i) :
    last.next as bs d i = last.entry d i := by
  have := runLength_le_left as bs (last.entry d i) (last.entry d i + 2 * i - d)
  rw [Front.next] at h ⊢
  omega

/-- A path that ends beyond the end of the new list has not run. -/
theorem Front.next_eq_entry_of_beyondNew (ha : d ≤ last.entry d i + 2 * i)
    (h : bs.size + d < last.next as bs d i + 2 * i) :
    last.next as bs d i = last.entry d i := by
  have := runLength_le_right as bs (last.entry d i) (last.entry d i + 2 * i - d)
  rw [Front.next] at h ⊢
  omega

/-- The front of round 0. -/
theorem reached_zero (hsize : front.size = 1)
    (h : front.getD 0 0 = Front.next as bs last 0 0) : Reached as.size bs.size 0 front := by
  have h₁ := runLength_le_left as bs 0 0
  have h₂ := runLength_le_right as bs 0 0
  have he : front.getD 0 0 = runLength as bs 0 0 := by
    rw [h, Front.next, Front.entry, if_pos rfl, Nat.zero_add]
  refine ⟨hsize, fun i hi => Nat.zero_le _, fun i hi hn => ?_, fun i hi hm => ?_⟩
  · obtain rfl : i = 0 := by omega
    omega
  · obtain rfl : i = 0 := by omega
    omega

/-- A round goes on with an insertion from the diagonal above. -/
theorem Front.le_next_succ (as bs : Array Text) (last : Front) (d i : Nat) :
    last.getD i 0 ≤ last.next as bs (d + 1) (i + 1) := by
  have hnext := last.le_next as bs (d + 1) (i + 1)
  have hentry := last.entry_succ d (i + 1)
  rw [Nat.add_sub_cancel] at hentry
  split at hentry
  · omega
  · rw [if_neg (Nat.succ_ne_zero i)] at hentry
    omega

/-- A round goes on with a deletion from the diagonal below. -/
theorem Front.lt_next (as bs : Array Text) (last : Front) (h : i ≤ d) :
    last.getD i 0 < last.next as bs (d + 1) i := by
  have hnext := last.le_next as bs (d + 1) i
  have hentry := last.entry_succ d i
  rw [if_neg (by omega)] at hentry
  split at hentry
  · next h0 =>
    rw [h0] at hnext hentry ⊢
    omega
  · omega

variable {n m : Nat}

/-- The runs of the next round begin at places that the new list has. -/
theorem Reached.le_entry (h : Reached n m d last) (hi : i ≤ d + 1) :
    d + 1 ≤ last.entry (d + 1) i + 2 * i := by
  rw [Front.entry_succ last d i]
  rcases Nat.eq_zero_or_pos i with rfl | hpos
  · have := h.above 0 (Nat.zero_le d)
    rw [if_neg (by omega), if_pos rfl]
    omega
  · have := h.above (i - 1) (by omega)
    split
    · omega
    · rw [if_neg (by omega)]
      omega

/-- The old side: a place beyond its end comes from the diagonal below. -/
theorem Reached.next_beyondOld (h : Reached as.size m d last) (hi : i ≤ d + 1)
    (hb : as.size < last.next as bs (d + 1) i) :
    i < d + 1 ∧ last.next as bs (d + 1) i ≤ last.next as bs (d + 1) (i + 1) + 1 := by
  have he := Front.next_eq_entry_of_beyondOld hb
  rw [he] at hb ⊢
  have hlast := Front.entry_succ last d i
  have hlt : i < d + 1 := by
    rcases Nat.lt_or_ge i (d + 1) with hlt | hge
    · exact hlt
    · obtain rfl : i = d + 1 := by omega
      rw [if_pos rfl] at hlast
      have := (h.beyondOld d (Nat.le_refl d) (by simpa [hlast] using hb)).1
      omega
  refine ⟨hlt, ?_⟩
  have hright := last.le_next_succ as bs d i
  rw [if_neg (by omega)] at hlast
  split at hlast
  · next h0 =>
    subst h0
    omega
  · rcases Nat.le_total (last.getD (i - 1) 0) (last.getD i 0 + 1) with hle | hle
    · omega
    · have := (h.beyondOld (i - 1) (by omega) (by omega)).2
      rw [Nat.sub_add_cancel (by omega)] at this
      omega

/-- The new side: a place beyond its end comes from the diagonal above. -/
theorem Reached.next_beyondNew (h : Reached n bs.size d last) (hi : i ≤ d + 1)
    (hb : bs.size + (d + 1) < last.next as bs (d + 1) i + 2 * i) :
    0 < i ∧ last.next as bs (d + 1) i + 1 ≤ last.next as bs (d + 1) (i - 1) := by
  have he := Front.next_eq_entry_of_beyondNew (h.le_entry hi) hb
  rw [he] at hb ⊢
  have hlast := Front.entry_succ last d i
  have hpos : 0 < i := by
    rcases Nat.eq_zero_or_pos i with rfl | hpos
    · rw [if_neg (by omega), if_pos rfl] at hlast
      have := (h.beyondNew 0 (Nat.zero_le d) (by omega)).1
      omega
    · exact hpos
  refine ⟨hpos, ?_⟩
  have hleft := last.lt_next as bs (show i - 1 ≤ d by omega)
  split at hlast
  · omega
  · rw [if_neg (by omega)] at hlast
    rcases Nat.le_total (last.getD (i - 1) 0) (last.getD i 0 + 1) with hle | hle
    · have := (h.beyondNew i (by omega) (by omega)).2
      omega
    · omega

/-- **A round keeps it.** -/
theorem Reached.next (h : Reached as.size bs.size d last) (hsize : front.size = d + 2)
    (hf : ∀ i ≤ d + 1, front.getD i 0 = last.next as bs (d + 1) i) :
    Reached as.size bs.size (d + 1) front where
  size_eq := hsize
  above i hi := by
    rw [hf i hi]
    exact Nat.le_trans (h.le_entry hi) (Nat.add_le_add_right (last.le_next as bs (d + 1) i) _)
  beyondOld i hi hb := by
    rw [hf i hi] at hb ⊢
    obtain ⟨hlt, hle⟩ := h.next_beyondOld hi hb
    exact ⟨hlt, by rwa [hf (i + 1) hlt]⟩
  beyondNew i hi hb := by
    rw [hf i hi] at hb ⊢
    obtain ⟨hpos, hle⟩ := h.next_beyondNew hi hb
    exact ⟨hpos, by rwa [hf (i - 1) (by omega)]⟩

/-! ### Where the searches meet -/

/-- The places of round `d` that the backward search has reached the diagonals of do not lie at the
end of the old list: the searches have not met there. -/
def Inside (n m d : Nat) (front : Front) : Prop :=
  ∀ i ≤ d, (((n : Int) - m) - ((d : Int) - 2 * i)).natAbs < d → front.getD i 0 < n

/-- **The searches meet at a place that the old list has.** -/
theorem entry_le_of_inside (h : Reached n m d last) (hin : Inside n m d last) {i : Nat}
    (hi : i ≤ d + 1) (hodd : ((n : Int) - m) % 2 ≠ 0)
    (hk : (((n : Int) - m) - (((d + 1 : Nat) : Int) - 2 * i)).natAbs ≤ d) :
    last.entry (d + 1) i ≤ n := by
  refine Nat.le_of_not_lt fun hn => ?_
  have hlast := Front.entry_succ last d i
  -- The place on the diagonal below is at the end of the old list or beyond it.
  have hbelow : i ≤ d ∧ n ≤ last.getD i 0 := by
    split at hlast
    · have := (h.beyondOld (i - 1) (by omega) (by omega)).1
      omega
    · split at hlast
      · next h0 =>
        rw [h0]
        omega
      · rcases Nat.le_total (last.getD (i - 1) 0) (last.getD i 0 + 1) with hle | hle
        · omega
        · have := (h.beyondOld (i - 1) (by omega) (by omega)).2
          rw [Nat.sub_add_cancel (by omega)] at this
          omega
  obtain ⟨hid, hend⟩ := hbelow
  by_cases hd : (((n : Int) - m) - ((d : Int) - 2 * i)).natAbs < d
  · have := hin i hid hd
    omega
  · -- The diagonal is the last one, so that the place is beyond the end of the new list too.
    obtain ⟨hpos, hle⟩ := h.beyondNew i hid (by omega)
    have := hin (i - 1) (by omega) (by omega)
    omega

theorem Front.at?_of_natAbs_le {back : Front} (hs : back.size = d + 1) {diagonal : Int}
    (h : diagonal.natAbs ≤ d) : ∃ reach, back.at? d diagonal = some reach := by
  rw [Front.at?, if_pos h]
  exact ⟨_, Array.getElem?_eq_getElem (by omega)⟩

/-- What is known before round `d`. -/
def Before (n m : Nat) : (d : Nat) → (forward backward : Front) → Prop
  | 0, _, _ => True
  | d + 1, forward, backward =>
    Reached n m d forward ∧ backward.size = d + 1 ∧
      (((n : Int) - m) % 2 ≠ 0 → Inside n m d forward)

/-- What the forward search of round `d` reaches, given what was known before. -/
theorem Before.reached_of_next {old new : Array Text} {forward backward reached : Front}
    (hb : Before old.size new.size d forward backward) (hs : reached.size = d + 1)
    (hf : ∀ i ≤ d, reached.getD i 0 = forward.next old new d i) :
    Reached old.size new.size d reached := by
  cases d with
  | zero => exact reached_zero hs (hf 0 (Nat.le_refl 0))
  | succ d => exact hb.1.next hs hf

/-- **Every cut that the rounds find lies within the old list.** -/
theorem fst_le_of_rounds {old new oldBack newBack : Array Text} {count d : Nat}
    {forward backward : Front} (hb : Before old.size new.size d forward backward) {x y : Nat}
    (h : rounds old new oldBack newBack count d forward backward = some (x, y)) :
    x ≤ old.size := by
  induction count generalizing d forward backward with
  | zero => cases h
  | succ count ih =>
    rw [rounds] at h
    simp only at h
    split at h
    · next hr =>
      obtain ⟨rfl, rfl⟩ := Prod.mk.inj (Option.some.inj h)
      obtain ⟨j, -, hj, hm⟩ := exists_of_round_eq_met hr
      rw [Front.meets?] at hm
      split at hm
      · next hodd =>
        split at hm
        · next reach hreach =>
          split at hm
          · obtain ⟨d, rfl⟩ := Nat.exists_eq_succ_of_ne_zero hodd.2
            obtain ⟨rfl, -⟩ := Prod.mk.inj (Option.some.inj hm)
            obtain ⟨hlast, -, hin⟩ := hb
            refine entry_le_of_inside hlast (hin hodd.1) (by omega) hodd.1 ?_
            rw [Front.at?] at hreach
            split at hreach
            · next hk => exact hk
            · cases hreach
          · cases hm
        · cases hm
      · cases hm
    · next reached hr =>
      obtain ⟨hs, -, hf⟩ := of_round_eq_reached Array.size_empty hr
      have hreached : Reached old.size new.size d reached :=
        hb.reached_of_next (by omega) fun i hi => (hf i (Nat.zero_le i) (by omega)).1
      split at h
      · next hr' =>
        obtain ⟨rfl, rfl⟩ := Prod.mk.inj (Option.some.inj h)
        obtain ⟨j, -, -, hm⟩ := exists_of_round_eq_met hr'
        rw [Front.meets?] at hm
        split at hm
        · cases hm
        · split at hm
          · split at hm
            · obtain ⟨rfl, -⟩ := Prod.mk.inj (Option.some.inj hm)
              exact Nat.sub_le _ _
            · cases hm
          · cases hm
      · next back hr' =>
        obtain ⟨hs', -, -⟩ := of_round_eq_reached Array.size_empty hr'
        refine ih (d := d + 1) ⟨hreached, by omega, fun hodd i hi hk => ?_⟩ h
        obtain ⟨hg, hm⟩ := hf i (Nat.zero_le i) (by omega)
        obtain ⟨d, rfl⟩ := Nat.exists_eq_succ_of_ne_zero (show d ≠ 0 by omega)
        obtain ⟨reach, hreach⟩ := Front.at?_of_natAbs_le hb.2.1
          (show (((old.size : Int) - new.size) - (((d + 1 : Nat) : Int) - 2 * i)).natAbs ≤ d by
            omega)
        rw [Front.meets?, if_pos ⟨hodd, Nat.succ_ne_zero d⟩, Nat.succ_sub_one, hreach] at hm
        simp only at hm
        split at hm
        · cases hm
        · omega

/-- **A script is cut at a place that the old list has.** -/
theorem fst_le_of_middle {old new : List Text} {x y : Nat} (h : middle old new = some (x, y)) :
    x ≤ old.length :=
  fst_le_of_rounds (d := 0) (by trivial) h

end Literate.Diff
