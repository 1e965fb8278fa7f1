import Literate.Text.Octets

/-!
# Octets read back

A text is read back from its octets: `decode?_encode`.  A character is read from the front of
octets, whatever follows its own ones (`nextChar_ofChar_append`); the bounds of the second octet,
which keep out long forms and surrogates, are those of characters (`nextChar_lead`).
-/

namespace Literate.Octets

variable {n low high bits count : Nat} {b : Char}

/-- An octet is the character of its number. -/
theorem toNat_ofNat (h : n < 0x100) : (Char.ofNat n).toNat = n := by
  have hvalid : n.isValidChar := Or.inl (by omega)
  rw [Char.ofNat, dif_pos hvalid]
  rfl

/-! ### Octets of a character -/

theorem toNat_tail (n shift : Nat) : (tail n shift).toNat = 0x80 + n / Nat.pow 2 shift % 64 :=
  toNat_ofNat (by omega)

theorem within_iff : within low high b = true ↔ low ≤ b.toNat ∧ b.toNat ≤ high := by
  rw [within, Bool.and_eq_true, decide_eq_true_iff, decide_eq_true_iff]

theorem finishChar_tail (count bits n shift : Nat) (rest : Octets) :
    finishChar (count + 1) bits (tail n shift :: rest) =
      finishChar count (64 * bits + n / Nat.pow 2 shift % 64) rest := by
  have ht := toNat_tail n shift
  rw [finishChar, if_pos (within_iff.mpr (by omega)), ht, Nat.add_sub_cancel_left]

/-- The first octet of two. -/
theorem lead?_two : ∀ k : Fin 32, 2 ≤ k.val →
    lead? (Char.ofNat (0xc0 + k)) = some (k.val, 0x80, 0xbf, 0) := by
  decide

/-- The first octet of three. -/
theorem lead?_three : ∀ k < 16, lead? (Char.ofNat (0xe0 + k)) =
    some (k, if k = 0 then 0xa0 else 0x80, if k = 13 then 0x9f else 0xbf, 1) := by
  decide

/-- The first octet of four. -/
theorem lead?_four : ∀ k < 5, lead? (Char.ofNat (0xf0 + k)) =
    some (k, if k = 0 then 0x90 else 0x80, if k = 4 then 0x8f else 0xbf, 2) := by
  decide

/-- A character of several octets, once its second octet is found to be within bounds. -/
theorem nextChar_lead (hb : 0x80 ≤ b.toNat) (hlead : lead? b = some (bits, low, high, count))
    (n shift : Nat) (hlow : low ≤ 0x80 + n / Nat.pow 2 shift % 64)
    (hhigh : 0x80 + n / Nat.pow 2 shift % 64 ≤ high) (rest : Octets) :
    nextChar b (tail n shift :: rest) =
      finishChar count (64 * bits + n / Nat.pow 2 shift % 64) rest := by
  have ht := toNat_tail n shift
  unfold nextChar
  rw [if_neg (by omega), hlead]
  simp only
  rw [if_pos (within_iff.mpr (by omega)), ht, Nat.add_sub_cancel_left]

/-- **A character is read from the front of octets.** -/
theorem nextChar_ofChar_append (c : Char) (rest : Octets) :
    ∃ b bs, ofChar c ++ rest = b :: bs ∧ nextChar b bs = (some c, rest) := by
  have hvalid : c.toNat < 0xd800 ∨ 0xdfff < c.toNat ∧ c.toNat < 0x110000 := c.valid
  have hchar : ∀ m, m = c.toNat → (some (Char.ofNat m), rest) = (some c, rest) := by
    rintro _ rfl
    rw [Char.ofNat_toNat]
  generalize hn : c.toNat = n at hvalid hchar
  unfold ofChar
  simp only [hn]
  split
  · next h => exact ⟨c, rest, rfl, if_pos (by omega)⟩
  · split
    · next h =>
      refine ⟨_, _, rfl, ?_⟩
      have hlead := lead?_two ⟨n / 64, by omega⟩ (show 2 ≤ n / 64 by omega)
      refine (nextChar_lead (by rw [toNat_ofNat (by omega)]; omega) hlead n 0 ?_ ?_ _).trans ?_
      · omega
      · omega
      · exact hchar _ (by simp; omega)
    · split
      · next h =>
        refine ⟨_, _, rfl, ?_⟩
        have hlead := lead?_three (n / 4096) (by omega)
        refine (nextChar_lead (by rw [toNat_ofNat (by omega)]; omega) hlead n 6 ?_ ?_ _).trans ?_
        · show _ ≤ 0x80 + n / 64 % 64
          split <;> omega
        · -- Above that stand the surrogates, which are no characters.
          show 0x80 + n / 64 % 64 ≤ _
          split <;> omega
        · refine (finishChar_tail _ _ _ _ _).trans (hchar _ ?_)
          simp
          omega
      · next h =>
        refine ⟨_, _, rfl, ?_⟩
        have hlead := lead?_four (n / 262144) (by omega)
        refine (nextChar_lead (by rw [toNat_ofNat (by omega)]; omega) hlead n 12 ?_ ?_ _).trans ?_
        · show _ ≤ 0x80 + n / 4096 % 64
          split <;> omega
        · show 0x80 + n / 4096 % 64 ≤ _
          split <;> omega
        · refine (finishChar_tail _ _ _ _ _).trans ((finishChar_tail _ _ _ _ _).trans (hchar _ ?_))
          simp
          omega

/-- Every octet of a character that is not of ASCII is none of ASCII. -/
theorem le_toNat_of_mem_ofChar {c : Char} (hc : 0x80 ≤ c.toNat) (hb : b ∈ ofChar c) :
    0x80 ≤ b.toNat := by
  have hvalid : c.toNat < 0xd800 ∨ 0xdfff < c.toNat ∧ c.toNat < 0x110000 := c.valid
  have htail (n shift : Nat) : 0x80 ≤ (tail n shift).toNat := by
    rw [toNat_tail]
    exact Nat.le_add_right _ _
  have hlead (n : Nat) (h : 0x80 ≤ n) (h' : n < 0x100) : 0x80 ≤ (Char.ofNat n).toNat := by
    rwa [toNat_ofNat h']
  unfold ofChar at hb
  dsimp only at hb
  rw [if_neg (by omega)] at hb
  split at hb
  · simp only [List.mem_cons, List.not_mem_nil, or_false] at hb
    rcases hb with rfl | rfl
    · exact hlead _ (by omega) (by omega)
    · exact htail _ _
  · split at hb
    · simp only [List.mem_cons, List.not_mem_nil, or_false] at hb
      rcases hb with rfl | rfl | rfl
      · exact hlead _ (by omega) (by omega)
      · exact htail _ _
      · exact htail _ _
    · simp only [List.mem_cons, List.not_mem_nil, or_false] at hb
      rcases hb with rfl | rfl | rfl | rfl
      · exact hlead _ (by omega) (by omega)
      · exact htail _ _
      · exact htail _ _
      · exact htail _ _

/-! ### Texts -/

theorem encode_append (t t' : Text) : encode (t ++ t') = encode t ++ encode t' :=
  List.flatMap_append

theorem charsFrom_encode (acc : List (Option Char)) (t : Text) :
    charsFrom acc (encode t) = acc.reverse ++ t.map some := by
  induction t generalizing acc with
  | nil => rw [encode, List.flatMap_nil, charsFrom, List.map_nil, List.append_nil]
  | cons c t ih =>
    obtain ⟨b, bs, hoctets, hnext⟩ := nextChar_ofChar_append c (encode t)
    have hcons : encode (c :: t) = b :: bs := hoctets
    rw [hcons, charsFrom, hnext, ih]
    simp

theorem decodeLossy_encode (t : Text) : decodeLossy (encode t) = t := by
  rw [decodeLossy, charsFrom_encode, List.reverse_nil, List.nil_append, List.map_map]
  exact List.map_id t

/-- **A text is read back from its octets.** -/
theorem decode?_encode (t : Text) : decode? (encode t) = some t := by
  rw [decode?, charsFrom_encode]
  simp

end Literate.Octets
