import FirmwareBuild.Text.Lowercase

/-! Which code points lower-casing can bring about.

Capital letters become letters that stand neither before the small ones of ASCII nor among the
halves of pairs. So a code point of these that a text has in lower case, it has had before:
`mem_of_mem_lower`. -/
namespace FirmwareBuild.Text

/-- Whether the letters that a run becomes lie outside an interval. -/
def Misses (lo hi : Nat) (r : Nat × Nat × Nat × Int) : Prop :=
  hi ≤ r.1 + r.2.2.2 ∨ 0 ≤ r.1 + r.2.2.2 ∧ r.2.1 + r.2.2.2 < lo

instance (lo hi : Nat) (r : Nat × Nat × Nat × Int) : Decidable (Misses lo hi r) :=
  inferInstanceAs (Decidable (_ ∨ _))

/-- What lies in an interval that all runs miss has been there before. -/
theorem lowerIn_eq {runs : List (Nat × Nat × Nat × Int)} {lo hi n : Nat}
    (hr : ∀ r ∈ runs, Misses lo hi r) (hlo : lo ≤ lowerIn runs n) (hhi : lowerIn runs n < hi) :
    lowerIn runs n = n := by
  induction runs with
  | nil => rfl
  | cons r rest ih =>
    obtain ⟨first, last, step, shift⟩ := r
    have hmiss : hi ≤ first + shift ∨ 0 ≤ first + shift ∧ last + shift < lo :=
      hr _ (List.mem_cons_self ..)
    rw [lowerIn] at hlo hhi ⊢
    split at hlo
    · next hfirst => rw [if_pos hfirst]
    · next hfirst =>
      rw [if_neg hfirst] at hhi ⊢
      split at hlo
      · next hin =>
        rw [if_pos hin] at hhi
        simp only [Bool.and_eq_true, decide_eq_true_eq] at hin
        omega
      · next hin =>
        rw [if_neg hin] at hhi ⊢
        exact ih (fun r hm => hr r (List.mem_cons_of_mem _ hm)) hlo hhi

theorem lowerIn_lt {runs : List (Nat × Nat × Nat × Int)} {bound n : Nat}
    (hr : ∀ r ∈ runs, r.2.1 + r.2.2.2 < bound) (hn : n < bound) : lowerIn runs n < bound := by
  induction runs with
  | nil => exact hn
  | cons r rest ih =>
    obtain ⟨first, last, step, shift⟩ := r
    have hlast : last + shift < bound := hr _ (List.mem_cons_self ..)
    rw [lowerIn]
    split
    · exact hn
    · split
      · next hin =>
        simp only [Bool.and_eq_true, decide_eq_true_eq] at hin
        omega
      · exact ih fun r hm => hr r (List.mem_cons_of_mem _ hm)

theorem mem_lowerOne {c d : CodePoint}
    (hc : c.toNat < 0x61 ∨ 0xd800 ≤ c.toNat ∧ c.toNat < 0xe000) (h : c ∈ lowerOne d) : c = d := by
  rw [lowerOne] at h
  split at h
  · rcases List.mem_cons.1 h with rfl | h
    · exact absurd hc (by decide)
    · obtain rfl := List.mem_singleton.1 h
      exact absurd hc (by decide)
  · obtain rfl := List.mem_singleton.1 h
    have hlt : lowerIn capitalRuns d.toNat < 0x110000 :=
      lowerIn_lt (by decide +kernel) d.toNat_lt
    rw [CodePoint.toNat_ofNat hlt] at hc
    have hsame : lowerIn capitalRuns d.toNat = d.toNat := by
      rcases hc with hc | hc
      · exact lowerIn_eq (by decide +kernel) (Nat.zero_le _) hc
      · exact lowerIn_eq (by decide +kernel) hc.1 hc.2
    rw [hsame, CodePoint.ofNat_toNat]

/-- A code point before the small letters of ASCII, or a half of a pair, stays where it is in
lower case, and no other code point becomes one. -/
theorem mem_of_mem_lower {c : CodePoint} {s : Text}
    (hc : c.toNat < 0x61 ∨ 0xd800 ≤ c.toNat ∧ c.toNat < 0xe000) (h : c ∈ lower s) : c ∈ s := by
  suffices ∀ cased, c ∈ lowerFrom cased s → c ∈ s from this false h
  clear h
  induction s with
  | nil => exact fun _ h => h
  | cons d rest ih =>
    intro cased h
    rw [lowerFrom] at h
    rcases List.mem_append.1 h with h | h
    · split at h
      · split at h <;> obtain rfl := List.mem_singleton.1 h <;> exact absurd hc (by decide)
      · rw [mem_lowerOne hc h]
        exact List.mem_cons_self ..
    · exact List.mem_cons_of_mem _ (ih _ h)

end FirmwareBuild.Text
