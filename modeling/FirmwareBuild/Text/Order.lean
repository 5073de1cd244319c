import FirmwareBuild.Text.CodePoint

/-! The order of texts: by code points, from the first one on. `pairwise_sorted`,
`nodup_sorted` and `mem_sorted` say what sorting does. -/
namespace FirmwareBuild.Text

/-- Whether the first sequence does not come behind the second. -/
def notBehind : List Nat → List Nat → Bool
  | [], _ => true
  | _ :: _, [] => false
  | a :: as, b :: bs => decide (a < b) || (a == b && notBehind as bs)

def ascending (a b : Text) : Bool :=
  notBehind (a.map CodePoint.toNat) (b.map CodePoint.toNat)

/-- The texts in ascending order. -/
def sorted (ss : List Text) : List Text := ss.mergeSort ascending

theorem notBehind_trans {as bs cs : List Nat} (hab : notBehind as bs = true)
    (hbc : notBehind bs cs = true) : notBehind as cs = true := by
  induction as generalizing bs cs with
  | nil => rfl
  | cons a as ih =>
    match bs, cs with
    | [], _ => simp [notBehind] at hab
    | _ :: _, [] => simp [notBehind] at hbc
    | b :: bs, c :: cs =>
      simp only [notBehind, Bool.or_eq_true, decide_eq_true_eq, Bool.and_eq_true,
        beq_iff_eq] at hab hbc ⊢
      rcases hab with hab | ⟨rfl, hab⟩
      · exact .inl (by omega)
      · rcases hbc with hbc | ⟨rfl, hbc⟩
        · exact .inl hbc
        · exact .inr ⟨rfl, ih hab hbc⟩

theorem notBehind_total (as bs : List Nat) : (notBehind as bs || notBehind bs as) = true := by
  induction as generalizing bs with
  | nil => rfl
  | cons a as ih =>
    match bs with
    | [] => rfl
    | b :: bs =>
      have := ih bs
      simp only [notBehind, Bool.or_eq_true, decide_eq_true_eq, Bool.and_eq_true,
        beq_iff_eq] at this ⊢
      rcases Nat.lt_trichotomy a b with h | rfl | h
      · exact .inl (.inl h)
      · rcases this with this | this
        · exact .inl (.inr ⟨rfl, this⟩)
        · exact .inr (.inr ⟨rfl, this⟩)
      · exact .inr (.inl h)

theorem ascending_trans (a b c : Text) (hab : ascending a b = true)
    (hbc : ascending b c = true) : ascending a c = true := notBehind_trans hab hbc

theorem ascending_total (a b : Text) : (ascending a b || ascending b a) = true :=
  notBehind_total _ _

theorem pairwise_sorted (ss : List Text) :
    (sorted ss).Pairwise fun a b => ascending a b = true :=
  List.pairwise_mergeSort ascending_trans ascending_total ss

theorem nodup_sorted {ss : List Text} (h : ss.Nodup) : (sorted ss).Nodup :=
  (List.mergeSort_perm ss ascending).nodup_iff.2 h

theorem mem_sorted {s : Text} {ss : List Text} : s ∈ sorted ss ↔ s ∈ ss := List.mem_mergeSort

end FirmwareBuild.Text
