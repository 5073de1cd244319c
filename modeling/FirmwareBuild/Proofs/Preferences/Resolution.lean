import FirmwareBuild.Proofs.Entries
import FirmwareBuild.Proofs.Preferences.Template
import Mathlib.Algebra.Group.Nat.Defs

/-! Rounds of expansion against resolution.

`Resolves` says what a template stands for: each placeholder is replaced by what the value
of its name stands for, however deep that goes. Rounds do not go deep; each of them puts the
values of the round before into one another. A round therefore doubles the depth to which
references have been followed, plus one (`round_unfolded`), and ten rounds follow any path of
1023 references to its end (`expand_eq_unfolded`). Where no path is longer, expansion is
resolution, and there is nothing left to expand (`expand_iff_resolvesTo`). -/
namespace FirmwareBuild

namespace Preferences

variable (given : Text → Option (List Piece)) (values : List (Text × Text))

/-! ### Resolution -/

/-- What pieces stand for. A placeholder whose name is given stands for what is given,
which is not looked at again; else for what the value of its name stands for; and without
a value for its own text. -/
inductive Resolves : List Piece → List Piece → Prop
  | nil : Resolves [] []
  | char {c ps qs} : Resolves ps qs → Resolves (.char c :: ps) (.char c :: qs)
  | given {name us ps qs} : given name = some us → Resolves ps qs →
      Resolves (.placeholder name :: ps) (us ++ qs)
  | value {name v us ps qs} : given name = none → Entries.get? name values = some v →
      Resolves (pieces v) us → Resolves ps qs → Resolves (.placeholder name :: ps) (us ++ qs)
  | unknown {name ps qs} : given name = none → Entries.get? name values = none →
      Resolves ps qs →
      Resolves (.placeholder name :: ps) ((Piece.placeholder name).text.map .char ++ qs)

/-- Whether a text stands for another one. -/
def ResolvesTo (s t : Text) : Prop := ∃ qs, Resolves given values (pieces s) qs ∧ textOf qs = t

/-- No name is given. -/
def nothing (_ : Text) : Option (List Piece) := none

variable {given values}

/-- Pieces stand for one thing only. -/
theorem Resolves.unique {ps qs qs' : List Piece} (h : Resolves given values ps qs)
    (h' : Resolves given values ps qs') : qs = qs' := by
  induction h generalizing qs' with
  | nil => cases h'; rfl
  | char _ ih =>
    cases h' with
    | char h' => rw [ih h']
  | given hg _ ih =>
    cases h' with
    | given hg' h' =>
      rw [hg, Option.some.injEq] at hg'
      rw [hg', ih h']
    | value hg' => rw [hg] at hg'; exact nomatch hg'
    | unknown hg' => rw [hg] at hg'; exact nomatch hg'
  | value hg hv _ _ ihv ih =>
    cases h' with
    | given hg' => rw [hg] at hg'; exact nomatch hg'
    | value _ hv' hr' h' =>
      rw [hv, Option.some.injEq] at hv'
      subst hv'
      rw [ihv hr', ih h']
    | unknown _ hv' => rw [hv] at hv'; exact nomatch hv'
  | unknown hg hv _ ih =>
    cases h' with
    | given hg' => rw [hg] at hg'; exact nomatch hg'
    | value _ hv' => rw [hv] at hv'; exact nomatch hv'
    | unknown _ _ h' => rw [ih h']

theorem ResolvesTo.unique {s t t' : Text} (h : ResolvesTo given values s t)
    (h' : ResolvesTo given values s t') : t = t' := by
  obtain ⟨qs, hr, rfl⟩ := h
  obtain ⟨qs', hr', rfl⟩ := h'
  rw [hr.unique hr']

/-! ### References -/

variable (values)

/-- Whether the value of a key names another key. -/
def Refers (k j : Text) : Prop :=
  ∃ v, (k, v) ∈ values ∧ .placeholder j ∈ pieces v ∧ j ∈ Entries.keys values

/-- Whether that many references, one after the other, lead from a key to another one. -/
inductive Leads : Nat → Text → Text → Prop
  | refl (k : Text) : Leads 0 k k
  | step {n k i j} : Refers values k i → Leads n i j → Leads (n + 1) k j

/-- A bounded rank that falls along references bounds the paths. -/
theorem Leads.le_of_rank {values : List (Text × Text)} {bound : Nat} (rank : Text → Fin (bound + 1))
    (h : ∀ e ∈ values, ∀ p ∈ pieces e.2, ∀ j ∈ Entries.keys values,
      p = .placeholder j → rank j < rank e.1)
    {n : Nat} {k j : Text} (hl : Leads values n k j) : n ≤ bound := by
  suffices n ≤ rank k from Nat.le_trans this (Fin.is_le _)
  induction hl with
  | refl => exact Nat.zero_le _
  | @step n k i j hr _ ih =>
    obtain ⟨v, hv, hp, hi⟩ := hr
    have hlt : rank i < rank k := h (k, v) hv _ hp i hi rfl
    omega

/-! ### Following references to a depth -/

/-- A piece with references followed, so many of them one after the other. -/
def Piece.unfold : Nat → Piece → List Piece
  | 0, p => [p]
  | _ + 1, .char c => [.char c]
  | n + 1, .placeholder name =>
    match Entries.get? name values with
    | some v => (pieces v).flatMap (Piece.unfold n)
    | none => [.placeholder name]

def unfold (n : Nat) (ps : List Piece) : List Piece := ps.flatMap (Piece.unfold values n)

/-- All values with references followed to a depth. -/
def unfolded (n : Nat) : List (Text × Text) :=
  values.map fun e => (e.1, textOf (unfold values n (pieces e.2)))

@[simp] theorem unfold_nil (n : Nat) : unfold values n [] = [] := rfl

theorem unfold_cons (n : Nat) (p : Piece) (ps : List Piece) :
    unfold values n (p :: ps) = p.unfold values n ++ unfold values n ps := rfl

theorem unfold_zero (ps : List Piece) : unfold values 0 ps = ps := by
  induction ps with
  | nil => rfl
  | cons p rest ih => rw [unfold_cons, ih]; rfl

@[simp] theorem Piece.unfold_char (n : Nat) (c : CodePoint) :
    (Piece.char c).unfold values n = [.char c] := by
  cases n <;> rfl

theorem Piece.unfold_unknown {name : Text} (h : Entries.get? name values = none) (n : Nat) :
    (Piece.placeholder name).unfold values n = [.placeholder name] := by
  cases n with
  | zero => rfl
  | succ n => rw [Piece.unfold, h]

theorem Piece.unfold_value {name v : Text} (h : Entries.get? name values = some v) (n : Nat) :
    (Piece.placeholder name).unfold values (n + 1) = Preferences.unfold values n (pieces v) := by
  rw [Piece.unfold, h]
  rfl

theorem unfold_append (n : Nat) (ps qs : List Piece) :
    unfold values n (ps ++ qs) = unfold values n ps ++ unfold values n qs :=
  List.flatMap_append

/-- Depths add up. -/
theorem unfold_unfold (m n : Nat) (ps : List Piece) :
    unfold values n (unfold values m ps) = unfold values (m + n) ps := by
  induction m generalizing ps with
  | zero => rw [unfold_zero, Nat.zero_add]
  | succ m ih =>
    induction ps with
    | nil => rfl
    | cons p rest ihp =>
      rw [unfold_cons, unfold_append, ihp, unfold_cons]
      congr 1
      cases p with
      | char c => simp [unfold_cons]
      | placeholder name =>
        rw [Nat.succ_add]
        cases h : Entries.get? name values with
        | none => simp [Piece.unfold_unknown values h, unfold_cons]
        | some v => rw [Piece.unfold_value values h, Piece.unfold_value values h, ih]

variable {values}

theorem isPlain_unfold (hv : ∀ e ∈ values, IsTemplate e.2) (n : Nat) {ps : List Piece}
    (h : ∀ p ∈ ps, p.IsPlain) : ∀ p ∈ unfold values n ps, p.IsPlain := by
  induction n generalizing ps with
  | zero => rwa [unfold_zero]
  | succ n ih =>
    intro q hq
    obtain ⟨p, hp, hq⟩ := List.mem_flatMap.1 hq
    cases p with
    | char c =>
      rw [Piece.unfold_char, List.mem_singleton] at hq
      exact hq ▸ h _ hp
    | placeholder name =>
      cases hg : Entries.get? name values with
      | none =>
        rw [Piece.unfold_unknown values hg, List.mem_singleton] at hq
        exact hq ▸ h _ hp
      | some v =>
        rw [Piece.unfold_value values hg] at hq
        exact ih (hv _ (Entries.mem_of_get? hg)).isPlain q hq

/-! ### Rounds -/

theorem get?_unfolded (n : Nat) (key : Text) :
    Entries.get? key (unfolded values n) =
      (Entries.get? key values).map fun v => textOf (unfold values n (pieces v)) :=
  Entries.get?_map (fun v => textOf (unfold values n (pieces v))) key values

/-- A placeholder is replaced by its value, which has its references followed already. -/
theorem resolve_unfolded (n : Nat) (p : Piece) :
    p.resolve (unfolded values n) = textOf (p.unfold values (n + 1)) := by
  cases p with
  | char c => rfl
  | placeholder name =>
    rw [Piece.resolve, get?_unfolded]
    cases h : Entries.get? name values with
    | none => simp [Piece.unfold_unknown values h, textOf]
    | some v => rw [Piece.unfold_value values h]; rfl

theorem substitute_unfolded (n : Nat) {ps : List Piece} (h : ∀ p ∈ ps, p.IsPlain) :
    substitute (unfolded values n) (textOf ps) = textOf (unfold values (n + 1) ps) := by
  rw [substitute, pieces_textOf h]
  clear h
  induction ps with
  | nil => rfl
  | cons p rest ih => rw [List.flatMap_cons, ih, resolve_unfolded, unfold_cons, textOf_append]

/-- A round puts values of one depth into each other. -/
theorem round_unfolded (hv : ∀ e ∈ values, IsTemplate e.2) (n : Nat) :
    round (unfolded values n) = unfolded values (n + (n + 1)) := by
  rw [round, unfolded, unfolded, List.map_map]
  apply List.map_congr_left
  intro e he
  have hplain := isPlain_unfold hv n (hv e he).isPlain
  have hround := isPlain_unfold hv (n + 1) hplain
  show (e.1, resolve (unfolded values n) (textOf (unfold values n (pieces e.2)))) = _
  rw [resolve, substitute_unfolded n hplain, collapse_textOf hround, unfold_unfold]

theorem settle_of_round_eq {vs : List (Text × Text)} (h : round vs = vs) (n : Nat) :
    settle n vs = vs := by
  cases n with
  | zero => rfl
  | succ n => rw [settle, h, if_pos rfl]

/-- Stopping early makes no difference. -/
theorem settle_succ (n : Nat) (vs : List (Text × Text)) :
    settle (n + 1) vs = settle n (round vs) := by
  rw [settle]
  split
  · next h => rw [h, settle_of_round_eq h]
  · rfl

theorem settle_unfolded (hv : ∀ e ∈ values, IsTemplate e.2) (r n : Nat) :
    settle r (unfolded values n) = unfolded values (2 ^ r * (n + 1) - 1) := by
  induction r generalizing n with
  | zero => rw [settle, Nat.pow_zero, Nat.one_mul, Nat.add_sub_cancel]
  | succ r ih =>
    have hn : n + (n + 1) + 1 = 2 * (n + 1) := by omega
    rw [settle_succ, round_unfolded hv, ih, Nat.pow_succ, Nat.mul_assoc, hn]

theorem unfolded_zero (values : List (Text × Text)) : unfolded values 0 = values := by
  have : ∀ e : Text × Text, (e.1, textOf (unfold values 0 (pieces e.2))) = e := fun e => by
    rw [unfold_zero, textOf, text_pieces]
  rw [unfolded, List.map_congr_left (fun e _ => this e), List.map_id']

/-- All rounds together. -/
theorem expand_eq_unfolded (hv : ∀ e ∈ values, IsTemplate e.2) :
    expand values = unfolded values 1023 := by
  have h := settle_unfolded hv maxRounds 0
  rwa [unfolded_zero] at h

/-! ### Nothing left -/

/-- What is left of a placeholder at a depth has been reached over that many references. -/
theorem leads_of_mem_unfold {n : Nat} {p : Piece} {j : Text}
    (h : .placeholder j ∈ p.unfold values n) (hj : j ∈ Entries.keys values) :
    ∃ i, p = .placeholder i ∧ i ∈ Entries.keys values ∧ Leads values n i j := by
  induction n generalizing p with
  | zero => exact ⟨j, (List.mem_singleton.1 h).symm, hj, .refl j⟩
  | succ n ih =>
    cases p with
    | char c => simp at h
    | placeholder name =>
      refine ⟨name, rfl, ?_⟩
      cases hg : Entries.get? name values with
      | none =>
        rw [Piece.unfold_unknown values hg, List.mem_singleton, Piece.placeholder.injEq] at h
        rw [h, Entries.mem_keys_iff, hg] at hj
        exact absurd hj nofun
      | some v =>
        rw [Piece.unfold_value values hg] at h
        obtain ⟨q, hq, hl⟩ := List.mem_flatMap.1 h
        obtain ⟨i, rfl, hi, hl⟩ := ih hl
        exact ⟨(Entries.mem_keys_iff name values).2 ⟨v, hg⟩,
          .step ⟨v, Entries.mem_of_get? hg, hq, hi⟩ hl⟩

/-- Beyond the longest path no key is left in a value. -/
theorem not_mem_keys_of_mem_unfold {n : Nat} (hp : ∀ m k j, Leads values m k j → m ≤ n)
    {k v j : Text} (hv : (k, v) ∈ values) (h : .placeholder j ∈ unfold values n (pieces v)) :
    j ∉ Entries.keys values := by
  intro hj
  obtain ⟨p, hm, hq⟩ := List.mem_flatMap.1 h
  obtain ⟨i, rfl, hi, hl⟩ := leads_of_mem_unfold hq hj
  exact absurd (hp (n + 1) k j (.step ⟨v, hv, hm, hi⟩ hl)) (by omega)

theorem resolves_unfold {n : Nat} {ps : List Piece}
    (h : ∀ j, .placeholder j ∈ unfold values n ps → j ∉ Entries.keys values) :
    Resolves nothing values ps ((textOf (unfold values n ps)).map .char) := by
  induction n generalizing ps with
  | zero =>
    rw [unfold_zero] at h ⊢
    induction ps with
    | nil => exact .nil
    | cons p rest ih =>
      have ih := ih fun j hj => h j (List.mem_cons_of_mem _ hj)
      rw [textOf_cons, List.map_append]
      cases p with
      | char c => exact .char ih
      | placeholder name =>
        exact .unknown rfl (Entries.get?_eq_none (h name (List.mem_cons_self ..))) ih
  | succ n ihn =>
    induction ps with
    | nil => exact .nil
    | cons p rest ih =>
      rw [unfold_cons] at h ⊢
      have ih := ih fun j hj => h j (List.mem_append_right _ hj)
      rw [textOf_append, List.map_append]
      cases p with
      | char c => rw [Piece.unfold_char]; exact .char ih
      | placeholder name =>
        cases hg : Entries.get? name values with
        | none => rw [Piece.unfold_unknown values hg]; simpa [textOf] using .unknown rfl hg ih
        | some v =>
          rw [Piece.unfold_value values hg] at h ⊢
          exact .value rfl hg (ihn fun j hj => h j (List.mem_append_left _ hj)) ih

theorem resolve_of_no_key {ps : List Piece} (h : ∀ p ∈ ps, p.IsPlain) {vs : List (Text × Text)}
    (hk : ∀ j, .placeholder j ∈ ps → j ∉ Entries.keys vs) : resolve vs (textOf ps) = textOf ps := by
  have : substitute vs (textOf ps) = textOf ps := by
    rw [substitute, pieces_textOf h]
    clear h
    induction ps with
    | nil => rfl
    | cons p rest ih =>
      rw [List.flatMap_cons, ih fun j hj => hk j (List.mem_cons_of_mem _ hj), textOf_cons]
      cases p with
      | char c => rfl
      | placeholder name =>
        rw [Piece.resolve, Entries.get?_eq_none (hk name (List.mem_cons_self ..))]
  rw [resolve, this, collapse_textOf h]

/-- Followed to the end of the longest path, a value is what it stands for. -/
theorem resolvesTo_unfold {n : Nat} (hp : ∀ m k j, Leads values m k j → m ≤ n) {k v : Text}
    (h : (k, v) ∈ values) : ResolvesTo nothing values v (textOf (unfold values n (pieces v))) :=
  ⟨_, resolves_unfold fun _ hj => not_mem_keys_of_mem_unfold hp h hj, textOf_map_char _⟩

section Bounded
variable (hv : ∀ e ∈ values, IsTemplate e.2) (hp : ∀ n k j, Leads values n k j → n ≤ 1023)
include hv hp

/-- Expanded values do not change in a further round. -/
theorem round_expand : round (expand values) = expand values := by
  have hkeys := keys_expand values
  rw [expand_eq_unfolded hv] at hkeys ⊢
  have hfix : ∀ e ∈ unfolded values 1023, (e.1, resolve (unfolded values 1023) e.2) = e := by
    intro e' he'
    obtain ⟨e, he, rfl⟩ := List.mem_map.1 he'
    rw [resolve_of_no_key (isPlain_unfold hv 1023 (hv e he).isPlain)]
    intro j hj
    rw [hkeys]
    exact not_mem_keys_of_mem_unfold hp he hj
  rw [round, List.map_congr_left hfix, List.map_id']

/-- **Expansion is resolution**, for templates in which no path of references is longer than
1023: at each key stands what its value stands for, and nothing but that; the keys stay in
their order, and expanding once more changes nothing. There is no circle of references then,
since one would give paths of every length. -/
theorem expand_iff_resolvesTo :
    (∀ k t, Entries.get? k (expand values) = some t ↔
      ∃ v, Entries.get? k values = some v ∧ ResolvesTo nothing values v t) ∧
    Entries.keys (expand values) = Entries.keys values ∧
    expand (expand values) = expand values := by
  refine ⟨fun k t => ?_, keys_expand values, settle_of_round_eq (round_expand hv hp) maxRounds⟩
  rw [expand_eq_unfolded hv, get?_unfolded, Option.map_eq_some_iff]
  constructor
  · rintro ⟨v, h, rfl⟩
    exact ⟨v, h, resolvesTo_unfold hp (Entries.mem_of_get? h)⟩
  · rintro ⟨v, h, ht⟩
    exact ⟨v, h, (resolvesTo_unfold hp (Entries.mem_of_get? h)).unique ht⟩

end Bounded

/-- One key is named twice, once over another key, and one name has no value. -/
def shared : List (Text × Text) :=
  [("a", "\x7bb\x7dx\x7bc\x7d"), ("b", "\x7bc\x7d\x7bd\x7d"), ("c", "1")]

theorem expand_shared :
    (∀ e ∈ shared, IsTemplate e.2) ∧ (∀ n k j, Leads shared n k j → n ≤ 1023) ∧
    (∃ v, Entries.get? "a" shared = some v ∧
      ResolvesTo nothing shared v ("1\x7bd\x7dx1" : Text)) ∧
    expand (expand shared) = expand shared := by
  have hv : ∀ e ∈ shared, IsTemplate e.2 := by decide +kernel
  have hp : ∀ n k j, Leads shared n k j → n ≤ 1023 := fun n k j =>
    Leads.le_of_rank (fun k => if k = "a" then 2 else if k = "b" then 1 else 0) (by decide +kernel)
  have h := expand_iff_resolvesTo hv hp
  exact ⟨hv, hp, (h.1 "a" _).1 (by decide +kernel), h.2.2⟩

end Preferences
end FirmwareBuild
