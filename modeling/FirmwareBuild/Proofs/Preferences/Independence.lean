import FirmwareBuild.Proofs.Recipe.Templating
import Mathlib.Data.Set.Defs

/-! Preferences out of each other's reach.

All values are rewritten together, and the rounds stop when none of them changes any more, so how
many rounds a key gets depends on keys that it has nothing to do with. That is not seen: two maps
that agree on keys whose values name nothing else that either map has (`AgreeOn`) still do so after
a round, and stopping early makes no difference to either of them. A key that does not reach a
reserved one therefore has the same value whether names are reserved or not:
`expand_undisturbed`. -/
namespace FirmwareBuild

namespace Preferences

variable {among : Set Text} {values values' : List (Text × Text)}

/-! ### Agreement -/

/-- Whether two maps have the same templates at some keys, and these name nothing but such keys and
names that are keys of neither map. -/
structure AgreeOn (among : Set Text) (values values' : List (Text × Text)) : Prop where
  same : ∀ k ∈ among, ∃ v, Entries.get? k values = some v ∧ Entries.get? k values' = some v
  template : ∀ k ∈ among, ∀ v, Entries.get? k values = some v → IsTemplate v
  closed : ∀ k ∈ among, ∀ v, Entries.get? k values = some v → ∀ name,
    .placeholder name ∈ pieces v →
      name ∈ among ∨ name ∉ Entries.keys values ∧ name ∉ Entries.keys values'

/-- Whether a piece may stand at one of these keys: it is plain, and what it names is one of the
keys or a key of neither map. -/
structure Piece.IsWithin (among : Set Text) (values values' : List (Text × Text)) (p : Piece) :
    Prop where
  plain : p.IsPlain
  named : ∀ name, p = .placeholder name →
    name ∈ among ∨ name ∉ Entries.keys values ∧ name ∉ Entries.keys values'

theorem get?_round (key : Text) (values : List (Text × Text)) :
    Entries.get? key (round values) = (Entries.get? key values).map (resolve values) :=
  Entries.get?_map (resolve values) key values

/-- A round replaces each name in a template by the pieces of its value. -/
theorem substitute_eq {s : Text} (h : IsTemplate s) :
    substitute values s = textOf (unfold values 1 (pieces s)) := by
  have hunfold : substitute (unfolded values 0) (textOf (pieces s)) =
      textOf (unfold values 1 (pieces s)) := substitute_unfolded 0 h.isPlain
  rwa [unfolded_zero, textOf, text_pieces] at hunfold

namespace AgreeOn

variable (h : AgreeOn among values values') {k v : Text} (hk : k ∈ among)
  (hv : Entries.get? k values = some v)
include h hk hv

theorem isWithin : ∀ p ∈ pieces v, p.IsWithin among values values' := by
  intro p hp
  refine ⟨(h.template k hk v hv).isPlain p hp, ?_⟩
  rintro name rfl
  exact h.closed k hk v hv name hp

/-- What a name is replaced by is the value of one of the keys. -/
theorem isWithin_unfold : ∀ q ∈ unfold values 1 (pieces v), q.IsWithin among values values' := by
  intro q hq
  obtain ⟨p, hp, hq⟩ := List.mem_flatMap.1 hq
  have hwithin := h.isWithin hk hv p hp
  cases p with
  | char c =>
    rw [Piece.unfold_char, List.mem_singleton] at hq
    rwa [hq]
  | placeholder name =>
    cases hg : Entries.get? name values with
    | none =>
      rw [Piece.unfold_unknown values hg, List.mem_singleton] at hq
      rwa [hq]
    | some w =>
      rw [Piece.unfold_value values hg, unfold_zero] at hq
      have hkey : name ∈ Entries.keys values := (Entries.mem_keys_iff name values).2 ⟨w, hg⟩
      have hname : name ∈ among := (hwithin.named name rfl).resolve_right fun hnot => hnot.1 hkey
      exact h.isWithin hname hg q hq

/-- A value at one of the keys names things that both maps have the same values for. -/
theorem resolve_eq : resolve values v = resolve values' v := by
  have hpiece : ∀ p ∈ pieces v, p.resolve values = p.resolve values' := by
    intro p hp
    cases p with
    | char c => rfl
    | placeholder name =>
      rw [Piece.resolve, Piece.resolve]
      rcases h.closed k hk v hv name hp with hname | ⟨hnone, hnone'⟩
      · obtain ⟨w, hw, hw'⟩ := h.same name hname
        rw [hw, hw']
      · rw [Entries.get?_eq_none hnone, Entries.get?_eq_none hnone']
  rw [resolve, resolve, substitute, substitute, List.flatMap_congr hpiece]

theorem resolve_eq_textOf : resolve values v = textOf (unfold values 1 (pieces v)) := by
  rw [resolve, substitute_eq (h.template k hk v hv),
    collapse_textOf fun q hq => (h.isWithin_unfold hk hv q hq).plain]

omit hk hv

/-- A round keeps the agreement, whatever it does to the other keys. -/
theorem round : AgreeOn among (round values) (round values') := by
  have hround : ∀ k ∈ among, ∀ t, Entries.get? k (Preferences.round values) = some t →
      ∃ qs, (∀ q ∈ qs, q.IsWithin among values values') ∧ textOf qs = t := by
    intro k hk t ht
    rw [get?_round, Option.map_eq_some_iff] at ht
    obtain ⟨v, hv, rfl⟩ := ht
    exact ⟨_, h.isWithin_unfold hk hv, (h.resolve_eq_textOf hk hv).symm⟩
  refine ⟨fun k hk => ?_, fun k hk t ht => ?_, fun k hk t ht name hname => ?_⟩
  · obtain ⟨v, hv, hv'⟩ := h.same k hk
    refine ⟨resolve values v, by rw [get?_round, hv, Option.map_some], ?_⟩
    rw [get?_round, hv', Option.map_some, h.resolve_eq hk hv]
  · obtain ⟨qs, hqs, rfl⟩ := hround k hk t ht
    exact ⟨qs, fun q hq => (hqs q hq).plain, rfl⟩
  · obtain ⟨qs, hqs, rfl⟩ := hround k hk t ht
    rw [pieces_textOf fun q hq => (hqs q hq).plain] at hname
    rw [keys_round, keys_round]
    exact (hqs _ hname).named name rfl

/-- Any number of rounds keeps the agreement, wherever each of the maps stops. -/
theorem settle (n : Nat) : AgreeOn among (settle n values) (settle n values') := by
  induction n generalizing values values' with
  | zero => exact h
  | succ n ih =>
    rw [settle_succ, settle_succ]
    exact ih h.round

theorem expand {k : Text} (hk : k ∈ among) : ∃ t,
    Entries.get? k (expand values) = some t ∧ Entries.get? k (expand values') = some t :=
  (h.settle maxRounds).same k hk

end AgreeOn

/-! ### Reach -/

theorem Leads.snoc {n : Nat} {k j i : Text} (hl : Leads values n k j) (hr : Refers values j i) :
    Leads values (n + 1) k i := by
  induction hl with
  | refl => exact .step hr (.refl i)
  | step hfirst _ ih => exact .step hfirst (ih hr)

/-- Keys that name no others lead to no others. -/
theorem Leads.mem_of_closed {ks : List Text}
    (h : ∀ e ∈ values, e.1 ∈ ks → ∀ p ∈ pieces e.2, ∀ j ∈ Entries.keys values,
      p = .placeholder j → j ∈ ks)
    {n : Nat} {k j : Text} (hl : Leads values n k j) (hk : k ∈ ks) : j ∈ ks := by
  induction hl with
  | refl => exact hk
  | step hr _ ih =>
    obtain ⟨v, hv, hp, hi⟩ := hr
    exact ih (h _ hv hk _ hp _ hi rfl)

end Preferences

namespace BuildConfig

open Preferences (AgreeOn Leads IsTemplate)

theorem mem_keys_reserve {prefs : Preferences} {name : Text}
    (h : name ∈ Entries.keys prefs.values) : name ∈ Entries.keys (reserve prefs).values := by
  rw [Entries.mem_keys_iff]
  by_cases hr : isReserved name = true
  · obtain ⟨word, -, -, hword, -⟩ := exists_word hr
    exact ⟨_, hword prefs⟩
  · obtain ⟨v, hv⟩ := (Entries.mem_keys_iff name prefs.values).1 h
    exact ⟨v, (unexpanded?_reserve hr prefs).trans hv⟩

/-- Whether a key leads over templates only, and to no reserved name. -/
def IsClear (prefs : Preferences) (key : Text) : Prop :=
  ∀ n j, Leads (reserve prefs).values n key j → isReserved j = false ∧
    ∀ v, prefs.unexpanded? j = some v → IsTemplate v

/-- The preferences that a key leads to are the same with names reserved and without. -/
theorem IsClear.agreeOn {prefs : Preferences} {key : Text} (h : IsClear prefs key) :
    AgreeOn {j | j ∈ Entries.keys prefs.values ∧ ∃ n, Leads (reserve prefs).values n key j}
      prefs.values (reserve prefs).values := by
  have hkept : ∀ {n j}, Leads (reserve prefs).values n key j →
      (reserve prefs).unexpanded? j = prefs.unexpanded? j := fun hl =>
    unexpanded?_reserve (Bool.eq_false_iff.1 (h _ _ hl).1) prefs
  refine ⟨?_, ?_, ?_⟩
  · rintro j ⟨hj, n, hl⟩
    obtain ⟨v, hv⟩ := (Entries.mem_keys_iff j prefs.values).1 hj
    exact ⟨v, hv, (hkept hl).trans hv⟩
  · rintro j ⟨-, n, hl⟩ v hv
    exact (h n j hl).2 v hv
  · rintro j ⟨-, n, hl⟩ v hv name hname
    by_cases hkey : name ∈ Entries.keys (reserve prefs).values
    · have hrefers : Preferences.Refers (reserve prefs).values j name :=
        ⟨v, Entries.mem_of_get? ((hkept hl).trans hv), hname, hkey⟩
      have hnext := hl.snoc hrefers
      obtain ⟨w, hw⟩ := (Entries.mem_keys_iff name _).1 hkey
      exact .inl ⟨(Entries.mem_keys_iff name _).2 ⟨w, (hkept hnext).symm.trans hw⟩, _, hnext⟩
    · exact .inr ⟨fun hm => hkey (mem_keys_reserve hm), hkey⟩

theorem IsClear.get?_reserve {prefs : Preferences} {key : Text} (h : IsClear prefs key) :
    (reserve prefs).get? key = prefs.get? key := by
  by_cases hkey : key ∈ Entries.keys prefs.values
  · obtain ⟨t, ht, ht'⟩ := h.agreeOn.expand ⟨hkey, 0, .refl key⟩
    exact ht'.trans ht.symm
  · -- A key that is not there is not there after expansion either.
    have hkept : (reserve prefs).unexpanded? key = prefs.unexpanded? key :=
      unexpanded?_reserve (Bool.eq_false_iff.1 (h 0 key (.refl key)).1) prefs
    have hmissing : key ∉ Entries.keys (reserve prefs).values := by
      intro hm
      obtain ⟨v, hv⟩ := (Entries.mem_keys_iff key _).1 hm
      exact hkey ((Entries.mem_keys_iff key _).2 ⟨v, hkept.symm.trans hv⟩)
    rw [← Preferences.keys_expand] at hkey hmissing
    exact (Entries.get?_eq_none hmissing).trans (Entries.get?_eq_none hkey).symm

/-- **One preference does not disturb another.** Two maps that agree on keys whose values are
templates and name nothing else that either map has have the same expanded values at these keys,
whatever else they hold. So reserving names for recipes leaves the value of each preference as it
is that does not reach one of them. -/
theorem expand_undisturbed :
    (∀ among values values', AgreeOn among values values' → ∀ k ∈ among, ∃ t,
      Entries.get? k (Preferences.expand values) = some t ∧
        Entries.get? k (Preferences.expand values') = some t) ∧
    ∀ prefs key, IsClear prefs key → (reserve prefs).get? key = prefs.get? key :=
  ⟨fun _ _ _ h _ hk => h.expand hk, fun _ _ h => h.get?_reserve⟩

/-- Two keys that refer to each other, beside a value that grows with every round. -/
def growing : List (Text × Text) :=
  [("a", "\x7bb\x7dx"), ("b", "\x7ba\x7d\x7bu\x7d"), ("g", "\x7bg\x7d\x7bg\x7d")]

/-- The same two keys in another order, beside a value with stray braces. -/
def unbalanced : List (Text × Text) :=
  [("h", "\x7d\x7d\x7ba"), ("b", "\x7ba\x7d\x7bu\x7d"), ("a", "\x7bb\x7dx")]

/-- A key that leads to another one, beside a reserved name and a value that uses it. -/
def besideReserved : Preferences :=
  ⟨[("k", "\x7bj\x7d!"), ("j", "1\x7bu\x7d"), ("includes", "-I."), ("r", "\x7bincludes\x7d")]⟩

/-- The keys that refer to each other. -/
def circle : List Text := ["a", "b"]

theorem expand_undisturbed_circular :
    AgreeOn {k | k ∈ circle} growing unbalanced ∧
    (∃ t, Entries.get? "a" (Preferences.expand growing) = some t ∧
      Entries.get? "a" (Preferences.expand unbalanced) = some t) ∧
    IsClear besideReserved "k" ∧
    (reserve besideReserved).get? "k" = some "1\x7bu\x7d!" ∧
    besideReserved.get? "k" = some "1\x7bu\x7d!" := by
  have hagree : AgreeOn {k | k ∈ circle} growing unbalanced := by
    have hsame : ∀ k ∈ circle, (Entries.get? k growing).isSome = true ∧
        Entries.get? k growing = Entries.get? k unbalanced := by decide
    have htemplate : ∀ k ∈ circle, ∀ v ∈ Entries.get? k growing, IsTemplate v := by
      decide +kernel
    have hclosed : ∀ k ∈ circle, ∀ v ∈ Entries.get? k growing, ∀ p ∈ Preferences.pieces v,
        p ∈ circle.map .placeholder ∨ p = .placeholder "u" ∨ p.text.length = 1 := by
      decide +kernel
    refine ⟨fun k hk => ?_, htemplate, fun k hk v hv name hname => ?_⟩
    · obtain ⟨hsome, heq⟩ := hsame k hk
      obtain ⟨v, hv⟩ := Option.isSome_iff_exists.1 hsome
      exact ⟨v, hv, heq ▸ hv⟩
    · rcases hclosed k hk v hv _ hname with hname | hname | hname
      · obtain ⟨key, hkey, he⟩ := List.mem_map.1 hname
        obtain rfl : key = name := by simpa using he
        exact .inl hkey
      · obtain rfl : name = "u" := by simpa using hname
        exact .inr (by decide)
      · simp [Preferences.Piece.text] at hname
  have hclear : IsClear besideReserved "k" := by
    intro n j hl
    have hj : j ∈ (["k", "j"] : List Text) := hl.mem_of_closed (by decide +kernel) (by decide)
    have hall : ∀ j ∈ (["k", "j"] : List Text), isReserved j = false ∧
        ∀ v ∈ besideReserved.unexpanded? j, IsTemplate v := by decide +kernel
    exact hall j hj
  have hvalue : besideReserved.get? "k" = some "1\x7bu\x7d!" := by decide +kernel
  exact ⟨hagree, expand_undisturbed.1 _ _ _ hagree "a" (List.mem_cons_self ..), hclear,
    (expand_undisturbed.2 _ _ hclear).trans hvalue, hvalue⟩

end BuildConfig
end FirmwareBuild
