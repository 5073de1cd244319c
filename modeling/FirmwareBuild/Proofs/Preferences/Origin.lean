import FirmwareBuild.Preferences.Basic
import FirmwareBuild.Proofs.Preferences.Resolution
import FirmwareBuild.Proofs.Text.Lines

/-! Where the code points of preferences come from.

Neither reading lines nor expanding values brings a code point about: what a value holds in the
end, one of the values that were given held before (`holds_expand`), and those held what stood in
the lines (`mem_of_holds_parse`). -/
namespace FirmwareBuild

namespace Text

theorem mem_of_mem_collapse {c x : CodePoint} {s : Text} (h : x ∈ collapse c s) : x ∈ s := by
  fun_induction collapse c s with
  | case1 => exact h
  | case2 y => exact h
  | case3 y z rest hyz ih =>
    rcases List.mem_cons.1 h with rfl | h
    · exact hyz.1 ▸ List.mem_cons_self ..
    · exact List.mem_cons_of_mem _ (List.mem_cons_of_mem _ (ih h))
  | case4 y z rest hyz ih =>
    rcases List.mem_cons.1 h with rfl | h
    · exact List.mem_cons_self ..
    · exact List.mem_cons_of_mem _ (ih h)

end Text

namespace Preferences

/-- Whether a code point stands in one of the values. -/
def Holds (values : List (Text × Text)) (c : CodePoint) : Prop := ∃ e ∈ values, c ∈ e.2

variable {values : List (Text × Text)} {c : CodePoint}

/-! ### Expansion -/

theorem mem_of_mem_resolve_piece {p : Piece} (h : c ∈ p.resolve values) :
    c ∈ p.text ∨ Holds values c := by
  cases p with
  | char d => exact .inl h
  | placeholder name =>
    rw [Piece.resolve] at h
    cases hv : Entries.get? name values with
    | none =>
      rw [hv] at h
      exact .inl h
    | some v =>
      rw [hv] at h
      exact .inr ⟨(name, v), Entries.mem_of_get? hv, h⟩

theorem mem_of_mem_resolve {s : Text} (h : c ∈ resolve values s) : c ∈ s ∨ Holds values c := by
  obtain ⟨p, hp, hc⟩ := List.mem_flatMap.1 (Text.mem_of_mem_collapse (Text.mem_of_mem_collapse h))
  rcases mem_of_mem_resolve_piece hc with hc | hc
  · refine .inl ?_
    rw [← text_pieces s]
    exact List.mem_flatMap.2 ⟨p, hp, hc⟩
  · exact .inr hc

theorem holds_round (h : Holds (round values) c) : Holds values c := by
  obtain ⟨_, hm, hc⟩ := h
  obtain ⟨e, he, rfl⟩ := List.mem_map.1 hm
  rcases mem_of_mem_resolve hc with hc | hc
  · exact ⟨e, he, hc⟩
  · exact hc

theorem holds_settle {n : Nat} (h : Holds (settle n values) c) : Holds values c := by
  induction n generalizing values with
  | zero => exact h
  | succ n ih =>
    rw [settle] at h
    split at h
    · exact h
    · exact holds_round (ih h)

/-- Expansion brings no code point about. -/
theorem holds_expand (h : Holds (expand values) c) : Holds values c := holds_settle h

/-! ### Values that are set -/

theorem holds_put {key value : Text} (h : Holds (Entries.put key value values) c) :
    c ∈ value ∨ Holds values c := by
  induction values with
  | nil =>
    obtain ⟨e, he, hc⟩ := h
    obtain rfl := List.mem_singleton.1 he
    exact .inl hc
  | cons first rest ih =>
    obtain ⟨k, v⟩ := first
    obtain ⟨e, he, hc⟩ := h
    rw [Entries.put] at he
    split at he
    · rcases List.mem_cons.1 he with rfl | he
      · exact .inl hc
      · exact .inr ⟨e, List.mem_cons_of_mem _ he, hc⟩
    · rcases List.mem_cons.1 he with rfl | he
      · exact .inr ⟨(k, v), List.mem_cons_self .., hc⟩
      · rcases ih ⟨e, he, hc⟩ with hc | ⟨e, he, hc⟩
        · exact .inl hc
        · exact .inr ⟨e, List.mem_cons_of_mem _ he, hc⟩

theorem holds_foldl_put {pairs : List (Text × Text)}
    (h : Holds (pairs.foldl (fun es p => Entries.put p.1 p.2 es) values) c) :
    Holds pairs c ∨ Holds values c := by
  induction pairs generalizing values with
  | nil => exact .inr h
  | cons p rest ih =>
    rcases ih h with ⟨e, he, hc⟩ | h
    · exact .inl ⟨e, List.mem_cons_of_mem _ he, hc⟩
    · exact (holds_put h).imp_left fun hc => ⟨p, List.mem_cons_self .., hc⟩

/-- What values hold stood in the text that they were read from. -/
theorem mem_of_holds_parse {text : Text} (h : Holds (parse text).values c) : c ∈ text := by
  rcases holds_foldl_put h with ⟨e, he, hc⟩ | ⟨_, he, _⟩
  · obtain ⟨line, hl, hcut⟩ := List.mem_filterMap.1 he
    obtain ⟨rfl, -⟩ := Text.cut_eq_some hcut
    exact Text.mem_of_mem_lines hl (List.mem_append_right _ (List.mem_cons_of_mem _ hc))
  · exact absurd he List.not_mem_nil

theorem holds_of_unexpanded? {p : Preferences} {key value : Text}
    (h : p.unexpanded? key = some value) (hc : c ∈ value) : Holds p.values c :=
  ⟨(key, value), Entries.mem_of_get? h, hc⟩

end Preferences
end FirmwareBuild
