import FirmwareBuild.Path.Normal
import FirmwareBuild.Proofs.Text.Whole

/-! What the text of a path is made of.

A path that is read from a text holds nothing but what stood there, and it is written with the
code points of its components, with separators and with the dot of the empty path
(`mem_of_mem_toText`). -/
namespace FirmwareBuild

namespace Text

variable {between part : Text} {parts : List Text} {c : CodePoint}

theorem mem_intercalate_of_mem (hp : part ∈ parts) (hc : c ∈ part) :
    c ∈ List.intercalate between parts := by
  induction parts with
  | nil => exact nomatch hp
  | cons first rest ih =>
    cases rest with
    | nil =>
      obtain rfl := List.mem_singleton.1 hp
      simpa using hc
    | cons second rest =>
      rw [List.intercalate_cons_cons]
      rcases List.mem_cons.1 hp with rfl | hp
      · exact List.mem_append_left _ (List.mem_append_left _ hc)
      · exact List.mem_append_right _ (ih hp)

theorem mem_of_mem_intercalate (h : c ∈ List.intercalate between parts) :
    c ∈ between ∨ ∃ part ∈ parts, c ∈ part := by
  induction parts with
  | nil => exact nomatch h
  | cons first rest ih =>
    cases rest with
    | nil => exact .inr ⟨first, List.mem_singleton_self _, by simpa using h⟩
    | cons second rest =>
      rw [List.intercalate_cons_cons, List.mem_append, List.mem_append] at h
      rcases h with (h | h) | h
      · exact .inr ⟨first, List.mem_cons_self .., h⟩
      · exact .inl h
      · refine (ih h).imp_right fun ⟨part, hp, hc⟩ => ?_
        exact ⟨part, List.mem_cons_of_mem _ hp, hc⟩

end Text

namespace Path

variable {p : Path} {part : Text} {c : CodePoint}

theorem mem_of_mem_parts {s : Text} (hp : part ∈ (ofText s).parts) (hc : c ∈ part) : c ∈ s := by
  have hs : [.char '/'].intercalate (s.splitOn (.char '/')) = s := List.intercalate_splitOn _
  rw [← hs]
  exact Text.mem_intercalate_of_mem (List.mem_filter.1 hp).1 hc

theorem mem_toText_of_mem_parts (hp : part ∈ p.parts) (hc : c ∈ part) : c ∈ p.toText := by
  have hne : ¬(p.root = .relative ∧ p.parts = []) := fun h => absurd (h.2 ▸ hp) List.not_mem_nil
  rw [toText, if_neg hne]
  exact List.mem_append_right _ (Text.mem_intercalate_of_mem hp hc)

theorem mem_of_mem_toText (h : c ∈ p.toText) :
    c = .char '/' ∨ c = .char '.' ∨ ∃ part ∈ p.parts, c ∈ part := by
  have hslash : ∀ s : Text, s = "/" ∨ s = "//" ∨ s = "" → c ∈ s → c = .char '/' := by
    rintro s (rfl | rfl | rfl) hc
    · exact List.mem_singleton.1 hc
    · exact (List.mem_pair.1 hc).elim id id
    · exact nomatch hc
  rw [toText] at h
  split at h
  · exact .inr (.inl (List.mem_singleton.1 h))
  · rcases List.mem_append.1 h with h | h
    · refine .inl (hslash p.root.text ?_ h)
      cases p.root with
      | relative => exact .inr (.inr rfl)
      | absolute => exact .inl rfl
      | network => exact .inr (.inl rfl)
    · rcases Text.mem_of_mem_intercalate h with h | h
      · exact .inl (hslash "/" (.inl rfl) h)
      · exact .inr (.inr h)

/-- The separators and the dot of a path's text begin no pair. -/
theorem beginsNoPair_toText (h : ∀ part ∈ p.parts, part.BeginsNoPair) :
    p.toText.BeginsNoPair := by
  intro c hc
  rcases mem_of_mem_toText hc with rfl | rfl | ⟨part, hp, hc⟩
  · rfl
  · rfl
  · exact h part hp c hc

theorem beginsNoPair_ofText {s : Text} (h : s.BeginsNoPair) : (ofText s).toText.BeginsNoPair :=
  beginsNoPair_toText fun _ hp c hc => h c (mem_of_mem_parts hp hc)

end Path
end FirmwareBuild
