import FirmwareBuild.Path

/-! The normal form of paths.

Every path that is read from a text is normal, and joining normal paths gives a
normal path. `ofText_toText` says that a normal path is read back from the text
that it is written as. -/
namespace FirmwareBuild.Path

theorem not_mem_of_mem_splitOn {sep : CodePoint} {s part : Text} (h : part ∈ s.splitOn sep) :
    sep ∉ part := by
  induction s generalizing part with
  | nil => simp_all [List.splitOn_nil]
  | cons c rest ih =>
    rw [List.splitOn_cons_eq_if_modifyHead] at h
    split at h
    · rcases List.mem_cons.1 h with rfl | h
      · exact List.not_mem_nil
      · exact ih h
    · next hc =>
      cases hs : rest.splitOn sep with
      | nil => exact absurd hs (List.splitOn_ne_nil sep rest)
      | cons first others =>
        rw [hs] at h ih
        rcases List.mem_cons.1 h with rfl | h
        · intro hm
          rcases List.mem_cons.1 hm with rfl | hm
          · simp at hc
          · exact ih (List.mem_cons_self ..) hm
        · exact ih (List.mem_cons_of_mem _ h)

/-- A path whose components are neither empty nor a dot and hold no separator. -/
def IsNormal (p : Path) : Prop := ∀ part ∈ p.parts, isPart part = true ∧ .char '/' ∉ part

theorem isNormal_ofText (s : Text) : (ofText s).IsNormal := fun _ h =>
  have ⟨hs, hp⟩ := List.mem_filter.1 h
  ⟨hp, not_mem_of_mem_splitOn hs⟩

theorem IsNormal.join {dir p : Path} (hd : dir.IsNormal) (hp : p.IsNormal) :
    (dir.join p).IsNormal := by
  unfold Path.join
  split
  · intro part h
    exact (List.mem_append.1 h).elim (hd part) (hp part)
  · exact hp

theorem IsNormal.parent {p : Path} (h : p.IsNormal) : p.parent.IsNormal :=
  fun part hm => h part ((List.dropLast_sublist p.parts).subset hm)

/-- The components between separators. -/
def joined (parts : List Text) : Text := List.intercalate [.char '/'] parts

theorem toText_eq {p : Path} (h : ¬(p.root = .relative ∧ p.parts = [])) :
    p.toText = p.root.text ++ joined p.parts := by
  rw [toText, if_neg h]
  rfl

theorem filter_splitOn_joined {parts : List Text}
    (h : ∀ part ∈ parts, isPart part = true ∧ .char '/' ∉ part) :
    ((joined parts).splitOn (.char '/')).filter isPart = parts := by
  by_cases hp : parts = []
  · subst hp
    rfl
  · rw [joined, List.splitOn_intercalate]
    · exact List.filter_eq_self.2 fun part hm => (h part hm).1
    · exact fun part hm => (h part hm).2
    · exact hp

theorem takeWhile_joined {parts : List Text}
    (h : ∀ part ∈ parts, isPart part = true ∧ .char '/' ∉ part) :
    (joined parts).takeWhile (· == .char '/') = [] := by
  cases parts with
  | nil => rfl
  | cons part rest =>
    obtain ⟨hp, hs⟩ := h part (List.mem_cons_self ..)
    cases part with
    | nil => simp [isPart] at hp
    | cons c cs =>
      have hc' : c ≠ .char '/' := fun he => hs (he ▸ List.mem_cons_self ..)
      have : ∃ tail, joined ((c :: cs) :: rest) = c :: tail := by
        cases rest with
        | nil => exact ⟨cs, by simp [joined]⟩
        | cons next rest =>
          rw [joined, List.intercalate_cons_cons]
          exact ⟨_, rfl⟩
      obtain ⟨tail, he⟩ := this
      rw [he, List.takeWhile_cons_of_neg (by simpa using hc')]

/-- Writing a path and reading it again gives the path. -/
theorem ofText_toText {p : Path} (h : p.IsNormal) : ofText p.toText = p := by
  obtain ⟨root, parts⟩ := p
  by_cases hn : root = .relative ∧ parts = []
  · obtain ⟨rfl, rfl⟩ := hn
    decide
  · have ht := toText_eq (p := ⟨root, parts⟩) hn
    have hw := takeWhile_joined h
    have hf := filter_splitOn_joined h
    rw [ofText, ht]
    cases root with
    | relative => simp [Root.text, Text.ofString, Text.ofChars, hw, hf, Root.ofSlashes]
    | absolute =>
      simp [Root.text, Text.ofString, Text.ofChars, hw, hf, Root.ofSlashes,
        List.splitOn_cons_eq_if_modifyHead, isPart]
    | network =>
      simp [Root.text, Text.ofString, Text.ofChars, hw, hf, Root.ofSlashes,
        List.splitOn_cons_eq_if_modifyHead, isPart]

end FirmwareBuild.Path
