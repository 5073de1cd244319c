import FirmwareBuild.Proofs.Target.Descriptor

/-! Which boards share a descriptor.

A name joins three parts with dashes, and no part holds a dash, so the parts can be taken out of
the name again (`splitOn_name`). Two boards share a descriptor if and only if their parts are the
same one by one: `name_eq_iff`. -/
namespace FirmwareBuild.Target

open Host (child)

/-! ### Parts -/

theorem dash_not_mem_namePart (s : Text) : .char '-' ∉ namePart s := by
  intro hm
  obtain ⟨c, -, hc⟩ := List.mem_map.1 hm
  split at hc
  · exact absurd hc (by decide)
  · next hne => exact hne hc

/-- The two code points that a name does not tell apart. -/
def IsDash (c : CodePoint) : Prop := c = .char '-' ∨ c = .char '_'

/-- Texts that are equal in lower case with every dash replaced by an underscore: place by place
they have the same code point, or a dash and an underscore. -/
def SamePart (s t : Text) : Prop :=
  List.Forall₂ (fun c d => c = d ∨ IsDash c ∧ IsDash d) (Text.lower s) (Text.lower t)

theorem underscored_eq_iff {c d : CodePoint} :
    (if c = .char '-' then CodePoint.char '_' else c) =
        (if d = .char '-' then CodePoint.char '_' else d) ↔ c = d ∨ IsDash c ∧ IsDash d := by
  unfold IsDash
  split <;> split <;> grind

theorem namePart_eq_iff {s t : Text} : namePart s = namePart t ↔ SamePart s t := by
  rw [namePart, namePart, SamePart, ← List.forall₂_eq_eq_eq, List.forall₂_map_left_iff,
    List.forall₂_map_right_iff]
  simp only [underscored_eq_iff]

/-! ### Names -/

/-- The parts stand between the dashes of a name. -/
theorem splitOn_name (b : Board) :
    (name b).splitOn (.char '-') = [namePart b.arch, namePart b.vendor, namePart b.board] := by
  have hname : name b =
      [.char '-'].intercalate [namePart b.arch, namePart b.vendor, namePart b.board] := by
    simp [name, Text.ofString, Text.ofChars]
  rw [hname]
  refine List.splitOn_intercalate _ ?_ (List.cons_ne_nil _ _)
  simp [dash_not_mem_namePart]

theorem name_eq_iff_parts {b₁ b₂ : Board} : name b₁ = name b₂ ↔
    SamePart b₁.arch b₂.arch ∧ SamePart b₁.vendor b₂.vendor ∧ SamePart b₁.board b₂.board := by
  simp only [← namePart_eq_iff]
  constructor
  · intro h
    have hparts := congrArg (List.splitOn (.char '-')) h
    simpa [splitOn_name] using hparts
  · rintro ⟨harch, hvendor, hboard⟩
    rw [name, name, harch, hvendor, hboard]

/-- Descriptors right in a directory have different files if they have different names. -/
theorem file_injective {m n : Text} (hm : .char '/' ∉ m) (hn : .char '/' ∉ n) {dir : Path}
    (h : file dir m = file dir n) : m = n := by
  rw [file_eq hm, file_eq hn, child, child, Path.mk.injEq, List.append_cancel_left_eq,
    List.singleton_inj] at h
  exact List.append_cancel_right h.2

/-- **Boards share a descriptor if and only if they have the same parts.** The names of two boards
are equal just in the case that architecture, vendor and board are equal one by one, in lower case
and with underscores for dashes; parameters do not matter; and boards whose descriptors are files
right in a directory have one file there if and only if they have one name. -/
theorem name_eq_iff (b₁ b₂ : Board) :
    (name b₁ = name b₂ ↔
        SamePart b₁.arch b₂.arch ∧ SamePart b₁.vendor b₂.vendor ∧ SamePart b₁.board b₂.board) ∧
      (∀ params, name { b₁ with params } = name b₁) ∧
      (HasFile b₁ → HasFile b₂ → ∀ dir, file dir (name b₁) = file dir (name b₂) ↔
        name b₁ = name b₂) := by
  refine ⟨name_eq_iff_parts, fun params => rfl, fun h₁ h₂ dir => ⟨fun h => ?_, fun h => ?_⟩⟩
  · exact file_injective (slash_not_mem_name h₁) (slash_not_mem_name h₂) h
  · rw [h]

/-- A board by its architecture and its vendor. -/
def dashed (arch vendor : Text) : Board := ⟨vendor, arch, "Mega-2560", []⟩

/-- A dash that stands in one part does not make the same name as in its neighbour. -/
theorem name_eq_iff_dashed :
    HasFile (dashed "a-b" "c") ∧ HasFile (dashed "a" "b-c") ∧
      file (.ofText "t") (name (dashed "a-b" "c")) ≠
        file (.ofText "t") (name (dashed "a" "b-c")) := by
  have hleft : HasFile (dashed "a-b" "c") := ⟨by decide, by decide, by decide⟩
  have hright : HasFile (dashed "a" "b-c") := ⟨by decide, by decide, by decide⟩
  obtain ⟨hname, -, hfile⟩ := name_eq_iff (dashed "a-b" "c") (dashed "a" "b-c")
  refine ⟨hleft, hright, fun h => ?_⟩
  have harch : SamePart "a-b" "a" := (hname.1 ((hfile hleft hright _).1 h)).1
  exact absurd (namePart_eq_iff.2 harch) (by decide +kernel)

end FirmwareBuild.Target
