import FirmwareBuild.Proofs.Preferences.Division

/-! Templates.

A template is a text in which braces stand only around names: code points that are no
brace, and placeholders whose names hold neither blanks nor braces. `pieces_textOf` says
that a template has one decomposition only, the one that a round of expansion looks at, and
`collapse_textOf` that doubled braces, which a round would collapse, do not occur in it. So
a round does nothing to a template but replace its placeholders. -/
namespace FirmwareBuild

namespace Text

/-- A code point stays where it or the next one is not the one that is collapsed. -/
theorem collapse_cons {c x : CodePoint} {s : Text} (h : x ≠ c ∨ s.head? ≠ some c) :
    collapse c (x :: s) = x :: collapse c s := by
  cases s with
  | nil => rfl
  | cons y rest =>
    rw [collapse, if_neg]
    rintro ⟨hx, hy⟩
    rcases h with h | h
    · exact h hx
    · exact h (by rw [hy, List.head?_cons])

theorem collapse_append {c : CodePoint} {a : Text} (h : c ∉ a) (s : Text) :
    collapse c (a ++ s) = a ++ collapse c s := by
  induction a with
  | nil => rfl
  | cons x rest ih =>
    have hx : x ≠ c := fun he => h (he ▸ List.mem_cons_self ..)
    rw [List.cons_append, collapse_cons (.inl hx), ih fun hm => h (List.mem_cons_of_mem _ hm),
      List.cons_append]

end Text

namespace Preferences

def isBrace (c : CodePoint) : Bool := c == .char '{' || c == .char '}'

/-- A name that a placeholder of a template may have. -/
structure IsName (name : Text) : Prop where
  ne_nil : name ≠ []
  not_isBlank : ∀ c ∈ name, Text.isBlank c = false
  not_isBrace : ∀ c ∈ name, isBrace c = false

/-- Whether a piece may stand in a template. -/
def Piece.IsPlain : Piece → Prop
  | .char c => isBrace c = false
  | .placeholder name => IsName name

instance (name : Text) : Decidable (IsName name) :=
  decidable_of_iff
    (name ≠ [] ∧ (∀ c ∈ name, Text.isBlank c = false) ∧ ∀ c ∈ name, isBrace c = false)
    ⟨fun h => ⟨h.1, h.2.1, h.2.2⟩, fun h => ⟨h.ne_nil, h.not_isBlank, h.not_isBrace⟩⟩

instance : DecidablePred Piece.IsPlain
  | .char c => inferInstanceAs (Decidable (isBrace c = false))
  | .placeholder name => inferInstanceAs (Decidable (IsName name))

/-- The text that pieces make up. -/
def textOf (ps : List Piece) : Text := ps.flatMap Piece.text

/-- Whether a text is a template. -/
def IsTemplate (s : Text) : Prop := ∃ ps, (∀ p ∈ ps, p.IsPlain) ∧ textOf ps = s

@[simp] theorem textOf_nil : textOf [] = [] := rfl

theorem textOf_cons (p : Piece) (ps : List Piece) : textOf (p :: ps) = p.text ++ textOf ps := rfl

theorem textOf_append (ps qs : List Piece) : textOf (ps ++ qs) = textOf ps ++ textOf qs :=
  List.flatMap_append

theorem flatMap_map_char {f : Piece → Text} (hf : ∀ c, f (.char c) = [c]) (s : Text) :
    (s.map Piece.char).flatMap f = s := by
  induction s with
  | nil => rfl
  | cons c rest ih => rw [List.map_cons, List.flatMap_cons, ih, hf, List.singleton_append]

@[simp] theorem textOf_map_char (s : Text) : textOf (s.map .char) = s :=
  flatMap_map_char (fun _ => rfl) s

theorem ne_of_not_isBrace {c : CodePoint} (h : isBrace c = false) :
    c ≠ .char '{' ∧ c ≠ .char '}' := by
  simpa [isBrace] using h

theorem IsName.open_not_mem {name : Text} (h : IsName name) : .char '{' ∉ name :=
  fun hm => (ne_of_not_isBrace (h.not_isBrace _ hm)).1 rfl

theorem IsName.close_not_mem {name : Text} (h : IsName name) : .char '}' ∉ name :=
  fun hm => (ne_of_not_isBrace (h.not_isBrace _ hm)).2 rfl

/-! ### One decomposition -/

theorem IsName.isScanned {name : Text} (h : IsName name) : IsScanned name :=
  ⟨h.ne_nil, h.not_isBlank, fun hm => h.close_not_mem (List.mem_of_mem_tail hm)⟩

/-- A template is taken apart into the pieces that it was made of. -/
theorem pieces_textOf {ps : List Piece} (h : ∀ p ∈ ps, p.IsPlain) : pieces (textOf ps) = ps := by
  induction ps with
  | nil => rw [textOf_nil, pieces]
  | cons p rest ih =>
    have hp : p.IsPlain := h p (List.mem_cons_self ..)
    have hrest := ih fun q hq => h q (List.mem_cons_of_mem _ hq)
    rw [textOf_cons]
    cases p with
    | char c =>
      show pieces (c :: textOf rest) = _
      rw [pieces_char (ne_of_not_isBrace hp).1, hrest]
    | placeholder name => rw [pieces_placeholder (IsName.isScanned hp), hrest]

theorem IsTemplate.isPlain {s : Text} (h : IsTemplate s) : ∀ p ∈ pieces s, p.IsPlain := by
  obtain ⟨ps, hp, rfl⟩ := h
  rwa [pieces_textOf hp]

theorem isTemplate_iff {s : Text} : IsTemplate s ↔ ∀ p ∈ pieces s, p.IsPlain :=
  ⟨IsTemplate.isPlain, fun h => ⟨pieces s, h, text_pieces s⟩⟩

instance : DecidablePred IsTemplate := fun _ => decidable_of_iff _ isTemplate_iff.symm

/-- A text without braces is its code points and nothing else. -/
theorem pieces_of_no_brace {s : Text} (h : ∀ c ∈ s, isBrace c = false) :
    pieces s = s.map .char := by
  have hp : ∀ p ∈ s.map Piece.char, p.IsPlain := by
    intro p hm
    obtain ⟨c, hc, rfl⟩ := List.mem_map.1 hm
    exact h c hc
  have := pieces_textOf hp
  rwa [textOf_map_char] at this

/-! ### No doubled braces -/

theorem head?_textOf_ne {ps : List Piece} (h : ∀ p ∈ ps, p.IsPlain) :
    (textOf ps).head? ≠ some (.char '}') := by
  cases ps with
  | nil => exact nofun
  | cons p rest =>
    have hp : p.IsPlain := h p (List.mem_cons_self ..)
    rw [textOf_cons]
    cases p with
    | char c => simpa [Piece.text] using (ne_of_not_isBrace hp).2
    | placeholder name => simp [Piece.text]

theorem collapse_open_textOf {ps : List Piece} (h : ∀ p ∈ ps, p.IsPlain) :
    Text.collapse '{' (textOf ps) = textOf ps := by
  induction ps with
  | nil => rfl
  | cons p rest ih =>
    have hp : p.IsPlain := h p (List.mem_cons_self ..)
    have ih := ih fun q hq => h q (List.mem_cons_of_mem _ hq)
    rw [textOf_cons]
    cases p with
    | char c =>
      show Text.collapse '{' (c :: textOf rest) = c :: textOf rest
      rw [Text.collapse_cons (.inl (ne_of_not_isBrace hp).1), ih]
    | placeholder name =>
      have hname : IsName name := hp
      have hhead : (name ++ .char '}' :: textOf rest).head? ≠ some (.char '{') := by
        obtain ⟨c, cs, rfl⟩ := List.exists_cons_of_ne_nil hname.ne_nil
        simpa using (ne_of_not_isBrace (hname.not_isBrace c (List.mem_cons_self ..))).1
      rw [text_placeholder_append, Text.collapse_cons (.inr hhead),
        Text.collapse_append hname.open_not_mem, Text.collapse_cons (.inl (by decide)), ih]

theorem collapse_close_textOf {ps : List Piece} (h : ∀ p ∈ ps, p.IsPlain) :
    Text.collapse '}' (textOf ps) = textOf ps := by
  induction ps with
  | nil => rfl
  | cons p rest ih =>
    have hp : p.IsPlain := h p (List.mem_cons_self ..)
    have hrest : ∀ q ∈ rest, q.IsPlain := fun q hq => h q (List.mem_cons_of_mem _ hq)
    rw [textOf_cons]
    cases p with
    | char c =>
      show Text.collapse '}' (c :: textOf rest) = c :: textOf rest
      rw [Text.collapse_cons (.inl (ne_of_not_isBrace hp).2), ih hrest]
    | placeholder name =>
      have hname : IsName name := hp
      rw [text_placeholder_append, Text.collapse_cons (.inl (by decide)),
        Text.collapse_append hname.close_not_mem,
        Text.collapse_cons (.inr (head?_textOf_ne hrest)), ih hrest]

/-- A template holds no doubled brace. -/
theorem collapse_textOf {ps : List Piece} (h : ∀ p ∈ ps, p.IsPlain) :
    Text.collapse '}' (Text.collapse '{' (textOf ps)) = textOf ps := by
  rw [collapse_open_textOf h, collapse_close_textOf h]

end Preferences
end FirmwareBuild
