import FirmwareBuild.Preferences.Expansion
import FirmwareBuild.Proofs.Entries

/-! How a round divides a text.

A placeholder ends at the first closing brace behind the first code point of its name, and
it must not be interrupted by a blank; an opening brace with nothing of the kind behind it
is a code point like any other, and the search goes on right behind it. So `\x7b}}` is a
placeholder with a closing brace for its name, and the placeholder in `\x7ba \x7bb}` is the
second one. A `Division` is a text as literal parts with placeholders between them. It is
leftmost if no placeholder starts at any place in a literal part, whatever comes behind
that part. `round_scans` says that every text has one leftmost division and no other, and
that a round puts the values of the names between its literal parts, as they are. -/
namespace FirmwareBuild.Preferences

/-- A name as it may stand in a placeholder. -/
structure IsScanned (name : Text) : Prop where
  ne_nil : name ≠ []
  not_isBlank : ∀ c ∈ name, Text.isBlank c = false
  close_not_mem : .char '}' ∉ name.tail

/-- Whether a placeholder stands at the front of a text. -/
def StartsPlaceholder (s : Text) : Prop :=
  ∃ name after, IsScanned name ∧ s = (Piece.placeholder name).text ++ after

/-- Whether no placeholder starts within `literal` where `after` comes behind it. -/
def IsLiteral (literal after : Text) : Prop :=
  ∀ u v, literal = u ++ v → v ≠ [] → ¬StartsPlaceholder (v ++ after)

/-- A text as literal parts with a placeholder between each two of them. -/
inductive Division
  | last (literal : Text)
  | placeholder (literal name : Text) (next : Division)

namespace Division

/-- The text that is divided. -/
def text : Division → Text
  | .last literal => literal
  | .placeholder literal name next => literal ++ (Piece.placeholder name).text ++ next.text

/-- The literal parts with the values of the names between them. A name without a value
leaves its placeholder as it is. -/
def filled (values : List (Text × Text)) : Division → Text
  | .last literal => literal
  | .placeholder literal name next =>
    literal ++ (Entries.get? name values).getD (Piece.placeholder name).text ++ next.filled values

/-- Whether the placeholders are those that a search from left to right comes upon. -/
def IsLeftmost : Division → Prop
  | .last literal => IsLiteral literal []
  | .placeholder literal name next =>
    IsLiteral literal ((Piece.placeholder name).text ++ next.text) ∧ IsScanned name ∧
      next.IsLeftmost

/-- The division with one more code point in front. -/
def cons (c : CodePoint) : Division → Division
  | .last literal => .last (c :: literal)
  | .placeholder literal name next => .placeholder (c :: literal) name next

/-- The division that pieces make up. -/
def ofPieces : List Piece → Division
  | [] => .last []
  | .char c :: ps => (ofPieces ps).cons c
  | .placeholder name :: ps => .placeholder [] name (ofPieces ps)

end Division

/-! ### Placeholders -/

theorem text_placeholder_append (name s : Text) :
    (Piece.placeholder name).text ++ s = .char '{' :: (name ++ .char '}' :: s) := by
  simp [Piece.text]

theorem resolve_placeholder (values : List (Text × Text)) (name : Text) :
    (Piece.placeholder name).resolve values =
      (Entries.get? name values).getD (Piece.placeholder name).text := by
  rw [Piece.resolve]
  cases Entries.get? name values <;> rfl

theorem nameTail?_append {name : Text} (hb : ∀ c ∈ name, Text.isBlank c = false)
    (hc : .char '}' ∉ name) (rest : Text) :
    nameTail? (name ++ .char '}' :: rest) = some (name, rest) := by
  induction name with
  | nil => simp [nameTail?]
  | cons c cs ih =>
    have hne : c ≠ .char '}' := fun he => hc (he ▸ List.mem_cons_self ..)
    have hblank : Text.isBlank c = false := hb c (List.mem_cons_self ..)
    have := ih (fun d hd => hb d (List.mem_cons_of_mem _ hd))
      (fun hm => hc (List.mem_cons_of_mem _ hm))
    rw [List.cons_append, nameTail?, if_neg hne, hblank, if_neg Bool.false_ne_true, this]
    rfl

theorem not_mem_of_nameTail? {s name rest : Text} (h : nameTail? s = some (name, rest)) :
    (∀ c ∈ name, Text.isBlank c = false) ∧ .char '}' ∉ name := by
  induction s generalizing name with
  | nil => cases h
  | cons c cs ih =>
    rw [nameTail?] at h
    split at h
    · cases h
      exact ⟨List.forall_mem_nil _, List.not_mem_nil⟩
    next hc =>
    split at h
    · cases h
    next hb =>
    obtain ⟨⟨ds, after⟩, ht, he⟩ := Option.map_eq_some_iff.1 h
    cases he
    obtain ⟨hds, hnot⟩ := ih ht
    have hblank : Text.isBlank c = false := Bool.eq_false_iff.2 hb
    have hne : ¬(.char '}' = c ∨ .char '}' ∈ ds) := fun hm => hm.elim (fun he => hc he.symm) hnot
    exact ⟨List.forall_mem_cons.2 ⟨hblank, hds⟩, fun hm => hne (List.mem_cons.1 hm)⟩

/-- A name is read exactly if it may stand in a placeholder and its brace comes behind it. -/
theorem name?_eq_some {s name rest : Text} :
    name? s = some (name, rest) ↔ IsScanned name ∧ s = name ++ .char '}' :: rest := by
  constructor
  · intro h
    refine ⟨?_, name?_eq h⟩
    cases s with
    | nil => cases h
    | cons c cs =>
      rw [name?] at h
      split at h
      · cases h
      next hb =>
      obtain ⟨⟨ds, after⟩, ht, he⟩ := Option.map_eq_some_iff.1 h
      obtain ⟨hds, hnot⟩ := not_mem_of_nameTail? ht
      cases he
      exact ⟨List.cons_ne_nil _ _, List.forall_mem_cons.2 ⟨Bool.eq_false_iff.2 hb, hds⟩, hnot⟩
  · rintro ⟨hname, rfl⟩
    cases name with
    | nil => exact absurd rfl hname.ne_nil
    | cons c cs =>
      obtain ⟨hb, hcs⟩ := List.forall_mem_cons.1 hname.not_isBlank
      have ht := nameTail?_append hcs hname.close_not_mem rest
      rw [List.cons_append, name?, hb, if_neg Bool.false_ne_true, ht]
      rfl

theorem startsPlaceholder_iff {c : CodePoint} {rest : Text} :
    StartsPlaceholder (c :: rest) ↔ c = .char '{' ∧ (name? rest).isSome := by
  simp only [StartsPlaceholder, text_placeholder_append, List.cons.injEq, Option.isSome_iff_exists,
    Prod.exists, name?_eq_some]
  exact ⟨fun ⟨name, after, h, hc, hr⟩ => ⟨hc, name, after, h, hr⟩,
    fun ⟨hc, name, after, h, hr⟩ => ⟨name, after, h, hc, hr⟩⟩

theorem pieces_placeholder {name : Text} (h : IsScanned name) (rest : Text) :
    pieces ((Piece.placeholder name).text ++ rest) = .placeholder name :: pieces rest := by
  have hn : name? (name ++ .char '}' :: rest) = some (name, rest) := name?_eq_some.2 ⟨h, rfl⟩
  rw [text_placeholder_append, pieces, if_pos rfl]
  split
  · next n after hs =>
    rw [hn, Option.some.injEq, Prod.mk.injEq] at hs
    obtain ⟨rfl, rfl⟩ := hs
    rfl
  · next hs =>
    rw [hn] at hs
    cases hs

/-- Where no placeholder starts the search goes on behind one code point. -/
theorem pieces_of_not_starts {c : CodePoint} {rest : Text} (h : ¬StartsPlaceholder (c :: rest)) :
    pieces (c :: rest) = .char c :: pieces rest := by
  rw [pieces]
  split
  · next hc =>
    split
    · next name after hs => exact absurd (startsPlaceholder_iff.2 ⟨hc, by rw [hs]; rfl⟩) h
    · rfl
  · rfl

theorem pieces_char {c : CodePoint} (h : c ≠ .char '{') (rest : Text) :
    pieces (c :: rest) = .char c :: pieces rest :=
  pieces_of_not_starts fun hs => h (startsPlaceholder_iff.1 hs).1

/-! ### Literal parts -/

theorem isLiteral_nil (after : Text) : IsLiteral [] after :=
  fun _ _ h hv => absurd (List.append_eq_nil_iff.1 h.symm).2 hv

theorem isLiteral_cons {c : CodePoint} {literal after : Text} :
    IsLiteral (c :: literal) after ↔
      ¬StartsPlaceholder (c :: (literal ++ after)) ∧ IsLiteral literal after := by
  constructor
  · intro h
    refine ⟨h [] (c :: literal) rfl nofun, fun u v hs hv => h (c :: u) v ?_ hv⟩
    rw [hs, List.cons_append]
  · rintro ⟨hc, h⟩ u v hs hv
    cases u with
    | nil =>
      obtain rfl : c :: literal = v := hs
      exact hc
    | cons d u => exact h u v (List.cons.inj hs).2 hv

theorem pieces_literal {literal after : Text} (h : IsLiteral literal after) :
    pieces (literal ++ after) = literal.map .char ++ pieces after := by
  induction literal with
  | nil => rfl
  | cons c rest ih =>
    obtain ⟨hc, hrest⟩ := isLiteral_cons.1 h
    rw [List.cons_append, pieces_of_not_starts hc, ih hrest, List.map_cons, List.cons_append]

/-! ### Divisions -/

namespace Division

@[simp] theorem text_cons (c : CodePoint) (d : Division) : (d.cons c).text = c :: d.text := by
  cases d <;> rfl

@[simp] theorem filled_cons (values : List (Text × Text)) (c : CodePoint) (d : Division) :
    (d.cons c).filled values = c :: d.filled values := by
  cases d <;> rfl

theorem IsLeftmost.cons {c : CodePoint} {d : Division} (hd : d.IsLeftmost)
    (hc : ¬StartsPlaceholder (c :: d.text)) : (d.cons c).IsLeftmost := by
  cases d with
  | last literal => exact isLiteral_cons.2 ⟨by rwa [List.append_nil], hd⟩
  | placeholder literal name next =>
    refine ⟨isLiteral_cons.2 ⟨?_, hd.1⟩, hd.2⟩
    rwa [← List.append_assoc]

theorem text_ofPieces (ps : List Piece) : (ofPieces ps).text = ps.flatMap Piece.text := by
  induction ps with
  | nil => rfl
  | cons p ps ih =>
    cases p with
    | char c => rw [ofPieces, text_cons, ih, List.flatMap_cons, Piece.text, List.singleton_append]
    | placeholder name => rw [ofPieces, text, ih, List.flatMap_cons, List.nil_append]

theorem filled_ofPieces (values : List (Text × Text)) (ps : List Piece) :
    (ofPieces ps).filled values = ps.flatMap (Piece.resolve values) := by
  induction ps with
  | nil => rfl
  | cons p ps ih =>
    cases p with
    | char c =>
      rw [ofPieces, filled_cons, ih, List.flatMap_cons, Piece.resolve, List.singleton_append]
    | placeholder name =>
      rw [ofPieces, filled, ih, List.flatMap_cons, resolve_placeholder, List.nil_append]

theorem ofPieces_map_char_append (literal : Text) (ps : List Piece) :
    ofPieces (literal.map .char ++ ps) = literal.foldr cons (ofPieces ps) := by
  induction literal with
  | nil => rfl
  | cons c rest ih => rw [List.map_cons, List.cons_append, ofPieces, ih, List.foldr_cons]

theorem foldr_cons_last (s literal : Text) :
    s.foldr cons (.last literal) = .last (s ++ literal) := by
  induction s with
  | nil => rfl
  | cons c rest ih => rw [List.foldr_cons, ih, cons, List.cons_append]

theorem foldr_cons_placeholder (s literal name : Text) (next : Division) :
    s.foldr cons (.placeholder literal name next) = .placeholder (s ++ literal) name next := by
  induction s with
  | nil => rfl
  | cons c rest ih => rw [List.foldr_cons, ih, cons, List.cons_append]

theorem text_ofPieces_pieces (s : Text) : (ofPieces (pieces s)).text = s := by
  rw [text_ofPieces, text_pieces]

/-- What the pieces of a text make up is leftmost. -/
theorem isLeftmost_ofPieces_pieces (s : Text) : (ofPieces (pieces s)).IsLeftmost := by
  fun_induction pieces s with
  | case1 => exact isLiteral_nil []
  | case2 rest name after h _ ih => exact ⟨isLiteral_nil _, (name?_eq_some.1 h).1, ih⟩
  | case3 rest h ih =>
    refine ih.cons ?_
    rw [text_ofPieces_pieces, startsPlaceholder_iff, h]
    exact fun hs => Bool.false_ne_true hs.2
  | case4 c rest h ih =>
    refine ih.cons ?_
    rw [startsPlaceholder_iff]
    exact fun hs => h hs.1

/-- A leftmost division is what the pieces of its text make up. -/
theorem ofPieces_pieces_text {d : Division} (h : d.IsLeftmost) : ofPieces (pieces d.text) = d := by
  induction d with
  | last literal =>
    have hp : pieces literal = literal.map .char ++ pieces [] := by
      have := pieces_literal h
      rwa [List.append_nil] at this
    rw [text, hp, pieces, ofPieces_map_char_append, ofPieces, foldr_cons_last, List.append_nil]
  | placeholder literal name next ih =>
    obtain ⟨hl, hname, hnext⟩ := h
    rw [text, List.append_assoc, pieces_literal hl, pieces_placeholder hname,
      ofPieces_map_char_append, ofPieces, ih hnext, foldr_cons_placeholder, List.append_nil]

end Division

/-- **A round scans from left to right.** Every text has one division in which no literal
part has a place at which a placeholder starts. A round leaves the literal parts as they
are, puts the value that a name had before the round in the place of its placeholder, and
only then collapses doubled braces: a value that is put in is not searched again. -/
theorem round_scans (s : Text) :
    ∃ d : Division, d.text = s ∧ d.IsLeftmost ∧
      (∀ d' : Division, d'.text = s → d'.IsLeftmost → d' = d) ∧
      ∀ values : List (Text × Text), substitute values s = d.filled values ∧
        ∀ key, Entries.get? key values = some s →
          Entries.get? key (round values) =
            some (Text.collapse '}' (Text.collapse '{' (d.filled values))) := by
  refine ⟨.ofPieces (pieces s), Division.text_ofPieces_pieces s,
    Division.isLeftmost_ofPieces_pieces s, ?_, fun values => ?_⟩
  · rintro d rfl hd
    exact (Division.ofPieces_pieces_text hd).symm
  · have hfilled := (Division.filled_ofPieces values (pieces s)).symm
    refine ⟨hfilled, fun key hk => ?_⟩
    rw [round, Entries.get?_map, hk, Option.map_some, resolve, substitute, hfilled]

example : pieces "\x7b\x7d\x7d\x7ba \x7bb\x7d" =
    .placeholder "\x7d" :: (Text.ofString "\x7ba ").map .char ++ [.placeholder "b"] := by cbv

end FirmwareBuild.Preferences
