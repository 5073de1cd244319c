import FirmwareBuild.Proofs.Board

/-! The grammar of board names.

A name is made of three parts with colons between them, and behind a further colon it may list
parameters with commas between them (`Names`). `parse_iff_names` says that these texts, with a line
feed behind them or without one, are the ones that are read as a board, that the board is the one
that the grammar gives, and that any other text is refused as it stands. -/
namespace FirmwareBuild

namespace Board

/-! ### The grammar -/

/-- Whether a text lists parameters: a key, an equals sign and a value each. -/
inductive Lists : Text → List (Text × Text) → Prop
  | one {key value} : IsTerm key → IsTerm value →
      Lists (key ++ .char '=' :: value) [(key, value)]
  | more {key value rest params} : IsTerm key → IsTerm value → Lists rest params →
      Lists (key ++ .char '=' :: (value ++ .char ',' :: rest)) ((key, value) :: params)

/-- What parameters come to that are read from left to right: a repeated key keeps its first place
and its last value. -/
structure ComeTo (listed params : List (Text × Text)) : Prop where
  places : Entries.keys params = (Entries.keys listed).eraseDups
  values : ∀ key, Entries.get? key params = Entries.get? key listed.reverse

/-- Whether a text is the name of a board. -/
inductive Names : Text → Board → Prop
  | plain {vendor arch board} : IsPart vendor → IsPart arch → IsPart board →
      Names (vendor ++ .char ':' :: (arch ++ .char ':' :: board)) ⟨vendor, arch, board, []⟩
  | withParams {vendor arch board text listed params} : IsPart vendor → IsPart arch →
      IsPart board → Lists text listed → ComeTo listed params →
      Names (vendor ++ .char ':' :: (arch ++ .char ':' :: (board ++ .char ':' :: text)))
        ⟨vendor, arch, board, params⟩

/-! ### Lists of parameters -/

theorem listing_cons (p : Text × Text) {params : List (Text × Text)} (h : params ≠ []) :
    listing (p :: params) = paramText p ++ .char ',' :: listing params := by
  obtain ⟨q, rest, rfl⟩ := List.exists_cons_of_ne_nil h
  rw [listing, List.map_cons, List.map_cons, List.intercalate_cons_cons, List.append_assoc]
  rfl

theorem lists_iff {s : Text} {params : List (Text × Text)} :
    Lists s params ↔ s = listing params ∧ params ≠ [] ∧ ∀ p ∈ params, IsTerm p.1 ∧ IsTerm p.2 := by
  constructor
  · intro h
    induction h with
    | @one key value hkey hvalue =>
      refine ⟨?_, List.cons_ne_nil _ _, fun p hp => ?_⟩
      · rw [listing, List.map_singleton, List.intercalate_singleton]
        rfl
      · rw [List.mem_singleton.1 hp]
        exact ⟨hkey, hvalue⟩
    | @more key value rest params hkey hvalue _ ih =>
      obtain ⟨rfl, hne, hterms⟩ := ih
      refine ⟨?_, List.cons_ne_nil _ _, List.forall_mem_cons.2 ⟨⟨hkey, hvalue⟩, hterms⟩⟩
      rw [listing_cons _ hne, paramText, List.append_assoc, List.cons_append]
  · rintro ⟨rfl, hne, hterms⟩
    induction params with
    | nil => exact absurd rfl hne
    | cons p rest ih =>
      obtain ⟨⟨hkey, hvalue⟩, hrest⟩ := List.forall_mem_cons.1 hterms
      by_cases hnil : rest = []
      · subst hnil
        rw [listing, List.map_singleton, List.intercalate_singleton]
        exact .one hkey hvalue
      · rw [listing_cons p hnil, paramText, List.append_assoc, List.cons_append]
        exact .more hkey hvalue (ih hnil hrest)

/-- Parameters come to one map only, that of putting them in one after the other. -/
theorem comeTo_iff {listed params : List (Text × Text)} :
    ComeTo listed params ↔ params = Entries.ofList listed := by
  constructor
  · intro h
    have hkeys : Entries.keys (Entries.ofList listed) = Entries.keys params := by
      rw [Entries.keys_ofList, h.places]
    refine (Entries.ext_of_keys (Entries.nodup_ofList listed) hkeys fun key => ?_).symm
    rw [Entries.get?_ofList, h.values]
  · rintro rfl
    exact ⟨Entries.keys_ofList listed, Entries.get?_ofList listed⟩

/-! ### Names -/

/-- The names of a board are how it is written, with any parameters that come to its own. -/
theorem names_iff {s : Text} {b : Board} :
    Names s b ↔ ∃ listed, s = render { b with params := listed } ∧
      IsNameable { b with params := listed } ∧ b.params = Entries.ofList listed := by
  constructor
  · intro h
    cases h with
    | plain hv ha hb =>
      refine ⟨[], ?_, ⟨hv, ha, hb, nofun⟩, rfl⟩
      simp [render_eq, renderParams]
    | @withParams vendor arch board text listed params hv ha hb hlists hcome =>
      obtain ⟨rfl, hne, hterms⟩ := lists_iff.1 hlists
      refine ⟨listed, ?_, ⟨hv, ha, hb, hterms⟩, comeTo_iff.1 hcome⟩
      rw [render_eq, renderParams_eq hne]
  · rintro ⟨listed, rfl, hn, hparams⟩
    obtain ⟨vendor, arch, board, params⟩ := b
    rw [render_eq]
    by_cases hne : listed = []
    · subst hne
      obtain rfl : params = [] := hparams
      simpa [renderParams] using Names.plain hn.vendor hn.arch hn.board
    · rw [renderParams_eq hne]
      exact .withParams hn.vendor hn.arch hn.board (lists_iff.2 ⟨rfl, hne, hn.params⟩)
        (comeTo_iff.2 hparams)

/-- **The texts that are read as a board.** A text is read as a board if and only if it is a name of
this board, or such a name and one line feed. Any other text is refused as malformed. -/
theorem parse_iff_names (s : Text) :
    (∀ b, parse s = .ok b ↔ ∃ name tail, s = name ++ tail ∧ IsTail tail ∧ Names name b) ∧
    (parse s = .error (.malformed s) ↔
      ¬∃ b name tail, s = name ++ tail ∧ IsTail tail ∧ Names name b) := by
  have hread : ∀ b, parse s = .ok b ↔
      ∃ name tail, s = name ++ tail ∧ IsTail tail ∧ Names name b := by
    intro b
    rw [parse_eq_ok, parse?_eq_some]
    constructor
    · rintro ⟨listed, tail, rfl, htail, hn, hb⟩
      exact ⟨_, tail, rfl, htail, names_iff.2 ⟨listed, rfl, hn, hb⟩⟩
    · rintro ⟨_, tail, rfl, htail, hnames⟩
      obtain ⟨listed, rfl, hn, hb⟩ := names_iff.1 hnames
      exact ⟨listed, tail, rfl, htail, hn, hb⟩
  refine ⟨hread, ?_⟩
  simp only [← hread]
  rw [parse]
  cases parse? s with
  | none => simp
  | some b => simp

/-- The last value of a parameter counts, at its first place. -/
example : parse "v:a:b:x=1,y=:,x=3\n" = .ok ⟨"v", "a", "b", [("x", "3"), ("y", ":")]⟩ := by
  decide

end Board
end FirmwareBuild
