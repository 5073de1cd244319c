import FirmwareBuild.Board
import FirmwareBuild.Proofs.Entries
import FirmwareBuild.Proofs.Except
import FirmwareBuild.Proofs.Path.Letters

/-! The names of boards.

`parse?_eq_some` says which texts name a board: those that a board with sound parts is written
as, with a line feed behind it or without one. A parameter may be given there more than once, and
the board has the last value of each. So the name of a board that has been named denotes it again,
and the order of its parameters does not matter (`parse_render_reordered`). -/
namespace FirmwareBuild

namespace Board

/-! ### Sound parts -/

/-- A parameter as it is written. -/
def paramText (p : Text × Text) : Text := p.1 ++ .char '=' :: p.2

/-- A part of a name between colons. -/
structure IsPart (s : Text) : Prop where
  ne_nil : s ≠ []
  solid : ∀ c ∈ s, Text.isBlank c = false
  no_colon : .char ':' ∉ s

/-- The key or the value of a parameter in a name. -/
structure IsTerm (s : Text) : Prop where
  ne_nil : s ≠ []
  solid : ∀ c ∈ s, Text.isBlank c = false
  no_comma : .char ',' ∉ s
  no_equals : .char '=' ∉ s

instance (s : Text) : Decidable (IsPart s) :=
  decidable_of_iff (s ≠ [] ∧ (∀ c ∈ s, Text.isBlank c = false) ∧ .char ':' ∉ s)
    ⟨fun h => ⟨h.1, h.2.1, h.2.2⟩, fun h => ⟨h.ne_nil, h.solid, h.no_colon⟩⟩

instance (s : Text) : Decidable (IsTerm s) :=
  decidable_of_iff (s ≠ [] ∧ (∀ c ∈ s, Text.isBlank c = false) ∧ .char ',' ∉ s ∧ .char '=' ∉ s)
    ⟨fun h => ⟨h.1, h.2.1, h.2.2.1, h.2.2.2⟩,
      fun h => ⟨h.ne_nil, h.solid, h.no_comma, h.no_equals⟩⟩

/-- A board all of whose parts can stand in a name. -/
structure IsNameable (b : Board) : Prop where
  vendor : IsPart b.vendor
  arch : IsPart b.arch
  board : IsPart b.board
  params : ∀ p ∈ b.params, IsTerm p.1 ∧ IsTerm p.2

theorem isSolid_iff {s : Text} : isSolid s = true ↔ s ≠ [] ∧ ∀ c ∈ s, Text.isBlank c = false := by
  simp [isSolid]

theorem param?_eq_some {s : Text} {p : Text × Text} :
    param? s = some p ↔
      s = paramText p ∧ (p.1 ≠ [] ∧ .char '=' ∉ p.1) ∧ p.2 ≠ [] ∧ .char '=' ∉ p.2 := by
  rw [param?, Option.bind_eq_some_iff]
  constructor
  · rintro ⟨⟨key, value⟩, hcut, h⟩
    dsimp only at h
    split at h
    · exact nomatch h
    · next hsound =>
      obtain rfl := Option.some.inj h
      rw [not_or, not_or] at hsound
      obtain ⟨hs, hkey⟩ := Text.cut_eq_some hcut
      exact ⟨hs, ⟨hsound.1, hkey⟩, hsound.2⟩
  · rintro ⟨rfl, ⟨hk, hke⟩, hv, hve⟩
    refine ⟨p, Text.cut_append p.2 hke, ?_⟩
    dsimp only
    rw [if_neg (by simp [hk, hv, hve])]

/-! ### Written parameters -/

/-- Parameters with commas between them. -/
def listing (params : List (Text × Text)) : Text :=
  List.intercalate [.char ','] (params.map paramText)

theorem renderParams_eq {params : List (Text × Text)} (h : params ≠ []) :
    renderParams params = .char ':' :: listing params := by
  rw [renderParams, if_neg (by simpa using h)]
  show [.char ':'] ++
    List.intercalate [.char ','] (params.map fun p => p.1 ++ [.char '='] ++ p.2) = _
  simp only [List.append_assoc, List.singleton_append]
  rfl

theorem render_eq (b : Board) : b.render =
    b.vendor ++ .char ':' :: (b.arch ++ .char ':' :: (b.board ++ renderParams b.params)) := by
  show b.vendor ++ [.char ':'] ++ b.arch ++ [.char ':'] ++ b.board ++ renderParams b.params = _
  simp only [List.append_assoc, List.cons_append, List.nil_append]

/-- A code point of a listing is a comma or stands in a parameter. -/
theorem mem_listing {params : List (Text × Text)} {c : CodePoint} (h : c ∈ listing params) :
    c = .char ',' ∨ ∃ p ∈ params, c ∈ p.1 ∨ c = .char '=' ∨ c ∈ p.2 := by
  rcases Text.mem_of_mem_intercalate h with h | ⟨part, hpart, hc⟩
  · exact .inl (List.mem_singleton.1 h)
  · obtain ⟨p, hp, rfl⟩ := List.mem_map.1 hpart
    rw [paramText, List.mem_append, List.mem_cons] at hc
    exact .inr ⟨p, hp, hc⟩

variable {params : List (Text × Text)}

theorem isSolid_listing (hne : params ≠ [])
    (hp : ∀ p ∈ params, IsTerm p.1 ∧ IsTerm p.2) : isSolid (listing params) = true := by
  refine isSolid_iff.2 ⟨fun hnil => ?_, fun c hc => ?_⟩
  · obtain ⟨p, rest, rfl⟩ := List.exists_cons_of_ne_nil hne
    have hequals : CodePoint.char '=' ∈ paramText p :=
      List.mem_append_right _ (List.mem_cons_self ..)
    have hmem : CodePoint.char '=' ∈ listing (p :: rest) :=
      Text.mem_intercalate_of_mem (List.mem_cons_self ..) hequals
    rw [hnil] at hmem
    exact nomatch hmem
  · rcases mem_listing hc with rfl | ⟨p, hmem, hc | rfl | hc⟩
    · decide
    · exact (hp p hmem).1.solid c hc
    · decide
    · exact (hp p hmem).2.solid c hc

/-- A text without blanks lists parameters if and only if it is how they are written. -/
theorem mapM_param?_eq_some {s : Text} (hs : isSolid s = true) :
    (s.splitOn (.char ',')).mapM param? = some params ↔
      s = listing params ∧ params ≠ [] ∧ ∀ p ∈ params, IsTerm p.1 ∧ IsTerm p.2 := by
  rw [mapM_eq_some]
  constructor
  · intro h
    have hparam : ∀ p ∈ params, ∃ part ∈ s.splitOn (.char ','), param? part = some p := by
      intro p hp
      have hmem : some p ∈ params.map some := List.mem_map.2 ⟨p, hp, rfl⟩
      rw [← h] at hmem
      exact List.mem_map.1 hmem
    have htexts : s.splitOn (.char ',') = params.map paramText := by
      refine List.ext_getElem (by simpa using congrArg List.length h) fun n hn hn' => ?_
      have hget := List.getElem_of_eq h (by simpa using hn)
      rw [List.getElem_map, List.getElem_map] at hget
      rw [List.getElem_map]
      exact (param?_eq_some.1 hget).1
    refine ⟨?_, ?_, fun p hp => ?_⟩
    · rw [listing, ← htexts]
      exact (List.intercalate_splitOn _).symm
    · rintro rfl
      exact List.splitOn_ne_nil _ _ htexts
    · obtain ⟨part, hpart, hp⟩ := hparam p hp
      obtain ⟨rfl, hkey, hvalue⟩ := param?_eq_some.1 hp
      have hsolid : ∀ c ∈ paramText p, Text.isBlank c = false := by
        intro c hc
        refine (isSolid_iff.1 hs).2 c ?_
        have hall : [.char ','].intercalate (s.splitOn (.char ',')) = s :=
          List.intercalate_splitOn _
        rw [← hall]
        exact Text.mem_intercalate_of_mem hpart hc
      have hcomma : .char ',' ∉ paramText p := Path.not_mem_of_mem_splitOn hpart
      rw [paramText, List.mem_append, List.mem_cons, not_or, not_or] at hcomma
      exact ⟨⟨hkey.1, fun c hc => hsolid c (List.mem_append_left _ hc), hcomma.1, hkey.2⟩,
        ⟨hvalue.1, fun c hc => hsolid c (List.mem_append_right _ (List.mem_cons_of_mem _ hc)),
          hcomma.2.2, hvalue.2⟩⟩
  · rintro ⟨rfl, hne, hp⟩
    have hcomma : ∀ part ∈ params.map paramText, CodePoint.char ',' ∉ part := by
      intro part hpart hmem
      obtain ⟨p, hmem', rfl⟩ := List.mem_map.1 hpart
      rw [paramText, List.mem_append, List.mem_cons] at hmem
      rcases hmem with hmem | hmem | hmem
      · exact (hp p hmem').1.no_comma hmem
      · exact absurd hmem (by decide)
      · exact (hp p hmem').2.no_comma hmem
    rw [listing, List.splitOn_intercalate _ hcomma (by simpa using hne), List.map_map]
    refine List.map_congr_left fun p hmem => ?_
    obtain ⟨hkey, hvalue⟩ := hp p hmem
    exact param?_eq_some.2 ⟨rfl, ⟨hkey.ne_nil, hkey.no_equals⟩, hvalue.ne_nil, hvalue.no_equals⟩

/-! ### Parts of a name -/

theorem isPart_iff {s : Text} : IsPart s ↔ isSolid s = true ∧ .char ':' ∉ s := by
  rw [isSolid_iff]
  exact ⟨fun h => ⟨⟨h.ne_nil, h.solid⟩, h.no_colon⟩, fun h => ⟨h.1.1, h.1.2, h.2⟩⟩

/-- What follows the board in a name. -/
def behindBoard : Option Text → Text
  | none => []
  | some params => .char ':' :: params

theorem parts?_eq_some {s vendor arch board : Text} {params : Option Text} :
    parts? s = some (vendor, arch, board, params) ↔
      s = vendor ++ .char ':' :: (arch ++ .char ':' :: (board ++ behindBoard params)) ∧
        .char ':' ∉ vendor ∧ .char ':' ∉ arch ∧ .char ':' ∉ board := by
  rw [parts?]
  constructor
  · intro h
    obtain ⟨⟨v, rest⟩, hcut, h⟩ := Option.bind_eq_some_iff.1 h
    obtain ⟨⟨a, rest'⟩, hcut', h⟩ := Option.bind_eq_some_iff.1 h
    obtain ⟨hs, hv⟩ := Text.cut_eq_some hcut
    obtain ⟨hrest, ha⟩ := Text.cut_eq_some hcut'
    dsimp only at h
    cases hlast : Text.cut (.char ':') rest' with
    | none =>
      rw [hlast] at h
      simp only [Option.some.injEq, Prod.mk.injEq] at h
      obtain ⟨rfl, rfl, rfl, rfl⟩ := h
      exact ⟨by rw [hs, hrest, behindBoard, List.append_nil], hv, ha, Text.cut_eq_none.1 hlast⟩
    | some p =>
      rw [hlast] at h
      simp only [Option.some.injEq, Prod.mk.injEq] at h
      obtain ⟨rfl, rfl, rfl, rfl⟩ := h
      obtain ⟨hrest', hb⟩ := Text.cut_eq_some hlast
      exact ⟨by rw [hs, hrest, hrest', behindBoard], hv, ha, hb⟩
  · rintro ⟨rfl, hv, ha, hb⟩
    refine Option.bind_eq_some_iff.2 ⟨_, Text.cut_append _ hv, ?_⟩
    refine Option.bind_eq_some_iff.2 ⟨_, Text.cut_append _ ha, ?_⟩
    dsimp only
    cases params with
    | none => rw [behindBoard, List.append_nil, Text.cut_eq_none.2 hb]
    | some params => rw [behindBoard, Text.cut_append params hb]

/-- What may follow a name without being part of it. -/
def IsTail (s : Text) : Prop := s = [] ∨ s = [.char '\n']

theorem exists_tail (s : Text) : ∃ tail, IsTail tail ∧ s = dropFinalFeed s ++ tail := by
  rw [dropFinalFeed]
  split
  · next h =>
    obtain ⟨init, rfl⟩ := List.getLast?_eq_some_iff.1 h
    exact ⟨_, .inr rfl, by rw [List.dropLast_concat]⟩
  · exact ⟨[], .inl rfl, (List.append_nil s).symm⟩

theorem dropFinalFeed_append {s tail : Text} (hs : .char '\n' ∉ s) (ht : IsTail tail) :
    dropFinalFeed (s ++ tail) = s := by
  rcases ht with rfl | rfl
  · rw [List.append_nil, dropFinalFeed, if_neg fun h => hs (List.mem_of_getLast? h)]
  · rw [dropFinalFeed, List.getLast?_concat, if_pos rfl, List.dropLast_concat]

/-! ### Names -/

theorem solid_render {b : Board} (h : b.IsNameable) :
    ∀ c ∈ b.render, Text.isBlank c = false := by
  have hcolon : Text.isBlank (.char ':') = false := by decide
  have hparams : ∀ c ∈ renderParams b.params, Text.isBlank c = false := by
    by_cases hp : b.params = []
    · rw [hp]
      exact nofun
    · rw [renderParams_eq hp]
      exact List.forall_mem_cons.2 ⟨hcolon, (isSolid_iff.1 (isSolid_listing hp h.params)).2⟩
  intro c hc
  rw [render_eq, List.mem_append, List.mem_cons, List.mem_append, List.mem_cons,
    List.mem_append] at hc
  rcases hc with hc | rfl | hc | rfl | hc | hc
  · exact h.vendor.solid c hc
  · exact hcolon
  · exact h.arch.solid c hc
  · exact hcolon
  · exact h.board.solid c hc
  · exact hparams c hc

/-- **What names a board.** A text names a board if and only if, but for a line feed at its end, it
is how a nameable board is written whose parameters amount to those of the named one. -/
theorem parse?_eq_some {s : Text} {b : Board} :
    parse? s = some b ↔ ∃ params tail, s = render { b with params } ++ tail ∧ IsTail tail ∧
      IsNameable { b with params } ∧ b.params = Entries.ofList params := by
  rw [parse?]
  constructor
  · intro h
    obtain ⟨⟨vendor, arch, board, rest⟩, hparts, h⟩ := Option.bind_eq_some_iff.1 h
    obtain ⟨tail, htail, hs⟩ := exists_tail s
    obtain ⟨hname, hv, ha, hb⟩ := parts?_eq_some.1 hparts
    rw [hname] at hs
    dsimp only at h
    split at h
    · next hsolid =>
      rw [Bool.and_eq_true, Bool.and_eq_true] at hsolid
      obtain ⟨⟨hsv, hsa⟩, hsb⟩ := hsolid
      have hv := isPart_iff.2 ⟨hsv, hv⟩
      have ha := isPart_iff.2 ⟨hsa, ha⟩
      have hb := isPart_iff.2 ⟨hsb, hb⟩
      cases rest with
      | none =>
        obtain rfl := Option.some.inj h
        exact ⟨[], tail, by rw [hs, render_eq]; rfl, htail, ⟨hv, ha, hb, nofun⟩, rfl⟩
      | some rest =>
        dsimp only at h
        split at h
        · next hrest =>
          obtain ⟨amount, hamount, rfl⟩ := Option.map_eq_some_iff.1 h
          obtain ⟨params, hparams, rfl⟩ := Option.map_eq_some_iff.1 hamount
          obtain ⟨rfl, hne, hp⟩ := (mapM_param?_eq_some hrest).1 hparams
          refine ⟨params, tail, ?_, htail, ⟨hv, ha, hb, hp⟩, rfl⟩
          rw [hs, render_eq, renderParams_eq hne]
          rfl
        · exact nomatch h
    · exact nomatch h
  · rintro ⟨params, tail, rfl, htail, hn, hb⟩
    have hfeed : .char '\n' ∉ render { b with params } := fun h =>
      absurd (solid_render hn _ h) (by decide)
    have hv := isPart_iff.1 hn.vendor
    have ha := isPart_iff.1 hn.arch
    have hbd := isPart_iff.1 hn.board
    have hparts : (isSolid b.vendor && isSolid b.arch && isSolid b.board) = true := by
      rw [Bool.and_eq_true, Bool.and_eq_true]
      exact ⟨⟨hv.1, ha.1⟩, hbd.1⟩
    rw [dropFinalFeed_append hfeed htail]
    by_cases hp : params = []
    · have hcut : parts? (render { b with params }) = some (b.vendor, b.arch, b.board, none) := by
        refine parts?_eq_some.2 ⟨?_, hv.2, ha.2, hbd.2⟩
        rw [render_eq, hp]
        rfl
      refine Option.bind_eq_some_iff.2 ⟨_, hcut, ?_⟩
      dsimp only
      rw [hp] at hb
      have hb : b.params = [] := hb
      rw [if_pos hparts, ← hb]
    · have hcut : parts? (render { b with params }) =
          some (b.vendor, b.arch, b.board, some (listing params)) := by
        refine parts?_eq_some.2 ⟨?_, hv.2, ha.2, hbd.2⟩
        rw [render_eq, renderParams_eq hp]
        rfl
      have hsolid := isSolid_listing hp hn.params
      refine Option.bind_eq_some_iff.2 ⟨_, hcut, ?_⟩
      dsimp only
      rw [if_pos hparts, if_pos hsolid, params?,
        (mapM_param?_eq_some hsolid).2 ⟨rfl, hp, hn.params⟩, Option.map_some, Option.map_some,
        ← hb]

theorem parse_eq_ok {s : Text} {b : Board} : parse s = .ok b ↔ parse? s = some b := by
  rw [parse]
  cases parse? s with
  | none => exact ⟨nofun, nofun⟩
  | some c => rw [Except.ok.injEq, Option.some.injEq]

/-- A board that has been named is nameable, and its parameters have distinct keys. -/
theorem isNameable_of_parse? {s : Text} {b : Board} (h : parse? s = some b) :
    b.IsNameable ∧ (Entries.keys b.params).Nodup := by
  obtain ⟨params, tail, -, -, hn, hb⟩ := parse?_eq_some.1 h
  constructor
  · refine ⟨hn.vendor, hn.arch, hn.board, fun p hp => hn.params p (Entries.mem_of_mem_ofList ?_)⟩
    rwa [← hb]
  · rw [hb]
    exact Entries.nodup_ofList params

/-- A nameable board is denoted by how it is written, with parameters in any order. -/
theorem parse_render {b : Board} (hb : b.IsNameable) (hn : (Entries.keys b.params).Nodup)
    {tail : Text} (ht : IsTail tail) : parse (b.render ++ tail) = .ok b :=
  parse_eq_ok.2 (parse?_eq_some.2
    ⟨b.params, tail, rfl, ht, hb, (Entries.ofList_of_nodup hn).symm⟩)

/-! ### The order of parameters -/

theorem same_of_perm {b : Board} (hn : (Entries.keys b.params).Nodup)
    {params : List (Text × Text)} (hp : params.Perm b.params) :
    same { b with params } b = true := by
  have hall : ∀ p ∈ params, Entries.get? p.1 b.params = some p.2 := fun p hmem =>
    Entries.get?_of_mem hn (hp.mem_iff.1 hmem)
  simpa [same, hp.length_eq] using hall

/-- Whether a text is a name whose parameters have distinct keys, and another text is this name
with its parameters in another order. -/
def Reorders (s t : Text) : Prop :=
  ∃ (b : Board) (params : List (Text × Text)) (tail : Text), b.IsNameable ∧ IsTail tail ∧
    s = b.render ++ tail ∧ t = render { b with params } ++ tail ∧
    (Entries.keys b.params).Nodup ∧ params.Perm b.params

/-- **Names are faithful.** If a text names a board, then how the board is written names the very
same board, and so does, up to the order of parameters, the text with its parameters in another
order. -/
theorem parse_render_reordered {s : Text} {b : Board} (h : parse s = .ok b) :
    parse b.render = .ok b ∧
      ∀ t, Reorders s t → ∃ c, parse t = .ok c ∧ same c b = true ∧ same b c = true := by
  obtain ⟨hb, hn⟩ := isNameable_of_parse? (parse_eq_ok.1 h)
  constructor
  · have := parse_render hb hn (.inl rfl)
    rwa [List.append_nil] at this
  · rintro t ⟨named, params, tail, hnamed, ht, rfl, rfl, hkeys, hp⟩
    obtain rfl : named = b := Except.ok.inj ((parse_render hnamed hkeys ht).symm.trans h)
    have hkeys' : (Entries.keys params).Nodup := (hp.map Prod.fst).nodup_iff.2 hkeys
    have hreordered : IsNameable { named with params } :=
      ⟨hnamed.vendor, hnamed.arch, hnamed.board, fun p hmem => hnamed.params p (hp.mem_iff.1 hmem)⟩
    exact ⟨{ named with params }, parse_render hreordered hkeys' ht, same_of_perm hkeys hp,
      same_of_perm (b := { named with params }) hkeys' hp.symm⟩

/-- A board whose parameters hold colons. -/
def colons : Board := ⟨"v", "a", "b", [("x", "1:2"), ("y:", "3")]⟩

theorem parse_render_reordered_colons :
    parse "v:a:b:x=1:2,y:=3\n" = .ok colons ∧ parse colons.render = .ok colons ∧
      ∃ c, parse "v:a:b:y:=3,x=1:2\n" = .ok c ∧ same c colons = true ∧ same colons c = true := by
  have hparse : parse "v:a:b:x=1:2,y:=3\n" = .ok colons := by decide
  obtain ⟨hrender, hreordered⟩ := parse_render_reordered hparse
  refine ⟨hparse, hrender, hreordered _ ⟨colons, [("y:", "3"), ("x", "1:2")], [.char '\n'], ?_⟩⟩
  have hnamed := isNameable_of_parse? (parse_eq_ok.1 hparse)
  exact ⟨hnamed.1, .inr rfl, by decide, by decide, hnamed.2, .swap ..⟩

end Board
end FirmwareBuild
