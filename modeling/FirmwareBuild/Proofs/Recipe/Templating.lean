import FirmwareBuild.BuildConfig
import FirmwareBuild.Proofs.Host.Action
import FirmwareBuild.Proofs.Preferences.Resolution
import FirmwareBuild.Proofs.Recipe.Pieces

/-! Templating in two stages.

A recipe is filled in twice: with the preferences once, when the configuration is made, and
with the files of a call later. In between, the names of the files stand as words behind
percent signs, which is what the reserved preferences are for. `expand_ofPreferences` says
that this is as good as filling in everything at once, as long as nothing else in the
recipe looks like such a word (`IsDelimited`). -/
namespace FirmwareBuild

open Preferences (Piece Resolves ResolvesTo Leads IsTemplate nothing pieces textOf)

namespace Recipe

/-- What a call gives for the name of a placeholder. -/
def Params.given (p : Params) (name : Text) : Option Text :=
  if name = "source_file" then some p.sourceFile
  else if name = "object_file" then some p.objectFile
  else if name = "includes" then some p.includes
  else if name = "archive_file" ∨ name = "archive_file_path" then some p.archiveFile
  else none

/-- The same as pieces, none of which is a placeholder. -/
def Params.filling (p : Params) (name : Text) : Option (List Preferences.Piece) :=
  (p.given name).map (·.map .char)

end Recipe

namespace BuildConfig

open Recipe (Params)

/-- Whether a preference is overridden for recipes. -/
def isReserved (name : Text) : Bool := (reserved.map fun e => (e.1 : Text)).contains name

/-- Reserved names are kept as they are. -/
def kept (name : Text) : Option (List Piece) :=
  if isReserved name then some [.placeholder name] else none

/-- What stands for a piece in a stored recipe. -/
def storedText : Piece → Text
  | .char c => [c]
  | .placeholder name => ((reserve ⟨[]⟩).unexpanded? name).getD []

/-- What stands for a piece in a call. -/
def filledText (p : Params) : Piece → Text
  | .char c => [c]
  | .placeholder name => (p.given name).getD []

/-- Whether pieces begin with a word character. -/
def BeginsWord : List Piece → Prop
  | .char c :: _ => Text.isWordChar c = true
  | _ => False

/-- No word character stands behind a percent sign or behind a placeholder. -/
def IsDelimited : List Piece → Prop
  | [] => True
  | .char c :: us => (c = .char '%' → ¬BeginsWord us) ∧ IsDelimited us
  | .placeholder _ :: us => ¬BeginsWord us ∧ IsDelimited us

/-- The recipes of a configuration, by the step that each is for. -/
def recipes (c : BuildConfig) : List (Text × Json) :=
  [("c.o", c.cCompiler), ("cpp.o", c.cppCompiler), ("S.o", c.assembler), ("ar", c.archiver)]

/-! ### Reserved preferences -/

theorem isReserved_iff {name : Text} : isReserved name = true ↔
    name = "source_file" ∨ name = "object_file" ∨ name = "includes" ∨ name = "archive_file" ∨
      name = "archive_file_path" := by
  simp [isReserved, reserved]

theorem unexpanded?_reserve_eq (name : Text) (prefs : Preferences) :
    (reserve prefs).unexpanded? name =
      if ("archive_file_path" : Text) = name then some ("%archive_file" : Text)
      else if ("archive_file" : Text) = name then some ("%archive_file" : Text)
      else if ("includes" : Text) = name then some ("%includes" : Text)
      else if ("object_file" : Text) = name then some ("%object_file" : Text)
      else if ("source_file" : Text) = name then some ("%source_file" : Text)
      else prefs.unexpanded? name := by
  simp only [reserve, reserved, List.foldl_cons, List.foldl_nil, Preferences.unexpanded?_set]

/-- A reserved preference is a percent sign and a word for which a call has the value that
is given for the name. -/
theorem exists_word {name : Text} (h : isReserved name = true) :
    ∃ word : Text, word ≠ [] ∧ (∀ c ∈ word, Text.isWordChar c = true) ∧
      (∀ prefs : Preferences, (reserve prefs).unexpanded? name = some (.char '%' :: word)) ∧
      ∀ p : Params, p.given name = some (p.value word) := by
  rcases isReserved_iff.1 h with rfl | rfl | rfl | rfl | rfl
  · exact ⟨"source_file", by decide, by decide,
      fun prefs => by rw [unexpanded?_reserve_eq]; rfl, fun p => rfl⟩
  · exact ⟨"object_file", by decide, by decide,
      fun prefs => by rw [unexpanded?_reserve_eq]; rfl, fun p => rfl⟩
  · exact ⟨"includes", by decide, by decide,
      fun prefs => by rw [unexpanded?_reserve_eq]; rfl, fun p => rfl⟩
  · exact ⟨"archive_file", by decide, by decide,
      fun prefs => by rw [unexpanded?_reserve_eq]; rfl, fun p => rfl⟩
  · exact ⟨"archive_file", by decide, by decide,
      fun prefs => by rw [unexpanded?_reserve_eq]; rfl, fun p => rfl⟩

theorem unexpanded?_reserve {name : Text} (h : ¬isReserved name = true) (prefs : Preferences) :
    (reserve prefs).unexpanded? name = prefs.unexpanded? name := by
  rw [isReserved_iff] at h
  simp only [not_or, ← ne_eq] at h
  obtain ⟨hs, ho, hi, ha, hp⟩ := h
  rw [unexpanded?_reserve_eq, if_neg hp.symm, if_neg ha.symm, if_neg hi.symm, if_neg ho.symm,
    if_neg hs.symm]

/-! ### The stored recipe -/

/-- Word characters are no braces. -/
theorem not_isBrace_of_isWordChar {c : CodePoint} (h : Text.isWordChar c = true) :
    Preferences.isBrace c = false := by
  cases hb : Preferences.isBrace c with
  | false => rfl
  | true =>
    rw [Preferences.isBrace, Bool.or_eq_true, beq_iff_eq, beq_iff_eq] at hb
    rcases hb with rfl | rfl
    · exact absurd h (by decide)
    · exact absurd h (by decide)

theorem pieces_reserved {word : Text} (hw : ∀ c ∈ word, Text.isWordChar c = true) :
    pieces (.char '%' :: word) = (CodePoint.char '%' :: word).map .char := by
  apply Preferences.pieces_of_no_brace
  intro c hc
  rcases List.mem_cons.1 hc with rfl | hc
  · decide
  · exact not_isBrace_of_isWordChar (hw c hc)

theorem storedText_of_isReserved {name word : Text}
    (hr : ∀ prefs : Preferences, (reserve prefs).unexpanded? name = some (.char '%' :: word)) :
    storedText (.placeholder name) = .char '%' :: word := by
  rw [storedText, hr]
  rfl

/-- Code points stand for themselves. -/
theorem eq_of_resolves_chars {given : Text → Option (List Piece)} {values : List (Text × Text)}
    {s : Text} {qs : List Piece} (h : Resolves given values (s.map .char) qs) :
    qs = s.map .char := by
  induction s generalizing qs with
  | nil => cases h; rfl
  | cons c rest ih =>
    cases h with
    | char h => rw [ih h, List.map_cons]

theorem isReserved_of_mem {values : List (Text × Text)} {ps us : List Piece}
    (h : Resolves kept values ps us) : ∀ name, .placeholder name ∈ us → isReserved name = true := by
  induction h with
  | nil => exact fun _ hm => nomatch hm
  | char _ ih => exact fun name hm => ih name (by simpa using hm)
  | @given name us ps qs hg _ ih =>
    intro n hm
    rw [kept] at hg
    split at hg
    · next hr =>
      rw [Option.some.injEq] at hg
      subst hg
      rcases List.mem_cons.1 hm with he | hm
      · rw [Piece.placeholder.injEq] at he
        rwa [he]
      · exact ih n hm
    · exact nomatch hg
  | value _ _ _ _ ihv ih => exact fun n hm => (List.mem_append.1 hm).elim (ihv n) (ih n)
  | unknown _ _ _ ih =>
    exact fun n hm => (List.mem_append.1 hm).elim (fun hc => by simp at hc) (ih n)

/-- What pieces stand for once names are reserved is what they stand for with these names
kept, and each of the names overridden. -/
theorem exists_kept {prefs : Preferences} {ps qs : List Piece}
    (h : Resolves nothing (reserve prefs).values ps qs) :
    ∃ us, Resolves kept prefs.values ps us ∧ textOf qs = us.flatMap storedText := by
  induction h with
  | nil => exact ⟨[], .nil, rfl⟩
  | char _ ih =>
    obtain ⟨us, hr, ht⟩ := ih
    exact ⟨_, .char hr, by rw [Preferences.textOf_cons, ht]; rfl⟩
  | given hg => exact nomatch hg
  | @value name v vs ps qs _ hv hr _ ihv ih =>
    obtain ⟨us, hk, ht⟩ := ih
    rw [Preferences.textOf_append, ht]
    by_cases hres : isReserved name = true
    · obtain ⟨word, _, hw, hword, _⟩ := exists_word hres
      have hv' : v = .char '%' :: word :=
        Option.some.inj (hv.symm.trans (hword prefs))
      have hvs : textOf vs = .char '%' :: word := by
        rw [hv', pieces_reserved hw] at hr
        rw [eq_of_resolves_chars hr, Preferences.textOf_map_char]
      refine ⟨[.placeholder name] ++ us, .given (by rw [kept, if_pos hres]) hk, ?_⟩
      rw [hvs, List.flatMap_append, List.flatMap_singleton, storedText_of_isReserved hword]
    · have hv' : Entries.get? name prefs.values = some v :=
        (unexpanded?_reserve hres prefs).symm.trans hv
      obtain ⟨us', hk', ht'⟩ := ihv
      exact ⟨us' ++ us, .value (by rw [kept, if_neg hres]) hv' hk' hk,
        by rw [ht', List.flatMap_append]⟩
  | @unknown name ps qs _ hv _ ih =>
    obtain ⟨us, hk, ht⟩ := ih
    have hres : ¬isReserved name = true := by
      intro hres
      obtain ⟨word, _, _, hword, _⟩ := exists_word hres
      exact nomatch hv.symm.trans (hword prefs)
    have hv' : Entries.get? name prefs.values = none :=
      (unexpanded?_reserve hres prefs).symm.trans hv
    refine ⟨_, .unknown (by rw [kept, if_neg hres]) hv' hk, ?_⟩
    rw [Preferences.textOf_append, ht, Preferences.textOf_map_char, List.flatMap_append,
      Preferences.flatMap_map_char fun _ => rfl]

/-! ### The call -/

theorem given_eq_none {name : Text} (h : ¬isReserved name = true) (p : Params) :
    p.given name = none := by
  rw [isReserved_iff] at h
  simp only [not_or] at h
  obtain ⟨hs, ho, hi, ha, hp⟩ := h
  rw [Params.given, if_neg hs, if_neg ho, if_neg hi, if_neg (not_or.2 ⟨ha, hp⟩)]

theorem filling_eq_none {name : Text} (h : ¬isReserved name = true) (p : Params) :
    p.filling name = none := by
  rw [Params.filling, given_eq_none h, Option.map_none]

theorem not_isReserved_of_kept {name : Text} (h : kept name = none) : ¬isReserved name = true := by
  intro hr
  rw [kept, if_pos hr] at h
  exact nomatch h

/-- What pieces stand for in a call is what they stand for with the names kept, and each of
the names replaced by what the call gives for it. -/
theorem resolves_filling {values : List (Text × Text)} {ps us : List Piece} (p : Params)
    (h : Resolves kept values ps us) :
    Resolves p.filling values ps ((us.flatMap (filledText p)).map .char) := by
  induction h with
  | nil => exact .nil
  | char _ ih => exact .char ih
  | @given name us ps qs hg _ ih =>
    rw [kept] at hg
    split at hg
    · next hres =>
      obtain ⟨word, _, _, _, hgiven⟩ := exists_word hres
      rw [Option.some.injEq] at hg
      subst hg
      rw [List.flatMap_append, List.map_append, List.flatMap_singleton, filledText, hgiven,
        Option.getD_some]
      exact .given (by rw [Params.filling, hgiven, Option.map_some]) ih
    · exact nomatch hg
  | value hg hv _ _ ihv ih =>
    rw [List.flatMap_append, List.map_append]
    exact .value (filling_eq_none (not_isReserved_of_kept hg) p) hv ihv ih
  | unknown hg hv _ ih =>
    rw [List.flatMap_append, List.map_append, Preferences.flatMap_map_char fun _ => rfl]
    exact .unknown (filling_eq_none (not_isReserved_of_kept hg) p) hv ih

theorem endsWord_storedText {us : List Piece} (h : ¬BeginsWord us)
    (hr : ∀ name, .placeholder name ∈ us → isReserved name = true) :
    Recipe.EndsWord (us.flatMap storedText) := by
  cases us with
  | nil => rfl
  | cons u us =>
    rw [List.flatMap_cons]
    cases u with
    | char c =>
      have hc : Text.isWordChar c = false := by simpa [BeginsWord] using h
      exact Recipe.endsWord_cons.2 hc
    | placeholder name =>
      obtain ⟨word, _, _, hword, _⟩ := exists_word (hr name (List.mem_cons_self ..))
      rw [storedText_of_isReserved hword, List.cons_append, Recipe.endsWord_cons]
      decide

/-- Words that end where they should are filled in by a call as if they had never been
stored. -/
theorem fill_storedText {us : List Piece} (p : Params) (hd : IsDelimited us)
    (hr : ∀ name, .placeholder name ∈ us → isReserved name = true) :
    Recipe.fill p (us.flatMap storedText) = us.flatMap (filledText p) := by
  induction us with
  | nil => exact Recipe.fill_nil p
  | cons u us ih =>
    have hr' : ∀ name, .placeholder name ∈ us → isReserved name = true :=
      fun name hm => hr name (List.mem_cons_of_mem _ hm)
    rw [List.flatMap_cons, List.flatMap_cons]
    cases u with
    | char c =>
      show Recipe.fill p (c :: us.flatMap storedText) = c :: us.flatMap (filledText p)
      rw [Recipe.fill_char p fun hc => endsWord_storedText (hd.1 hc) hr', ih hd.2 hr']
    | placeholder name =>
      obtain ⟨word, hne, hw, hword, hgiven⟩ := exists_word (hr name (List.mem_cons_self ..))
      rw [storedText_of_isReserved hword, List.cons_append,
        Recipe.fill_word p hne hw (endsWord_storedText hd.1 hr'), ih hd.2 hr', filledText, hgiven]
      rfl

/-! ### The configuration -/

theorem requireRecipe_eq_ok {view : Preferences} {step : Text} {r : Recipe} :
    requireRecipe view step = .ok r ↔
      view.unexpanded? ("recipe." ++ step ++ ".pattern") = some r.pattern := by
  rw [requireRecipe, require]
  cases view.unexpanded? ("recipe." ++ step ++ ".pattern") with
  | none => exact ⟨nofun, nofun⟩
  | some v =>
    obtain ⟨pattern⟩ := r
    simp [Except.map]

/-- The recipes of a configuration are those of the preferences, expanded with the reserved
names. -/
theorem recipe_of_ofPreferences {prefs : Preferences} {h : Host} {target arch : Json}
    {libraries : List (Text × Path)} {c : BuildConfig}
    (hc : (h.run (ofPreferences prefs target arch libraries)).1 = .ok c) :
    ∀ r ∈ recipes c, ∃ stored, r.2 = .text stored ∧
      (reserve prefs).expanded.unexpanded? ("recipe." ++ r.1 ++ ".pattern") = some stored := by
  have hc : h.run (ofPreferences prefs target arch libraries) = (.ok c, _) := Prod.ext hc rfl
  rw [ofPreferences, Host.run_bind_eq_ok] at hc
  obtain ⟨b, h₁, hb, hc⟩ := hc
  obtain ⟨cs, h₂, _, hc⟩ := Host.run_bind_eq_ok.1 hc
  obtain ⟨cpps, h₃, _, hc⟩ := Host.run_bind_eq_ok.1 hc
  obtain ⟨hb, _⟩ := Host.run_lift_eq_ok.1 hb
  rw [Host.run_pure, Prod.mk.injEq, Except.ok.injEq] at hc
  obtain ⟨rfl, _⟩ := hc
  simp only [Basis.ofPreferences, bind_eq_ok] at hb
  obtain ⟨_, _, _, _, _, _, _, _, cc, hcc, cpp, hcpp, asm, hasm, ar, har, hb⟩ := hb
  cases hb
  intro r hr
  simp only [recipes, List.mem_cons, List.not_mem_nil, or_false] at hr
  rcases hr with rfl | rfl | rfl | rfl
  · exact ⟨cc.pattern, rfl, requireRecipe_eq_ok.1 hcc⟩
  · exact ⟨cpp.pattern, rfl, requireRecipe_eq_ok.1 hcpp⟩
  · exact ⟨asm.pattern, rfl, requireRecipe_eq_ok.1 hasm⟩
  · exact ⟨ar.pattern, rfl, requireRecipe_eq_ok.1 har⟩

/-- The key of a recipe is not reserved. -/
theorem not_isReserved_recipe (step : Text) :
    ¬isReserved ("recipe." ++ step ++ ".pattern") = true := by
  have hhead : ("recipe." ++ step ++ ".pattern" : Text).head? = some (.char 'r') := rfl
  intro hres
  rcases isReserved_iff.1 hres with h | h | h | h | h <;>
    exact absurd (h ▸ hhead) (by decide)

/-- **Two stages are one.** Let values be templates once the reserved names are overridden,
with no path of references longer than 1023. Then the recipe that a configuration keeps for a
step is made of code points and reserved names; and if no word character stands where it could
be taken for a part of a word, filling in the files of a call gives what the recipe of the
preferences stands for when the call gives the reserved names, whatever their values are. -/
theorem expand_ofPreferences {prefs : Preferences}
    (hv : ∀ e ∈ (reserve prefs).values, IsTemplate e.2)
    (hp : ∀ n k j, Leads (reserve prefs).values n k j → n ≤ 1023) {h : Host}
    {target arch : Json} {libraries : List (Text × Path)} {c : BuildConfig}
    (hc : (h.run (ofPreferences prefs target arch libraries)).1 = .ok c) :
    ∀ r ∈ recipes c, ∃ raw stored us,
      prefs.unexpanded? ("recipe." ++ r.1 ++ ".pattern") = some raw ∧ r.2 = .text stored ∧
      Resolves kept prefs.values (pieces raw) us ∧ stored = us.flatMap storedText ∧
      (IsDelimited us → ∀ p : Params,
        ResolvesTo p.filling prefs.values raw ((Recipe.mk stored).expand p)) := by
  intro r hr
  obtain ⟨stored, htext, hstored⟩ := recipe_of_ofPreferences hc r hr
  obtain ⟨raw, hraw, qs, hqs, rfl⟩ :=
    ((Preferences.expand_iff_resolvesTo hv hp).1 _ stored).1 hstored
  have hkey := not_isReserved_recipe r.1
  obtain ⟨us, hus, hstored⟩ := exists_kept hqs
  refine ⟨raw, textOf qs, us, (unexpanded?_reserve hkey prefs).symm.trans hraw, htext, hus,
    hstored, fun hd p => ⟨_, resolves_filling p hus, ?_⟩⟩
  rw [Preferences.textOf_map_char, Recipe.expand_eq_fill, hstored,
    fill_storedText p hd (isReserved_of_mem hus)]

/-- The files of a call are named over another preference, and the value of one of the
reserved names is no template. -/
def indirect : Preferences where
  values := [
    ("build.core", "a"), ("build.board", "U"), ("build.core.path", "c"),
    ("build.variant.path", "v"), ("source_file", "\x7b\x7b"),
    ("files", "\x7bsource_file\x7d\x7bobject_file\x7d"),
    ("recipe.c.o.pattern", "\x7bfiles\x7d \x7bx\x7d"), ("recipe.cpp.o.pattern", "c"),
    ("recipe.S.o.pattern", "s"), ("recipe.ar.pattern", "\x7barchive_file_path\x7d")]

theorem resolves_indirect :
    Resolves kept indirect.values (pieces ("\x7bfiles\x7d \x7bx\x7d" : Text))
      [.placeholder "source_file", .placeholder "object_file", .char ' ', .char '{', .char 'x',
        .char '}'] := by
  have hraw : pieces ("\x7bfiles\x7d \x7bx\x7d" : Text) =
      [.placeholder "files", .char ' ', .placeholder "x"] := by decide +kernel
  have hfiles : pieces ("\x7bsource_file\x7d\x7bobject_file\x7d" : Text) =
      [.placeholder "source_file", .placeholder "object_file"] := by decide +kernel
  have hus : Resolves kept indirect.values
      (pieces ("\x7bsource_file\x7d\x7bobject_file\x7d" : Text))
      ([.placeholder "source_file"] ++ ([.placeholder "object_file"] ++ [])) := by
    rw [hfiles]
    exact .given rfl (.given rfl .nil)
  rw [hraw]
  exact .value rfl rfl hus (.char (.unknown rfl rfl .nil))

theorem expand_indirect :
    ∃ c stored, ((default : Host).run (ofPreferences indirect .null .null [])).1 = .ok c ∧
      c.cCompiler = .text stored ∧ ∀ p : Params,
        ResolvesTo p.filling indirect.values ("\x7bfiles\x7d \x7bx\x7d" : Text)
          ((Recipe.mk stored).expand p) := by
  have hv : ∀ e ∈ (reserve indirect).values, IsTemplate e.2 := by decide +kernel
  have hp : ∀ n k j, Leads (reserve indirect).values n k j → n ≤ 1023 := fun n k j =>
    Leads.le_of_rank (fun k => if k = "recipe.c.o.pattern" then 2 else
      if k = "files" ∨ k = "recipe.ar.pattern" then 1 else 0) (by decide +kernel)
  have hok : ((default : Host).run (ofPreferences indirect .null .null [])).1.isOk = true := by
    decide +kernel
  obtain ⟨c, hc⟩ :
      ∃ c, ((default : Host).run (ofPreferences indirect .null .null [])).1 = .ok c := by
    cases hr : ((default : Host).run (ofPreferences indirect .null .null [])).1 with
    | ok c => exact ⟨c, rfl⟩
    | error e => rw [hr] at hok; exact nomatch hok
  obtain ⟨raw, stored, us, hraw, htext, hus, -, h⟩ :=
    expand_ofPreferences hv hp hc ("c.o", c.cCompiler) (List.mem_cons_self ..)
  have hraw' : indirect.unexpanded? ("recipe." ++ "c.o" ++ ".pattern") =
    some ("\x7bfiles\x7d \x7bx\x7d" : Text) := by decide
  obtain rfl := Option.some.inj (hraw.symm.trans hraw')
  obtain rfl := hus.unique resolves_indirect
  exact ⟨c, stored, hc, htext, h (by simp [IsDelimited, BeginsWord]; decide)⟩

end BuildConfig
end FirmwareBuild
