import FirmwareBuild.Objcopy
import FirmwareBuild.Proofs.CommandLine
import FirmwareBuild.Proofs.Except
import FirmwareBuild.Proofs.Preferences.Resolution
import FirmwareBuild.Proofs.Text.Span
import Mathlib.Data.List.Permutation

/-! Recipes for firmware files.

A preference is taken for a recipe if its key begins with the key of one: `extensionOf?_eq_some`.
As long as no key goes on behind that, the recipes are those of the formats, one for each and in
the order of their keys (`recipes_cover`); otherwise a format may have several
(`recipes_suffixed`). -/
namespace FirmwareBuild.Objcopy

/-! ### Keys -/

/-- The name of a format. -/
structure IsFormat (ext : Text) : Prop where
  ne_nil : ext ≠ []
  word : ∀ c ∈ ext, Text.isWordChar c = true

/-- The key of the recipe for a format. -/
def keyFor (ext : Text) : Text := "recipe.objcopy." ++ ext ++ ".pattern"

/-- A key is taken for that of a format if it begins with it. -/
theorem extensionOf?_eq_some {key ext : Text} :
    extensionOf? key = some ext ↔ IsFormat ext ∧ keyFor ext <+: key := by
  rw [extensionOf?, Option.bind_eq_some_iff]
  constructor
  · rintro ⟨rest, hrest, h⟩
    dsimp only at h
    split at h
    · next hfound =>
      obtain ⟨hne, hbehind⟩ := hfound
      obtain ⟨more, hmore⟩ := Option.isSome_iff_exists.1 hbehind
      rw [Text.after?, List.isPrefixOf?_eq_some_iff_append_eq] at hrest hmore
      obtain rfl := Option.some.inj h
      refine ⟨⟨hne, List.all_eq_true.1 List.all_takeWhile⟩, more, ?_⟩
      rw [keyFor, List.append_assoc, hmore, List.append_assoc, List.takeWhile_append_dropWhile,
        hrest]
    · exact nomatch h
  · rintro ⟨hf, more, rfl⟩
    have hstop : ((".pattern" ++ more : Text)).head?.any Text.isWordChar = false := by
      show Text.isWordChar (.char '.') = false
      decide
    obtain ⟨ht, hd⟩ := Text.span_append hf.word hstop
    refine ⟨ext ++ (".pattern" ++ more), ?_, ?_⟩
    · rw [Text.after?, List.isPrefixOf?_eq_some_iff_append_eq, keyFor]
      simp only [List.append_assoc]
    · have hpattern : Text.after? ".pattern" (".pattern" ++ more) = some more := by
        rw [Text.after?, List.isPrefixOf?_eq_some_iff_append_eq]
      dsimp only
      rw [ht, hd, hpattern, if_pos ⟨hf.ne_nil, rfl⟩]

/-! ### Recipes -/

/-- What the recipe at a key has to be: its key begins with the key of its format, and its command
is the expanded value without the last two arguments. -/
structure IsAt (prefs : Preferences) (key : Text) (o : Objcopy) : Prop where
  format : IsFormat o.extension
  named : keyFor o.extension <+: key
  command : ∃ value program args, prefs.get? key = some value ∧
    CommandLine.words value = program :: args ∧ o.program = .ofText program ∧
    o.args = args.take (args.length - 2)

variable {prefs : Preferences}

theorem mem_keys_iff {key : Text} : key ∈ prefs.keys ↔ ∃ value, prefs.get? key = some value := by
  rw [Preferences.keys, Text.mem_sorted, ← Preferences.keys_expand, Entries.mem_keys_iff]
  rfl

theorem ofKey?_eq_none {key : Text} (h : ∀ ext, IsFormat ext → ¬keyFor ext <+: key) :
    ofKey? prefs.expanded key = .ok none := by
  have hnone : extensionOf? key = none := by
    refine Option.eq_none_iff_forall_ne_some.2 fun ext hext => ?_
    obtain ⟨hf, hkey⟩ := extensionOf?_eq_some.1 hext
    exact h ext hf hkey
  rw [ofKey?, hnone]

/-- A value that is not blank is a recipe at such a key. -/
theorem exists_recipe {key ext value : Text} (hf : IsFormat ext) (hkey : keyFor ext <+: key)
    (hvalue : prefs.get? key = some value) (hc : ∃ c ∈ value, Text.isBlank c = false) :
    ∃ o, ofKey? prefs.expanded key = .ok (some o) ∧ o.extension = ext ∧ IsAt prefs key o := by
  have hext : extensionOf? key = some ext := extensionOf?_eq_some.2 ⟨hf, hkey⟩
  have hview : prefs.expanded.unexpanded? key = some value := hvalue
  cases hw : CommandLine.words value with
  | nil =>
    obtain ⟨c, hmem, hc⟩ := hc
    rw [CommandLine.words_eq_nil_iff.1 hw c hmem] at hc
    exact nomatch hc
  | cons program args =>
    refine ⟨⟨ext, .ofText program, args.dropLast.dropLast⟩, ?_, rfl, hf, hkey, ?_⟩
    · rw [ofKey?, hext, hview]
      simp only [CommandLine.split, hw]
      rfl
    · refine ⟨value, program, args, hvalue, hw, rfl, ?_⟩
      show args.dropLast.dropLast = _
      rw [List.dropLast_eq_take, List.dropLast_eq_take, List.take_take, List.length_take]
      congr 1
      omega

/-- Whether a key is taken for that of a format. -/
def IsNamed (key : Text) : Prop := ∃ ext, IsFormat ext ∧ keyFor ext <+: key

/-- The recipes at some of the keys: one for each that is taken for the key of a format. -/
theorem exists_recipes {keys : List Text} (hkeys : ∀ key ∈ keys, key ∈ prefs.keys)
    (hsolid : ∀ key ∈ keys, IsNamed key → ∀ value, prefs.get? key = some value →
      ∃ c ∈ value, Text.isBlank c = false) :
    ∃ found named, keys.mapM (ofKey? prefs.expanded) = .ok found ∧
      List.Forall₂ (IsAt prefs) named (found.filterMap id) ∧ named.Sublist keys ∧
      ∀ key, key ∈ named ↔ key ∈ keys ∧ IsNamed key := by
  induction keys with
  | nil => exact ⟨[], [], rfl, .nil, .slnil, by simp⟩
  | cons key rest ih =>
    obtain ⟨hkey, hrest⟩ := List.forall_mem_cons.1 hkeys
    obtain ⟨hhere, hbehind⟩ := List.forall_mem_cons.1 hsolid
    obtain ⟨found, named, hfound, hat, hsub, hmem⟩ := ih hrest hbehind
    by_cases hnamed : IsNamed key
    · obtain ⟨value, hvalue⟩ := mem_keys_iff.1 hkey
      obtain ⟨ext, hf, hbegins⟩ := id hnamed
      obtain ⟨o, ho, -, hoat⟩ := exists_recipe hf hbegins hvalue (hhere hnamed value hvalue)
      refine ⟨some o :: found, key :: named, ?_, .cons hoat hat, hsub.cons_cons key, fun k => ?_⟩
      · rw [List.mapM_cons, ho, hfound]
        rfl
      · rw [List.mem_cons, List.mem_cons, hmem, or_and_right]
        refine or_congr_left ⟨?_, And.left⟩
        rintro rfl
        exact ⟨rfl, hnamed⟩
    · have hnone : ofKey? prefs.expanded key = .ok none :=
        ofKey?_eq_none fun ext hf hbegins => hnamed ⟨ext, hf, hbegins⟩
      refine ⟨none :: found, named, ?_, hat, hsub.cons key, fun k => ?_⟩
      · rw [List.mapM_cons, hnone, hfound]
        rfl
      · rw [List.mem_cons, hmem, or_and_right]
        refine (or_iff_right ?_).symm
        rintro ⟨rfl, hk⟩
        exact hnamed hk

/-- Recipes have the keys of their formats if these keys end there. -/
theorem map_keyFor {named : List Text} {recipes : List Objcopy}
    (hat : List.Forall₂ (IsAt prefs) named recipes)
    (hends : ∀ key ∈ named, ∀ ext, IsFormat ext → keyFor ext <+: key → key = keyFor ext) :
    recipes.map (fun o => keyFor o.extension) = named := by
  induction hat with
  | nil => rfl
  | cons ho _ ih =>
    obtain ⟨hkey, hrest⟩ := List.forall_mem_cons.1 hends
    rw [List.map_cons, ih hrest, ← hkey _ ho.format ho.named]

/-- The keys stand in strictly ascending order if none stands twice. -/
theorem pairwise_keys (hn : (Entries.keys prefs.values).Nodup) :
    prefs.keys.Pairwise fun a b => Text.ascending a b = true ∧ a ≠ b :=
  List.Pairwise.and (Text.pairwise_sorted _) (Text.nodup_sorted hn)

/-- **The recipes are those of the formats.** If no key goes on behind the key of a format, and no
recipe is blank when it is expanded, there is one recipe for each key of a format and no other, in
strictly ascending order of their keys, and it is what the expanded value says. So no two of them
are for the same format. -/
theorem recipes_cover (hn : (Entries.keys prefs.values).Nodup)
    (hends : ∀ key ∈ prefs.keys, ∀ ext, IsFormat ext → keyFor ext <+: key → key = keyFor ext)
    (hsolid : ∀ ext value, IsFormat ext → prefs.get? (keyFor ext) = some value →
      ∃ c ∈ value, Text.isBlank c = false) :
    ∃ recipes, ofPreferences prefs = .ok recipes ∧
      (∀ key, key ∈ recipes.map (fun o => keyFor o.extension) ↔
        key ∈ prefs.keys ∧ ∃ ext, IsFormat ext ∧ key = keyFor ext) ∧
      (∀ o ∈ recipes, IsAt prefs (keyFor o.extension) o) ∧
      (recipes.map fun o => keyFor o.extension).Pairwise
        (fun a b => Text.ascending a b = true ∧ a ≠ b) ∧
      (recipes.map Objcopy.extension).Nodup := by
  have hblank : ∀ key ∈ prefs.keys, IsNamed key → ∀ value, prefs.get? key = some value →
      ∃ c ∈ value, Text.isBlank c = false := by
    rintro key hkey ⟨ext, hf, hbegins⟩ value hvalue
    rw [hends key hkey ext hf hbegins] at hvalue
    exact hsolid ext value hf hvalue
  obtain ⟨found, named, hfound, hat, hsub, hmem⟩ := exists_recipes (fun _ hk => hk) hblank
  have hkeys : (found.filterMap id).map (fun o => keyFor o.extension) = named :=
    map_keyFor hat fun key hk => hends key (hsub.subset hk)
  have hordered := (pairwise_keys hn).sublist hsub
  rw [← hkeys] at hat hordered
  refine ⟨found.filterMap id, ?_, fun key => ?_, ?_, hordered, ?_⟩
  · show (prefs.keys.mapM (ofKey? prefs.expanded)).map _ = _
    rw [hfound]
    rfl
  · rw [hkeys, hmem]
    refine and_congr_right fun hkey => ⟨?_, ?_⟩
    · rintro ⟨ext, hf, hbegins⟩
      exact ⟨ext, hf, hends key hkey ext hf hbegins⟩
    · rintro ⟨ext, hf, rfl⟩
      exact ⟨ext, hf, List.prefix_rfl⟩
  · exact List.forall₂_same.1 (List.forall₂_map_left_iff.1 hat)
  · have hnodup : ((found.filterMap id).map fun o => keyFor o.extension).Nodup :=
      hordered.imp And.right
    exact List.Nodup.of_map keyFor (by rwa [List.map_map])

/-- Preferences with recipes for two formats, one of them through another preference, and with
similar keys that are none. -/
def uploading : Preferences where
  values := [("recipe.objcopy.hex.pattern", "\"{path} tools/objcopy\" -O ihex in out"),
    ("path", "/opt"), ("recipe.objcopy.bin.pattern", "objcopy in"),
    ("recipe.objcopy.hex.program.pattern", "objcopy"), ("recipe.objcopy..pattern", "objcopy")]

theorem recipes_cover_uploading :
    ofPreferences uploading = .ok [⟨"bin", .ofText "objcopy", []⟩,
      ⟨"hex", .ofText "/opt tools/objcopy", ["-O", "ihex"]⟩] ∧
    (∀ key, key ∈ [keyFor "bin", keyFor "hex"] ↔
      key ∈ uploading.keys ∧ ∃ ext, IsFormat ext ∧ key = keyFor ext) ∧
    IsAt uploading (keyFor "hex") ⟨"hex", .ofText "/opt tools/objcopy", ["-O", "ihex"]⟩ := by
  have hends : ∀ key ∈ uploading.keys, ∀ ext, IsFormat ext → keyFor ext <+: key →
      key = keyFor ext := by
    have hall : ∀ key ∈ Entries.keys uploading.values,
        ∀ ext ∈ extensionOf? key, key = keyFor ext := by decide +kernel
    exact fun key hkey ext hf hbegins =>
      hall key (Text.mem_sorted.1 hkey) ext (extensionOf?_eq_some.2 ⟨hf, hbegins⟩)
  have hsolid : ∀ ext value, IsFormat ext → uploading.get? (keyFor ext) = some value →
      ∃ c ∈ value, Text.isBlank c = false := by
    have hall : ∀ e ∈ uploading.expanded.values, ∃ c ∈ e.2, Text.isBlank c = false := by
      decide +kernel
    exact fun ext value _ hvalue => hall _ (Entries.mem_of_get? hvalue)
  obtain ⟨recipes, hok, hmem, hat, -, -⟩ := recipes_cover (by decide +kernel) hends hsolid
  have hkeys : uploading.keys = (["path", "recipe.objcopy..pattern", "recipe.objcopy.bin.pattern",
      "recipe.objcopy.hex.pattern", "recipe.objcopy.hex.program.pattern"] : List Text) := by cbv
  have hout : ofPreferences uploading = .ok [⟨"bin", .ofText "objcopy", []⟩,
      ⟨"hex", .ofText "/opt tools/objcopy", ["-O", "ihex"]⟩] := by
    rw [ofPreferences, hkeys]
    exact eq_ok_of_toOption (by decide +kernel)
  obtain rfl := Except.ok.inj (hok.symm.trans hout)
  exact ⟨hok, hmem, hat _ (List.mem_cons_of_mem _ List.mem_cons_self)⟩

/-- Preferences with a second recipe for a format, for another system. -/
def suffixed : Preferences where
  values := [("recipe.objcopy.hex.pattern", "objcopy -O ihex in out"),
    ("recipe.objcopy.hex.pattern.windows", "objcopy.exe -O ihex in out")]

/-- A key that goes on behind the key of a format brings about a second recipe for it. -/
theorem recipes_suffixed :
    (Entries.keys suffixed.values).Nodup ∧
      (∀ e ∈ suffixed.expanded.values, ∃ c ∈ e.2, Text.isBlank c = false) ∧
      (∀ ext, IsFormat ext → keyFor ext ≠ "recipe.objcopy.hex.pattern.windows") ∧
      ofPreferences suffixed = .ok [⟨"hex", .ofText "objcopy", ["-O", "ihex"]⟩,
        ⟨"hex", .ofText "objcopy.exe", ["-O", "ihex"]⟩] := by
  refine ⟨by decide +kernel, by decide +kernel, fun ext hf heq => ?_, ?_⟩
  · have hhex : extensionOf? "recipe.objcopy.hex.pattern.windows" = some (Text.ofString "hex") := by
      decide +kernel
    rw [← heq, extensionOf?_eq_some.2 ⟨hf, List.prefix_rfl⟩] at hhex
    rw [Option.some.inj hhex] at heq
    exact absurd heq (by decide +kernel)
  · have hkeys : suffixed.keys = Entries.keys suffixed.values := by cbv
    rw [ofPreferences, hkeys]
    exact eq_ok_of_toOption (by decide +kernel)

end FirmwareBuild.Objcopy
