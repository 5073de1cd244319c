import FirmwareBuild.Proofs.Config.Chain
import FirmwareBuild.Proofs.Host.Files
import FirmwareBuild.Proofs.Preferences.Resolution

/-! How loading a configuration fails.

A file that cannot be used is a failure that names it. A few files are more than the reader can
cope with, and then the failure says nothing about them: `IsTrap` lists these, and `load_outcome`
says that there are no others, for a file and for a whole chain. Each step of a reader has a lemma
about its failures, and the steps are put together as they are in the reader. -/
namespace FirmwareBuild

/-! ### Nesting -/

/-- Lists and tables are nested deeper in a setting than a number allows. -/
inductive Setting.IsDeeper : Nat → Setting → Prop
  | list {items : List Setting} : IsDeeper 0 (.list items)
  | table {fields : List (Text × Setting)} : IsDeeper 0 (.table fields)
  | item {n : Nat} {items : List Setting} {s : Setting} (hs : s ∈ items) (h : s.IsDeeper n) :
    IsDeeper (n + 1) (.list items)
  | field {n : Nat} {fields : List (Text × Setting)} {f : Text × Setting} (hf : f ∈ fields)
    (h : f.2.IsDeeper n) : IsDeeper (n + 1) (.table fields)

theorem Setting.IsDeeper.of_le {n m : Nat} {s : Setting} (h : s.IsDeeper n) (hm : m ≤ n) :
    s.IsDeeper m := by
  induction h generalizing m with
  | list => exact Nat.le_zero.1 hm ▸ .list
  | table => exact Nat.le_zero.1 hm ▸ .table
  | item hs _ ih =>
    cases m with
    | zero => exact .list
    | succ m => exact .item hs (ih (Nat.le_of_succ_le_succ hm))
  | field hf _ ih =>
    cases m with
    | zero => exact .table
    | succ m => exact .field hf (ih (Nat.le_of_succ_le_succ hm))

/-- What is around a setting is at least as deep. -/
theorem Setting.IsDeeper.outer {n : Nat} {fields : List (Text × Setting)} {f : Text × Setting}
    (hf : f ∈ fields) (h : f.2.IsDeeper n) : (Setting.table fields).IsDeeper n :=
  (IsDeeper.field hf h).of_le (Nat.le_succ n)

mutual

theorem Setting.isDeeper_of_obstacle? (n : Nat) (s : Setting)
    (h : s.obstacle? n = some .tooDeep) : s.IsDeeper n := by
  cases s with
  | list items =>
    cases n with
    | zero => exact .list
    | succ n =>
      obtain ⟨s, hs, hdeep⟩ := exists_deeper_item n items h
      exact .item hs hdeep
  | table fields =>
    cases n with
    | zero => exact .table
    | succ n =>
      obtain ⟨f, hf, hdeep⟩ := exists_deeper_field n fields h
      exact .field hf hdeep
  | int m =>
    -- Whether the integer is long stays open, for the bound has thousands of digits.
    have hlong : (if isLong m then some ShowError.longInteger else none) = some .tooDeep := by
      cases n <;> exact h
    generalize isLong m = long at hlong
    cases long <;> exact nomatch hlong
  | _ => cases n <;> exact nomatch h
termination_by structural s

theorem exists_deeper_item (n : Nat) (items : List Setting)
    (h : obstacleInItems? n items = some .tooDeep) : ∃ s ∈ items, s.IsDeeper n := by
  cases items with
  | nil => exact nomatch h
  | cons s rest =>
    rw [obstacleInItems?, Option.orElse_eq_or, Option.or_eq_some_iff] at h
    rcases h with h | ⟨-, h⟩
    · exact ⟨s, List.mem_cons_self, s.isDeeper_of_obstacle? n h⟩
    · obtain ⟨other, hother, hdeep⟩ := exists_deeper_item n rest h
      exact ⟨other, List.mem_cons_of_mem s hother, hdeep⟩
termination_by structural items

theorem exists_deeper_field (n : Nat) (fields : List (Text × Setting))
    (h : obstacleInFields? n fields = some .tooDeep) : ∃ f ∈ fields, f.2.IsDeeper n := by
  cases fields with
  | nil => exact nomatch h
  | cons f rest =>
    rw [obstacleInFields?, Option.orElse_eq_or, Option.or_eq_some_iff] at h
    rcases h with h | ⟨-, h⟩
    · exact ⟨f, List.mem_cons_self, isDeeper_of_obstacleInField? n f h⟩
    · obtain ⟨other, hother, hdeep⟩ := exists_deeper_field n rest h
      exact ⟨other, List.mem_cons_of_mem f hother, hdeep⟩
termination_by structural fields

theorem isDeeper_of_obstacleInField? (n : Nat) (f : Text × Setting)
    (h : obstacleInField? n f = some .tooDeep) : f.2.IsDeeper n := by
  cases f with
  | mk key s => exact s.isDeeper_of_obstacle? n h
termination_by structural f

end

namespace Setting

/-- A setting within the limits is shown in any way that there is. -/
theorem failsOnly_limited {α : Type} (s : Setting) (a : α) :
    FailsOnly (fun e => e = .tooDeep → s.IsDeeper depthLimit)
      (match s.obstacle? depthLimit with
        | some e => .error e
        | none => .ok a) := by
  cases h : s.obstacle? depthLimit with
  | none => exact failsOnly_ok a
  | some e => exact failsOnly_error fun he => s.isDeeper_of_obstacle? depthLimit (he ▸ h)

theorem failsOnly_shown (s : Setting) :
    FailsOnly (fun e => e = .tooDeep → s.IsDeeper depthLimit) s.shown :=
  s.failsOnly_limited s.quoted

theorem failsOnly_displayed (s : Setting) :
    FailsOnly (fun e => e = .tooDeep → s.IsDeeper depthLimit) s.displayed :=
  s.failsOnly_limited s.display

end Setting

/-! ### Boards -/

/-- A board is refused for its depth only if its setting is so deep. -/
def BoardSettingError.IsDue (s : Setting) (e : BoardSettingError) : Prop :=
  e = .unshowable .tooDeep → s.IsDeeper depthLimit

theorem BoardSettingError.IsDue.outer {fields : List (Text × Setting)} {f : Text × Setting}
    {e : BoardSettingError} (hf : f ∈ fields) (h : IsDue f.2 e) : IsDue (.table fields) e :=
  fun he => (h he).outer hf

namespace Board

open BoardSettingError (IsDue)

theorem failsOnly_textOf (s : Setting) : FailsOnly (IsDue s) (textOf s) :=
  FailsOnly.mapError (s.failsOnly_displayed.imp fun _ hdeep he =>
    hdeep (BoardSettingError.unshowable.inj he))

variable {fields : List (Text × Setting)}

theorem failsOnly_fieldText (name : Text) :
    FailsOnly (IsDue (.table fields)) (fieldText fields name) := by
  rw [fieldText]
  cases h : Entries.get? name fields with
  | none => exact failsOnly_error nofun
  | some s => exact (failsOnly_textOf s).imp fun e he => he.outer (Entries.mem_of_get? h)

theorem failsOnly_paramsOfSetting :
    FailsOnly (IsDue (.table fields)) (paramsOfSetting (Entries.get? "params" fields)) := by
  cases h : Entries.get? (Text.ofString "params") fields with
  | none => exact failsOnly_ok []
  | some s =>
    cases s with
    | table params =>
      refine failsOnly_mapM fun f hf => ((failsOnly_textOf f.2).imp fun e he => ?_).map _
      exact (he.outer hf).outer (Entries.mem_of_get? h)
    | _ => exact failsOnly_error nofun

theorem failsOnly_ofFields : FailsOnly (IsDue (.table fields)) (ofFields fields) := by
  unfold ofFields
  dsimp only
  split
  · exact failsOnly_error nofun
  · refine (failsOnly_fieldText "vendor").bind fun _ _ => ?_
    refine (failsOnly_fieldText "arch").bind fun _ _ => ?_
    refine (failsOnly_fieldText "board").bind fun _ _ => ?_
    exact failsOnly_paramsOfSetting.bind fun _ _ => failsOnly_ok _

theorem failsOnly_ofSetting (s : Setting) : FailsOnly (IsDue s) (ofSetting s) := by
  unfold ofSetting
  split
  · exact FailsOnly.mapError fun e _ => nofun
  · exact failsOnly_ofFields
  · split
    · exact failsOnly_error nofun
    · next e he =>
      exact failsOnly_error fun hdeep =>
        s.failsOnly_shown e he (BoardSettingError.unshowable.inj hdeep)

end Board

/-! ### Documents -/

/-- A document is refused for its depth only if something in it is so deep. -/
def SettingsError.IsDue (t : Toml.Table) (e : SettingsError) : Prop :=
  e = .unshowable .tooDeep → ∃ f ∈ t, f.2.IsDeeper depthLimit

theorem SettingsError.failure_eq (path : Path) (e : SettingsError) :
    e = .unshowable .tooDeep ∨ e.failure path = .config (.refused path e) := by
  unfold failure
  split
  · exact .inl rfl
  · exact .inr rfl

namespace ConfigFile

open SettingsError (IsDue)

variable {t : Toml.Table}

theorem failsOnly_rejectUnknown (known : List Text) (place : Text) (u : Toml.Table) :
    FailsOnly (IsDue t) (rejectUnknown known place u) := by
  unfold rejectUnknown
  dsimp only
  split
  · exact failsOnly_ok ()
  · exact failsOnly_error nofun

theorem failsOnly_subtable (key place : Text) (u : Toml.Table) :
    FailsOnly (IsDue t) (subtable key place u) := by
  unfold subtable
  split
  · exact failsOnly_ok []
  · exact failsOnly_ok _
  · exact failsOnly_error nofun

theorem failsOnly_pathOf (s : Setting) : FailsOnly (IsDue t) (pathOf s) := by
  cases s with
  | text s => exact failsOnly_ok _
  | _ => exact failsOnly_error nofun

theorem failsOnly_pathList (key : Text) (u : Toml.Table) :
    FailsOnly (IsDue t) (pathList key u) := by
  unfold pathList
  split
  · exact failsOnly_ok []
  · exact failsOnly_mapM fun s _ => failsOnly_pathOf s
  · exact failsOnly_error nofun

theorem failsOnly_homeOf (u : Toml.Table) : FailsOnly (IsDue t) (homeOf u) := by
  unfold homeOf
  split
  · exact failsOnly_ok none
  · exact (failsOnly_pathOf _).map _

theorem failsOnly_boardOf : FailsOnly (IsDue t) (boardOf t) := by
  unfold boardOf
  split
  · exact failsOnly_ok none
  · next s hs =>
    refine (FailsOnly.mapError ((Board.failsOnly_ofSetting s).imp fun e he hdeep => ?_)).map _
    cases e with
    | board e => exact nomatch hdeep
    | unshowable e =>
      refine ⟨_, Entries.mem_of_get? hs, he ?_⟩
      rw [SettingsError.unshowable.inj hdeep]

theorem mem_of_subtable {key place : Text} {u : Toml.Table} (h : subtable key place t = .ok u) :
    u = [] ∨ (key, .table u) ∈ t := by
  unfold subtable at h
  split at h
  · exact .inl (Except.ok.inj h).symm
  · next hu => exact .inr (Except.ok.inj h ▸ Entries.mem_of_get? hu)
  · exact nomatch h

/-- What is too deep in a table below is so in the table. -/
theorem exists_deeper_of_subtable {key place : Text} {u : Toml.Table} {n : Nat}
    (h : subtable key place t = .ok u) (hu : ∃ f ∈ u, f.2.IsDeeper n) :
    ∃ f ∈ t, f.2.IsDeeper n := by
  obtain ⟨f, hf, hdeep⟩ := hu
  rcases mem_of_subtable h with rfl | hmem
  · exact nomatch hf
  · exact ⟨_, hmem, hdeep.outer hf⟩

theorem failsOnly_preferencesOf : FailsOnly (IsDue t) (preferencesOf t) := by
  refine failsOnly_mapM fun f hf => (FailsOnly.mapError ?_).map _
  exact f.2.failsOnly_displayed.imp fun e he hdeep =>
    ⟨f, hf, he (SettingsError.unshowable.inj hdeep)⟩

theorem failsOnly_ofTable (path : Path) (t : Toml.Table) :
    FailsOnly (IsDue t) (ofTable path t) := by
  rw [ofTable]
  refine (failsOnly_rejectUnknown _ _ t).bind fun _ _ => ?_
  refine failsOnly_boardOf.bind fun _ _ => ?_
  refine (failsOnly_subtable _ _ t).bind fun builder hbuilder => ?_
  refine (failsOnly_rejectUnknown _ _ builder).bind fun _ _ => ?_
  refine (failsOnly_subtable _ _ builder).bind fun preferences hpreferences => ?_
  refine (failsOnly_homeOf builder).bind fun _ _ => ?_
  refine (failsOnly_pathList _ builder).bind fun _ _ => ?_
  refine (failsOnly_pathList _ builder).bind fun _ _ => ?_
  refine (failsOnly_pathList _ builder).bind fun _ _ => ?_
  refine FailsOnly.bind ?_ fun _ _ => failsOnly_ok _
  exact failsOnly_preferencesOf.imp fun e he hdeep =>
    exists_deeper_of_subtable hbuilder (exists_deeper_of_subtable hpreferences (he hdeep))

end ConfigFile

/-! ### Messages -/

/-- The file that cannot be used. -/
def ConfigError.path : ConfigError → Path
  | .unreadable path _ | .malformed path | .refused path _ => path

/-- It stands between quotes in the message. -/
theorem ConfigError.path_infix_message (e : ConfigError) :
    ("'" ++ e.path.toText ++ "'" : Text) <:+: e.message := by
  have hread : ("Could not read configuration file '" : Text) =
      "Could not read configuration file " ++ "'" := by decide +kernel
  have hparse : ("Could not parse configuration file '" : Text) =
      "Could not parse configuration file " ++ "'" := by decide +kernel
  have hquote : ("': " : Text) = "'" ++ ": " := by decide +kernel
  cases e with
  | unreadable p fault =>
    refine ⟨"Could not read configuration file ", ": " ++ fault.text, ?_⟩
    simp only [path, message, hread, hquote, List.append_assoc]
  | malformed p =>
    refine ⟨"Could not parse configuration file ", [], ?_⟩
    simp only [path, message, hparse, List.append_assoc, List.append_nil]
  | refused p e =>
    refine ⟨"Could not parse configuration file ",
      (e.message?.map fun m : Text => ": " ++ m).getD [], ?_⟩
    simp only [path, message, hparse, List.append_assoc]

/-- A failure whose message names a file. -/
def Failure.Names (path : Path) (e : Failure) : Prop :=
  ∃ c : ConfigError, e = .config c ∧ ("'" ++ path.toText ++ "'" : Text) <:+: c.message

theorem ConfigError.names (e : ConfigError) : (Failure.config e).Names e.path :=
  ⟨e, rfl, e.path_infix_message⟩

/-! ### Files -/

/-- A file that is more than the reader can cope with, and what comes of it: the system has no such
path, its octets are no text, an integer in it is too long, or it is nested too deep. -/
inductive ConfigFile.IsTrap (h : Host) (path : Path) : Defect → Prop
  | path {d : Defect} (hd : Host.pathDefect? path = some d) : IsTrap h path d
  | octets {octets : List UInt8} (hc : h.content path = .ok octets)
    (hd : Text.Utf8.decode? octets = none) : IsTrap h path .undecodable
  | integer {octets : List UInt8} {text : String} {digits : Nat} (hc : h.content path = .ok octets)
    (hd : Text.Utf8.decode? octets = some text)
    (hp : Toml.parse text = .error (.longInteger digits)) : IsTrap h path .longInteger
  | nesting {octets : List UInt8} {text : String} (hc : h.content path = .ok octets)
    (hd : Text.Utf8.decode? octets = some text) (hp : Toml.parse text = .error .tooDeep) :
    IsTrap h path .tooDeep
  | setting {octets : List UInt8} {text : String} {t : Toml.Table} {f : Text × Setting}
    (hc : h.content path = .ok octets) (hd : Text.Utf8.decode? octets = some text)
    (hp : Toml.parse text = .ok t) (ht : ofTable path t = .error (.unshowable .tooDeep))
    (hf : f ∈ t) (hdeep : f.2.IsDeeper depthLimit) : IsTrap h path .tooDeep

namespace ConfigFile

variable {h : Host} {path : Path}

theorem failsOnly_ofOctets {octets : List UInt8} (hc : h.content path = .ok octets) :
    FailsOnly (fun e => e.Names path ∨ ∃ d, e = .defect d ∧ IsTrap h path d)
      (ofOctets path octets) := by
  unfold ofOctets
  split
  · next hd => exact failsOnly_error (.inr ⟨_, rfl, .octets hc hd⟩)
  · next text hd =>
    split
    · exact failsOnly_error (.inl (ConfigError.names (.malformed path)))
    · next hp => exact failsOnly_error (.inr ⟨_, rfl, .integer hc hd hp⟩)
    · next hp => exact failsOnly_error (.inr ⟨_, rfl, .nesting hc hd hp⟩)
    · next t hp =>
      refine FailsOnly.mapError fun e he => ?_
      rcases e.failure_eq path with rfl | hfailure
      · obtain ⟨f, hf, hdeep⟩ := failsOnly_ofTable path t _ he rfl
        exact .inr ⟨_, rfl, .setting hc hd hp he hf hdeep⟩
      · refine .inl ?_
        rw [hfailure]
        exact ConfigError.names (.refused path e)

theorem failsOnly_load (h : Host) (path : Path) :
    FailsOnly (fun e => e.Names path ∨ ∃ d, e = .defect d ∧ IsTrap h path d) (load h path) := by
  unfold load
  cases hc : h.content path with
  | ok octets => exact failsOnly_ofOctets hc
  | error refusal =>
    cases refusal with
    | fault fault => exact failsOnly_error (.inl (ConfigError.names (.unreadable path fault)))
    | defect d => exact failsOnly_error (.inr ⟨d, rfl, .path (Host.worked_eq_defect.1 hc)⟩)

/-- Every trap is met. -/
theorem load_of_isTrap {d : Defect} (ht : IsTrap h path d) : load h path = .error (.defect d) := by
  unfold load
  cases ht with
  | path hd =>
    have hc : h.content path = .error (.defect d) := Host.worked_eq_defect.2 hd
    rw [hc]
    rfl
  | octets hc hd => simp only [hc, ofOctets, hd]
  | integer hc hd hp => simp only [hc, ofOctets, hd, hp]
  | nesting hc hd hp => simp only [hc, ofOctets, hd, hp]
  | setting hc hd hp ht =>
    simp only [hc, ofOctets, hd, hp, ht]
    rfl

theorem load_eq_defect {d : Defect} : load h path = .error (.defect d) ↔ IsTrap h path d := by
  refine ⟨fun hload => ?_, load_of_isTrap⟩
  rcases failsOnly_load h path _ hload with ⟨c, hc, -⟩ | ⟨d', hd, htrap⟩
  · exact nomatch hc
  · rwa [Failure.defect.inj hd]

end ConfigFile

/-! ### Chains -/

namespace UserConfig

theorem mem_of_mem_distinct {α : Type} [BEq α] [LawfulBEq α] {x : α} {xs : List α}
    (h : x ∈ distinct xs) : x ∈ xs := by
  have hcovers := covers_distinct (p := fun _ => true) xs
  rw [List.filter_true] at hcovers
  exact ((hcovers.mem x).1 h).1

/-- The files that are loaded are there. -/
theorem isFile_of_mem_paths {h : Host} {current home path : Path} {ps : List Path}
    (hps : paths h current home = .ok ps) (hpath : path ∈ ps) :
    path ∈ candidates current home ∧ h.isFile path = .ok true := by
  obtain ⟨found, hfound, rfl⟩ := map_eq_ok.1 hps
  obtain ⟨hsub, hthere⟩ := sublist_of_filterM hfound
  have hmem := mem_of_mem_distinct hpath
  exact ⟨hsub.subset hmem, hthere path hmem⟩

theorem failsOnly_paths (h : Host) (current home : Path) :
    FailsOnly (fun e => ∃ path ∈ candidates current home,
      h.isFile path = .error e ∧ e = .defect .unseenPath) (paths h current home) := by
  refine FailsOnly.map (failsOnly_filterM fun path hpath e he => ?_) _
  exact ⟨path, hpath, he, Host.failsOnly_seen path _ e he⟩

theorem failsOnly_load (h : Host) (current home : Path) :
    FailsOnly (fun e => ∃ path ∈ candidates current home,
      h.isFile path = .ok true ∧ (e.Names path ∨ ∃ d, e = .defect d ∧ ConfigFile.IsTrap h path d) ∨
      h.isFile path = .error e ∧ e = .defect .unseenPath) (load h current home) := by
  refine ((failsOnly_paths h current home).imp ?_).bind fun ps hps =>
    (failsOnly_mapM fun path hpath => ?_).bind fun files _ => failsOnly_ok _
  · rintro e ⟨path, hpath, he⟩
    exact ⟨path, hpath, .inr he⟩
  · obtain ⟨hmem, hthere⟩ := isFile_of_mem_paths hps hpath
    exact (ConfigFile.failsOnly_load h path).imp fun e he => ⟨path, hmem, .inl ⟨hthere, he⟩⟩

/-- **A configuration that cannot be loaded is a failure that names its file.** A file is loaded,
or the failure names it, or it is a trap, and just the traps bring about defects. Of a chain the
failure is that of one of its files, unless the system refuses to look for one. -/
theorem load_outcome (h : Host) (current home : Path) :
    (∀ path, ((∃ file, ConfigFile.load h path = .ok file) ∨
        (∃ e, ConfigFile.load h path = .error e ∧ e.Names path) ∨
        ∃ d, ConfigFile.IsTrap h path d) ∧
      ∀ d, ConfigFile.load h path = .error (.defect d) ↔ ConfigFile.IsTrap h path d) ∧
    ((∃ config, load h current home = .ok config) ∨
      ∃ e, load h current home = .error e ∧ ∃ path ∈ candidates current home,
        h.isFile path = .ok true ∧
          (e.Names path ∨ ∃ d, e = .defect d ∧ ConfigFile.IsTrap h path d) ∨
        h.isFile path = .error e ∧ e = .defect .unseenPath) := by
  refine ⟨fun path => ⟨?_, fun d => ConfigFile.load_eq_defect⟩,
    (failsOnly_load h current home).cases⟩
  rcases (ConfigFile.failsOnly_load h path).cases with hok | ⟨e, he, hnames | ⟨d, -, htrap⟩⟩
  · exact .inl hok
  · exact .inr (.inl ⟨e, he, hnames⟩)
  · exact .inr (.inr ⟨d, htrap⟩)

/-- A host with a configuration file that is no text. -/
def garbled : Host :=
  { (default : Host) with
    tree := ⟨.directory [(".carguino", .directory [("config", .file [0xff])])]⟩ }

/-- The failure for such a file says nothing about it. -/
theorem load_garbled :
    ConfigFile.load garbled (.ofText ".carguino/config") = .error (.defect .undecodable) ∧
      load garbled (.ofText ".") (.ofText "home") = .error (.defect .undecodable) ∧
      ¬(Failure.defect .undecodable).Names (.ofText ".carguino/config") := by
  have hcontent : garbled.content (.ofText ".carguino/config") = .ok [0xff] :=
    eq_ok_of_toOption (by decide +kernel)
  have hload : ConfigFile.load garbled (.ofText ".carguino/config") =
      .error (.defect .undecodable) :=
    ConfigFile.load_of_isTrap (.octets hcontent (by decide +kernel))
  have hpaths : paths garbled (.ofText ".") (.ofText "home") = .ok [.ofText ".carguino/config"] :=
    eq_ok_of_toOption (by decide +kernel)
  refine ⟨hload, ?_, nofun⟩
  rw [load, hpaths]
  show (List.mapM (ConfigFile.load garbled) _ >>= fun files => pure (resolve files)) = _
  rw [List.mapM_cons, hload]
  rfl

end UserConfig
end FirmwareBuild
