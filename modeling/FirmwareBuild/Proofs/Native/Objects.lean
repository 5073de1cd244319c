import FirmwareBuild.Path.Normal
import FirmwareBuild.Proofs.Native.Library
import Mathlib.Data.List.Nodup

/-! The objects of a library.

An object has the name of its source with another suffix, in a directory of the library's own. So
neither the directory of a source nor its extension tells objects apart: `objects_nodup_iff` says
that the objects of a library that has been built are distinct if and only if the names of its
sources are, without their suffixes. -/
namespace FirmwareBuild

namespace Path

theorem ofText_part {part : Text} (hp : isPart part = true) (hs : .char '/' ∉ part) :
    ofText part = ⟨.relative, [part]⟩ := by
  have hnormal : IsNormal ⟨.relative, [part]⟩ := by
    intro q hq
    rw [List.mem_singleton.1 hq]
    exact ⟨hp, hs⟩
  have htext : toText ⟨.relative, [part]⟩ = part := by
    rw [toText_eq (fun h => List.cons_ne_nil _ _ h.2)]
    simp [Root.text, Text.ofString, Text.ofChars, joined]
  rw [← ofText_toText hnormal, htext]

/-- The name of a normal path is a path of its own. -/
theorem IsNormal.ofText_name {p : Path} (h : p.IsNormal) (hn : p.name ≠ []) :
    ofText p.name = ⟨.relative, [p.name]⟩ := by
  have hmem : p.name ∈ p.parts := by
    rw [name] at hn ⊢
    cases hlast : p.parts.getLast? with
    | none =>
      rw [hlast] at hn
      exact absurd rfl hn
    | some part => exact List.mem_of_getLast? hlast
  exact ofText_part (h _ hmem).1 (h _ hmem).2

end Path

namespace Native.Library

open FirmwareBuild.Path (IsNormal)

/-- The name of a source without its suffix. -/
def stem (source : Path) : Text := (Path.splitName source.name).1

/-- The object with a name to which the suffix is added. -/
def objectNamed (target : Path) (name stem : Text) : Path :=
  (target / name : Path).join ⟨.relative, [stem ++ ".o"]⟩

/-- The object of a source in the directory of a library. -/
def objectOf (target : Path) (name : Text) (source : Path) : Path :=
  objectNamed target name (stem source)

variable {c : BuildConfig} {l : Library} {target : Path} {name : Text}

theorem name_objectNamed (s : Text) : (objectNamed target name s).name = s ++ ".o" := by
  rw [objectNamed, Path.join, if_pos rfl, Path.name, List.getLast?_concat]
  rfl

theorem name_objectNamed_injective :
    Function.Injective fun s => (objectNamed target name s).name := by
  intro s t h
  dsimp only at h
  rw [name_objectNamed, name_objectNamed] at h
  exact List.append_cancel_right h

/-- An object is named by its source alone. -/
theorem objectFile_eq_ok {source object : Path} (hs : source.IsNormal) :
    objectFile source target name = .ok object ↔
      source.name ≠ [] ∧ object = objectOf target name source := by
  rw [objectFile]
  by_cases hn : source.name = []
  · rw [hn]
    exact ⟨nofun, fun h => absurd rfl h.1⟩
  · have hsuffix : (Path.ofText source.name).withSuffix? ".o" =
        some ⟨.relative, [stem source ++ ".o"]⟩ := by
      rw [hs.ofText_name hn]
      exact if_neg hn
    rw [hsuffix]
    exact ⟨fun h => ⟨hn, (Except.ok.inj h).symm⟩, fun h => congrArg Except.ok h.2.symm⟩

/-- The commands for a source, if there are any: its compile, and the addition of its object. -/
def sourceCommands (c : BuildConfig) (l : Library) (target : Path) (name : Text) (source : Path) :
    List (Option (List Text)) :=
  let object := objectOf target name source
  [(patternFor c source).toOption.bind fun pattern =>
      commandOf pattern (compileParams c source object l.includeDirs),
    commandOf c.archiver (archiveParams object (archiveFile target name))]

theorem map_taskCommand {sources : List Path} (hs : ∀ s ∈ sources, s.IsNormal)
    {cmds : List (List Text)}
    (hc : (tasksFor sources).map (taskCommand c l target name) = cmds.map some) :
    cmds.map some = sources.flatMap (sourceCommands c l target name) := by
  rw [← hc, tasksFor, List.map_flatMap]
  refine List.flatMap_congr fun s hmem => ?_
  -- Each source has a command for its compile, and so an object.
  have htask : taskCommand c l target name (.compile s) ∈ cmds.map some := by
    rw [← hc]
    refine List.mem_map_of_mem (List.mem_flatMap.2 ⟨s, hmem, List.mem_cons_self ..⟩)
  obtain ⟨cmd, -, hcmd⟩ := List.mem_map.1 htask
  obtain ⟨object, ho, -⟩ := Option.bind_eq_some_iff.1 hcmd.symm
  have ho : objectFile s target name = .ok object := eq_ok_of_toOption ho
  obtain ⟨-, rfl⟩ := (objectFile_eq_ok (hs s hmem)).1 ho
  rw [List.map_cons, List.map_singleton, taskCommand_eq (t := .compile s) ho,
    taskCommand_eq (t := .add s) ho]
  rfl

/-- **When no object takes the place of another one.** A build with a result has compiled each
source to the object with its name, and has added this object to the archive. The objects are
distinct, and so are their names in the archive, if and only if the names of the sources without
their suffixes are. -/
theorem objects_nodup_iff (ht : l.targetDir = some target) (hs : ∀ s ∈ l.sources, s.IsNormal)
    {h h' : Host} {path : Path} (hr : h.run (l.build c name) = (.ok path, h')) :
    ∃ cmds : List (List Text), h'.launches = h.launches ++ cmds.map captured ∧
      cmds.map some = l.sources.flatMap (sourceCommands c l target name) ∧
      ((l.sources.map (objectOf target name)).Nodup ↔ (l.sources.map stem).Nodup) ∧
      ((l.sources.map fun s => (objectOf target name s).name).Nodup ↔
        (l.sources.map stem).Nodup) := by
  obtain ⟨cmds, hc, hl⟩ := exists_commands_of_build ht hr
  have hnamed : (l.sources.map (objectOf target name)) =
      (l.sources.map stem).map (objectNamed target name) := by
    rw [List.map_map]
    rfl
  have hnames : (l.sources.map fun s => (objectOf target name s).name) =
      (l.sources.map stem).map fun s => (objectNamed target name s).name := by
    rw [List.map_map]
    rfl
  refine ⟨cmds, hl, map_taskCommand hs hc, ?_, ?_⟩
  · rw [hnamed]
    exact List.nodup_map_iff
      (Function.Injective.of_comp (f := Path.name) name_objectNamed_injective)
  · rw [hnames]
    exact List.nodup_map_iff name_objectNamed_injective

/-- A library whose sources differ in nothing but a dot in their names. -/
def dotted : Library where
  sources := [.ofText "a.c", .ofText "a.b.c"]
  targetDir := some (.ofText "out")

theorem objects_nodup_iff_dotted :
    ∃ cmds : List (List Text),
      (emptyHost.run (dotted.build simple "l")).2.launches = cmds.map captured ∧
      cmds.map some =
        dotted.sources.flatMap (sourceCommands simple dotted (.ofText "out") "l") ∧
      (dotted.sources.map (objectOf (.ofText "out") "l")).Nodup ∧
      (dotted.sources.map fun s => (objectOf (.ofText "out") "l" s).name).Nodup := by
  have hok : (emptyHost.run (dotted.build simple "l")).1.toOption =
      some (.ofText "out/libl.a") := by
    decide +kernel
  have hs : ∀ s ∈ dotted.sources, s.IsNormal := by
    intro s hmem
    rcases List.mem_pair.1 hmem with rfl | rfl <;> exact Path.isNormal_ofText _
  have hstems : (dotted.sources.map stem).Nodup := by decide
  obtain ⟨cmds, hl, hc, hobjects, hnames⟩ :=
    objects_nodup_iff (rfl : dotted.targetDir = some (.ofText "out")) hs
      (Prod.ext (eq_ok_of_toOption hok) rfl)
  exact ⟨cmds, hl, hc, hobjects.2 hstems, hnames.2 hstems⟩

/-- A library whose sources have one name in two directories. -/
def colliding : Library where
  sources := [.ofText "a/x.c", .ofText "b/x.c"]
  targetDir := some (.ofText "out")

/-- The second compile writes what the first one has written, and the second object takes the place
of the first one. -/
theorem objects_collide :
    colliding.sources.Nodup ∧
      (emptyHost.run (colliding.build simple "l")).1 = .ok (.ofText "out/libl.a") ∧
      ¬ (colliding.sources.map (objectOf (.ofText "out") "l")).Nodup ∧
      (emptyHost.run (colliding.build simple "l")).2.launches.map (·.argv.getLast?) =
        List.replicate 4 (some (Text.ofString "out/l/x.o")) := by
  have hok : (emptyHost.run (colliding.build simple "l")).1.toOption =
      some (.ofText "out/libl.a") := by decide +kernel
  exact ⟨by decide, eq_ok_of_toOption hok, by decide, by decide +kernel⟩

end Native.Library
end FirmwareBuild
