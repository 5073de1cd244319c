import FirmwareBuild.Proofs.Host.Action
import FirmwareBuild.Proofs.Host.FileTree

/-! The files that a host finds at paths.

What stands at a path is decided by where the path leads in the tree, once the system has such
a path at all. Two paths of one directory lead to where they have led before as long as no
directory goes missing: `resolve_sibling`. -/
namespace FirmwareBuild.Host

open FileTree

variable {h : Host} {p : Path}

/-- What a directory holds under a name. -/
def child (dir : Path) (name : Text) : Path := ⟨dir.root, dir.parts ++ [name]⟩

theorem origin_child (here : Location) (dir : Path) (name : Text) :
    origin here (child dir name) = origin here dir := rfl

section Tree

variable {t t' : FileTree} {here : Location} {dir : Path} {name other : Text}

theorem resolve_child_eq_ok (hn : name ≠ "..") {l : Location} :
    t.resolve here (child dir name) = .ok l ↔
      ¬FileName.pathLimit < FileName.size (child dir name).toText ∧
      ¬FileName.nameLimit < FileName.size name ∧
      ∃ d, t.walk [] (origin here dir ++ dir.parts) = .ok d ∧ t.kindAt d = some .directory ∧
        l = d ++ [FileName.canonical name] := by
  have hparts : origin here (child dir name) ++ (child dir name).parts =
      (origin here dir ++ dir.parts) ++ [name] := by
    rw [origin_child, child, List.append_assoc]
  have hlast (d : Location) : t.walk d [name] = .ok l ↔
      ¬FileName.nameLimit < FileName.size name ∧ t.kindAt d = some .directory ∧
        l = d ++ [FileName.canonical name] := by
    rw [walk]
    cases t.kindAt d with
    | none => simp
    | some k =>
      cases k with
      | file octets => simp
      | directory =>
        simp only [if_neg hn]
        split
        · next hsize => simp [hsize]
        · next hsize => simp [hsize, walk, eq_comm]
  rw [resolve, hparts, walk_append]
  split
  · next hsize => simp [hsize]
  · next hsize =>
    rw [bind_eq_ok]
    constructor
    · rintro ⟨d, hd, hx⟩
      obtain ⟨hname, hk, rfl⟩ := (hlast d).1 hx
      exact ⟨hsize, hname, d, hd, hk, rfl⟩
    · rintro ⟨-, hname, d, hd, hk, rfl⟩
      exact ⟨d, hd, (hlast d).2 ⟨hname, hk, rfl⟩⟩

/-- A name in a directory that could be reached leads to the same location before. -/
theorem resolve_sibling
    (hdirs : ∀ l, t.kindAt l = some .directory → t'.kindAt l = some .directory)
    (hn : name ≠ "..") (ho : other ≠ "..") {l m : Location}
    (hl : t.resolve here (child dir name) = .ok l)
    (hm : t'.resolve here (child dir other) = .ok m) :
    t.resolve here (child dir other) = .ok m := by
  obtain ⟨-, -, d, hd, hk, -⟩ := (resolve_child_eq_ok hn).1 hl
  obtain ⟨hpath, hname, d', hd', -, rfl⟩ := (resolve_child_eq_ok ho).1 hm
  obtain rfl : d = d' := Except.ok.inj ((walk_of_directories hdirs hd).symm.trans hd')
  exact (resolve_child_eq_ok ho).2 ⟨hpath, hname, d, hd, hk, rfl⟩

end Tree

/-! ### Content -/

theorem worked_eq_ok {α : Type} {result : Except Errno α} {a : α} :
    worked p result = .ok a ↔ pathDefect? p = none ∧ result = .ok a := by
  rw [worked]
  cases pathDefect? p with
  | some d => exact ⟨nofun, nofun⟩
  | none =>
    cases result with
    | error e => exact ⟨nofun, nofun⟩
    | ok b => exact ⟨fun hx => ⟨rfl, congrArg _ (Except.ok.inj hx)⟩, fun hx => hx.2 ▸ rfl⟩

theorem worked_eq_defect {α : Type} {result : Except Errno α} {d : Defect} :
    worked p result = .error (.defect d) ↔ pathDefect? p = some d := by
  rw [worked]
  cases pathDefect? p with
  | some d' => simp
  | none =>
    cases result with
    | error e => exact ⟨nofun, nofun⟩
    | ok a => exact ⟨nofun, nofun⟩

theorem content_eq_ok {octets : List UInt8} :
    h.content p = .ok octets ↔ pathDefect? p = none ∧
      ∃ l, h.tree.resolve h.directory p = .ok l ∧ h.tree.fileAt? l = some octets := by
  simp only [content, worked_eq_ok, read_eq_ok, fileAt?_eq_some]

theorem seen_eq_ok_true {found : Except Errno Bool} :
    seen p found = .ok true ↔ pathDefect? p = none ∧ found = .ok true := by
  rw [seen]
  cases pathDefect? p with
  | some d => exact ⟨nofun, nofun⟩
  | none =>
    cases found with
    | error e => exact ⟨nofun, nofun⟩
    | ok b => exact ⟨fun hx => ⟨rfl, congrArg _ (Except.ok.inj hx)⟩, fun hx => hx.2 ▸ rfl⟩

/-- A look at a path fails in one way only. -/
theorem failsOnly_seen (p : Path) (found : Except Errno Bool) :
    FailsOnly (· = .defect .unseenPath) (seen p found) := by
  rw [seen]
  split
  · exact failsOnly_ok false
  · exact FailsOnly.mapError fun _ _ => rfl

/-- A file is what has a content. -/
theorem isFile_eq_ok_true : h.isFile p = .ok true ↔ ∃ octets, h.content p = .ok octets := by
  simp only [isFile, seen_eq_ok_true, isFile_eq_true, content, worked_eq_ok, exists_and_left]

/-! ### Changes -/

/-- Making directories makes no file and takes nothing away, whatever comes of it. -/
theorem run_makeDirectories_furnished (h : Host) (p : Path) :
    ∃ made tree, h.run (makeDirectories p) = (.ok made, { h with tree }) ∧
      Furnished h.tree tree := by
  rw [makeDirectories]
  cases pathDefect? p with
  | some d => exact ⟨_, h.tree, rfl, .refl _⟩
  | none => exact ⟨_, _, rfl, furnished_makeDirectories h.tree h.directory depthLimit p⟩

/-- A file is written as a whole to one location, or nothing changes. -/
theorem run_writeFile_cases (h : Host) (p : Path) (octets : List UInt8) :
    (∃ refusal, h.run (writeFile p octets) = (.ok (.error refusal), h)) ∨
      ∃ l, h.run (writeFile p octets) =
          (.ok (.ok ()), { h with tree := h.tree.insert l (.file octets) }) ∧
        pathDefect? p = none ∧ h.tree.resolve h.directory p = .ok l ∧
        h.tree.kindAt l ≠ some .directory := by
  rw [writeFile, run_bind_of_ok (run_get h)]
  cases hw : worked p (h.tree.write h.directory p octets) with
  | error refusal => exact .inl ⟨refusal, rfl⟩
  | ok tree =>
    obtain ⟨hp, hwrite⟩ := worked_eq_ok.1 hw
    obtain ⟨l, hr, hk, rfl⟩ := write_eq_ok hwrite
    exact .inr ⟨l, rfl, hp, hr, hk⟩

/-- When making a directory is trapped: the system has no such path, or there is nothing to make it
or any of too many directories above it in. -/
inductive Balks (h : Host) (p : Path) : Defect → Prop
  | impossible {d : Defect} (hp : pathDefect? p = some d) : Balks h p d
  | tooDeep (hp : pathDefect? p = none)
      (hd : ∀ n ≤ depthLimit,
        h.tree.makeDirectory h.directory (Path.parent^[n] p) = .error .notFound) :
      Balks h p .tooDeep

/-- Making directories is refused with a defect if and only if it is trapped. -/
theorem run_makeDirectories_eq_defect {d : Defect} :
    (h.run (makeDirectories p)).1 = .ok (.error (.defect d)) ↔ h.Balks p d := by
  rw [makeDirectories]
  cases hp : pathDefect? p with
  | some d' =>
    constructor
    · intro hr
      have hd : d' = d := Refusal.defect.inj (Except.error.inj (Except.ok.inj hr))
      exact .impossible (hd ▸ hp)
    · rintro (hp' | ⟨hp', -⟩)
      · obtain rfl := Option.some.inj (hp.symm.trans hp')
        rfl
      · cases hp.symm.trans hp'
  | none =>
    constructor
    · intro hr
      have hm : (h.tree.makeDirectories h.directory depthLimit p).1 = .error (.defect d) :=
        Except.ok.inj hr
      obtain ⟨rfl, hall⟩ := FileTree.makeDirectories_eq_defect.1 hm
      exact .tooDeep hp hall
    · rintro (hp' | ⟨-, hall⟩)
      · cases hp.symm.trans hp'
      · exact congrArg Except.ok (FileTree.makeDirectories_eq_defect.2 ⟨rfl, hall⟩)

end FirmwareBuild.Host
