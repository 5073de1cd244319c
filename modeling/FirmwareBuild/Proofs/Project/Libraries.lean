import FirmwareBuild.Proofs.Host.Below
import FirmwareBuild.Proofs.Preferences.Resolution
import FirmwareBuild.Proofs.Project.Order

/-! The libraries that a build finds.

They are directories that stand side by side, so in a proper tree each has a name of its own and a
normal path. What the system cannot have as a path is never taken for a directory. -/
namespace FirmwareBuild

namespace Host

/-- A tree of names: no two entries of a directory have the same one, and none has a separator in
it, is empty or a dot. -/
structure FileTree.IsProper (t : FileTree) : Prop where
  nodup : ∀ l children, t.top.at? l = some (.directory children) → (Entries.keys children).Nodup
  isPart : ∀ l children, t.top.at? l = some (.directory children) →
    ∀ name ∈ Entries.keys children, Path.isPart name = true ∧ .char '/' ∉ name

theorem FileTree.isProper_iff {t : FileTree} : t.IsProper ↔ t.EveryDirectory fun children =>
    (Entries.keys children).Nodup ∧
      ∀ name ∈ Entries.keys children, Path.isPart name = true ∧ .char '/' ∉ name :=
  ⟨fun h l children hl => ⟨h.nodup l children hl, h.isPart l children hl⟩,
    fun h => ⟨fun l children hl => (h l children hl).1, fun l children hl => (h l children hl).2⟩⟩

theorem FileTree.isProper_file (octets : List UInt8) : IsProper ⟨.file octets⟩ :=
  isProper_iff.2 (everyDirectory_file octets)

/-- A tree is proper if the names in it are, and so is what stands at each. -/
theorem FileTree.isProper_directory {children : List (Text × Entry)}
    (hnodup : (Entries.keys children).Nodup)
    (hpart : ∀ name ∈ Entries.keys children, Path.isPart name = true ∧ .char '/' ∉ name)
    (hbelow : ∀ c ∈ children, IsProper ⟨c.2⟩) : IsProper ⟨.directory children⟩ :=
  isProper_iff.2 (everyDirectory_directory ⟨hnodup, hpart⟩ fun _ _ he =>
    isProper_iff.1 (hbelow _ (Entries.mem_of_get? he)))

theorem exists_names_of_listing {h : Host} (ht : h.tree.IsProper) {dir : Path} {ps : List Path}
    (hlist : h.listing dir = .ok ps) :
    ∃ names : List Text, names.Nodup ∧ ps = names.map (child dir) ∧
      ∀ name ∈ names, Path.isPart name = true ∧ .char '/' ∉ name := by
  obtain ⟨names, hnames, rfl⟩ := map_eq_ok.1 hlist
  obtain ⟨e, he, hkeys⟩ := bind_eq_ok.1 (worked_eq_ok.1 hnames).2
  obtain ⟨l, -, hl⟩ := FileTree.look_eq_ok.1 he
  cases e with
  | file octets => exact nomatch hkeys
  | directory children =>
    obtain rfl := Except.ok.inj hkeys
    refine ⟨_, Text.nodup_sorted (ht.nodup l children hl), rfl, fun name hname => ?_⟩
    exact ht.isPart l children hl name (Text.mem_sorted.1 hname)

/-- A path at which a directory stands has octets, so no half in it begins a pair. -/
theorem beginsNoPair_of_isDirectory {h : Host} {p : Path} (hd : h.isDirectory p = .ok true) :
    p.toText.BeginsNoPair := by
  obtain ⟨children, hs⟩ := isDirectory_eq_ok_true.1 hd
  intro c hc
  obtain ⟨hoctets, -⟩ := pathDefect?_eq_none.1 hs.possible c hc
  cases c with
  | char c => rfl
  | half place =>
    have hplace : 0x480 ≤ place.val ∧ place.val ≤ 0x4ff := of_decide_eq_true hoctets
    have hlate : ¬place.val < 0x400 := by omega
    rw [CodePoint.isFirstHalf, decide_eq_false hlate]

end Host

namespace Project

/-- The libraries of the board's platform. -/
def libraries (p : Project) (f : BoardFacts) (h : Host) : Option (List (Text × Path)) :=
  (h.run (detectLibraries (f.platform / "libraries") p.shell)).1.toOption

/-- What libraries are found depends on the files only. -/
theorem libraries_of_sameFiles {h h' : Host} (hs : SameFiles h h') (p : Project) (f : BoardFacts) :
    p.libraries f h' = p.libraries f h := by
  have hlisting : h'.listing (f.platform / "libraries") = h.listing (f.platform / "libraries") := by
    rw [Host.listing, Host.listing, hs.1, hs.2]
  have hdirectory : h'.isDirectory = h.isDirectory := by
    funext q
    rw [Host.isDirectory, Host.isDirectory, hs.1, hs.2]
  simp only [libraries, detectLibraries, Host.run_bind_of_ok (Host.run_get _), hlisting,
    hdirectory]
  cases h.listing (f.platform / "libraries") with
  | ok paths =>
    simp only [Host.run_bind, Host.run_lift]
    cases paths.filterM h.isDirectory <;> rfl
  | error refusal => cases refusal <;> rfl

theorem run_detectLibraries_eq_ok {h h' : Host} {dir : Path} {shell : Shell}
    {found : List (Text × Path)} (hr : h.run (detectLibraries dir shell) = (.ok found, h')) :
    found = [] ∨ ∃ ps dirs, h.listing dir = .ok ps ∧ ps.filterM h.isDirectory = .ok dirs ∧
      found = dirs.map fun p => (p.name, p) := by
  rw [detectLibraries, Host.run_bind_of_ok (Host.run_get h)] at hr
  split at hr
  · next ps hps =>
    obtain ⟨dirs, h₁, hdirs, hr⟩ := Host.run_bind_eq_ok.1 hr
    refine .inr ⟨ps, dirs, hps, ?_, (Except.ok.inj (Prod.mk.inj hr).1).symm⟩
    obtain ⟨hdirs, -⟩ := Host.run_lift_eq_ok.1 hdirs
    exact hdirs
  · cases (Prod.mk.inj hr).1
  · exact .inl (Except.ok.inj (Prod.mk.inj hr).1).symm

/-- In a proper tree the libraries have different names and normal paths, without halves that
begin a pair. -/
theorem libraries_eq_some {p : Project} {f : BoardFacts} {h : Host} {found : List (Text × Path)}
    (ht : h.tree.IsProper) (hf : f.platform.IsNormal) (hl : p.libraries f h = some found) :
    (Entries.keys found).Nodup ∧ ∀ l ∈ found,
      l.2.IsNormal ∧ l.1.BeginsNoPair ∧ l.2.toText.BeginsNoPair := by
  have hr : h.run (detectLibraries (f.platform / "libraries") p.shell) = (.ok found, _) :=
    Prod.ext (eq_ok_of_toOption hl) rfl
  rcases run_detectLibraries_eq_ok hr with rfl | ⟨ps, dirs, hps, hdirs, rfl⟩
  · exact ⟨.nil, nofun⟩
  · obtain ⟨hsub, htrue⟩ := sublist_of_filterM hdirs
    obtain ⟨names, hnodup, rfl, hproper⟩ := Host.exists_names_of_listing ht hps
    obtain ⟨kept, hkept, rfl⟩ := List.sublist_map_iff.1 hsub
    have hdir : (f.platform / "libraries" : Path).IsNormal := hf.join (Path.isNormal_ofText _)
    have hname (name : Text) : (Host.child (f.platform / "libraries") name).name = name := by
      rw [Host.child, Path.name, List.getLast?_concat, Option.getD_some]
    constructor
    · have hkeys : Entries.keys ((kept.map (Host.child (f.platform / "libraries"))).map
          fun q => (q.name, q)) = kept := by
        simp [Entries.keys, Function.comp_def, hname]
      rw [hkeys]
      exact hkept.nodup hnodup
    · intro l hl
      obtain ⟨q, hq, rfl⟩ := List.mem_map.1 hl
      have hwhole := Host.beginsNoPair_of_isDirectory (htrue q hq)
      obtain ⟨name, hn, rfl⟩ := List.mem_map.1 hq
      have hpart : name ∈ (Host.child (f.platform / "libraries") name).parts := by
        rw [Host.child]
        exact List.mem_append_right _ (List.mem_singleton_self _)
      refine ⟨fun part hm => ?_, fun c hc => ?_, hwhole⟩
      · rcases List.mem_append.1 hm with hm | hm
        · exact hdir part hm
        · rw [List.mem_singleton.1 hm]
          exact hproper name (hkept.subset hn)
      · rw [hname] at hc
        exact hwhole c (Path.mem_toText_of_mem_parts hpart hc)

end Project
end FirmwareBuild
