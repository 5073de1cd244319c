import FirmwareBuild.Config.Chain
import FirmwareBuild.Proofs.Except
import Mathlib.Data.List.Basic

/-! The chain of configuration files.

The files that count are those that exist, each at the first place where it is looked for:
`covers_distinct` and `paths_eq_ok`. Of what they say, single values come from the innermost file
that gives one (`innermost_eq`), and lists are joined in order. -/
namespace FirmwareBuild.UserConfig

/-! ### Without repetitions -/

section Distinct

variable {α : Type} [BEq α] (p : α → Bool)

/-- The elements seen so far and those with a property of a list, without repetitions. -/
def collected (seen xs : List α) : List α :=
  (xs.filter p).foldl (fun seen x => if seen.contains x then seen else seen ++ [x]) seen

/-- What has been collected when a part of a list has been looked at: every element of it with the
property, in the order of their first positions. -/
structure Covers (seen done : List α) : Prop where
  mem : ∀ x, x ∈ seen ↔ x ∈ done ∧ p x = true
  ordered : seen.Pairwise fun x y => done.idxOf x < done.idxOf y

theorem Covers.nodup {seen done : List α} (h : Covers p seen done) : seen.Nodup :=
  h.ordered.imp fun hlt heq => absurd (heq ▸ hlt) (Nat.lt_irrefl _)

variable [LawfulBEq α]

theorem collected_cons_of_skip {seen : List α} {x : α} (h : p x = false ∨ x ∈ seen)
    (xs : List α) : collected p seen (x :: xs) = collected p seen xs := by
  rw [collected, collected]
  by_cases hp : p x = true
  · have hx : seen.contains x = true := by simpa [hp] using h
    rw [List.filter_cons_of_pos hp, List.foldl_cons, if_pos hx]
  · rw [List.filter_cons_of_neg hp]

theorem collected_cons_of_take {seen : List α} {x : α} (hp : p x = true) (h : x ∉ seen)
    (xs : List α) : collected p seen (x :: xs) = collected p (seen ++ [x]) xs := by
  have hx : ¬seen.contains x = true := by simpa using h
  rw [collected, collected, List.filter_cons_of_pos hp, List.foldl_cons, if_neg hx]

variable {p}

theorem Covers.skip {seen done : List α} (h : Covers p seen done) {x : α}
    (hx : p x = false ∨ x ∈ seen) : Covers p seen (done ++ [x]) := by
  constructor
  · intro y
    rw [h.mem, List.mem_append, List.mem_singleton]
    constructor
    · exact fun ⟨hy, hp⟩ => ⟨.inl hy, hp⟩
    · rintro ⟨hy | rfl, hp⟩
      · exact ⟨hy, hp⟩
      · rcases hx with hx | hx
        · rw [hp] at hx
          exact nomatch hx
        · exact (h.mem y).1 hx
  · refine h.ordered.imp_of_mem fun ha hb hlt => ?_
    rwa [List.idxOf_append_of_mem ((h.mem _).1 ha).1, List.idxOf_append_of_mem ((h.mem _).1 hb).1]

theorem Covers.take {seen done : List α} (h : Covers p seen done) {x : α} (hp : p x = true)
    (hx : x ∉ seen) : Covers p (seen ++ [x]) (done ++ [x]) := by
  have hnew : x ∉ done := fun hd => hx ((h.mem x).2 ⟨hd, hp⟩)
  constructor
  · intro y
    simp only [List.mem_append, List.mem_singleton, h.mem]
    constructor
    · rintro (⟨hy, hp⟩ | rfl)
      · exact ⟨.inl hy, hp⟩
      · exact ⟨.inr rfl, hp⟩
    · rintro ⟨hy | rfl, hp⟩
      · exact .inl ⟨hy, hp⟩
      · exact .inr rfl
  · refine List.pairwise_append.2 ⟨?_, List.pairwise_singleton .., fun a ha b hb => ?_⟩
    · refine h.ordered.imp_of_mem fun ha hb hlt => ?_
      rwa [List.idxOf_append_of_mem ((h.mem _).1 ha).1,
        List.idxOf_append_of_mem ((h.mem _).1 hb).1]
    · obtain rfl := List.mem_singleton.1 hb
      have had := ((h.mem a).1 ha).1
      rw [List.idxOf_append_of_mem had, List.idxOf_append_of_notMem hnew]
      exact Nat.lt_add_right _ (List.idxOf_lt_length_iff.2 had)

/-- Looking at the rest of a list, one element after the other. -/
theorem Covers.rest {seen done : List α} (h : Covers p seen done) (xs : List α) :
    Covers p (collected p seen xs) (done ++ xs) := by
  induction xs generalizing seen done with
  | nil => simpa [collected] using h
  | cons x xs ih =>
    rw [show done ++ x :: xs = done ++ [x] ++ xs by simp]
    by_cases hx : p x = true ∧ x ∉ seen
    · rw [collected_cons_of_take p hx.1 hx.2]
      exact ih (h.take hx.1 hx.2)
    · have hskip : p x = false ∨ x ∈ seen := by
        rwa [Classical.not_and_iff_not_or_not, Bool.not_eq_true, Classical.not_not] at hx
      rw [collected_cons_of_skip p hskip]
      exact ih (h.skip hskip)

/-- The elements with a property, each once and in the order of their first positions. -/
theorem covers_distinct (xs : List α) : Covers p (distinct (xs.filter p)) xs := by
  have hstart : Covers p ([] : List α) [] := ⟨by simp, .nil⟩
  exact hstart.rest xs

end Distinct

/-! ### Values -/

/-- The innermost value is the last one that there is. -/
theorem innermost_eq {α β : Type} (f : α → Option β) (xs : List α) :
    innermost f xs = (xs.filterMap f).getLast? := by
  suffices ∀ best, xs.foldl (fun best x => (f x).orElse fun _ => best) best =
      (xs.filterMap f).getLast?.or best by
    rw [innermost, this, Option.or_none]
  induction xs with
  | nil => exact fun best => rfl
  | cons x xs ih =>
    intro best
    rw [List.foldl_cons, ih, List.filterMap_cons]
    cases f x with
    | none => rfl
    | some y =>
      rw [List.getLast?_cons]
      cases (xs.filterMap f).getLast? <;> rfl

/-! ### Files -/

theorem path_of_load {h : Host} {path : Path} {f : ConfigFile}
    (hf : ConfigFile.load h path = .ok f) : f.path = path := by
  rw [ConfigFile.load] at hf
  split at hf
  · exact nomatch hf
  · rw [ConfigFile.ofOctets] at hf
    split at hf
    · exact nomatch hf
    · split at hf
      · exact nomatch hf
      · exact nomatch hf
      · exact nomatch hf
      · next t _ =>
        cases ht : ConfigFile.ofTable path t with
        | error e =>
          rw [ht] at hf
          exact nomatch hf
        | ok g =>
          rw [ht] at hf
          obtain rfl := Except.ok.inj hf
          simp only [ConfigFile.ofTable, bind_eq_ok] at ht
          obtain ⟨_, _, _, _, _, _, _, _, _, _, _, _, _, _, _, _, _, _, _, _, ht⟩ := ht
          rw [← Except.ok.inj ht]

/-- Where configuration files are looked for: in the home directory, and from the outermost
directory above the current one down to it. -/
def candidates (current home : Path) : List Path :=
  (home :: (current :: current.parents).reverse).map fileIn

/-- A place where no file stands in the way of a configuration. -/
def IsUsable (h : Host) (path : Path) : Prop :=
  h.isFile path = .ok false ∨ h.isFile path = .ok true ∧ ∃ f, ConfigFile.load h path = .ok f

/-- Whether a configuration file is at a place. -/
def isThere (h : Host) (path : Path) : Bool := (h.isFile path).toOption.getD false

variable {h : Host} {current home : Path}

theorem isFile_eq_isThere {path : Path} (hu : IsUsable h path) :
    h.isFile path = .ok (isThere h path) := by
  rcases hu with hf | ⟨hf, -⟩ <;> rw [isThere, hf] <;> rfl

theorem paths_eq_ok (hu : ∀ p ∈ candidates current home, IsUsable h p) :
    paths h current home = .ok (distinct ((candidates current home).filter (isThere h))) := by
  have hfilter : (candidates current home).filterM h.isFile =
      .ok ((candidates current home).filter (isThere h)) :=
    filterM_eq_ok fun p hp => isFile_eq_isThere (hu p hp)
  rw [paths]
  show ((candidates current home).filterM h.isFile).map distinct = _
  rw [hfilter]
  rfl

/-- Files that can be loaded, one by one. -/
theorem exists_files {ps : List Path} (hps : ∀ p ∈ ps, ∃ f, ConfigFile.load h p = .ok f) :
    ∃ files, ps.mapM (ConfigFile.load h) = .ok files ∧ files.map ConfigFile.path = ps ∧
      ∀ f ∈ files, ConfigFile.load h f.path = .ok f := by
  induction ps with
  | nil => exact ⟨[], rfl, rfl, nofun⟩
  | cons p ps ih =>
    obtain ⟨f, hf⟩ := hps p (List.mem_cons_self ..)
    obtain ⟨files, hfiles, hpaths, hload⟩ := ih fun q hq => hps q (List.mem_cons_of_mem _ hq)
    have hpath := path_of_load hf
    refine ⟨f :: files, ?_, ?_, ?_⟩
    · rw [List.mapM_cons, hf]
      show (ps.mapM (ConfigFile.load h) >>= fun fs => pure (f :: fs)) = _
      rw [hfiles]
      rfl
    · rw [List.map_cons, hpath, hpaths]
    · intro g hg
      rcases List.mem_cons.1 hg with rfl | hg
      · rw [hpath, hf]
      · exact hload g hg

/-- Loading takes the files that exist, in order and each once, and puts them together. -/
theorem load_eq_ok (hu : ∀ p ∈ candidates current home, IsUsable h p) :
    ∃ files, load h current home = .ok (resolve files) ∧
      (∀ f ∈ files, ConfigFile.load h f.path = .ok f) ∧
      Covers (isThere h) (files.map ConfigFile.path) (candidates current home) := by
  have hcovers : Covers (isThere h) _ (candidates current home) := covers_distinct _
  have hfound : ∀ p ∈ distinct ((candidates current home).filter (isThere h)),
      ∃ f, ConfigFile.load h p = .ok f := by
    intro p hp
    obtain ⟨hmem, hthere⟩ := (hcovers.mem p).1 hp
    rcases hu p hmem with hf | ⟨-, hload⟩
    · rw [isThere, hf] at hthere
      exact nomatch hthere
    · exact hload
  obtain ⟨files, hfiles, hpaths, hload⟩ := exists_files hfound
  refine ⟨files, ?_, hload, hpaths ▸ hcovers⟩
  rw [load, paths_eq_ok hu]
  show (List.mapM (ConfigFile.load h) _ >>= fun files => pure (resolve files)) = _
  rw [hfiles]
  rfl

end FirmwareBuild.UserConfig
