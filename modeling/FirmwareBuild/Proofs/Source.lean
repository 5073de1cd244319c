import FirmwareBuild.Proofs.Entries
import FirmwareBuild.Proofs.Host.Below
import FirmwareBuild.Source
import Mathlib.Data.List.Lex

/-! Which sources a scan finds.

A scan sorts the names in each directory and puts what it finds below a directory in the
directory's place. So the sources of a whole tree stand in one order, by the components of their
paths: `visit_eq_ok`, by induction over the tree. `below_sources` says which they are and in what
order, and when a scan fails because of its directory; a directory that the system cannot have is
apart (`below_impossible`). -/
namespace FirmwareBuild

open Host (Entry Stands InReach child)

/-! ### Order -/

namespace Text

/-- Whether a text comes before another one, by code points. -/
def Precedes (a b : Text) : Prop := List.Lex (fun c d => CodePoint.toNat c < d.toNat) a b

theorem precedes_of_ascending {a b : Text} (h : ascending a b = true) (hne : a ≠ b) :
    Precedes a b := by
  induction a generalizing b with
  | nil =>
    obtain ⟨c, rest, rfl⟩ := List.exists_cons_of_ne_nil (Ne.symm hne)
    exact .nil
  | cons c as ih =>
    cases b with
    | nil => exact nomatch h
    | cons d bs =>
      simp only [ascending, List.map_cons, notBehind, Bool.or_eq_true, decide_eq_true_eq,
        Bool.and_eq_true, beq_iff_eq] at h
      rcases h with h | ⟨hsame, h⟩
      · exact .rel h
      · obtain rfl : c = d := by rw [← CodePoint.ofNat_toNat c, hsame, CodePoint.ofNat_toNat]
        exact .cons (ih h fun he => hne (he ▸ rfl))

theorem not_precedes_self (a : Text) : ¬Precedes a a :=
  List.lex_irrefl (fun c => Nat.lt_irrefl c.toNat) a

end Text

namespace Path

/-- Whether a path comes before another one, component by component. -/
def Precedes (p q : Path) : Prop := List.Lex Text.Precedes p.parts q.parts

theorem not_precedes_self (p : Path) : ¬Precedes p p :=
  List.lex_irrefl Text.not_precedes_self p.parts

/-- The path of what stands at a location below a directory. -/
def under (dir : Path) (l : Host.Location) : Path := ⟨dir.root, dir.parts ++ l⟩

theorem under_nil (dir : Path) : dir.under [] = dir := by rw [under, List.append_nil]

theorem under_child (dir : Path) (name : Text) (l : Host.Location) :
    (child dir name).under l = dir.under (name :: l) := by
  rw [under, under, child, List.append_assoc, List.singleton_append]

theorem precedes_under {name name' : Text} (h : Text.Precedes name name') (dir : Path)
    (l l' : Host.Location) : Precedes (dir.under (name :: l)) (dir.under (name' :: l')) :=
  List.Lex.append_left _ (.rel h) dir.parts

/-- A directory holds itself what is one name below it. -/
theorem parent_under (dir : Path) (name : Text) (l : Host.Location) :
    (dir.under (name :: l)).parent = dir ↔ l = [] := by
  rcases l.eq_nil_or_concat with rfl | ⟨between, last, rfl⟩
  · rw [under, parent, List.dropLast_concat]
    exact iff_of_true rfl rfl
  · rw [List.concat_eq_append, under, parent, ← List.cons_append, ← List.append_assoc,
      List.dropLast_concat]
    refine iff_of_false (fun h => ?_) (List.concat_ne_nil last between)
    have hparts : dir.parts ++ name :: between = dir.parts := congrArg parts h
    exact nomatch List.append_right_eq_self.1 hparts

end Path

namespace Source

/-- The extensions of files that can be compiled. -/
def extensions : List Text := assemblyExtensions ++ cExtensions ++ cppExtensions

theorem isSource_iff {p : Path} : isSource p = true ↔ p.extension ∈ extensions := by
  rw [isSource, kind?, extensions, List.mem_append, List.mem_append]
  grind

variable {h : Host} {dir p : Path} {e : Entry} {children : List (Text × Entry)} {levels : Nat}

/-! ### What is found -/

/-- Whether these are the sources among the files at a path and below it, in their order. -/
structure AreSources (p : Path) (e : Entry) (sources : List Path) : Prop where
  mem_iff : ∀ q, q ∈ sources ↔
    ∃ l octets, e.at? l = some (.file octets) ∧ q = p.under l ∧ isSource q = true
  ordered : sources.Pairwise Path.Precedes

theorem areSources_file (p : Path) (octets : List UInt8) :
    AreSources p (.file octets) (if isSource p then [p] else []) := by
  refine ⟨fun q => ?_, ?_⟩
  · constructor
    · intro hq
      split at hq
      · next hp =>
        obtain rfl := List.mem_singleton.1 hq
        exact ⟨[], octets, rfl, (Path.under_nil q).symm, hp⟩
      · exact nomatch hq
    · rintro ⟨l, _, hl, rfl, hsource⟩
      cases l with
      | nil =>
        rw [Path.under_nil] at hsource ⊢
        rw [if_pos hsource]
        exact List.mem_singleton.2 rfl
      | cons name l => exact nomatch hl
  · split
    · exact List.pairwise_singleton _ _
    · exact .nil

/-- Whether these are the sources that a directory holds under a name. -/
def AreSourcesUnder (dir : Path) (children : List (Text × Entry)) (name : Text)
    (sources : List Path) : Prop :=
  ∃ e, Entries.get? name children = some e ∧ AreSources (child dir name) e sources

theorem mem_flatten {names : List Text} {parts : List (List Path)}
    (hparts : List.Forall₂ (AreSourcesUnder dir children) names parts) (q : Path) :
    q ∈ parts.flatten ↔ ∃ name ∈ names, ∃ l octets,
      (Entry.directory children).at? (name :: l) = some (.file octets) ∧
        q = dir.under (name :: l) ∧ isSource q = true := by
  induction hparts with
  | nil => simp
  | @cons name part names parts hpart _ ih =>
    obtain ⟨e, he, hpart⟩ := hpart
    rw [List.flatten_cons, List.mem_append, ih, hpart.mem_iff]
    simp only [List.exists_mem_cons_iff, Entry.at?_directory_cons, he, Option.bind_some,
      Path.under_child]

/-- What is found below one name after the other is in order if the names are. -/
theorem pairwise_flatten {names : List Text} {parts : List (List Path)}
    (hparts : List.Forall₂ (AreSourcesUnder dir children) names parts)
    (hnames : names.Pairwise Text.Precedes) : parts.flatten.Pairwise Path.Precedes := by
  induction hparts with
  | nil => exact .nil
  | @cons name part names parts hpart hrest ih =>
    obtain ⟨hfirst, hnames⟩ := List.pairwise_cons.1 hnames
    obtain ⟨e, -, hpart⟩ := hpart
    refine List.pairwise_append.2 ⟨hpart.ordered, ih hnames, fun q hq q' hq' => ?_⟩
    obtain ⟨l, _, -, rfl, -⟩ := (hpart.mem_iff q).1 hq
    obtain ⟨name', hname', l', _, -, rfl, -⟩ := (mem_flatten hrest q').1 hq'
    rw [Path.under_child]
    exact Path.precedes_under (hfirst name' hname') dir l l'

theorem areSources_directory {parts : List (List Path)} (hnodup : (Entries.keys children).Nodup)
    (hparts : List.Forall₂ (AreSourcesUnder dir children)
      (Text.sorted (Entries.keys children)) parts) :
    AreSources dir (.directory children) parts.flatten := by
  refine ⟨fun q => ?_, pairwise_flatten hparts ?_⟩
  · rw [mem_flatten hparts]
    constructor
    · rintro ⟨name, -, l, octets, hl⟩
      exact ⟨name :: l, octets, hl⟩
    · rintro ⟨l, octets, hl, hq⟩
      cases l with
      | nil => exact nomatch hl
      | cons name l =>
        obtain ⟨e, he, -⟩ := Option.bind_eq_some_iff.1 hl
        exact ⟨name, Text.mem_sorted.2 ((Entries.mem_keys_iff name children).2 ⟨e, he⟩), l, octets,
          hl, hq⟩
  · exact ((Text.pairwise_sorted _).and (Text.nodup_sorted hnodup)).imp fun ⟨hle, hne⟩ =>
      Text.precedes_of_ascending hle hne

/-! ### What a scan does -/

theorem visit_file {octets : List UInt8} (hs : Stands h p (.file octets)) (deep : Bool)
    (scan : Path → Except Failure (List Path)) :
    visit h deep scan p = .ok (if isSource p then [p] else []) := by
  rw [visit, hs.isDirectory, hs.isFile]
  rfl

theorem visit_directory (hs : Stands h p (.directory children)) (deep : Bool)
    (scan : Path → Except Failure (List Path)) :
    visit h deep scan p = if deep then scan p else .ok [] := by
  rw [visit, hs.isDirectory]
  rfl

theorem collect_of_stands (hs : Stands h dir (.directory children)) (deep : Bool) (levels : Nat) :
    collect h deep (levels + 1) dir =
      ((Text.sorted (Entries.keys children)).mapM
        fun name => visit h deep (collect h deep levels) (child dir name)).map List.flatten := by
  rw [collect, hs.listing]
  show Except.map _ (List.mapM _ (List.map _ _)) = _
  rw [List.mapM_map]
  rfl

/-- What ends a scan, other than that a directory cannot be read: a path that is too long to be
looked at, or too many levels. -/
def IsBeyond (e : Failure) : Prop := e = .defect .unseenPath ∨ e = .defect .tooDeep

/-- A directory that is seen can be read. -/
theorem failsOnly_collect (hs : Stands h dir (.directory children)) (deep : Bool) :
    FailsOnly IsBeyond (collect h deep levels dir) := by
  induction levels generalizing dir children with
  | zero => exact failsOnly_error (.inr rfl)
  | succ levels ih =>
    rw [collect_of_stands hs]
    refine (failsOnly_mapM fun name _ => ?_).map _
    have hseen (found : Except Host.Errno Bool) :
        FailsOnly IsBeyond (Host.seen (child dir name) found) :=
      (Host.failsOnly_seen _ found).imp fun _ => .inl
    refine (hseen _).bind fun isDirectory hd => ?_
    cases isDirectory with
    | true =>
      cases deep with
      | true =>
        obtain ⟨below, hbelow⟩ := Host.isDirectory_eq_ok_true.1 hd
        exact ih hbelow
      | false => exact failsOnly_ok []
    | false => exact (hseen _).bind fun isFile _ => by cases isFile <;> exact failsOnly_ok _

/-- So a scan fails with an error of the build if and only if the system has the path and there is
no directory. -/
theorem collect_eq_build_iff (h : Host) (dir : Path) (deep : Bool) (levels : Nat) :
    (∃ e, collect h deep (levels + 1) dir = .error (.build e)) ↔
      Host.pathDefect? dir = none ∧ ∀ children, ¬Stands h dir (.directory children) := by
  constructor
  · rintro ⟨e, he⟩
    refine ⟨?_, fun children hs => ?_⟩
    · cases hp : Host.pathDefect? dir with
      | none => rfl
      | some d =>
        rw [collect, Host.listing, Host.worked, hp] at he
        cases he
    · rcases failsOnly_collect hs deep _ he with h | h <;> cases h
  · rintro ⟨hp, hno⟩
    obtain ⟨fault, hfault⟩ := Host.listing_eq_fault hp fun children hfound =>
      hno children ⟨hp, hfound⟩
    refine ⟨.unreadableDirectory dir fault, ?_⟩
    rw [collect, hfault]
    rfl

/-- By induction over what stands at the path: a scan finds the sources of an entry. -/
theorem visit_eq_ok (ht : h.tree.IsPossible) (hr : InReach levels p e) (hs : Stands h p e) :
    ∃ sources, visit h true (collect h true levels) p = .ok sources ∧ AreSources p e sources := by
  induction hr with
  | file hp => exact ⟨_, visit_file hs true _, areSources_file _ _⟩
  | @directory levels p children hp hbelow ih =>
    obtain ⟨l, -, hat⟩ := Host.FileTree.look_eq_ok.1 hs.found
    -- Each name stands for an entry, which is in reach and stands at the path with that name.
    have hpart : ∀ name ∈ Text.sorted (Entries.keys children), ∃ part,
        visit h true (collect h true levels) (child p name) = .ok part ∧
          AreSourcesUnder p children name part := by
      intro name hname
      obtain ⟨e, he⟩ := (Entries.mem_keys_iff name children).1 (Text.mem_sorted.1 hname)
      obtain ⟨part, hvisit, hpart⟩ := ih name e he (hs.child ht he (hbelow name e he).short)
      exact ⟨part, hvisit, e, he, hpart⟩
    obtain ⟨parts, hvisits, hparts⟩ := exists_mapM_ok hpart
    refine ⟨parts.flatten, ?_, areSources_directory (ht l children hat).1 hparts⟩
    rw [visit_directory hs, if_pos rfl, collect_of_stands hs, hvisits]
    rfl

/-- So it finds those of a directory. -/
theorem below_eq_ok (ht : h.tree.IsPossible) (hs : Stands h dir (.directory children))
    (hr : InReach (depthLimit + 1) dir (.directory children)) :
    ∃ sources, below h dir = .ok sources ∧ AreSources dir (.directory children) sources := by
  obtain ⟨sources, hvisit, hsources⟩ := visit_eq_ok ht hr hs
  rw [visit_directory hs, if_pos rfl] at hvisit
  exact ⟨sources, hvisit, hsources⟩

/-- Without the directories below, those of the sources are found that stand in the directory. -/
theorem visit_shallow {name : Text} {sources : List Path} (hs : Stands h (child dir name) e)
    (hsources : AreSources (child dir name) e sources) {scan : Path → Except Failure (List Path)}
    (hvisit : visit h true scan (child dir name) = .ok sources)
    (scan' : Path → Except Failure (List Path)) :
    visit h false scan' (child dir name) = .ok (sources.filter fun p => p.parent = dir) := by
  have hparent (q) (hq : q ∈ sources) :
      ∃ l octets, e.at? l = some (.file octets) ∧ (q.parent = dir ↔ l = []) := by
    obtain ⟨l, octets, hl, rfl, -⟩ := (hsources.mem_iff q).1 hq
    exact ⟨l, octets, hl, Path.under_child dir name l ▸ Path.parent_under dir name l⟩
  cases e with
  | file octets =>
    rw [visit_file hs, ← visit_file hs true scan, hvisit, List.filter_eq_self.2]
    intro q hq
    obtain ⟨l, _, hl, hiff⟩ := hparent q hq
    cases l with
    | nil => exact decide_eq_true (hiff.2 rfl)
    | cons name l => exact nomatch hl
  | directory below =>
    rw [visit_directory hs, List.filter_eq_nil_iff.2]
    · rfl
    · intro q hq hdir
      obtain ⟨l, _, hl, hiff⟩ := hparent q hq
      rw [hiff.1 (of_decide_eq_true hdir)] at hl
      exact nomatch hl

theorem inDirectory_eq (ht : h.tree.IsPossible) (hs : Stands h dir (.directory children))
    (hr : InReach (levels + 1) dir (.directory children)) {sources : List Path}
    (hcollect : collect h true (levels + 1) dir = .ok sources) :
    inDirectory h dir = .ok (sources.filter fun p => p.parent = dir) := by
  rw [collect_of_stands hs] at hcollect
  obtain ⟨parts, hparts, rfl⟩ := map_eq_ok.1 hcollect
  rw [inDirectory, collect_of_stands hs, mapM_image hparts, List.filter_flatten]
  · rfl
  · intro name hname part hvisit
    obtain ⟨e, he⟩ := (Entries.mem_keys_iff name children).1 (Text.mem_sorted.1 hname)
    cases hr with
    | directory hp hbelow =>
      have hreach := hbelow name e he
      have hchild := hs.child ht he hreach.short
      obtain ⟨part', hvisit', hpart⟩ := visit_eq_ok ht hreach hchild
      obtain rfl := Except.ok.inj (hvisit'.symm.trans hvisit)
      exact visit_shallow hchild hpart hvisit _

/-- **What a scan finds.** A scan fails with an error of the build if and only if the system has
the path and there is no directory. If all that a directory holds is in reach, the scan finds the
files below it that can be compiled, each once and in the order of the components of their paths;
without the directories below, those of them that stand in the directory. -/
theorem below_sources (ht : h.tree.IsPossible) (dir : Path) :
    ((∃ e, below h dir = .error (.build e)) ↔
        Host.pathDefect? dir = none ∧ ∀ children, ¬Stands h dir (.directory children)) ∧
      ((∃ e, inDirectory h dir = .error (.build e)) ↔
        Host.pathDefect? dir = none ∧ ∀ children, ¬Stands h dir (.directory children)) ∧
      ∀ children, Stands h dir (.directory children) →
        InReach (depthLimit + 1) dir (.directory children) →
        ∃ sources, below h dir = .ok sources ∧
          (∀ p, p ∈ sources ↔ ∃ l octets,
            (Entry.directory children).at? l = some (.file octets) ∧ p = dir.under l ∧
              p.extension ∈ extensions) ∧
          sources.Nodup ∧ sources.Pairwise Path.Precedes ∧
          inDirectory h dir = .ok (sources.filter fun p => p.parent = dir) := by
  refine ⟨collect_eq_build_iff h dir true _, collect_eq_build_iff h dir false _,
    fun children hs hr => ?_⟩
  obtain ⟨sources, hbelow, hsources⟩ := below_eq_ok ht hs hr
  refine ⟨sources, hbelow, fun p => ?_, ?_, hsources.ordered, inDirectory_eq ht hs hr hbelow⟩
  · rw [hsources.mem_iff]
    simp only [isSource_iff]
  · refine List.Pairwise.imp (fun {p q} hpq => ?_) hsources.ordered
    rintro rfl
    exact Path.not_precedes_self p hpq

/-- What the directory below holds in `twoLevels`. -/
def innerFiles : List (Text × Entry) := [("in.h", .file []), ("in.S", .file [])]

/-- A directory that is named like a source, next to a file whose name goes on where that of the
directory ends. -/
def outerFiles : List (Text × Entry) :=
  [("a.c-b.c", .file []), ("a.c", .directory innerFiles)]

def twoLevels : Host :=
  { (default : Host) with tree := ⟨.directory [("src", .directory outerFiles)]⟩ }

theorem isPossible_twoLevels : twoLevels.tree.IsPossible := by
  have hname (s : String) (hs : s ∈ ["src", "a.c-b.c", "a.c", "in.h", "in.S"]) :
      Host.FileName.IsPossible s := by
    refine Host.FileName.isPossible_ofString ?_ ?_ ?_ <;> revert s <;> decide
  refine Host.FileTree.everyDirectory_directory ⟨by decide, ?_⟩ fun name e he => ?_
  · exact List.forall_mem_singleton.2 (hname "src" (by decide))
  obtain ⟨-, rfl⟩ := Prod.mk.inj (List.mem_singleton.1 (Entries.mem_of_get? he))
  refine Host.FileTree.everyDirectory_directory ⟨by decide, ?_⟩ fun name e he => ?_
  · exact List.forall_mem_cons.2 ⟨hname "a.c-b.c" (by decide),
      List.forall_mem_singleton.2 (hname "a.c" (by decide))⟩
  rcases List.mem_pair.1 (Entries.mem_of_get? he) with h | h
  · obtain ⟨-, rfl⟩ := Prod.mk.inj h
    exact Host.FileTree.everyDirectory_file []
  obtain ⟨-, rfl⟩ := Prod.mk.inj h
  refine Host.FileTree.everyDirectory_directory ⟨by decide, ?_⟩ fun name e he => ?_
  · exact List.forall_mem_cons.2 ⟨hname "in.h" (by decide),
      List.forall_mem_singleton.2 (hname "in.S" (by decide))⟩
  rcases List.mem_pair.1 (Entries.mem_of_get? he) with h | h <;>
  · obtain ⟨-, rfl⟩ := Prod.mk.inj h
    exact Host.FileTree.everyDirectory_file []

theorem stands_top_twoLevels :
    Stands twoLevels (.ofText ".") (.directory [("src", .directory outerFiles)]) := ⟨rfl, rfl⟩

theorem stands_outerFiles : Stands twoLevels (.ofText "src") (.directory outerFiles) :=
  stands_top_twoLevels.child isPossible_twoLevels rfl (by decide)

theorem inReach_outerFiles : InReach (depthLimit + 1) (.ofText "src") (.directory outerFiles) := by
  refine .directory (by decide) fun name e he => ?_
  rcases List.mem_pair.1 (Entries.mem_of_get? he) with h | h
  · obtain ⟨rfl, rfl⟩ := Prod.mk.inj h
    exact .file (by decide)
  · obtain ⟨rfl, rfl⟩ := Prod.mk.inj h
    refine .directory (by decide) fun name e he => ?_
    rcases List.mem_pair.1 (Entries.mem_of_get? he) with h | h <;>
    · obtain ⟨rfl, rfl⟩ := Prod.mk.inj h
      exact .file (by decide)

/-- The sources are the file and what can be compiled of what is in the directory. -/
theorem below_sources_twoLevels :
    ∃ sources, below twoLevels (.ofText "src") = .ok sources ∧
      .ofText "src/a.c/in.S" ∈ sources ∧ .ofText "src/a.c-b.c" ∈ sources ∧
      .ofText "src/a.c/in.h" ∉ sources ∧ sources.Nodup ∧ sources.Pairwise Path.Precedes ∧
      inDirectory twoLevels (.ofText "src") =
        .ok (sources.filter fun p => p.parent = .ofText "src") := by
  obtain ⟨-, -, hscan⟩ := below_sources isPossible_twoLevels (.ofText "src")
  obtain ⟨sources, hbelow, hmem, hnodup, hordered, hin⟩ :=
    hscan outerFiles stands_outerFiles inReach_outerFiles
  refine ⟨sources, hbelow, (hmem _).2 ⟨["a.c", "in.S"], [], rfl, by decide, by decide⟩,
    (hmem _).2 ⟨["a.c-b.c"], [], rfl, by decide, by decide⟩, fun h => ?_, hnodup, hordered, hin⟩
  obtain ⟨_, _, -, -, hext⟩ := (hmem _).1 h
  revert hext
  decide

/-- A path that the system cannot have is not listed, yet the failure is none of the build. -/
theorem below_impossible :
    (∀ paths, twoLevels.listing (.ofText "a\x00b") ≠ .ok paths) ∧
      ∀ e, below twoLevels (.ofText "a\x00b") ≠ .error (.build e) :=
  ⟨fun _ => nofun, fun _ => nofun⟩

end Source
end FirmwareBuild
