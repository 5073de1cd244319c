import FirmwareBuild.Proofs.Host.Files
import FirmwareBuild.Proofs.Path.Letters

/-! What stands below a directory.

In a tree that the system can have, what a directory holds under a name stands at the path of the
directory with that name, as long as this path is not too long (`Stands.child`). So everything
below a directory can be looked at if it is `InReach`. -/
namespace FirmwareBuild.Host

open FileTree

/-! ### Trees that the system can have -/

/-- A name that a directory of the system can list: it has octets, none of them zero and not too
many, it is spelled with characters where it can be, and it does not lead to the directory above. -/
structure FileName.IsPossible (name : Text) : Prop where
  letters : ∀ c ∈ name, hasOctets c = true ∧ c ≠ .char '\x00'
  short : size name ≤ nameLimit
  canonical : FileName.canonical name = name
  ne_up : name ≠ ".."

/-- A tree in which no directory has a name twice and all names are possible. -/
def FileTree.IsPossible (t : FileTree) : Prop :=
  t.EveryDirectory fun children =>
    (Entries.keys children).Nodup ∧ ∀ name ∈ Entries.keys children, FileName.IsPossible name

/-- A text of characters has no half that could spell one. -/
theorem FileName.canonical_ofChars (cs : List Char) :
    canonical (Text.ofChars cs) = Text.ofChars cs := by
  induction cs with
  | nil => rw [Text.ofChars, List.map_nil, canonical]
  | cons c rest ih =>
    have hnone (n : Nat) : spelled? (.char c :: Text.ofChars rest) (n + 1) = none := rfl
    show canonical (.char c :: Text.ofChars rest) = _
    rw [canonical]
    simp only [List.findSome?, hnone, ih]
    rfl

/-- A text of characters is the name of something if it has no zero in it and is not too long. -/
theorem FileName.isPossible_ofString {s : String} (hzero : '\x00' ∉ s.toList)
    (hshort : size s ≤ nameLimit) (hup : (s : Text) ≠ "..") : IsPossible s := by
  refine ⟨fun c hc => ?_, hshort, canonical_ofChars s.toList, hup⟩
  obtain ⟨d, hd, rfl⟩ := List.mem_map.1 hc
  exact ⟨rfl, fun h => hzero (CodePoint.char.inj h ▸ hd)⟩

/-! ### Standing -/

variable {h : Host} {p dir : Path} {e : Entry} {children : List (Text × Entry)} {name : Text}

/-- The system has the paths whose code points have octets, none of them zero. -/
theorem pathDefect?_eq_none :
    pathDefect? p = none ↔
      ∀ c ∈ p.toText, FileName.hasOctets c = true ∧ c ≠ .char '\x00' := by
  have hencodable : FileName.isEncodable p.toText = true ↔
      ∀ c ∈ p.toText, FileName.hasOctets c = true := List.all_eq_true
  have hbroken : FileName.isBroken p.toText = true ↔ .char '\x00' ∈ p.toText := List.elem_iff
  rw [pathDefect?]
  constructor
  · intro hnone c hc
    split at hnone
    · exact nomatch hnone
    · next he =>
      split at hnone
      · exact nomatch hnone
      · next hb =>
        exact ⟨hencodable.1 (by simpa using he) c hc, fun hz => hb (hbroken.2 (hz ▸ hc))⟩
  · intro hall
    have he : FileName.isEncodable p.toText = true := hencodable.2 fun c hc => (hall c hc).1
    have hb : ¬FileName.isBroken p.toText = true := fun hb => (hall _ (hbroken.1 hb)).2 rfl
    rw [he, if_neg hb]
    rfl

/-- What stands at a path that the system can have. -/
structure Stands (h : Host) (p : Path) (e : Entry) : Prop where
  possible : pathDefect? p = none
  found : h.tree.look h.directory p = .ok e

theorem Stands.isDirectory (hs : Stands h p e) : h.isDirectory p = .ok e.isDirectory := by
  rw [Host.isDirectory, seen, hs.possible, FileTree.isDirectory, holds, hs.found]
  rfl

theorem Stands.isFile (hs : Stands h p e) : h.isFile p = .ok e.isFile := by
  rw [Host.isFile, seen, hs.possible, FileTree.isFile, holds, hs.found]
  rfl

theorem Stands.listing (hs : Stands h dir (.directory children)) :
    h.listing dir = .ok ((Text.sorted (Entries.keys children)).map (child dir)) := by
  rw [Host.listing, worked, hs.possible, names, hs.found]
  rfl

theorem Stands.short (hs : Stands h p e) : FileName.size p.toText ≤ FileName.pathLimit := by
  refine Nat.not_lt.1 fun hlong => ?_
  have hfound := hs.found
  rw [look, locate, if_pos hlong] at hfound
  cases hfound

/-- A path that is too long cannot be looked at. -/
theorem isDirectory_of_long (hp : pathDefect? p = none)
    (hlong : FileName.pathLimit < FileName.size p.toText) :
    h.isDirectory p = .error (.defect .unseenPath) := by
  rw [Host.isDirectory, seen, hp, FileTree.isDirectory, holds, look, locate, if_pos hlong]
  rfl

/-- A directory is seen at a path if and only if one stands there. -/
theorem isDirectory_eq_ok_true :
    h.isDirectory p = .ok true ↔ ∃ children, Stands h p (.directory children) := by
  rw [Host.isDirectory, seen_eq_ok_true, FileTree.isDirectory, holds_eq_true]
  constructor
  · rintro ⟨hp, e, he, hd⟩
    cases e with
    | file octets => cases hd
    | directory children => exact ⟨children, hp, he⟩
  · rintro ⟨children, hs⟩
    exact ⟨hs.possible, .directory children, hs.found, rfl⟩

/-- Where no directory stands, nothing is listed. -/
theorem listing_eq_fault (hp : pathDefect? dir = none)
    (hno : ∀ children, h.tree.look h.directory dir ≠ .ok (.directory children)) :
    ∃ fault, h.listing dir = .error (.fault fault) := by
  rw [Host.listing, worked, hp, names]
  cases hlook : h.tree.look h.directory dir with
  | error e => exact ⟨_, rfl⟩
  | ok e =>
    cases e with
    | file octets => exact ⟨_, rfl⟩
    | directory children => exact absurd hlook (hno children)

/-- At the path of a directory with a name stands what the directory holds under it. -/
theorem Stands.look_child (hs : Stands h dir (.directory children))
    (hname : FileName.IsPossible name)
    (hsize : FileName.size (child dir name).toText ≤ FileName.pathLimit) :
    h.tree.look h.directory (child dir name) = .ok e ↔ Entries.get? name children = some e := by
  obtain ⟨l, hl, hat⟩ := look_eq_ok.1 hs.found
  have hwalk : h.tree.walk [] (origin h.directory dir ++ dir.parts) = .ok l := by
    rw [resolve] at hl
    split at hl
    · cases hl
    · exact hl
  have hkind : h.tree.kindAt l = some .directory := by
    rw [kindAt, hat]
    rfl
  have hresolve : h.tree.resolve h.directory (child dir name) = .ok (l ++ [name]) :=
    (resolve_child_eq_ok hname.ne_up).2
      ⟨Nat.not_lt.2 hsize, Nat.not_lt.2 hname.short, l, hwalk, hkind, by rw [hname.canonical]⟩
  have hchild : h.tree.top.at? (l ++ [name]) = Entries.get? name children := by
    rw [Entry.at?_append, hat, Option.bind_some, Entry.at?_directory_cons]
    cases Entries.get? name children <;> rfl
  rw [look_eq_ok]
  constructor
  · rintro ⟨l', hl', he⟩
    obtain rfl := Except.ok.inj (hresolve.symm.trans hl')
    exact hchild.symm.trans he
  · exact fun he => ⟨l ++ [name], hresolve, hchild.trans he⟩

theorem pathDefect?_child (hp : pathDefect? dir = none) (hname : FileName.IsPossible name) :
    pathDefect? (child dir name) = none := by
  refine pathDefect?_eq_none.2 fun c hc => ?_
  rcases Path.mem_of_mem_toText hc with rfl | rfl | ⟨part, hpart, hc⟩
  · decide
  · decide
  · rcases List.mem_append.1 hpart with hpart | hpart
    · exact pathDefect?_eq_none.1 hp c (Path.mem_toText_of_mem_parts hpart hc)
    · exact hname.letters c (List.mem_singleton.1 hpart ▸ hc)

theorem Stands.isPossible (ht : h.tree.IsPossible) (hs : Stands h dir (.directory children))
    (hg : Entries.get? name children = some e) : FileName.IsPossible name := by
  obtain ⟨l, -, hat⟩ := look_eq_ok.1 hs.found
  exact (ht l children hat).2 name ((Entries.mem_keys_iff name children).2 ⟨e, hg⟩)

theorem Stands.child (ht : h.tree.IsPossible) (hs : Stands h dir (.directory children))
    (hg : Entries.get? name children = some e)
    (hsize : FileName.size (child dir name).toText ≤ FileName.pathLimit) :
    Stands h (child dir name) e := by
  have hname := hs.isPossible ht hg
  exact ⟨pathDefect?_child hs.possible hname, (hs.look_child hname hsize).2 hg⟩

/-! ### Reach -/

/-- Whether all that stands at a path and below it can be looked at, if directories are followed
down for a number of levels: no path to it is too long for the system. -/
inductive InReach : (levels : Nat) → Path → Entry → Prop
  | file {levels p octets} (hp : FileName.size p.toText ≤ FileName.pathLimit) :
    InReach levels p (.file octets)
  | directory {levels p children} (hp : FileName.size p.toText ≤ FileName.pathLimit)
    (hbelow : ∀ name e, Entries.get? name children = some e → InReach levels (child p name) e) :
    InReach (levels + 1) p (.directory children)

theorem InReach.short {levels : Nat} (hr : InReach levels p e) :
    FileName.size p.toText ≤ FileName.pathLimit := by
  cases hr with
  | file hp => exact hp
  | directory hp _ => exact hp

end FirmwareBuild.Host
