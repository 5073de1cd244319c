import FirmwareBuild.Path
import FirmwareBuild.Proofs.Text.Span

/-! The suffix of a name.

A name is a stem and a suffix (`splitName_append`), the stem is never empty, and a suffix that is
put behind a stem is found there again as long as there is one dot in it, at its start
(`splitName_suffixed`). -/
namespace FirmwareBuild.Path

theorem splitName_suffixed {stem ext : Text} (hs : stem ≠ []) (he : ext ≠ [])
    (hd : .char '.' ∉ ext) : splitName (stem ++ .char '.' :: ext) = (stem, .char '.' :: ext) := by
  have hfound : ((stem ++ .char '.' :: ext).reverse.takeWhile (· != .char '.')).reverse = ext := by
    have hreverse : (stem ++ .char '.' :: ext).reverse =
        ext.reverse ++ (.char '.' :: stem.reverse) := by
      simp
    have hclass : ∀ c ∈ ext.reverse, (c != .char '.') = true := fun c hc =>
      bne_iff_ne.2 fun h => hd (h ▸ List.mem_reverse.1 hc)
    rw [hreverse, (Text.span_append hclass rfl).1, List.reverse_reverse]
  have htake : (stem ++ CodePoint.char '.' :: ext).take
      ((stem ++ CodePoint.char '.' :: ext).length - ext.length - 1) = stem := by
    have hlength : (stem ++ CodePoint.char '.' :: ext).length - ext.length - 1 = stem.length := by
      rw [List.length_append, List.length_cons]
      omega
    rw [hlength, List.take_left]
  simp only [splitName, hfound, htake]
  exact if_neg fun h => h.elim he hs

theorem splitName_append (name : Text) : (splitName name).1 ++ (splitName name).2 = name := by
  have hspan := List.takeWhile_append_dropWhile (p := (· != CodePoint.char '.')) (l := name.reverse)
  have hdot := List.head?_dropWhile_not (· != CodePoint.char '.') name.reverse
  simp only [splitName]
  generalize name.reverse.takeWhile (· != CodePoint.char '.') = ext at hspan ⊢
  generalize name.reverse.dropWhile (· != CodePoint.char '.') = before at hspan hdot
  have hname : name = before.reverse ++ ext.reverse := by
    rw [← List.reverse_append, hspan, List.reverse_reverse]
  cases before with
  | nil =>
    -- No dot is in the name.
    have hstem : name.take (name.length - ext.reverse.length - 1) = [] := by
      rw [hname, List.reverse_nil, List.nil_append, Nat.sub_self, Nat.zero_sub, List.take_zero]
    rw [if_pos (.inr hstem)]
    exact List.append_nil name
  | cons c before =>
    obtain rfl : c = .char '.' := by simpa using hdot
    rw [List.reverse_cons, List.append_assoc, List.singleton_append] at hname
    have hstem : name.take (name.length - ext.reverse.length - 1) = before.reverse := by
      have hlength : name.length - ext.reverse.length - 1 = before.reverse.length := by
        rw [hname, List.length_append, List.length_cons]
        omega
      rw [hlength, hname, List.take_left]
    rw [hstem]
    split
    · exact List.append_nil name
    · exact hname.symm

/-- A suffix is empty or begins with its dot. -/
theorem suffix_cases (name : Text) :
    (splitName name).2 = [] ∨ ∃ ext, (splitName name).2 = .char '.' :: ext := by
  simp only [splitName]
  split
  · exact .inl rfl
  · exact .inr ⟨_, rfl⟩

theorem stem_ne_nil {name : Text} (h : name ≠ []) : (splitName name).1 ≠ [] := by
  simp only [splitName]
  split
  · exact h
  · next hne => exact fun hs => hne (.inr hs)

/-- Only what has a name can have another suffix. -/
theorem withSuffix?_eq_none {p : Path} (suffix : Text) :
    p.withSuffix? suffix = none ↔ p.name = [] := by
  rw [withSuffix?]
  split <;> simp [*]

end FirmwareBuild.Path
