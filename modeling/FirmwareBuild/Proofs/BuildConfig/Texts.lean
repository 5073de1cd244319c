import FirmwareBuild.Proofs.BuildConfig.Handoff
import FirmwareBuild.Proofs.Path.Letters
import FirmwareBuild.Proofs.Preferences.Origin
import FirmwareBuild.Proofs.Text.Lower

/-! The texts of a configuration from preferences.

They are made of what the preferences, the compilers and the names of the libraries held. What
tools write is read as characters, so no half of a pair gets in from there:
`isWhole_ofPreferences`. -/
namespace FirmwareBuild

theorem Text.BeginsNoPair.lower {s : Text} (h : s.BeginsNoPair) : (Text.lower s).BeginsNoPair := by
  intro c hc
  cases c with
  | char c => rfl
  | half place =>
    have hplace : 0xd800 ≤ 0xd800 + place.val ∧ 0xd800 + place.val < 0xe000 := by omega
    exact h _ (Text.mem_of_mem_lower (.inr hplace) hc)

/-- What a tool writes is read as characters. -/
theorem Text.beginsNoPair_ofString (s : String) : (s : Text).BeginsNoPair :=
  beginsNoPair_ofChars s.toList

namespace BuildConfig

open Preferences (Holds)

variable {prefs : Preferences} {c : BuildConfig}

theorem holds_reserve {d : CodePoint} (h : Holds (reserve prefs).values d) :
    d.isFirstHalf = false ∨ Holds prefs.values d := by
  rw [reserve] at h
  generalize reserved = names at h
  induction names generalizing prefs with
  | nil => exact .inr h
  | cons e rest ih =>
    rcases ih h with h | h
    · exact .inl h
    · exact (Preferences.holds_put h).imp_left (Text.beginsNoPair_ofString e.2 d)

theorem beginsNoPair_require (hp : ∀ d, Holds prefs.values d → d.isFirstHalf = false)
    {key value : Text} (hv : require prefs.expanded key = .ok value) : value.BeginsNoPair := by
  rw [require] at hv
  split at hv
  · next v hget =>
    obtain rfl := Except.ok.inj hv
    intro d hd
    exact hp d (Preferences.holds_expand (Preferences.holds_of_unexpanded? hget hd))
  · exact nomatch hv

theorem beginsNoPair_systemIncludes {h h' : Host} {r : Recipe} {language : Text} {ps : List Path}
    (hr : h.run (systemIncludes r language) = (.ok ps, h')) :
    ∀ p ∈ ps, p.toText.BeginsNoPair := by
  intro p hp
  obtain ⟨messages, dir, hdir, rfl⟩ := exists_messages_of_systemIncludes hr hp
  refine Path.beginsNoPair_ofText fun d hd => ?_
  exact Text.beginsNoPair_ofString _ d
    (Text.mem_of_mem_lines hdir (List.mem_cons_of_mem _ hd))

/-- A configuration has no split pairs if nothing that it is made from can begin one. -/
theorem isWhole_ofPreferences (hp : ∀ d, Holds prefs.values d → d.isFirstHalf = false)
    {target arch : Text} (htarget : target.BeginsNoPair) (harch : arch.BeginsNoPair)
    {libraries : List (Text × Path)}
    (hlibraries : ∀ l ∈ libraries, l.1.BeginsNoPair ∧ l.2.toText.BeginsNoPair) {h h' : Host}
    (hr : h.run (ofPreferences prefs (.text target) (.text arch) libraries) = (.ok c, h')) :
    c.IsWhole := by
  rw [ofPreferences] at hr
  obtain ⟨b, h₁, hb, hr⟩ := Host.run_bind_eq_ok.1 hr
  obtain ⟨cIncludes, h₂, hc, hr⟩ := Host.run_bind_eq_ok.1 hr
  obtain ⟨cppIncludes, h₃, hcpp, hr⟩ := Host.run_bind_eq_ok.1 hr
  rw [Host.run_pure, Prod.mk.injEq, Except.ok.injEq] at hr
  obtain ⟨rfl, rfl⟩ := hr
  have hb := (Host.run_lift_eq_ok.1 hb).1
  simp only [Basis.ofPreferences, requireRecipe, bind_eq_ok, map_eq_ok] at hb
  obtain ⟨core, hcore, board, hboard, corePath, hcorePath, variantPath, hvariantPath, _,
    ⟨cc, hcc, rfl⟩, _, ⟨cpp, hcppr, rfl⟩, _, ⟨asm, hasm, rfl⟩, _, ⟨ar, har, rfl⟩, hb⟩ := hb
  cases hb
  have hrequired {key value : Text} (hv : require (reserve prefs).expanded key = .ok value) :
      value.BeginsNoPair :=
    beginsNoPair_require (fun d hd => (holds_reserve hd).elim id (hp d)) hv
  refine ⟨fun s hs => ?_, ?_, ?_⟩
  · simp only [givenFields, List.mem_cons, Json.text.injEq, List.not_mem_nil, or_false] at hs
    rcases hs with rfl | rfl | rfl | rfl | rfl | rfl | rfl | rfl
    · exact (hrequired hcore).isWhole
    · exact harch.isWhole
    · exact (hrequired hboard).lower.isWhole
    · exact htarget.isWhole
    · exact (hrequired hcc).isWhole
    · exact (hrequired hcppr).isWhole
    · exact (hrequired hasm).isWhole
    · exact (hrequired har).isWhole
  · simp only [paths, List.mem_append, List.mem_map, List.mem_cons, List.not_mem_nil, or_false]
    rintro p ((((rfl | rfl) | ⟨l, hl, rfl⟩) | hm) | hm)
    · exact (Path.beginsNoPair_ofText (hrequired hcorePath)).isWhole
    · exact (Path.beginsNoPair_ofText (hrequired hvariantPath)).isWhole
    · exact (hlibraries l hl).2.isWhole
    · exact (beginsNoPair_systemIncludes hc p hm).isWhole
    · exact (beginsNoPair_systemIncludes hcpp p hm).isWhole
  · intro name hname
    obtain ⟨l, hl, rfl⟩ := List.mem_map.1 hname
    exact (hlibraries l hl).1.isWhole

end BuildConfig
end FirmwareBuild
