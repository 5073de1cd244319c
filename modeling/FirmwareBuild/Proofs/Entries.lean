import FirmwareBuild.Entries
import Mathlib.Data.List.Basic
import Mathlib.Data.List.Induction

/-! What ordered maps hold.

A map gives what stands in it (`mem_of_get?`, `get?_of_mem`). Pairs that are put into it one after
the other come before what it held (`get?_foldl_put`), its keys stay where they are, and those that
are missing follow in the order of the pairs (`keys_foldl_put`). -/
namespace FirmwareBuild.Entries

variable {α β : Type}

theorem get?_map (f : α → β) (key : Text) (es : List (Text × α)) :
    get? key (es.map fun e => (e.1, f e.2)) = (get? key es).map f := by
  induction es with
  | nil => rfl
  | cons e rest ih =>
    by_cases h : e.1 = key
    · simp [get?, h]
    · simpa [get?, h] using ih

theorem mem_of_get? {key : Text} {es : List (Text × α)} {v : α} (h : get? key es = some v) :
    (key, v) ∈ es := by
  induction es with
  | nil => exact nomatch h
  | cons e rest ih =>
    obtain ⟨k, w⟩ := e
    rw [get?] at h
    split at h
    · next hk =>
      rw [Option.some.injEq] at h
      rw [← hk, ← h]
      exact List.mem_cons_self ..
    · exact List.mem_cons_of_mem _ (ih h)

theorem get?_eq_none {key : Text} {es : List (Text × α)} (h : key ∉ keys es) :
    get? key es = none := by
  cases hv : get? key es with
  | none => rfl
  | some v => exact absurd ((mem_keys_iff key es).2 ⟨v, hv⟩) h

theorem mem_of_mem_put {key : Text} {value : α} {es : List (Text × α)} {p : Text × α}
    (h : p ∈ put key value es) : p = (key, value) ∨ p ∈ es := by
  induction es with
  | nil => exact .inl (List.mem_singleton.1 h)
  | cons e rest ih =>
    rw [put] at h
    split at h
    · next hk =>
      rw [hk] at h
      exact (List.mem_cons.1 h).imp_right (List.mem_cons_of_mem _)
    · rcases List.mem_cons.1 h with rfl | h
      · exact .inr (List.mem_cons_self ..)
      · exact (ih h).imp_right (List.mem_cons_of_mem _)

theorem mem_of_mem_foldl_put {pairs es : List (Text × α)} {p : Text × α}
    (h : p ∈ pairs.foldl (fun es p => put p.1 p.2 es) es) : p ∈ pairs ∨ p ∈ es := by
  induction pairs generalizing es with
  | nil => exact .inr h
  | cons q rest ih =>
    rcases ih h with h | h
    · exact .inl (List.mem_cons_of_mem _ h)
    · rcases mem_of_mem_put h with rfl | h
      · exact .inl (List.mem_cons_self ..)
      · exact .inr h

/-- A map made of pairs holds nothing else. -/
theorem mem_of_mem_ofList {pairs : List (Text × α)} {p : Text × α} (h : p ∈ ofList pairs) :
    p ∈ pairs := (mem_of_mem_foldl_put h).resolve_right List.not_mem_nil

/-- A pair of a map without a repeated key is what its key gives. -/
theorem get?_of_mem {es : List (Text × α)} (hn : (keys es).Nodup) {p : Text × α} (h : p ∈ es) :
    get? p.1 es = some p.2 := by
  induction es with
  | nil => exact nomatch h
  | cons e rest ih =>
    obtain ⟨hnot, hrest⟩ := List.nodup_cons.1 hn
    rcases List.mem_cons.1 h with rfl | h
    · exact if_pos rfl
    · have hne : e.1 ≠ p.1 := fun he => hnot (he ▸ List.mem_map.2 ⟨p, h, rfl⟩)
      rw [get?, if_neg hne]
      exact ih hrest h

/-- The order of distinct keys makes no difference to what they give. -/
theorem get?_of_perm {es es' : List (Text × α)} (hn : (keys es).Nodup) (hp : es'.Perm es)
    (key : Text) : get? key es' = get? key es := by
  cases hv : get? key es with
  | none =>
    refine get?_eq_none fun hkey => ?_
    obtain ⟨v, hv'⟩ := (mem_keys_iff key es).1 ((hp.map Prod.fst).mem_iff.1 hkey)
    rw [hv] at hv'
    exact nomatch hv'
  | some v =>
    have hn' : (keys es').Nodup := (hp.map Prod.fst).nodup_iff.2 hn
    exact get?_of_mem hn' (hp.mem_iff.2 (mem_of_get? hv))

theorem keys_put (key : Text) (value : α) (es : List (Text × α)) :
    keys (put key value es) = keys es ++ if contains key es then [] else [key] := by
  induction es with
  | nil => rfl
  | cons e rest ih =>
    obtain ⟨k, v⟩ := e
    have hcons : contains key ((k, v) :: rest) = (key == k || contains key rest) := rfl
    rw [put, hcons]
    by_cases hk : k = key
    · rw [if_pos hk, hk]
      simp [keys]
    · rw [if_neg hk, beq_eq_false_iff_ne.2 (Ne.symm hk), Bool.false_or]
      exact congrArg (k :: ·) ih

theorem contains_eq_true {key : Text} {es : List (Text × α)} :
    contains key es = true ↔ key ∈ keys es := List.contains_iff_mem

/-- Pairs with different keys come before what has been there. -/
theorem get?_foldl_put {pairs : List (Text × α)} (hn : (keys pairs).Nodup) (key : Text)
    (es : List (Text × α)) :
    get? key (pairs.foldl (fun es p => put p.1 p.2 es) es) = (get? key pairs).or (get? key es) := by
  induction pairs generalizing es with
  | nil => rfl
  | cons p rest ih =>
    obtain ⟨hp, hrest⟩ : p.1 ∉ keys rest ∧ (keys rest).Nodup := List.nodup_cons.1 hn
    rw [List.foldl_cons, ih hrest, get?_put, get?]
    by_cases hk : p.1 = key
    · rw [if_pos hk, if_pos hk, ← hk, get?_eq_none hp]
      rfl
    · rw [if_neg hk, if_neg hk]

/-- The keys stay where they are, and those that were missing follow. -/
theorem keys_foldl_put {pairs : List (Text × α)} (hn : (keys pairs).Nodup)
    (es : List (Text × α)) :
    keys (pairs.foldl (fun es p => put p.1 p.2 es) es) =
      keys es ++ (keys pairs).filter fun key => !contains key es := by
  induction pairs generalizing es with
  | nil => exact (List.append_nil _).symm
  | cons p rest ih =>
    obtain ⟨hp, hrest⟩ : p.1 ∉ keys rest ∧ (keys rest).Nodup := List.nodup_cons.1 hn
    -- The key that has just been put is none of those to come.
    have hput : ∀ key ∈ keys rest, (!contains key (put p.1 p.2 es)) = !contains key es := by
      intro key hkey
      have hne : key ≠ p.1 := fun he => hp (he ▸ hkey)
      rw [Bool.eq_iff_iff, Bool.not_eq_true', Bool.not_eq_true', ← Bool.not_eq_true,
        ← Bool.not_eq_true, contains_eq_true, contains_eq_true, mem_keys_put, or_iff_right hne]
    rw [List.foldl_cons, ih hrest, List.filter_congr hput, keys_put, List.append_assoc]
    show _ = keys es ++ (p.1 :: keys rest).filter _
    rw [List.filter_cons]
    cases contains p.1 es <;> simp

/-! ### Pairs read from left to right -/

theorem ofList_concat (pairs : List (Text × α)) (p : Text × α) :
    ofList (pairs ++ [p]) = put p.1 p.2 (ofList pairs) := by
  rw [ofList, List.foldl_append]
  rfl

/-- A repeated key has its last value. -/
theorem get?_ofList (pairs : List (Text × α)) (key : Text) :
    get? key (ofList pairs) = get? key pairs.reverse := by
  induction pairs using List.reverseRecOn with
  | nil => rfl
  | append_singleton pairs p ih =>
    rw [ofList_concat, get?_put, ih, List.reverse_append]
    rfl

/-- A repeated key keeps its first place. -/
theorem keys_ofList (pairs : List (Text × α)) : keys (ofList pairs) = (keys pairs).eraseDups := by
  induction pairs using List.reverseRecOn with
  | nil => rfl
  | append_singleton pairs p ih =>
    have hkeys : keys (pairs ++ [p]) = keys pairs ++ [p.1] := by simp [keys]
    rw [ofList_concat, keys_put, hkeys, List.eraseDups_append, ih]
    congr 1
    by_cases hp : p.1 ∈ keys pairs
    · have hcontains : contains p.1 (ofList pairs) = true :=
        contains_eq_true.2 (by rwa [ih, List.mem_eraseDups])
      simp [hcontains, List.removeAll, hp]
    · have hcontains : ¬contains p.1 (ofList pairs) = true := by
        rwa [contains_eq_true, ih, List.mem_eraseDups]
      simp [hcontains, List.removeAll, hp, List.eraseDups_cons]

/-- A map is made up of its keys in order and what they give. -/
theorem ext_of_keys {es es' : List (Text × α)} (hn : (keys es).Nodup) (hk : keys es = keys es')
    (h : ∀ key, get? key es = get? key es') : es = es' := by
  have hn' : (keys es').Nodup := hk ▸ hn
  have hlength : es.length = es'.length := by simpa [keys] using congrArg List.length hk
  refine List.ext_getElem hlength fun n hl hl' => ?_
  have hkey : (es[n]).1 = (es'[n]).1 := by
    have := List.getElem_of_eq hk (by simpa [keys] using hl)
    simpa [keys] using this
  have hvalue : some (es[n]).2 = some (es'[n]).2 := by
    rw [← get?_of_mem hn (List.getElem_mem hl), ← get?_of_mem hn' (List.getElem_mem hl'), hkey, h]
  exact Prod.ext hkey (Option.some.inj hvalue)

end FirmwareBuild.Entries
