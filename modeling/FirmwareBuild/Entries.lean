import FirmwareBuild.Text.Order

/-! Ordered maps, as lists of keys and values.

Putting a value at a present key keeps the key's position; a new key goes to the
end. `get?_put` and `get?_erase` give the value at every key after a change, and
`nodup_put` says that no key comes to stand twice. -/
namespace FirmwareBuild.Entries

variable {α : Type}

def get? (key : Text) : List (Text × α) → Option α
  | [] => none
  | (k, v) :: rest => if k = key then some v else get? key rest

def put (key : Text) (value : α) : List (Text × α) → List (Text × α)
  | [] => [(key, value)]
  | (k, v) :: rest => if k = key then (k, value) :: rest else (k, v) :: put key value rest

def erase (key : Text) (es : List (Text × α)) : List (Text × α) :=
  es.filter fun e => e.1 != key

def keys (es : List (Text × α)) : List Text := es.map Prod.fst

def contains (key : Text) (es : List (Text × α)) : Bool := (keys es).contains key

/-- The pairs put one after the other: a repeated key keeps its first position and
its last value. -/
def ofList (pairs : List (Text × α)) : List (Text × α) :=
  pairs.foldl (fun es p => put p.1 p.2 es) []

/-- The pairs in ascending order of their keys. -/
def sorted (es : List (Text × α)) : List (Text × α) :=
  es.mergeSort fun a b => Text.ascending a.1 b.1

@[simp] theorem get?_nil (key : Text) : get? key ([] : List (Text × α)) = none := rfl

theorem get?_put (key k : Text) (value : α) (es : List (Text × α)) :
    get? k (put key value es) = if key = k then some value else get? k es := by
  induction es with
  | nil => simp [put, get?]
  | cons e rest ih =>
    obtain ⟨k', v'⟩ := e
    by_cases h : k' = key
    · subst h
      by_cases hk : k' = k <;> simp [put, get?, hk]
    · by_cases hk : k' = k
      · subst hk
        simp [put, get?, h, Ne.symm h]
      · simp [put, get?, h, hk, ih]

theorem get?_erase (key k : Text) (es : List (Text × α)) :
    get? k (erase key es) = if key = k then none else get? k es := by
  induction es with
  | nil => simp [erase]
  | cons e rest ih =>
    obtain ⟨k', v'⟩ := e
    unfold erase at ih ⊢
    by_cases h : k' = key
    · subst h
      by_cases hk : k' = k
      · simpa [hk] using ih
      · simpa [get?, hk] using ih
    · by_cases hk : k' = k
      · subst hk
        simp [get?, h, Ne.symm h]
      · simp [get?, h, hk, ih]

theorem mem_keys_iff (key : Text) (es : List (Text × α)) :
    key ∈ keys es ↔ ∃ v, get? key es = some v := by
  induction es with
  | nil => simp [keys]
  | cons e rest ih =>
    obtain ⟨k', v'⟩ := e
    by_cases h : k' = key
    · simp [keys, get?, h]
    · simp only [keys, List.map_cons, List.mem_cons, get?, h, if_false] at ih ⊢
      simp [Ne.symm h, ih]

theorem mem_keys_put (key k : Text) (value : α) (es : List (Text × α)) :
    k ∈ keys (put key value es) ↔ k = key ∨ k ∈ keys es := by
  rw [mem_keys_iff, mem_keys_iff, get?_put]
  by_cases h : key = k
  · simp [h]
  · simp [h, Ne.symm h]

theorem nodup_put (key : Text) (value : α) {es : List (Text × α)} (h : (keys es).Nodup) :
    (keys (put key value es)).Nodup := by
  induction es with
  | nil => simp [keys, put]
  | cons e rest ih =>
    obtain ⟨k', v'⟩ := e
    have h' : k' ∉ keys rest ∧ (keys rest).Nodup := List.nodup_cons.1 h
    by_cases hk : k' = key
    · rw [put, if_pos hk]
      exact h
    · have : k' ∉ keys (put key value rest) := by
        rw [mem_keys_put]
        exact fun hc => hc.elim hk h'.1
      rw [put, if_neg hk]
      exact List.nodup_cons.2 ⟨this, ih h'.2⟩

theorem nodup_foldl_put (pairs : List (Text × α)) {es : List (Text × α)} (h : (keys es).Nodup) :
    (keys (pairs.foldl (fun es p => put p.1 p.2 es) es)).Nodup := by
  induction pairs generalizing es with
  | nil => exact h
  | cons p rest ih => exact ih (nodup_put p.1 p.2 h)

theorem nodup_ofList (pairs : List (Text × α)) : (keys (ofList pairs)).Nodup :=
  nodup_foldl_put pairs (by simp [keys])

theorem put_of_not_mem {key : Text} {es : List (Text × α)} (h : key ∉ keys es) (value : α) :
    put key value es = es ++ [(key, value)] := by
  induction es with
  | nil => rfl
  | cons e rest ih =>
    obtain ⟨k, v⟩ := e
    have h' : ¬key = k ∧ key ∉ keys rest := by simpa [keys] using h
    rw [put, if_neg (Ne.symm h'.1), ih h'.2, List.cons_append]

theorem foldl_put_of_nodup {pairs es : List (Text × α)} (h : (keys (es ++ pairs)).Nodup) :
    pairs.foldl (fun es p => put p.1 p.2 es) es = es ++ pairs := by
  induction pairs generalizing es with
  | nil => rw [List.foldl_nil, List.append_nil]
  | cons p rest ih =>
    have hp : p.1 ∉ keys es := by
      rw [keys, List.map_append, List.map_cons] at h
      exact fun hm => (List.nodup_append.1 h).2.2 _ hm _ (List.mem_cons_self ..) rfl
    rw [List.foldl_cons, put_of_not_mem hp, ih (by simpa using h), List.append_assoc,
      List.singleton_append]

/-- Pairs without a repeated key stay as they are. -/
theorem ofList_of_nodup {pairs : List (Text × α)} (h : (keys pairs).Nodup) :
    ofList pairs = pairs := by
  have hall : (keys ([] ++ pairs)).Nodup := h
  rw [ofList, foldl_put_of_nodup hall, List.nil_append]

end FirmwareBuild.Entries
