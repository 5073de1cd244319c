import Mathlib.Data.List.Forall2

/-! Computations that may fail, in steps. -/
namespace FirmwareBuild

variable {ε α β : Type}

theorem toOption_eq_some {x : Except ε α} {a : α} (h : x = .ok a) : x.toOption = some a := by
  rw [h]
  rfl

theorem eq_ok_of_toOption {x : Except ε α} {a : α} (h : x.toOption = some a) : x = .ok a := by
  cases x with
  | error e => exact nomatch h
  | ok b => rw [Option.some.inj h]

@[simp] theorem mapError_ok {ε' : Type} (f : ε → ε') (a : α) :
    (Except.ok a : Except ε α).mapError f = .ok a := rfl

theorem mapError_eq_ok {ε' : Type} {f : ε → ε'} {x : Except ε α} {a : α} :
    x.mapError f = .ok a ↔ x = .ok a := by
  cases x <;> simp [Except.mapError]

/-- A computation in steps has a result if each of its steps has. -/
theorem bind_eq_ok {x : Except ε α} {f : α → Except ε β} {y : β} :
    x >>= f = .ok y ↔ ∃ a, x = .ok a ∧ f a = .ok y := by
  cases x with
  | error e => exact ⟨nofun, nofun⟩
  | ok a => exact ⟨fun h => ⟨a, rfl, h⟩, fun ⟨_, ha, h⟩ => by cases ha; exact h⟩

/-- It fails if one of its steps does. -/
theorem bind_eq_error {x : Except ε α} {f : α → Except ε β} {e : ε} :
    x >>= f = .error e ↔ x = .error e ∨ ∃ a, x = .ok a ∧ f a = .error e := by
  cases x with
  | error e' =>
    refine ⟨fun h => .inl (congrArg Except.error (Except.error.inj h)), ?_⟩
    rintro (h | ⟨_, h, -⟩)
    · exact congrArg Except.error (Except.error.inj h)
    · cases h
  | ok a =>
    refine ⟨fun h => .inr ⟨a, rfl, h⟩, ?_⟩
    rintro (h | ⟨_, ha, h⟩)
    · cases h
    · cases ha
      exact h

theorem exists_bind_eq_ok {x : Except ε α} {f : α → Except ε β} :
    (∃ y, x >>= f = .ok y) ↔ ∃ a, x = .ok a ∧ ∃ y, f a = .ok y := by
  simp only [bind_eq_ok]
  exact ⟨fun ⟨y, a, ha, hy⟩ => ⟨a, ha, y, hy⟩, fun ⟨a, ha, y, hy⟩ => ⟨y, a, ha, hy⟩⟩

theorem map_eq_ok {x : Except ε α} {f : α → β} {y : β} :
    x.map f = .ok y ↔ ∃ a, x = .ok a ∧ f a = y := by
  cases x with
  | error e => exact ⟨nofun, nofun⟩
  | ok a => simp [Except.map]

/-- A computation for each of several things has results if each of them has one. -/
theorem mapM_eq_ok {f : α → Except ε β} {xs : List α} {ys : List β} :
    xs.mapM f = .ok ys ↔ xs.map f = ys.map .ok := by
  induction xs generalizing ys with
  | nil =>
    rw [List.mapM_nil, List.map_nil, eq_comm (a := []), List.map_eq_nil_iff]
    exact ⟨fun h => (Except.ok.inj h).symm, fun h => h ▸ rfl⟩
  | cons x xs ih =>
    rw [List.mapM_cons, bind_eq_ok, List.map_cons]
    constructor
    · rintro ⟨y, hy, h⟩
      obtain ⟨rest, hrest, h⟩ := bind_eq_ok.1 h
      obtain rfl := Except.ok.inj h
      rw [List.map_cons, hy, ih.1 hrest]
    · intro h
      obtain ⟨y, rest, rfl, hy, hrest⟩ := List.map_eq_cons_iff.1 h.symm
      exact ⟨y, hy.symm, bind_eq_ok.2 ⟨rest, ih.2 hrest.symm, rfl⟩⟩

/-- A computation that never fails gives one result for each thing. -/
theorem mapM_of_forall_ok {f : α → Except ε β} {g : α → β} {xs : List α}
    (h : ∀ x ∈ xs, f x = .ok (g x)) : xs.mapM f = .ok (xs.map g) := by
  rw [mapM_eq_ok, List.map_map]
  exact List.map_congr_left h

/-- Results with a property each, one for each thing. -/
theorem exists_mapM_ok {f : α → Except ε β} {P : α → β → Prop} {xs : List α}
    (h : ∀ x ∈ xs, ∃ y, f x = .ok y ∧ P x y) : ∃ ys, xs.mapM f = .ok ys ∧ List.Forall₂ P xs ys := by
  induction xs with
  | nil => exact ⟨[], rfl, .nil⟩
  | cons x xs ih =>
    obtain ⟨⟨y, hy, hP⟩, hxs⟩ := List.forall_mem_cons.1 h
    obtain ⟨ys, hys, hPs⟩ := ih hxs
    refine ⟨y :: ys, ?_, .cons hP hPs⟩
    rw [List.mapM_cons, hy, hys]
    rfl

theorem exists_mapM_eq_ok {f : α → Except ε β} {xs : List α} :
    (∃ ys, xs.mapM f = .ok ys) ↔ ∀ x ∈ xs, ∃ y, f x = .ok y := by
  constructor
  · rintro ⟨ys, h⟩ x hx
    have hmem : f x ∈ ys.map .ok := mapM_eq_ok.1 h ▸ List.mem_map_of_mem hx
    obtain ⟨y, -, hy⟩ := List.mem_map.1 hmem
    exact ⟨y, hy.symm⟩
  · intro h
    obtain ⟨ys, hys, -⟩ := exists_mapM_ok (P := fun _ _ => True) fun x hx =>
      let ⟨y, hy⟩ := h x hx
      ⟨y, hy, trivial⟩
    exact ⟨ys, hys⟩

/-- Where one computation has results, another one has their images. -/
theorem mapM_image {γ : Type} {f : α → Except ε β} {g : α → Except ε γ} {k : β → γ} {xs : List α}
    {ys : List β} (hf : xs.mapM f = .ok ys) (h : ∀ x ∈ xs, ∀ y, f x = .ok y → g x = .ok (k y)) :
    xs.mapM g = .ok (ys.map k) := by
  rw [mapM_eq_ok] at hf ⊢
  induction xs generalizing ys with
  | nil =>
    obtain rfl := List.map_eq_nil_iff.1 hf.symm
    rfl
  | cons x xs ih =>
    obtain ⟨y, rest, rfl, hy, hrest⟩ := List.map_eq_cons_iff.1 hf.symm
    obtain ⟨hx, hxs⟩ := List.forall_mem_cons.1 h
    rw [List.map_cons, hx y hy.symm, ih hrest.symm hxs, List.map_cons, List.map_cons]

/-- The results are images where each single one is. -/
theorem map_eq_of_mapM_ok {f : α → Except ε β} {g : α → β} {xs : List α} {ys : List β}
    (hf : xs.mapM f = .ok ys) (h : ∀ x ∈ xs, ∀ y, f x = .ok y → g x = y) : xs.map g = ys := by
  rw [mapM_eq_ok] at hf
  induction xs generalizing ys with
  | nil => exact (List.map_eq_nil_iff.1 hf.symm).symm
  | cons x xs ih =>
    obtain ⟨y, rest, rfl, hy, hrest⟩ := List.map_eq_cons_iff.1 hf.symm
    obtain ⟨hx, hxs⟩ := List.forall_mem_cons.1 h
    rw [List.map_cons, hx y hy.symm, ih hrest.symm hxs]

/-- So it is with `mapM_eq_ok` where failures are not told apart. -/
theorem mapM_eq_some {f : α → Option β} {xs : List α} {ys : List β} :
    xs.mapM f = some ys ↔ xs.map f = ys.map some := by
  induction xs generalizing ys with
  | nil =>
    rw [List.mapM_nil, List.map_nil, eq_comm (a := []), List.map_eq_nil_iff]
    exact ⟨fun h => (Option.some.inj h).symm, fun h => h ▸ rfl⟩
  | cons x xs ih =>
    rw [List.mapM_cons, List.map_cons]
    constructor
    · intro h
      obtain ⟨y, hy, h⟩ := Option.bind_eq_some_iff.1 h
      obtain ⟨rest, hrest, h⟩ := Option.bind_eq_some_iff.1 h
      obtain rfl := Option.some.inj h
      rw [List.map_cons, hy, ih.1 hrest]
    · intro h
      obtain ⟨y, rest, rfl, hy, hrest⟩ := List.map_eq_cons_iff.1 h.symm
      exact Option.bind_eq_some_iff.2
        ⟨y, hy.symm, Option.bind_eq_some_iff.2 ⟨rest, ih.2 hrest.symm, rfl⟩⟩

/-- A filter that never fails is a plain one. -/
theorem filterM_eq_ok {f : α → Except ε Bool} {g : α → Bool} {xs : List α}
    (h : ∀ x ∈ xs, f x = .ok (g x)) : xs.filterM f = .ok (xs.filter g) := by
  suffices ∀ acc, xs.filterAuxM f acc = .ok ((xs.filter g).reverse ++ acc) by
    rw [List.filterM, this, List.append_nil]
    show Except.ok _ = _
    rw [List.reverse_reverse]
  induction xs with
  | nil => exact fun acc => rfl
  | cons x xs ih =>
    intro acc
    rw [List.filterAuxM, h x (List.mem_cons_self ..)]
    show xs.filterAuxM f (bif g x then x :: acc else acc) = _
    rw [ih fun y hy => h y (List.mem_cons_of_mem x hy)]
    cases hx : g x <;> simp [hx]

/-- What a filter keeps goes in front of what has been kept before. -/
theorem filterAuxM_eq (f : α → Except ε Bool) (xs acc : List α) :
    xs.filterAuxM f acc = (xs.filterM f).map fun kept => kept.reverse ++ acc := by
  suffices ∀ acc, xs.filterAuxM f acc = (xs.filterAuxM f []).map (· ++ acc) by
    rw [this, List.filterM]
    cases xs.filterAuxM f [] with
    | error e => rfl
    | ok kept => exact congrArg (fun ys => Except.ok (ys ++ acc)) (List.reverse_reverse kept).symm
  induction xs with
  | nil => exact fun acc => rfl
  | cons x xs ih =>
    intro acc
    rw [List.filterAuxM, List.filterAuxM]
    cases f x with
    | error e => rfl
    | ok b =>
      show xs.filterAuxM f (bif b then x :: acc else acc) =
        (xs.filterAuxM f (bif b then [x] else [])).map (· ++ acc)
      rw [ih, ih (bif b then [x] else [])]
      cases xs.filterAuxM f [] with
      | error e => rfl
      | ok kept => cases b <;> simp [Except.map]

/-- Lists behind one another are filtered one after the other. -/
theorem filterM_append (f : α → Except ε Bool) (xs ys : List α) :
    (xs ++ ys).filterM f = do
      let kept ← xs.filterM f
      let more ← ys.filterM f
      return kept ++ more := by
  have haux : ∀ acc, (xs ++ ys).filterAuxM f acc = xs.filterAuxM f acc >>= ys.filterAuxM f := by
    induction xs with
    | nil => exact fun acc => rfl
    | cons x xs ih =>
      intro acc
      rw [List.cons_append, List.filterAuxM, List.filterAuxM]
      cases f x with
      | error e => rfl
      | ok b => exact ih _
  rw [List.filterM, haux, filterAuxM_eq]
  cases xs.filterM f with
  | error e => rfl
  | ok kept =>
    show ys.filterAuxM f (kept.reverse ++ []) >>= _ = _
    rw [filterAuxM_eq]
    cases ys.filterM f with
    | error e => rfl
    | ok more =>
      show Except.ok (more.reverse ++ (kept.reverse ++ [])).reverse = Except.ok (kept ++ more)
      simp

theorem sublist_of_filterAuxM {f : α → Except ε Bool} {xs acc ys : List α}
    (h : xs.filterAuxM f acc = .ok ys) :
    ∃ kept : List α, kept.Sublist xs ∧ (∀ x ∈ kept, f x = .ok true) ∧ ys = kept.reverse ++ acc := by
  induction xs generalizing acc with
  | nil => exact ⟨[], .slnil, nofun, (Except.ok.inj h).symm⟩
  | cons x xs ih =>
    obtain ⟨b, hb, h⟩ := bind_eq_ok.1 h
    obtain ⟨kept, hsub, hkept, rfl⟩ := ih h
    cases b with
    | false => exact ⟨kept, hsub.cons x, hkept, rfl⟩
    | true =>
      refine ⟨x :: kept, hsub.cons_cons x, List.forall_mem_cons.2 ⟨hb, hkept⟩, ?_⟩
      rw [List.reverse_cons, List.append_assoc]
      rfl

/-- What a filter keeps has passed its test. -/
theorem sublist_of_filterM {f : α → Except ε Bool} {xs ys : List α} (h : xs.filterM f = .ok ys) :
    ys.Sublist xs ∧ ∀ y ∈ ys, f y = .ok true := by
  obtain ⟨zs, hz, h⟩ := bind_eq_ok.1 h
  obtain ⟨kept, hsub, hkept, rfl⟩ := sublist_of_filterAuxM hz
  have hys : (kept.reverse ++ []).reverse = ys := Except.ok.inj h
  rw [List.append_nil, List.reverse_reverse] at hys
  rw [← hys]
  exact ⟨hsub, hkept⟩

/-! ### Failures -/

section FailsOnly

variable {P : ε → Prop}

/-- A computation has a result, or its failure has a property. -/
def FailsOnly (P : ε → Prop) (x : Except ε α) : Prop := ∀ e, x = .error e → P e

theorem failsOnly_ok (a : α) : FailsOnly P (.ok a : Except ε α) := nofun

theorem failsOnly_error {e : ε} (h : P e) : FailsOnly P (.error e : Except ε α) :=
  fun _ he => Except.error.inj he ▸ h

theorem FailsOnly.imp {Q : ε → Prop} {x : Except ε α} (hx : FailsOnly P x)
    (h : ∀ e, P e → Q e) : FailsOnly Q x := fun e he => h e (hx e he)

theorem FailsOnly.bind {x : Except ε α} {f : α → Except ε β} (hx : FailsOnly P x)
    (hf : ∀ a, x = .ok a → FailsOnly P (f a)) : FailsOnly P (x >>= f) := by
  cases x with
  | ok a => exact hf a rfl
  | error e => exact failsOnly_error (hx e rfl)

theorem FailsOnly.map {x : Except ε α} (hx : FailsOnly P x) (f : α → β) :
    FailsOnly P (x.map f) := by
  cases x with
  | ok a => exact failsOnly_ok (f a)
  | error e => exact failsOnly_error (hx e rfl)

theorem FailsOnly.mapError {ε' : Type} {wrap : ε' → ε} {x : Except ε' α}
    (hx : FailsOnly (fun e => P (wrap e)) x) : FailsOnly P (x.mapError wrap) := by
  cases x with
  | ok a => exact failsOnly_ok a
  | error e => exact failsOnly_error (hx e rfl)

theorem failsOnly_mapM {f : α → Except ε β} {xs : List α} (h : ∀ x ∈ xs, FailsOnly P (f x)) :
    FailsOnly P (xs.mapM f) := by
  induction xs with
  | nil => exact failsOnly_ok []
  | cons x xs ih =>
    obtain ⟨hx, hxs⟩ := List.forall_mem_cons.1 h
    rw [List.mapM_cons]
    exact hx.bind fun y _ => (ih hxs).bind fun ys _ => failsOnly_ok _

theorem failsOnly_filterM {f : α → Except ε Bool} {xs : List α}
    (h : ∀ x ∈ xs, FailsOnly P (f x)) : FailsOnly P (xs.filterM f) := by
  have haux : ∀ acc, FailsOnly P (xs.filterAuxM f acc) := by
    induction xs with
    | nil => exact fun acc => failsOnly_ok acc
    | cons x xs ih =>
      obtain ⟨hx, hxs⟩ := List.forall_mem_cons.1 h
      exact fun acc => hx.bind fun b _ => ih hxs _
  exact (haux []).bind fun ys _ => failsOnly_ok _

/-- It has a result, or there is such a failure. -/
theorem FailsOnly.cases {x : Except ε α} (hx : FailsOnly P x) :
    (∃ a, x = .ok a) ∨ ∃ e, x = .error e ∧ P e := by
  cases x with
  | ok a => exact .inl ⟨a, rfl⟩
  | error e => exact .inr ⟨e, rfl, hx e rfl⟩

end FailsOnly

end FirmwareBuild
