import FirmwareBuild.Proofs.Except
import FirmwareBuild.Proofs.Json.RoundTrip

/-! The grammar of JSON values.

`Denotes` says which words denote a value. The machine reads this grammar: it accepts what denotes
a value wherever one may stand (`isAccepted_of_denotes`), and behind the words that it has read it
stands where they lead to (`Stands`, which every step keeps), so that what it accepts denotes its
result. Both directions are put together in `ofTokens_eq_ok`. -/
namespace FirmwareBuild.Json

/-- The words of a field, with those of its value. -/
def fieldWords (f : Text × List Token × Json) : List Token := .text f.1 :: .colon :: f.2.1

/-- The values that words denote, with lists and objects nested at most so deep. -/
inductive Denotes : Nat → List Token → Json → Prop
  | text {n : Nat} (s : Text) : Denotes n [.text s] (.text s)
  | scalar {n : Nat} (v : Json) : Denotes n [.scalar v] v
  | list {n : Nat} {items : List (List Token × Json)} (h : ∀ i ∈ items, Denotes n i.1 i.2) :
      Denotes (n + 1)
        (.openList :: ([.comma].intercalate (items.map Prod.fst) ++ [.closeList]))
        (.list (items.map Prod.snd))
  | object {n : Nat} {fields : List (Text × List Token × Json)}
      (h : ∀ f ∈ fields, Denotes n f.2.1 f.2.2) :
      Denotes (n + 1)
        (.openObject :: ([.comma].intercalate (fields.map fieldWords) ++ [.closeObject]))
        (ofPairs (fields.map fun f => (f.1, f.2.2)))

section Intercalate

variable {α : Type} {sep x : List α} {xs : List (List α)}

theorem intercalate_cons_eq : sep.intercalate (x :: xs) = x ++ xs.flatMap (sep ++ ·) := by
  induction xs generalizing x with
  | nil => simp
  | cons y ys ih =>
    rw [List.intercalate_cons_cons, ih, List.flatMap_cons, List.append_assoc, List.append_assoc]

theorem intercalate_concat_eq : sep.intercalate (xs ++ [x]) = xs.flatMap (· ++ sep) ++ x := by
  induction xs with
  | nil => simp
  | cons y ys ih =>
    have hne : ys ++ [x] ≠ [] := List.append_ne_nil_of_right_ne_nil _ (List.cons_ne_nil _ _)
    obtain ⟨z, zs, hz⟩ := List.exists_cons_of_ne_nil hne
    rw [List.cons_append, hz, List.intercalate_cons_cons, ← hz, ih, List.flatMap_cons]
    simp only [List.append_assoc]

end Intercalate

/-! ### What denotes a value is accepted -/

variable {n : Nat} {frames : List Frame} {ts : List Token} {v : Json}

theorem run_cons (m : Machine) (t : Token) (ts : List Token) :
    m.run (t :: ts) = m.step t >>= fun m => m.run ts := List.foldlM_cons

/-- A step and what follows it. -/
theorem run_step {m m' : Machine} {t : Token} (h : m.step t = .ok m') (ts : List Token) :
    m.run (t :: ts) = m'.run ts := by
  rw [run_cons, h]
  rfl

/-- Words that are read as a value wherever one may stand, as long as the frames leave room for
those of the value. -/
def IsAccepted (n : Nat) (ts : List Token) (v : Json) : Prop :=
  ∀ frames e us, frames.length + n ≤ depthLimit → Expect.IsOpen e →
    Machine.run ⟨frames, e⟩ (ts ++ us) = Machine.run ⟨frames, .after v⟩ us

theorem IsAccepted.room (hn : frames.length + (n + 1) ≤ depthLimit) (m : Machine) :
    openFrame frames m = .ok m := if_pos (by omega)

/-- The items behind the first one. -/
theorem run_itemWords {items : List (List Token × Json)}
    (h : ∀ i ∈ items, IsAccepted n i.1 i.2) (hn : frames.length + (n + 1) ≤ depthLimit)
    (done : List Json) (v : Json) (us : List Token) :
    Machine.run ⟨.list done :: frames, .after v⟩
        ((items.map Prod.fst).flatMap ([.comma] ++ ·) ++ .closeList :: us) =
      Machine.run ⟨frames, .after (.list ((v :: done).reverse ++ items.map Prod.snd))⟩ us := by
  induction items generalizing done v with
  | nil =>
    rw [List.map_nil, List.map_nil, List.append_nil]
    exact run_step rfl us
  | cons i items ih =>
    obtain ⟨hi, hitems⟩ := List.forall_mem_cons.1 h
    rw [List.map_cons, List.flatMap_cons, List.append_assoc, List.append_assoc,
      List.singleton_append]
    refine (run_step rfl _).trans ?_
    rw [hi (.list (v :: done) :: frames) .value _ (by simp; omega) trivial,
      ih hitems]
    simp

theorem isAccepted_list {items : List (List Token × Json)}
    (h : ∀ i ∈ items, IsAccepted n i.1 i.2) :
    IsAccepted (n + 1)
      (.openList :: ([.comma].intercalate (items.map Prod.fst) ++ [.closeList]))
      (.list (items.map Prod.snd)) := by
  intro frames e us hn he
  have hopen : (⟨frames, e⟩ : Machine).step .openList = .ok ⟨.list [] :: frames, .itemOrEnd⟩ := by
    rw [step_open (w := .openList) he nofun, startValue, IsAccepted.room hn]
  rw [List.cons_append, run_step hopen, List.append_assoc, List.singleton_append]
  cases items with
  | nil => exact run_step rfl us
  | cons i items =>
    obtain ⟨hi, hitems⟩ := List.forall_mem_cons.1 h
    rw [List.map_cons, intercalate_cons_eq, List.append_assoc,
      hi (.list [] :: frames) .itemOrEnd _ (by simp; omega) trivial,
      run_itemWords hitems hn [] i.2 us]
    rfl

/-- A field, wherever its key may stand. -/
theorem run_fieldWords {e : Expect} {done : List (Text × Json)} {f : Text × List Token × Json}
    (he : (⟨frames, e⟩ : Machine).step (.text f.1) = .ok ⟨frames, .colon done f.1⟩)
    (hf : IsAccepted n f.2.1 f.2.2) (hn : frames.length + (n + 1) ≤ depthLimit)
    (us : List Token) :
    Machine.run ⟨frames, e⟩ (fieldWords f ++ us) =
      Machine.run ⟨.object done f.1 :: frames, .after f.2.2⟩ us := by
  rw [fieldWords, List.cons_append, List.cons_append, run_step he]
  refine (run_step rfl _).trans ?_
  exact hf (.object done f.1 :: frames) .value us (by simp; omega) trivial

/-- The fields behind the first one. -/
theorem run_fieldsWords {fields : List (Text × List Token × Json)}
    (h : ∀ f ∈ fields, IsAccepted n f.2.1 f.2.2) (hn : frames.length + (n + 1) ≤ depthLimit)
    (done : List (Text × Json)) (key : Text) (v : Json) (us : List Token) :
    Machine.run ⟨.object done key :: frames, .after v⟩
        ((fields.map fieldWords).flatMap ([.comma] ++ ·) ++ .closeObject :: us) =
      Machine.run ⟨frames, .after (ofPairs
        (((key, v) :: done).reverse ++ fields.map fun f => (f.1, f.2.2)))⟩ us := by
  induction fields generalizing done key v with
  | nil =>
    rw [List.map_nil, List.map_nil, List.append_nil]
    exact run_step rfl us
  | cons f fields ih =>
    obtain ⟨hf, hfields⟩ := List.forall_mem_cons.1 h
    rw [List.map_cons, List.flatMap_cons, List.append_assoc, List.append_assoc,
      List.singleton_append]
    refine (run_step rfl _).trans ?_
    rw [run_fieldWords rfl hf hn, ih hfields]
    simp

theorem isAccepted_object {fields : List (Text × List Token × Json)}
    (h : ∀ f ∈ fields, IsAccepted n f.2.1 f.2.2) :
    IsAccepted (n + 1)
      (.openObject :: ([.comma].intercalate (fields.map fieldWords) ++ [.closeObject]))
      (ofPairs (fields.map fun f => (f.1, f.2.2))) := by
  intro frames e us hn he
  have hopen : (⟨frames, e⟩ : Machine).step .openObject = .ok ⟨frames, .keyOrEnd⟩ := by
    rw [step_open (w := .openObject) he nofun, startValue, IsAccepted.room hn]
  rw [List.cons_append, run_step hopen, List.append_assoc, List.singleton_append]
  cases fields with
  | nil => exact run_step rfl us
  | cons f fields =>
    obtain ⟨hf, hfields⟩ := List.forall_mem_cons.1 h
    rw [List.map_cons, intercalate_cons_eq, List.append_assoc, run_fieldWords rfl hf hn,
      run_fieldsWords hfields hn [] f.1 f.2.2 us]
    rfl

theorem isAccepted_of_denotes (h : Denotes n ts v) : IsAccepted n ts v := by
  induction h with
  | text s =>
    intro frames e us _ he
    exact run_step (step_open (w := .text s) he nofun) us
  | scalar v =>
    intro frames e us _ he
    exact run_step (step_open (w := .scalar v) he nofun) us
  | list _ ih => exact isAccepted_list ih
  | object _ ih => exact isAccepted_object ih

/-! ### What is accepted denotes a value -/

/-- The words behind which a frame is open, with values in it that are nested at most so deep. -/
inductive Opens : Nat → Frame → List Token → Prop
  | list {n : Nat} {items : List (List Token × Json)} (h : ∀ i ∈ items, Denotes n i.1 i.2) :
      Opens n (.list (items.map Prod.snd).reverse)
        (.openList :: (items.map Prod.fst).flatMap (· ++ [.comma]))
  | object {n : Nat} {fields : List (Text × List Token × Json)}
      (h : ∀ f ∈ fields, Denotes n f.2.1 f.2.2) (key : Text) :
      Opens n (.object (fields.map fun f => (f.1, f.2.2)).reverse key)
        (.openObject :: ((fields.map fieldWords).flatMap (· ++ [.comma]) ++ [.text key, .colon]))

/-- The words behind which frames are open, of which the last one comes first. The number is how
deep a value may be nested there. -/
inductive OpensAll : Nat → List Frame → List Token → Prop
  | nil : OpensAll depthLimit [] []
  | cons {n : Nat} {f : Frame} {frames : List Frame} {ts us : List Token}
      (h : OpensAll (n + 1) frames ts) (hf : Opens n f us) : OpensAll n (f :: frames) (ts ++ us)

/-- Where the machine stands behind words. -/
inductive Stands : Machine → List Token → Prop
  | value {n : Nat} {frames : List Frame} {ts : List Token} (h : OpensAll n frames ts) :
      Stands ⟨frames, .value⟩ ts
  | itemOrEnd {n : Nat} {frames : List Frame} {ts : List Token} (h : OpensAll (n + 1) frames ts) :
      Stands ⟨.list [] :: frames, .itemOrEnd⟩ (ts ++ [.openList])
  | keyOrEnd {n : Nat} {frames : List Frame} {ts : List Token} (h : OpensAll (n + 1) frames ts) :
      Stands ⟨frames, .keyOrEnd⟩ (ts ++ [.openObject])
  | key {n : Nat} {frames : List Frame} {ts : List Token}
      {fields : List (Text × List Token × Json)} (h : OpensAll (n + 1) frames ts)
      (hf : ∀ f ∈ fields, Denotes n f.2.1 f.2.2) :
      Stands ⟨frames, .key (fields.map fun f => (f.1, f.2.2)).reverse⟩
        (ts ++ .openObject :: (fields.map fieldWords).flatMap (· ++ [.comma]))
  | colon {n : Nat} {frames : List Frame} {ts : List Token}
      {fields : List (Text × List Token × Json)} (h : OpensAll (n + 1) frames ts)
      (hf : ∀ f ∈ fields, Denotes n f.2.1 f.2.2) (key : Text) :
      Stands ⟨frames, .colon (fields.map fun f => (f.1, f.2.2)).reverse key⟩
        (ts ++ .openObject :: ((fields.map fieldWords).flatMap (· ++ [.comma]) ++ [.text key]))
  | after {n : Nat} {frames : List Frame} {ts us : List Token} {v : Json}
      (h : OpensAll n frames ts) (hv : Denotes n us v) : Stands ⟨frames, .after v⟩ (ts ++ us)

variable {m m' : Machine} {t : Token}

theorem OpensAll.length_add (h : OpensAll n frames ts) : frames.length + n = depthLimit := by
  induction h with
  | nil => exact Nat.zero_add _
  | cons _ _ ih =>
    rw [List.length_cons]
    omega

theorem openFrame_eq_ok : openFrame frames m = .ok m' ↔ frames.length < depthLimit ∧ m = m' := by
  rw [openFrame]
  split
  · next hlt => simp [hlt]
  · next hge => simp [hge]

/-- A frame is opened only where there is room for it. -/
theorem OpensAll.room (h : OpensAll n frames ts) (ho : openFrame frames m = .ok m') :
    m = m' ∧ ∃ k, n = k + 1 := by
  obtain ⟨hlt, rfl⟩ := openFrame_eq_ok.1 ho
  have hlength := h.length_add
  exact ⟨rfl, n - 1, by omega⟩

theorem stands_startValue (h : OpensAll n frames ts) (hs : startValue frames t = .ok m') :
    Stands m' (ts ++ [t]) := by
  cases t with
  | openList =>
    obtain ⟨rfl, k, rfl⟩ := h.room hs
    exact .itemOrEnd h
  | openObject =>
    obtain ⟨rfl, k, rfl⟩ := h.room hs
    exact .keyOrEnd h
  | text s => exact Except.ok.inj hs ▸ .after h (.text s)
  | scalar v => exact Except.ok.inj hs ▸ .after h (.scalar v)
  | closeList => cases hs
  | closeObject => cases hs
  | comma => cases hs
  | colon => cases hs
  | longInteger => cases hs

/-- A word behind a value: it ends the frame, or another item or field follows. -/
theorem stands_behind {us : List Token} (h : OpensAll n frames ts) (hv : Denotes n us v)
    (hs : (⟨frames, .after v⟩ : Machine).step t = .ok m') : Stands m' (ts ++ us ++ [t]) := by
  cases h with
  | nil => cases t <;> cases hs
  | @cons _ _ frames ts words h hf =>
    cases hf with
    | @list items hitems =>
      have hall : ∀ i ∈ items ++ [(us, v)], Denotes n i.1 i.2 :=
        List.forall_mem_append.2 ⟨hitems, List.forall_mem_singleton.2 hv⟩
      cases t with
      | comma =>
        obtain rfl := Except.ok.inj hs
        simpa using Stands.value (.cons h (.list hall))
      | closeList =>
        obtain rfl := Except.ok.inj hs
        simpa [intercalate_concat_eq] using Stands.after h (.list hall)
      | _ => cases hs
    | @object fields hfields key =>
      have hall : ∀ f ∈ fields ++ [(key, us, v)], Denotes n f.2.1 f.2.2 :=
        List.forall_mem_append.2 ⟨hfields, List.forall_mem_singleton.2 hv⟩
      cases t with
      | comma =>
        obtain rfl := Except.ok.inj hs
        simpa [fieldWords] using Stands.key h hall
      | closeObject =>
        obtain rfl := Except.ok.inj hs
        simpa [fieldWords, intercalate_concat_eq] using Stands.after h (.object hall)
      | _ => cases hs

/-- Every step leads on. -/
theorem stands_step (h : Stands m ts) (hs : m.step t = .ok m') : Stands m' (ts ++ [t]) := by
  cases h with
  | @value _ frames _ h =>
    have hs : startValue frames t = .ok m' := by rwa [Machine.step.eq_def] at hs
    exact stands_startValue h hs
  | @itemOrEnd n _ _ h =>
    have hnone : ∀ i ∈ ([] : List (List Token × Json)), Denotes n i.1 i.2 := List.forall_mem_nil _
    cases t with
    | closeList =>
      obtain rfl := Except.ok.inj hs
      simpa using Stands.after h (.list hnone)
    | _ => exact stands_startValue (.cons h (.list hnone)) hs
  | @keyOrEnd n _ _ h =>
    have hnone : ∀ f ∈ ([] : List (Text × List Token × Json)), Denotes n f.2.1 f.2.2 :=
      List.forall_mem_nil _
    cases t with
    | closeObject =>
      obtain rfl := Except.ok.inj hs
      simpa [ofPairs, Entries.ofList] using Stands.after h (.object hnone)
    | text s =>
      obtain rfl := Except.ok.inj hs
      simpa using Stands.colon h hnone s
    | _ => cases hs
  | key h hf =>
    cases t with
    | text s =>
      obtain rfl := Except.ok.inj hs
      simpa using Stands.colon h hf s
    | _ => cases hs
  | colon h hf key =>
    cases t with
    | colon =>
      obtain rfl := Except.ok.inj hs
      simpa using Stands.value (.cons h (.object hf key))
    | _ => cases hs
  | after h hv => exact stands_behind h hv hs

theorem stands_run (h : Stands m ts) {us : List Token} (hs : m.run us = .ok m') :
    Stands m' (ts ++ us) := by
  induction us generalizing m ts with
  | nil =>
    obtain rfl := Except.ok.inj hs
    rwa [List.append_nil]
  | cons t us ih =>
    obtain ⟨m₁, hstep, hrun⟩ := bind_eq_ok.1 ((run_cons m t us).symm.trans hs)
    rw [← List.singleton_append, ← List.append_assoc]
    exact ih (stands_step h hstep) hrun

theorem result_eq_ok : m.result = .ok v ↔ m = ⟨[], .after v⟩ := by
  constructor
  · intro h
    rw [Machine.result.eq_def] at h
    split at h
    · rw [Except.ok.inj h]
    · exact nomatch h
  · rintro rfl
    rfl

/-- **Words have a value exactly if they denote it**, with lists and objects that are not nested
deeper than the reader goes. -/
theorem ofTokens_eq_ok : ofTokens ts = .ok v ↔ Denotes depthLimit ts v := by
  rw [ofTokens, bind_eq_ok]
  constructor
  · rintro ⟨m, hrun, hm⟩
    obtain rfl := result_eq_ok.1 hm
    cases stands_run (.value .nil) hrun with
    | after hopen hv =>
      cases hopen
      exact hv
  · intro h
    have hrun := isAccepted_of_denotes h [] .value [] (by simp) trivial
    rw [List.append_nil] at hrun
    exact ⟨_, hrun, rfl⟩

end FirmwareBuild.Json
