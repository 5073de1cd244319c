import FirmwareBuild.Preferences.Store

/-! Stores that keep their view, beside stores that do not.

What a store has kept could be out of date when it is looked at, and a copy could share it with
its original. Neither is ever seen: a desk of stores gives the answers of a desk on which nothing
is kept, whatever is done at it, and each store answers as if it were the only one
(`keeping_unseen`). The invariant is that what is kept is the expansion of the values that the
store has now (`Store.IsFresh`). -/
namespace FirmwareBuild.Preferences

/-- What is done at a desk: preferences are read into a new store, or a store gets a request. -/
inductive Move
  | parse (text : Text)
  | request (n : Nat) (r : Request)
deriving Repr, DecidableEq

/-- A new store comes last, and the answer is its number. -/
def Desk.move (d : Desk) : Move → Answer × Desk
  | .parse text => (.int d.length, d ++ [{ current := .parse text }])
  | .request n r => d.step n r

def Plain.move (d : Plain) : Move → Answer × Plain
  | .parse text => (.int d.length, d ++ [.parse text])
  | .request n r => d.step n r

section Runs

variable {σ : Type} (move : σ → Move → Answer × σ)

def answers : σ → List Move → List Answer
  | _, [] => []
  | d, m :: ms => (move d m).1 :: answers (move d m).2 ms

def after (d : σ) (ms : List Move) : σ := ms.foldl (fun d m => (move d m).2) d

theorem after_append (d : σ) (ms ms' : List Move) :
    after move d (ms ++ ms') = after move (after move d ms) ms' := List.foldl_append

end Runs

/-- The desk after moves that begin at an empty one. -/
def deskAfter (history : List Move) : Desk := after Desk.move [] history

/-- The answers to later moves. -/
def answersAfter (history later : List Move) : List Answer :=
  answers Desk.move (deskAfter history) later

/-! ### Nothing out of date is kept -/

def Store.IsFresh (s : Store) : Prop := ∀ v, s.view = some v → v = s.current.expanded

def Desk.IsFresh (d : Desk) : Prop := ∀ s ∈ d, s.IsFresh

/-- The desk without what its stores have kept. -/
def Desk.values (d : Desk) : Plain := d.map Store.current

theorem Store.IsFresh.expanded_eq {s : Store} (h : s.IsFresh) :
    s.expanded = s.current.expanded := by
  rw [Store.expanded]
  cases hv : s.view with
  | none => rfl
  | some v => exact h v hv

theorem Store.current_after (s : Store) (r : Request) :
    (s.after r).current = r.change s.current := by
  cases r <;> rfl

/-- A change throws away what is kept, and what needs the view keeps that of the values as they
are. -/
theorem Store.IsFresh.after {s : Store} (h : s.IsFresh) (r : Request) : (s.after r).IsFresh := by
  rw [Store.after]
  split
  · exact fun v hv => nomatch hv
  · split
    · intro v hv
      obtain rfl : s.expanded = v := Option.some.inj hv
      exact h.expanded_eq
    · exact h

theorem Desk.length_values (d : Desk) : d.values.length = d.length := List.length_map _

theorem Desk.getElem?_values (d : Desk) (n : Nat) : d.values[n]? = d[n]?.map Store.current :=
  List.getElem?_map

theorem Desk.IsFresh.append {d : Desk} (h : d.IsFresh) (p : Preferences) :
    Desk.IsFresh (d ++ [{ current := p }]) := by
  intro s hs
  rcases List.mem_append.1 hs with hs | hs
  · exact h s hs
  · obtain rfl := List.mem_singleton.1 hs
    exact fun v hv => nomatch hv

/-- One request has the same answer and the same effect on both desks. -/
theorem Desk.IsFresh.step {d : Desk} (h : d.IsFresh) (n : Nat) (r : Request) :
    (d.step n r).1 = (Plain.step d.values n r).1 ∧
      (d.step n r).2.values = (Plain.step d.values n r).2 ∧ (d.step n r).2.IsFresh := by
  rw [Desk.step, Plain.step, Desk.getElem?_values, Desk.length_values]
  cases hs : d[n]? with
  | none => exact ⟨rfl, rfl, h⟩
  | some s =>
    have hfresh : s.IsFresh := h s (List.mem_of_getElem? hs)
    have hset : Desk.IsFresh (d.set n (s.after r)) := fun t ht =>
      (List.mem_or_eq_of_mem_set ht).elim (h t) fun he => he ▸ hfresh.after r
    have hvalues : Desk.values (d.set n (s.after r)) = d.values.set n (r.change s.current) := by
      rw [Desk.values, List.map_set, Store.current_after]
      rfl
    refine ⟨congrArg (fun view => r.answer s.current view d.length) hfresh.expanded_eq, ?_⟩
    show Desk.values (if r = .copy then _ else _) = (if r = .copy then _ else _) ∧ _
    by_cases hr : r = .copy
    · simp only [if_pos hr]
      refine ⟨?_, hset.append s.current⟩
      rw [← hvalues]
      exact List.map_append
    · simp only [if_neg hr]
      exact ⟨hvalues, hset⟩

theorem Desk.IsFresh.move {d : Desk} (h : d.IsFresh) (m : Move) :
    (d.move m).1 = (Plain.move d.values m).1 ∧
      (d.move m).2.values = (Plain.move d.values m).2 ∧ (d.move m).2.IsFresh := by
  cases m with
  | request n r => exact h.step n r
  | parse text =>
    refine ⟨?_, List.map_append, h.append _⟩
    rw [Desk.move, Plain.move, Desk.length_values]

theorem Desk.IsFresh.answers_eq {d : Desk} (h : d.IsFresh) (ms : List Move) :
    answers Desk.move d ms = answers Plain.move d.values ms := by
  induction ms generalizing d with
  | nil => rfl
  | cons m ms ih =>
    obtain ⟨hanswer, hvalues, hfresh⟩ := h.move m
    rw [answers, answers, hanswer, ih hfresh, hvalues]

theorem Desk.IsFresh.after {d : Desk} (h : d.IsFresh) (ms : List Move) :
    (after Desk.move d ms).values = after Plain.move d.values ms ∧
      (after Desk.move d ms).IsFresh := by
  induction ms generalizing d with
  | nil => exact ⟨rfl, h⟩
  | cons m ms ih =>
    obtain ⟨-, hvalues, hfresh⟩ := h.move m
    show _ = Preferences.after Plain.move (Plain.move d.values m).2 ms ∧ _
    rw [← hvalues]
    exact ih hfresh

theorem isFresh_deskAfter (history : List Move) : (deskAfter history).IsFresh := by
  have hempty : Desk.IsFresh [] := fun _ hs => absurd hs List.not_mem_nil
  exact (hempty.after history).2

/-- Later answers depend on the values of the stores only. -/
theorem answersAfter_congr {history history' : List Move}
    (h : (deskAfter history).values = (deskAfter history').values) (later : List Move) :
    answersAfter history later = answersAfter history' later := by
  rw [answersAfter, answersAfter, (isFresh_deskAfter history).answers_eq,
    (isFresh_deskAfter history').answers_eq, h]

theorem deskAfter_request (history : List Move) (n : Nat) (r : Request) :
    deskAfter (history ++ [.request n r]) = ((deskAfter history).step n r).2 := by
  rw [deskAfter, after_append]
  rfl

/-! ### Each store on its own -/

/-- The answers of a store that is the only one. -/
def alone (p : Preferences) : List Request → List Answer
  | [] => []
  | r :: rs => r.answer p p.expanded 0 :: alone (r.change p) rs

/-- The request that a move is for a store. The answer to one for a copy is the number of stores,
which is not up to the store. -/
def Move.requestTo? (n : Nat) : Move → Option Request
  | .parse _ => none
  | .request k r => if k = n ∧ r ≠ .copy then some r else none

def requestsTo (n : Nat) (ms : List Move) : List Request := ms.filterMap (Move.requestTo? n)

/-- The answers to the requests to a store. -/
def answersTo (n : Nat) (ms : List Move) (as : List Answer) : List Answer :=
  ((ms.zip as).filter fun e => (e.1.requestTo? n).isSome).map Prod.snd

/-- Whether a request leaves all stores as they are. -/
def Request.IsRead (r : Request) : Prop := r.changes = false ∧ r ≠ .copy

instance (r : Request) : Decidable r.IsRead := inferInstanceAs (Decidable (_ ∧ _))

theorem Request.change_of_changes {r : Request} (h : r.changes = false) (p : Preferences) :
    r.change p = p := by
  cases r with
  | set key value => exact nomatch h
  | unset key => exact nomatch h
  | _ => rfl

theorem Request.answer_of_ne_copy {r : Request} (h : r ≠ .copy) (p view : Preferences)
    (copies : Nat) : r.answer p view copies = r.answer p view 0 := by
  cases r with
  | copy => exact absurd rfl h
  | _ => rfl

/-- A request changes no store but the one that it is for. -/
theorem Plain.getElem?_step {d : Plain} {n : Nat} {p : Preferences} (h : d[n]? = some p) (k : Nat)
    (r : Request) : (d.step k r).2[n]? = some (if k = n then r.change p else p) := by
  have hset (q : Preferences) : (d.set k q)[n]? = some (if k = n then q else p) := by
    rw [List.getElem?_set, h]
    have hn : n < d.length := (List.getElem?_eq_some_iff.1 h).1
    by_cases hk : k = n
    · rw [if_pos hk, if_pos hk, if_pos (hk ▸ hn)]
    · rw [if_neg hk, if_neg hk]
  rw [Plain.step]
  cases hq : d[k]? with
  | none =>
    have hk : k ≠ n := fun he => by rw [he, h] at hq; exact nomatch hq
    rw [if_neg hk]
    exact h
  | some q =>
    have hchange : (d.set k (r.change q))[n]? = some (if k = n then r.change p else p) := by
      rw [hset]
      by_cases hk : k = n
      · obtain rfl : q = p := by rw [hk, h] at hq; exact (Option.some.inj hq).symm
        rfl
      · rw [if_neg hk, if_neg hk]
    show (if r = .copy then _ else _)[n]? = _
    split
    · rw [List.getElem?_append_left (List.getElem?_eq_some_iff.1 hchange).1, hchange]
    · exact hchange

theorem answersTo_of_some {n : Nat} {m : Move} {r : Request} (h : m.requestTo? n = some r)
    (ms : List Move) (a : Answer) (as : List Answer) :
    answersTo n (m :: ms) (a :: as) = a :: answersTo n ms as := by
  simp [answersTo, h]

theorem answersTo_of_none {n : Nat} {m : Move} (h : m.requestTo? n = none) (ms : List Move)
    (a : Answer) (as : List Answer) : answersTo n (m :: ms) (a :: as) = answersTo n ms as := by
  simp [answersTo, h]

/-- A store answers as if nothing else were done at the desk. -/
theorem Plain.answersTo_eq {d : Plain} {n : Nat} {p : Preferences} (h : d[n]? = some p)
    (ms : List Move) : answersTo n ms (answers Plain.move d ms) = alone p (requestsTo n ms) := by
  induction ms generalizing d p with
  | nil => rfl
  | cons m ms ih =>
    rw [answers]
    cases m with
    | parse text =>
      have hnext : (Plain.move d (.parse text)).2[n]? = some p := by
        rw [Plain.move, List.getElem?_append_left (List.getElem?_eq_some_iff.1 h).1, h]
      exact ih hnext
    | request k r =>
      have hnext := ih (Plain.getElem?_step h k r)
      by_cases hk : k = n
      · by_cases hr : r = .copy
        · have hto : Move.requestTo? n (.request k r) = none := if_neg fun hto => hto.2 hr
          have hsame : r.change p = p := by rw [hr]; rfl
          rw [answersTo_of_none hto, requestsTo, List.filterMap_cons_none hto]
          rwa [if_pos hk, hsame] at hnext
        · have hto : Move.requestTo? n (.request k r) = some r := if_pos ⟨hk, hr⟩
          have hanswer : (Plain.move d (.request k r)).1 = r.answer p p.expanded 0 := by
            rw [Plain.move, Plain.step, hk, h, ← r.answer_of_ne_copy hr p p.expanded d.length]
          rw [if_pos hk] at hnext
          rw [answersTo_of_some hto, requestsTo, List.filterMap_cons_some hto, alone, hanswer]
          exact congrArg _ hnext
      · have hto : Move.requestTo? n (.request k r) = none := if_neg fun hto => hk hto.1
        rw [answersTo_of_none hto, requestsTo, List.filterMap_cons_none hto]
        rwa [if_neg hk] at hnext

theorem unset_of_not_contains {p : Preferences} {key : Text} (h : p.contains key = false) :
    p.unset key = p := by
  have hkeys : key ∉ Entries.keys p.values := by
    rwa [contains, Entries.contains, ← Bool.not_eq_true, List.contains_iff_mem] at h
  have hkept : Entries.erase key p.values = p.values := by
    refine List.filter_eq_self.2 fun e he => bne_iff_ne.2 fun hk => hkeys ?_
    exact hk ▸ List.mem_map_of_mem he
  rw [unset, hkept]

/-! ### What is seen of it -/

section

variable {history : List Move} {n : Nat} {s : Store} (hs : (deskAfter history)[n]? = some s)

include hs

theorem values_after_request (r : Request) :
    (deskAfter (history ++ [.request n r])).values =
      (deskAfter history).values.set n (r.change s.current) ++
        if r = .copy then [s.current] else [] := by
  rw [deskAfter_request, ((isFresh_deskAfter history).step n r).2.1, Plain.step,
    Desk.getElem?_values, hs]
  show (if r = .copy then _ else _) = _
  split
  · rfl
  · rw [List.append_nil]

/-- A request that changes nothing and makes no store leaves all values as they are. -/
theorem values_after_idle {r : Request} (hr : r.change s.current = s.current) (hc : r ≠ .copy) :
    (deskAfter (history ++ [.request n r])).values = (deskAfter history).values := by
  have hget : (deskAfter history).values[n]? = some s.current := by
    rw [Desk.getElem?_values, hs]
    rfl
  rw [values_after_request hs, hr, if_neg hc, List.append_nil]
  obtain ⟨hn, hvalue⟩ := List.getElem?_eq_some_iff.1 hget
  rw [← hvalue]
  exact List.set_getElem_self hn

end

/-- **Keeping the expanded values is never seen.** A desk gives the answers of one whose stores
expand their values at every request. A read changes no later answer, and neither does the
removal of a key that is absent. What a store expands behind a request are the values that it
has then. A store gives the answers that it would give if it were the only one, and a copy begins
with the values of its original. -/
theorem keeping_unseen :
    (∀ moves, answers Desk.move [] moves = answers Plain.move [] moves) ∧
    ∀ history n s, (deskAfter history)[n]? = some s →
      (∀ r, r.IsRead → ∀ later,
        answersAfter (history ++ [.request n r]) later = answersAfter history later) ∧
      (∀ key, s.current.contains key = false → ∀ later,
        answersAfter (history ++ [.request n (.unset key)]) later = answersAfter history later) ∧
      (∀ r, ((deskAfter (history ++ [.request n r]))[n]?).map Store.expanded =
        some (r.change s.current).expanded) ∧
      (∀ later, answersTo n later (answersAfter history later) =
        alone s.current (requestsTo n later)) ∧
      ((deskAfter (history ++ [.request n .copy]))[(deskAfter history).length]?).map
        Store.current = some s.current := by
  refine ⟨fun moves => ?_, fun history n s hs => ⟨fun r hr later => ?_, fun key hkey later => ?_,
    fun r => ?_, fun later => ?_, ?_⟩⟩
  · exact Desk.IsFresh.answers_eq (fun _ hs => absurd hs List.not_mem_nil) moves
  · exact answersAfter_congr (values_after_idle hs (r.change_of_changes hr.1 _) hr.2) later
  · have hsame : (Request.unset key).change s.current = s.current := unset_of_not_contains hkey
    exact answersAfter_congr (values_after_idle hs hsame Request.noConfusion) later
  · have hget : (deskAfter history).values[n]? = some s.current := by
      rw [Desk.getElem?_values, hs]
      rfl
    have hvalue : (deskAfter (history ++ [.request n r])).values[n]? =
        some (r.change s.current) := by
      rw [deskAfter_request, ((isFresh_deskAfter history).step n r).2.1,
        Plain.getElem?_step hget, if_pos rfl]
    rw [Desk.getElem?_values] at hvalue
    obtain ⟨t, ht, hcurrent⟩ := Option.map_eq_some_iff.1 hvalue
    have hfresh := isFresh_deskAfter _ t (List.mem_of_getElem? ht)
    rw [ht, Option.map_some, hfresh.expanded_eq, hcurrent]
  · rw [answersAfter, (isFresh_deskAfter history).answers_eq]
    exact Plain.answersTo_eq (by rw [Desk.getElem?_values, hs]; rfl) later
  · rw [← Desk.getElem?_values, values_after_request hs, if_pos rfl, ← Desk.length_values]
    simp

/-- A store that has kept what it expanded, and a changed copy of it. -/
def copied : List Move :=
  [.parse "a=\x7bb\x7d\nb=1\n", .request 0 (.get "a" .text), .request 0 .copy,
    .request 1 (.set "b" "2")]

theorem keeping_unseen_copied :
    (deskAfter copied)[0]? = some ⟨⟨[("a", "\x7bb\x7d"), ("b", "1")]⟩,
      some ⟨[("a", "1"), ("b", "1")]⟩⟩ ∧
    answersAfter (copied ++ [.request 0 .render]) [.request 0 (.get "a" .int)] =
      answersAfter copied [.request 0 (.get "a" .int)] ∧
    answersAfter (copied ++ [.request 0 (.unset "c")]) [.request 1 (.require "a")] =
      answersAfter copied [.request 1 (.require "a")] ∧
    answersTo 0 [.request 1 (.unset "b"), .request 0 (.get "a" .int), .request 1 .copy]
      (answersAfter copied
        [.request 1 (.unset "b"), .request 0 (.get "a" .int), .request 1 .copy]) = [.int 1] := by
  have hs : (deskAfter copied)[0]? = some ⟨⟨[("a", "\x7bb\x7d"), ("b", "1")]⟩,
      some ⟨[("a", "1"), ("b", "1")]⟩⟩ := by
    decide +kernel
  obtain ⟨hread, hunset, -, halone, -⟩ := keeping_unseen.2 copied 0 _ hs
  refine ⟨hs, hread .render (by decide) _, hunset "c" (by decide) _, ?_⟩
  rw [halone]
  decide +kernel

end FirmwareBuild.Preferences
