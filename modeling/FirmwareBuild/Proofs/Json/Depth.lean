import FirmwareBuild.Proofs.Json.Spelling

/-! How deep a text is nested.

A frame is opened by a bracket, so a text is refused for its depth only if it has more opening
brackets than there may be frames: `lt_of_parse_tooDeep`. -/
namespace FirmwareBuild.Json

/-- The frames of a machine, with the object whose next key is not complete. -/
def Machine.depth : Machine → Nat
  | ⟨frames, .keyOrEnd⟩ | ⟨frames, .key _⟩ | ⟨frames, .colon _ _⟩ => frames.length + 1
  | ⟨frames, _⟩ => frames.length

/-- How many frames a word opens. -/
def Token.opens : Token → Nat
  | .openList | .openObject => 1
  | _ => 0

def opens : List Token → Nat
  | [] => 0
  | t :: ts => t.opens + opens ts

/-- Whether a code point is an opening bracket. -/
def isOpening (c : CodePoint) : Bool := c.standIn = '[' || c.standIn = '\x7b'

/-- A machine stands at most so deep, or more frames than there may be were needed. -/
def Deepens (x : Except ReadError Machine) (n : Nat) : Prop :=
  match x with
  | .ok m => m.depth ≤ n
  | .error e => e = .tooDeep → depthLimit < n

variable {a b : Mode} {m : Machine} {c : CodePoint} {s : Text} {t : Token} {ts : List Token}
  {frames : List Frame}

/-! ### Words -/

theorem deepens_malformed (n : Nat) : Deepens (.error .malformed) n := nofun

theorem deepens_openFrame (hm : m.depth = frames.length + 1) :
    Deepens (openFrame frames m) (frames.length + 1) := by
  rw [openFrame]
  split
  · exact hm.le
  · exact fun _ => by omega

theorem deepens_startValue (frames : List Frame) (t : Token) :
    Deepens (startValue frames t) (frames.length + t.opens) := by
  cases t with
  | openList => exact deepens_openFrame rfl
  | openObject => exact deepens_openFrame rfl
  | text s => exact Nat.le_refl _
  | scalar v => exact Nat.le_refl _
  | longInteger digits =>
    intro h
    cases h
  | _ => exact deepens_malformed _

/-- A word opens one frame at most. -/
theorem deepens_step (m : Machine) (t : Token) : Deepens (m.step t) (m.depth + t.opens) := by
  obtain ⟨frames, e⟩ := m
  cases e with
  | value =>
    have hstep : (⟨frames, .value⟩ : Machine).step t = startValue frames t := by
      rw [Machine.step.eq_def]
    exact hstep ▸ deepens_startValue frames t
  | itemOrEnd =>
    by_cases ht : t = .closeList
    · subst ht
      rcases frames with _ | ⟨items | ⟨fields, key⟩, frames⟩
      · exact deepens_malformed _
      · exact Nat.le_succ _
      · exact deepens_malformed _
    · exact step_open (e := .itemOrEnd) trivial ht ▸ deepens_startValue frames t
  | keyOrEnd =>
    cases t with
    | closeObject => exact Nat.le_succ _
    | text s => exact Nat.le_refl _
    | _ => exact deepens_malformed _
  | key fields =>
    cases t with
    | text s => exact Nat.le_refl _
    | _ => exact deepens_malformed _
  | colon fields key =>
    cases t with
    | colon => exact Nat.le_refl _
    | _ => exact deepens_malformed _
  | after v =>
    rcases frames with _ | ⟨items | ⟨fields, key⟩, frames⟩
    · cases t <;> exact deepens_malformed _
    · cases t with
      | comma => exact Nat.le_refl _
      | closeList => exact Nat.le_succ _
      | _ => exact deepens_malformed _
    · cases t with
      | comma => exact Nat.le_refl _
      | closeObject => exact Nat.le_succ _
      | _ => exact deepens_malformed _

theorem Deepens.mono {x : Except ReadError Machine} {n k : Nat} (h : Deepens x n) (hle : n ≤ k) :
    Deepens x k := by
  cases x with
  | ok m => exact h.trans hle
  | error e => exact fun he => (h he).trans_le hle

theorem deepens_run (m : Machine) (ts : List Token) : Deepens (m.run ts) (m.depth + opens ts) := by
  induction ts generalizing m with
  | nil => exact Nat.le_refl _
  | cons t ts ih =>
    have hsum : opens (t :: ts) = t.opens + opens ts := rfl
    have hstep := deepens_step m t
    rw [run_cons]
    cases hm : m.step t with
    | error e =>
      rw [hm] at hstep
      exact hstep.mono (by omega)
    | ok m' =>
      rw [hm] at hstep
      have hle : m'.depth ≤ m.depth + t.opens := hstep
      exact (ih m').mono (by omega)

/-! ### Texts -/

theorem opens_mark {d : Char} (h : mark? d = some t) :
    t.opens ≤ (d = '[' || d = '\x7b' : Bool).toNat := by
  rw [mark?.eq_def] at h
  split at h
  case h_7 => cases h
  all_goals
    cases h
    decide

theorem opens_stepBetween (d : Char) :
    opens (stepBetween d).1 ≤ (d = '[' || d = '\x7b' : Bool).toNat := by
  rw [stepBetween]
  split
  · exact Nat.zero_le _
  split
  · exact Nat.zero_le _
  split
  · next hmark => exact opens_mark hmark
  · exact Nat.zero_le _

theorem opens_word {w : List Char} (h : word? w = some t) : t.opens = 0 := by
  obtain ⟨v, rfl, -⟩ | ⟨digits, rfl⟩ := exists_of_word? h <;> rfl

/-- No word opens a frame but a bracket, which completes its own. -/
theorem opens_of_step (h : step a c = some (ts, b)) : opens ts ≤ (isOpening c).toNat := by
  have hnone {ts : List Token} (h : ts = []) : opens ts ≤ (isOpening c).toNat :=
    h ▸ Nat.zero_le _
  cases a with
  | between =>
    obtain rfl : (stepBetween c.standIn).1 = ts := congrArg Prod.fst (Option.some.inj h)
    exact opens_stepBetween c.standIn
  | word seen =>
    rw [step] at h
    dsimp only at h
    split at h
    · obtain ⟨t, ht, h⟩ := Option.map_eq_some_iff.1 h
      obtain rfl : t :: (stepBetween c.standIn).1 = ts := congrArg Prod.fst h
      have hopens := opens_stepBetween c.standIn
      have ht := opens_word ht
      show t.opens + opens _ ≤ _
      rwa [ht, Nat.zero_add]
    · exact hnone (congrArg Prod.fst (Option.some.inj h)).symm
  | text seen pending =>
    rw [step] at h
    dsimp only at h
    split_ifs at h
    · exact hnone (congrArg Prod.fst (Option.some.inj h)).symm
    · obtain rfl : [_] = ts := congrArg Prod.fst (Option.some.inj h)
      exact Nat.zero_le _
    · exact hnone (congrArg Prod.fst (Option.some.inj h)).symm
  | escape seen pending =>
    rw [step] at h
    split at h
    · exact hnone (congrArg Prod.fst (Option.some.inj h)).symm
    · obtain ⟨d, -, h⟩ := Option.map_eq_some_iff.1 h
      exact hnone (congrArg Prod.fst h).symm
  | code seen pending left value =>
    obtain ⟨d, x, -, -, hts, -⟩ := step_code.1 h
    exact hnone hts

theorem opens_of_finish? (h : finish? a = some ts) : opens ts = 0 := by
  cases a with
  | between => exact Option.some.inj h ▸ rfl
  | word seen =>
    obtain ⟨t, ht, rfl⟩ := Option.map_eq_some_iff.1 h
    exact opens_word ht
  | _ => exact nomatch h

theorem lt_of_run (h : m.run ts = .error .tooDeep) : depthLimit < m.depth + opens ts := by
  have hrun := deepens_run m ts
  rw [h] at hrun
  exact hrun rfl

theorem required_ne_tooDeep {α : Type} (x : Option α) :
    ReadError.required x ≠ .error .tooDeep := by
  cases x <;> nofun

theorem result_ne_tooDeep (m : Machine) : m.result ≠ .error .tooDeep := by
  intro h
  rw [Machine.result.eq_def] at h
  split at h <;> cases h

theorem lt_of_read (h : Reader.run ⟨a, m⟩ s >>= Reader.result = .error .tooDeep) :
    depthLimit < m.depth + s.countP isOpening := by
  induction s generalizing a m with
  | nil =>
    have h : ReadError.required (finish? a) >>= (fun ts => m.run ts >>= Machine.result) =
        .error .tooDeep := h
    obtain h | ⟨ts, hts, h⟩ := bind_eq_error.1 h
    · exact absurd h (required_ne_tooDeep _)
    obtain h | ⟨m', -, h⟩ := bind_eq_error.1 h
    · have hlt := lt_of_run h
      rwa [opens_of_finish? (required_eq_ok.1 hts)] at hlt
    · exact absurd h (result_ne_tooDeep m')
  | cons c s ih =>
    have hcount : (c :: s).countP isOpening = s.countP isOpening + (isOpening c).toNat := by
      rw [List.countP_cons]
      cases isOpening c <;> rfl
    rw [read_cons] at h
    obtain h | ⟨⟨ts, b⟩, hstep, h⟩ := bind_eq_error.1 h
    · exact absurd h (required_ne_tooDeep _)
    have hopens := opens_of_step (required_eq_ok.1 hstep)
    obtain h | ⟨m', hm, h⟩ := bind_eq_error.1 h
    · have hlt := lt_of_run h
      dsimp only at hlt
      omega
    · have hdepth := deepens_run m ts
      rw [hm] at hdepth
      have hdepth : m'.depth ≤ m.depth + opens ts := hdepth
      have hlt := ih h
      omega

/-- **Only brackets nest.** A text that is too deep has more opening brackets than the reader goes
deep. -/
theorem lt_of_parse_tooDeep (h : parse s = .error .tooDeep) : depthLimit < s.countP isOpening := by
  have hstart : Machine.start.depth = 0 := rfl
  have hlt := lt_of_read h
  rwa [hstart, Nat.zero_add] at hlt

end FirmwareBuild.Json
