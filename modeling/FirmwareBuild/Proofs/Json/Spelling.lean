import FirmwareBuild.Proofs.Json.Grammar
import FirmwareBuild.Proofs.Json.Numeral

/-! The grammar of JSON texts.

A text spells words (`Spells`): brackets, commas and colons stand for themselves, a text stands
between quotes, and any other value is a bare word. It is JSON for a value if it spells words that
denote the value (`IsJson`). The reader reads these texts and refuses all others:
`parse_eq_ok_iff`. -/
namespace FirmwareBuild.Json

open Text (ofChars)

/-! ### Quotes -/

/-- A code point between quotes: as itself or as a letter, or by its number. -/
inductive Glyph
  | plain (c : CodePoint)
  | numbered (c : CodePoint)

/-- The text that glyphs show. Two numbers side by side that are the halves of a pair show its
character. -/
def shown : List Glyph → Text
  | .numbered a :: .numbered b :: rest =>
    match a.pair? b with
    | some c => c :: shown rest
    | none => a :: shown (.numbered b :: rest)
  | .plain c :: rest | .numbered c :: rest => c :: shown rest
  | [] => []

/-- The number that hexadecimal digits make behind others. -/
def hexNumber? (value : Nat) (cs : List Char) : Option Nat :=
  cs.foldlM (fun n c => (hexValue? c).map (16 * n + ·)) value

/-- How glyphs are written. -/
inductive Quotes : Text → List Glyph → Prop
  | nil : Quotes [] []
  | self {c : CodePoint} {s : Text} {gs : List Glyph} (hquote : c ≠ '"') (hescape : c ≠ '\\')
      (hcontrol : 0x20 ≤ c.toNat) (h : Quotes s gs) : Quotes (c :: s) (.plain c :: gs)
  | letter {c d : Char} {s : Text} {gs : List Glyph} (hc : escape? c = some d)
      (h : Quotes s gs) : Quotes (.char '\\' :: .char c :: s) (.plain d :: gs)
  | number {ds : List Char} {n : Nat} {s : Text} {gs : List Glyph} (hlength : ds.length = 4)
      (hn : hexNumber? 0 ds = some n) (h : Quotes s gs) :
      Quotes (.char '\\' :: .char 'u' :: (ofChars ds ++ s)) (.numbered (.ofNat n) :: gs)

/-! ### Bare words -/

/-- The values of bare words. Three of the names are those of values that no numeral has. -/
inductive IsScalar : List Char → Json → Prop
  | null : IsScalar "null".toList .null
  | true : IsScalar "true".toList (.bool true)
  | false : IsScalar "false".toList (.bool false)
  | nan : IsScalar "NaN".toList (.real .nan)
  | infinity : IsScalar "Infinity".toList (.real (.infinite false))
  | negativeInfinity : IsScalar "-Infinity".toList (.real (.infinite true))
  | numeral {n : Numeral} (hn : n.IsProper) (hshort : n.IsShort) : IsScalar n.text n.value

/-- Whether a code point continues a bare word: it is neither a quote nor a blank nor a mark. -/
def continuesWord (c : CodePoint) : Bool :=
  !(c.standIn = '"' || isGap c.standIn || (mark? c.standIn).isSome)

/-! ### Texts -/

/-- The words that a text spells. -/
inductive Spells : Text → List Token → Prop
  | nil : Spells [] []
  | gap {c : Char} {s : Text} {ts : List Token} (hc : isGap c = true) (h : Spells s ts) :
      Spells (.char c :: s) ts
  | mark {c : Char} {t : Token} {s : Text} {ts : List Token} (hc : mark? c = some t)
      (h : Spells s ts) : Spells (.char c :: s) (t :: ts)
  | text {body : Text} {gs : List Glyph} {s : Text} {ts : List Token} (hbody : Quotes body gs)
      (h : Spells s ts) :
      Spells (.char '"' :: (body ++ .char '"' :: s)) (.text (shown gs) :: ts)
  | bare {w : List Char} {v : Json} {s : Text} {ts : List Token} (hw : IsScalar w v)
      (hend : s.head?.any continuesWord = false) (h : Spells s ts) :
      Spells (ofChars w ++ s) (.scalar v :: ts)

/-- Texts that are JSON for a value, with lists and objects nested at most as deep, and integers
at most as long, as they are read. -/
def IsJson (s : Text) (v : Json) : Prop := ∃ ts, Spells s ts ∧ Denotes depthLimit ts v

/-! ### Words apart from values -/

/-- The words of the rest of a text. -/
def scan : Mode → Text → Option (List Token)
  | a, [] => finish? a
  | a, c :: s => (step a c).bind fun r => (scan r.2 s).map (r.1 ++ ·)

variable {a b : Mode} {m : Machine} {c : CodePoint} {s : Text} {t : Token} {ts : List Token}
  {v : Json}

theorem required_eq_ok {α : Type} {x : Option α} {y : α} :
    ReadError.required x = .ok y ↔ x = some y := by
  cases x with
  | none => exact ⟨nofun, nofun⟩
  | some x =>
    exact ⟨fun h => congrArg some (Except.ok.inj h),
      fun h => congrArg Except.ok (Option.some.inj h)⟩

/-- The words that a code point completes go to the machine before the next one is read. -/
theorem read_cons (a : Mode) (m : Machine) (c : CodePoint) (s : Text) :
    Reader.run ⟨a, m⟩ (c :: s) >>= Reader.result =
      ReadError.required (step a c) >>= fun r => m.run r.1 >>= fun m' =>
        Reader.run ⟨r.2, m'⟩ s >>= Reader.result := by
  rw [Reader.run, List.foldlM_cons, Reader.step]
  cases step a c with
  | none => rfl
  | some r =>
    show (m.run r.1 >>= fun m' => pure (⟨r.2, m'⟩ : Reader)) >>= _ >>= _ =
      m.run r.1 >>= fun m' => Reader.run ⟨r.2, m'⟩ s >>= Reader.result
    cases m.run r.1 <;> rfl

/-- A text has a value if it has words, and these words have it. -/
theorem read_eq_ok : Reader.run ⟨a, m⟩ s >>= Reader.result = .ok v ↔
    ∃ ts, scan a s = some ts ∧ m.run ts >>= Machine.result = .ok v := by
  induction s generalizing a m with
  | nil =>
    show ReadError.required (finish? a) >>= (fun ts => m.run ts >>= Machine.result) = .ok v ↔ _
    rw [bind_eq_ok]
    simp only [required_eq_ok, scan]
  | cons c s ih =>
    rw [read_cons, bind_eq_ok]
    constructor
    · rintro ⟨r, hr, h⟩
      obtain ⟨m', hm, h⟩ := bind_eq_ok.1 h
      obtain ⟨us, hus, hv⟩ := ih.1 h
      refine ⟨r.1 ++ us, ?_, ?_⟩
      · rw [scan, required_eq_ok.1 hr, Option.bind_some, hus, Option.map_some]
      · rwa [Machine.run_append, hm]
    · rintro ⟨ts, hts, hv⟩
      obtain ⟨r, hr, h⟩ := Option.bind_eq_some_iff.1 hts
      obtain ⟨us, hus, rfl⟩ := Option.map_eq_some_iff.1 h
      rw [Machine.run_append] at hv
      obtain ⟨m₁, h, hv⟩ := bind_eq_ok.1 hv
      obtain ⟨m', hm, hrest⟩ := bind_eq_ok.1 h
      refine ⟨r, required_eq_ok.2 hr, bind_eq_ok.2 ⟨m', hm, ih.2 ⟨us, hus, ?_⟩⟩⟩
      exact bind_eq_ok.2 ⟨m₁, hrest, hv⟩

theorem scan_eq_some : scan a (c :: s) = some ts ↔
    ∃ us b vs, step a c = some (us, b) ∧ scan b s = some vs ∧ us ++ vs = ts := by
  rw [scan, Option.bind_eq_some_iff]
  simp only [Option.map_eq_some_iff, Prod.exists, exists_and_left]

/-- A code point that completes no word. -/
theorem scan_quiet (h : step a c = some ([], b)) (s : Text) : scan a (c :: s) = scan b s := by
  rw [scan, h]
  simp

/-- A code point is a character if it stands for one as no half does. -/
theorem eq_char_standIn {p : Char → Prop} (h : p c.standIn) (hhalf : ¬p '\ufffd') :
    c = .char c.standIn := by
  cases c with
  | char c => rfl
  | half place => exact absurd h hhalf

/-! ### Quotes are read -/

variable {seen : Text} {pending : Option CodePoint}

theorem hexNumber?_cons {value n : Nat} {d : Char} {ds : List Char} :
    hexNumber? value (d :: ds) = some n ↔
      ∃ x, hexValue? d = some x ∧ hexNumber? (16 * value + x) ds = some n := by
  rw [hexNumber?, List.foldlM_cons, Option.bind_eq_bind, Option.bind_eq_some_iff]
  simp only [Option.map_eq_some_iff, hexNumber?]
  constructor
  · rintro ⟨_, ⟨x, hx, rfl⟩, h⟩
    exact ⟨x, hx, h⟩
  · rintro ⟨x, hx, h⟩
    exact ⟨_, ⟨x, hx, rfl⟩, h⟩

theorem step_code {left value : Nat} {us : List Token} :
    step (.code seen pending left value) c = some (us, b) ↔
      ∃ d x, c = .char d ∧ hexValue? d = some x ∧ us = [] ∧
        b = if left ≤ 1 then escaped seen pending (.ofNat (16 * value + x))
          else .code seen pending (left - 1) (16 * value + x) := by
  rw [step, Option.map_eq_some_iff]
  constructor
  · rintro ⟨x, hx, h⟩
    have hc : c = .char c.standIn := eq_char_standIn (p := (hexValue? · = some x)) hx (by rintro ⟨⟩)
    refine ⟨c.standIn, x, hc, hx, ?_⟩
    rw [← apply_ite (Prod.mk []), Prod.mk.injEq] at h
    exact ⟨h.1.symm, h.2.symm⟩
  · rintro ⟨d, x, rfl, hx, rfl, rfl⟩
    refine ⟨x, hx, ?_⟩
    split <;> rfl

/-- The digits of an escape. -/
theorem scan_code {k value : Nat} : scan (.code seen pending (k + 1) value) s = some ts ↔
    ∃ ds n rest, ds.length = k + 1 ∧ hexNumber? value ds = some n ∧ s = ofChars ds ++ rest ∧
      scan (escaped seen pending (.ofNat n)) rest = some ts := by
  induction k generalizing s value with
  | zero =>
    constructor
    · intro h
      cases s with
      | nil => cases h
      | cons c s =>
        obtain ⟨_, _, _, hstep, hscan, rfl⟩ := scan_eq_some.1 h
        obtain ⟨d, x, rfl, hx, rfl, rfl⟩ := step_code.1 hstep
        exact ⟨[d], _, s, rfl, hexNumber?_cons.2 ⟨x, hx, rfl⟩, rfl, hscan⟩
    · rintro ⟨ds, n, rest, hlength, hn, rfl, h⟩
      obtain ⟨d, rfl⟩ := List.length_eq_one_iff.1 hlength
      obtain ⟨x, hx, hn⟩ := hexNumber?_cons.1 hn
      obtain rfl := Option.some.inj hn
      exact scan_eq_some.2 ⟨_, _, _, step_code.2 ⟨d, x, rfl, hx, rfl, rfl⟩, h, rfl⟩
  | succ k ih =>
    constructor
    · intro h
      cases s with
      | nil => cases h
      | cons c s =>
        obtain ⟨_, _, _, hstep, hscan, rfl⟩ := scan_eq_some.1 h
        obtain ⟨d, x, rfl, hx, rfl, rfl⟩ := step_code.1 hstep
        rw [if_neg (by omega)] at hscan
        obtain ⟨ds, n, rest, hlength, hn, rfl, hrest⟩ := ih.1 hscan
        exact ⟨d :: ds, n, rest, congrArg (· + 1) hlength, hexNumber?_cons.2 ⟨x, hx, hn⟩, rfl,
          hrest⟩
    · rintro ⟨ds, n, rest, hlength, hn, rfl, h⟩
      obtain ⟨d, ds, rfl⟩ := List.exists_cons_of_length_eq_add_one hlength
      obtain ⟨x, hx, hn⟩ := hexNumber?_cons.1 hn
      refine scan_eq_some.2 ⟨_, _, _, step_code.2 ⟨d, x, rfl, hx, rfl, rfl⟩, ?_, rfl⟩
      rw [if_neg (by omega)]
      exact ih.2 ⟨ds, n, rest, by simpa using hlength, hn, rfl, h⟩

/-- What follows a backslash: a letter, or the number of a code point. -/
theorem scan_escape : scan (.escape seen pending) s = some ts ↔
    (∃ d e rest, s = .char d :: rest ∧ escape? d = some e ∧
        scan (.text (.char e :: (pending.toList ++ seen)) none) rest = some ts) ∨
      ∃ ds n rest, ds.length = 4 ∧ hexNumber? 0 ds = some n ∧
        s = .char 'u' :: (ofChars ds ++ rest) ∧
        scan (escaped seen pending (.ofNat n)) rest = some ts := by
  constructor
  · intro h
    cases s with
    | nil => cases h
    | cons c s =>
      obtain ⟨_, _, _, hstep, hscan, rfl⟩ := scan_eq_some.1 h
      rw [step] at hstep
      split at hstep
      · next hc =>
        obtain ⟨rfl, rfl⟩ := Prod.mk.inj (Option.some.inj hstep)
        obtain ⟨ds, n, rest, hlength, hn, rfl, hrest⟩ := scan_code.1 hscan
        exact .inr ⟨ds, n, rest, hlength, hn, hc ▸ rfl, hrest⟩
      · obtain ⟨e, he, h⟩ := Option.map_eq_some_iff.1 hstep
        obtain ⟨rfl, rfl⟩ := Prod.mk.inj h
        have hc : c = .char c.standIn :=
          eq_char_standIn (p := (escape? · = some e)) he (by rintro ⟨⟩)
        exact .inl ⟨c.standIn, e, s, congrArg (· :: s) hc, he, hscan⟩
  · rintro (⟨d, e, rest, rfl, he, h⟩ | ⟨ds, n, rest, hlength, hn, rfl, h⟩)
    · have hu : CodePoint.char d ≠ .char 'u' := by
        intro hd
        rw [CodePoint.char.inj hd] at he
        cases he
      have hstep : step (.escape seen pending) (.char d) =
          some ([], .text (.char e :: (pending.toList ++ seen)) none) := by
        rw [step, if_neg hu, CodePoint.standIn, he]
        rfl
      rwa [scan_quiet hstep]
    · rw [scan_quiet (b := .code seen pending 4 0) rfl]
      exact scan_code.2 ⟨ds, n, rest, hlength, hn, rfl, h⟩

/-- What has been read of a text between quotes, with glyphs that follow it. -/
def spoken (seen : Text) (pending : Option CodePoint) (gs : List Glyph) : Text :=
  seen.reverse ++ shown (pending.toList.map .numbered ++ gs)

theorem spoken_nil : spoken seen pending [] = (pending.toList ++ seen).reverse := by
  cases pending <;> simp [spoken, shown]

theorem spoken_plain (gs : List Glyph) :
    spoken (c :: (pending.toList ++ seen)) none gs = spoken seen pending (.plain c :: gs) := by
  cases pending <;> simp [spoken, shown]

theorem exists_escaped (seen : Text) (pending : Option CodePoint) (c : CodePoint) :
    ∃ seen' pending', escaped seen pending c = .text seen' pending' ∧
      ∀ gs, spoken seen' pending' gs = spoken seen pending (.numbered c :: gs) := by
  rw [escaped]
  cases pending with
  | none => exact ⟨seen, some c, rfl, fun gs => rfl⟩
  | some p =>
    rw [Option.bind_some]
    cases hp : p.pair? c with
    | none => exact ⟨p :: seen, some c, rfl, fun gs => by simp [spoken, shown, hp]⟩
    | some d => exact ⟨d :: seen, none, rfl, fun gs => by simp [spoken, shown, hp]⟩

theorem scan_of_quotes {body rest : Text} {gs : List Glyph} {us : List Token}
    (hbody : Quotes body gs) (h : scan .between rest = some us) (seen : Text)
    (pending : Option CodePoint) : scan (.text seen pending) (body ++ .char '"' :: rest) =
      some (.text (spoken seen pending gs) :: us) := by
  induction hbody generalizing seen pending with
  | nil =>
    rw [spoken_nil]
    exact scan_eq_some.2 ⟨_, _, _, rfl, h, rfl⟩
  | @self c s gs hquote hescape hcontrol _ ih =>
    have hstep : step (.text seen pending) c =
        some ([], .text (c :: (pending.toList ++ seen)) none) := by
      rw [step, if_neg hescape]
      simp only [hquote, Nat.not_lt.2 hcontrol, if_false]
    rw [List.cons_append, scan_quiet hstep, ih, spoken_plain]
  | @letter d e s gs he _ ih =>
    rw [← spoken_plain]
    exact (scan_quiet rfl _).trans (scan_escape.2 (.inl ⟨d, e, _, rfl, he, ih _ _⟩))
  | @number ds n s gs hlength hn _ ih =>
    obtain ⟨seen', pending', hmode, hspoken⟩ := exists_escaped seen pending (.ofNat n)
    rw [← hspoken]
    have hrest : scan (escaped seen pending (.ofNat n)) (s ++ .char '"' :: rest) =
        some (.text (spoken seen' pending' gs) :: us) := hmode ▸ ih seen' pending'
    rw [List.cons_append, List.cons_append, List.append_assoc]
    exact (scan_quiet rfl _).trans (scan_escape.2 (.inr ⟨ds, n, _, hlength, hn, rfl, hrest⟩))

/-- A text ends at its quote. -/
theorem exists_quotes (h : scan (.text seen pending) s = some ts) :
    ∃ body gs rest us, Quotes body gs ∧ s = body ++ .char '"' :: rest ∧
      scan .between rest = some us ∧ ts = .text (spoken seen pending gs) :: us := by
  -- An escape takes several code points at once, so the induction is on the length.
  induction hlength : s.length using Nat.strong_induction_on generalizing s seen pending with
  | _ k ih =>
  cases s with
  | nil => cases h
  | cons c s =>
    rw [List.length_cons] at hlength
    obtain ⟨us, b, vs, hstep, hscan, rfl⟩ := scan_eq_some.1 h
    rw [step] at hstep
    split at hstep
    · next hescape =>
      obtain ⟨rfl, rfl⟩ := Prod.mk.inj (Option.some.inj hstep)
      obtain ⟨d, e, rest, rfl, he, hrest⟩ | ⟨ds, n, rest, hds, hn, rfl, hrest⟩ :=
        scan_escape.1 hscan
      · obtain ⟨body, gs, rest', us, hbody, rfl, hus, rfl⟩ :=
          ih _ (by simp at hlength; omega) hrest rfl
        refine ⟨_, _, rest', us, .letter he hbody, ?_, hus, ?_⟩
        · rw [hescape]
          rfl
        · rw [spoken_plain]
          rfl
      · obtain ⟨seen', pending', hmode, hspoken⟩ := exists_escaped seen pending (.ofNat n)
        rw [hmode] at hrest
        obtain ⟨body, gs, rest', us, hbody, rfl, hus, rfl⟩ :=
          ih _ (by simp at hlength; omega) hrest rfl
        refine ⟨_, _, rest', us, .number hds hn hbody, ?_, hus, ?_⟩
        · simp [hescape]
        · rw [hspoken]
          rfl
    · next hescape =>
      dsimp only at hstep
      split at hstep
      · next hquote =>
        obtain ⟨rfl, rfl⟩ := Prod.mk.inj (Option.some.inj hstep)
        refine ⟨[], [], s, vs, .nil, congrArg (· :: s) hquote, hscan, ?_⟩
        rw [spoken_nil]
        rfl
      · next hquote =>
        split at hstep
        · cases hstep
        · next hcontrol =>
          obtain ⟨rfl, rfl⟩ := Prod.mk.inj (Option.some.inj hstep)
          obtain ⟨body, gs, rest, us, hbody, rfl, hus, rfl⟩ := ih _ (by omega) hscan rfl
          refine ⟨c :: body, _, rest, us, .self hquote hescape (Nat.not_lt.1 hcontrol) hbody, rfl,
            hus, ?_⟩
          rw [spoken_plain]
          rfl

/-! ### Bare words are read -/

theorem scan_word (seen : List Char) (s : Text) : scan (.word seen) s =
    (word? (seen.reverse ++ (s.takeWhile continuesWord).map CodePoint.standIn)).bind fun t =>
      (scan .between (s.dropWhile continuesWord)).map (t :: ·) := by
  induction s generalizing seen with
  | nil =>
    rw [scan, finish?, List.takeWhile_nil, List.map_nil, List.append_nil]
    cases word? seen.reverse <;> rfl
  | cons c s ih =>
    by_cases hc : continuesWord c = true
    · have hstep : step (.word seen) c = some ([], .word (c.standIn :: seen)) :=
        if_neg (by simpa [continuesWord] using hc)
      rw [scan_quiet hstep, ih, List.takeWhile_cons_of_pos hc, List.dropWhile_cons_of_pos hc,
        List.reverse_cons, List.append_assoc]
      rfl
    · have hstep : step (.word seen) c = (word? seen.reverse).map fun t =>
          (t :: (stepBetween c.standIn).1, (stepBetween c.standIn).2) :=
        if_pos (by simpa only [continuesWord, Bool.not_eq_true, Bool.not_eq_false'] using hc)
      rw [scan, hstep, List.takeWhile_cons_of_neg hc, List.dropWhile_cons_of_neg hc, List.map_nil,
        List.append_nil]
      cases word? seen.reverse with
      | none => rfl
      | some t =>
        show (scan _ s).map _ = ((scan _ s).map _).map _
        rw [Option.map_map]
        rfl

/-- A bare word goes on as long as it can. -/
theorem scan_bare (hs : s.head?.any continuesWord = true) : scan .between s =
    (word? ((s.takeWhile continuesWord).map CodePoint.standIn)).bind fun t =>
      (scan .between (s.dropWhile continuesWord)).map (t :: ·) := by
  cases s with
  | nil => exact nomatch hs
  | cons c s =>
    have hc : continuesWord c = true := hs
    have hstep : step .between c = some ([], .word [c.standIn]) := by
      obtain ⟨hquote, hgap, hmark⟩ : c.standIn ≠ '"' ∧ isGap c.standIn = false ∧
          mark? c.standIn = none := by simpa [continuesWord, and_assoc] using hc
      simp only [step, stepBetween, hquote, hgap, hmark, if_false, Bool.false_eq_true]
    rw [scan_quiet hstep, scan_word, List.takeWhile_cons_of_pos hc, List.dropWhile_cons_of_pos hc]
    rfl

/-- Characters that no bare word has: those that end it, and what stands for a half. -/
def foreign : List Char :=
  ['\ufffd', '"', ' ', '\t', '\n', '\r', '[', ']', '\x7b', '\x7d', ',', ':']

/-- A bare word ends before a quote, a blank or a mark. -/
theorem exists_of_not_continuesWord (hc : ¬continuesWord c = true) :
    ∃ d, c = .char d ∧ (d = '"' ∨ isGap d = true ∨ ∃ t, mark? d = some t) := by
  have hends : c.standIn = '"' ∨ isGap c.standIn = true ∨ (mark? c.standIn).isSome = true := by
    simpa only [continuesWord, Bool.not_eq_true, Bool.not_eq_false', Bool.or_eq_true,
      decide_eq_true_eq, or_assoc] using hc
  have hc : c = .char c.standIn :=
    eq_char_standIn (p := fun d => d = '"' ∨ isGap d = true ∨ (mark? d).isSome = true) hends
      (by decide)
  rw [Option.isSome_iff_exists] at hends
  exact ⟨c.standIn, hc, hends⟩

theorem mem_foreign_of_not_continuesWord {d : Char} (hd : ¬continuesWord (.char d) = true) :
    d ∈ foreign := by
  obtain ⟨e, he, hends⟩ := exists_of_not_continuesWord hd
  obtain rfl := CodePoint.char.inj he
  rcases hends with rfl | hgap | ⟨t, hmark⟩
  · decide
  · simp only [isGap, Bool.or_eq_true, beq_iff_eq] at hgap
    rcases hgap with ((rfl | rfl) | rfl) | rfl <;> decide
  · rw [mark?.eq_def] at hmark
    split at hmark
    case h_7 => exact nomatch hmark
    all_goals decide

theorem not_mem_of_isScalar {w : List Char} (h : IsScalar w v) : ∀ d ∈ foreign, d ∉ w := by
  have hname {w : List Char} (hw : foreign.all (fun d => !w.contains d) = true) :
      ∀ d ∈ foreign, d ∉ w := by
    simpa [List.all_eq_true] using hw
  cases h with
  | numeral hn _ =>
    have hforeign : foreign.all (fun d =>
        !d.isDigit && !List.contains ['-', '.', 'e', 'E', '+'] d) = true := by decide
    intro d hd
    have hd := List.all_eq_true.1 hforeign d hd
    rw [Bool.and_eq_true, Bool.not_eq_true', Bool.not_eq_true', List.contains_eq_mem,
      decide_eq_false_iff_not] at hd
    exact Numeral.not_mem_text hn hd.1 hd.2
  | _ => exact hname (by decide)

theorem ne_nil_of_isScalar {w : List Char} (h : IsScalar w v) : w ≠ [] := by
  cases h with
  | numeral hn _ =>
    rw [Numeral.text, Numeral.rest]
    simp [hn.whole.nonempty]
  | _ => decide

/-- The values of bare words are read. -/
theorem word?_eq_scalar {w : List Char} : word? w = some (.scalar v) ↔ IsScalar w v := by
  constructor
  · intro h
    rw [word?] at h
    split at h
    · next hw => cases h; exact hw ▸ .null
    split at h
    · next hw => cases h; exact hw ▸ .true
    split at h
    · next hw => cases h; exact hw ▸ .false
    split at h
    · next hw => cases h; exact hw ▸ .nan
    split at h
    · next hw => cases h; exact hw ▸ .infinity
    split at h
    · next hw => cases h; exact hw ▸ .negativeInfinity
    obtain ⟨n, hn, hshort, rfl, rfl⟩ := numberToken?_eq_scalar.1 h
    exact .numeral hn hshort
  · intro h
    cases h with
    | @numeral n hn hshort =>
      have hname {name : List Char} (hnone : number? name = none) : n.text ≠ name := by
        intro heq
        rw [← heq, number?_eq_some.2 ⟨n, hn, rfl, rfl⟩] at hnone
        exact nomatch hnone
      rw [word?, if_neg (hname rfl), if_neg (hname rfl), if_neg (hname rfl), if_neg (hname rfl),
        if_neg (hname rfl), if_neg (hname rfl)]
      exact numberToken?_eq_scalar.2 ⟨n, hn, hshort, rfl, rfl⟩
    | _ => rfl

/-- A bare word has a value unless it is an integer that is too long. -/
theorem exists_of_word? {w : List Char} (h : word? w = some t) :
    (∃ v, t = .scalar v ∧ IsScalar w v) ∨ ∃ digits, t = .longInteger digits := by
  have hnumber (h : numberToken? w = some t) :
      (∃ v, t = .scalar v) ∨ ∃ digits, t = .longInteger digits := by
    by_cases hle : integerDigits (if w.head? = some '-' then w.tail else w) ≤ digitLimit
    · rw [numberToken?, if_pos hle] at h
      obtain ⟨v, -, rfl⟩ := Option.map_eq_some_iff.1 h
      exact .inl ⟨v, rfl⟩
    · rw [numberToken?, if_neg hle] at h
      exact .inr ⟨_, (Option.some.inj h).symm⟩
  have hkind : (∃ v, t = .scalar v) ∨ ∃ digits, t = .longInteger digits := by
    have h := h
    rw [word?] at h
    split_ifs at h
    case neg => exact hnumber h
    all_goals exact .inl ⟨_, (Option.some.inj h).symm⟩
  refine hkind.imp_left ?_
  rintro ⟨v, rfl⟩
  exact ⟨v, rfl, word?_eq_scalar.1 h⟩

/-! ### Texts are read -/

theorem stepBetween_gap {d : Char} (h : isGap d = true) : stepBetween d = ([], .between) := by
  have hquote : d ≠ '"' := by
    rintro rfl
    exact nomatch h
  rw [stepBetween, if_neg hquote, if_pos h]

theorem stepBetween_mark {d : Char} (h : mark? d = some t) : stepBetween d = ([t], .between) := by
  rw [mark?.eq_def] at h
  split at h
  case h_7 => exact nomatch h
  all_goals
    cases h
    rfl

theorem map_standIn_ofChars (w : List Char) : (ofChars w).map CodePoint.standIn = w := by
  simp [ofChars, Function.comp_def, CodePoint.standIn]

theorem scan_of_spells (h : Spells s ts) : scan .between s = some ts := by
  induction h with
  | nil => rfl
  | @gap c _ _ hc _ ih =>
    have hstep : step .between (.char c) = some ([], .between) := congrArg some (stepBetween_gap hc)
    rwa [scan_quiet hstep]
  | mark hc _ ih => exact scan_eq_some.2 ⟨_, _, _, congrArg some (stepBetween_mark hc), ih, rfl⟩
  | text hbody _ ih =>
    rw [scan_quiet (b := .text [] none) rfl]
    exact scan_of_quotes hbody ih [] none
  | @bare w v s ts hw hend _ ih =>
    have hword : ∀ c ∈ ofChars w, continuesWord c = true := by
      intro c hc
      obtain ⟨d, hd, rfl⟩ := List.mem_map.1 hc
      by_contra hends
      exact not_mem_of_isScalar hw d (mem_foreign_of_not_continuesWord hends) hd
    obtain ⟨htake, hdrop⟩ := Text.span_append hword hend
    obtain ⟨d, w, rfl⟩ := List.exists_cons_of_ne_nil (ne_nil_of_isScalar hw)
    have hfirst : continuesWord (.char d) = true := hword (.char d) (List.mem_cons_self ..)
    rw [scan_bare (s := ofChars (d :: w) ++ s) hfirst, htake, hdrop, map_standIn_ofChars,
      word?_eq_scalar.2 hw, ih]
    rfl

theorem ofChars_map_standIn (hs : '\ufffd' ∉ s.map CodePoint.standIn) :
    ofChars (s.map CodePoint.standIn) = s := by
  rw [ofChars, List.map_map]
  refine (List.map_congr_left fun c hc => ?_).trans (List.map_id s)
  have hhalf : c.standIn ≠ '\ufffd' := fun heq => hs (heq ▸ List.mem_map_of_mem hc)
  exact (eq_char_standIn (p := (· ≠ '\ufffd')) hhalf (by simp)).symm

/-- What is read is spelled, unless it holds an integer that is too long. -/
theorem spells_of_scan (h : scan .between s = some ts)
    (hlong : ∀ digits, Token.longInteger digits ∉ ts) : Spells s ts := by
  -- A text or a bare word takes several code points at once, so the induction is on the length.
  induction hlength : s.length using Nat.strong_induction_on generalizing s ts with
  | _ k ih =>
  have hread (us : List Token) {rest : Text} {vs : List Token} (hlt : rest.length < k)
      (hts : ts = us ++ vs) (hrest : scan .between rest = some vs) : Spells rest vs :=
    ih _ hlt hrest (fun digits hmem => hlong digits (hts ▸ List.mem_append_right us hmem)) rfl
  cases s with
  | nil =>
    obtain rfl := Option.some.inj h
    exact .nil
  | cons c s =>
    rw [List.length_cons] at hlength
    by_cases hc : continuesWord c = true
    · rw [scan_bare (s := c :: s) hc] at h
      obtain ⟨t, ht, h⟩ := Option.bind_eq_some_iff.1 h
      obtain ⟨us, hus, rfl⟩ := Option.map_eq_some_iff.1 h
      obtain ⟨v, rfl, hv⟩ : ∃ v, t = .scalar v ∧ IsScalar _ v :=
        (exists_of_word? ht).resolve_right fun ⟨digits, ht⟩ =>
          hlong digits (ht ▸ List.mem_cons_self ..)
      have hword := ofChars_map_standIn (not_mem_of_isScalar hv '\ufffd' (by decide))
      have hend : ((c :: s).dropWhile continuesWord).head?.any continuesWord = false := by
        have hnot := List.head?_dropWhile_not continuesWord (c :: s)
        cases hhead : ((c :: s).dropWhile continuesWord).head? with
        | none => rfl
        | some d =>
          rw [hhead] at hnot
          exact hnot
      have hrest : Spells ((c :: s).dropWhile continuesWord) us := by
        refine hread [.scalar v] ?_ rfl hus
        rw [List.dropWhile_cons_of_pos hc]
        have := List.length_dropWhile_le continuesWord s
        omega
      have hspells := Spells.bare hv hend hrest
      rwa [hword, List.takeWhile_append_dropWhile] at hspells
    · obtain ⟨us, b, vs, hstep, hscan, rfl⟩ := scan_eq_some.1 h
      have hstep : stepBetween c.standIn = (us, b) := Option.some.inj hstep
      obtain ⟨d, rfl, rfl | hgap | ⟨t, hmark⟩⟩ := exists_of_not_continuesWord hc
      · obtain ⟨rfl, rfl⟩ := Prod.mk.inj hstep
        obtain ⟨body, gs, rest, us, hbody, rfl, hus, rfl⟩ := exists_quotes hscan
        refine .text hbody (hread [_] ?_ rfl hus)
        simp at hlength
        omega
      · obtain ⟨rfl, rfl⟩ := Prod.mk.inj ((stepBetween_gap hgap).symm.trans hstep)
        exact .gap hgap (hread [] (by omega) rfl hscan)
      · obtain ⟨rfl, rfl⟩ := Prod.mk.inj ((stepBetween_mark hmark).symm.trans hstep)
        exact .mark hmark (hread [t] (by omega) rfl hscan)

theorem step_longInteger (m m' : Machine) (digits : Nat) :
    m.step (.longInteger digits) ≠ .ok m' := by
  intro h
  rw [Machine.step.eq_def] at h
  split at h <;> contradiction

/-- Words with a value hold no integer that is too long. -/
theorem not_mem_of_run {m' : Machine} (h : m.run ts = .ok m') (digits : Nat) :
    Token.longInteger digits ∉ ts := by
  induction ts generalizing m with
  | nil => exact List.not_mem_nil
  | cons t ts ih =>
    obtain ⟨m₁, hstep, hrun⟩ := bind_eq_ok.1 ((run_cons m t ts).symm.trans h)
    refine List.not_mem_cons_of_ne_of_not_mem ?_ (ih hrun)
    rintro rfl
    exact step_longInteger m m₁ digits hstep

/-- **The reader reads JSON and nothing else.** A text has a value exactly if it is JSON for this
value. -/
theorem parse_eq_ok_iff : parse s = .ok v ↔ IsJson s v := by
  have hscan : parse s = .ok v ↔ ∃ ts, scan .between s = some ts ∧ ofTokens ts = .ok v :=
    read_eq_ok
  rw [hscan, IsJson]
  refine exists_congr fun ts => ?_
  rw [ofTokens_eq_ok]
  refine and_congr_left fun hv => ⟨fun hts => ?_, scan_of_spells⟩
  obtain ⟨m, hrun, -⟩ := bind_eq_ok.1 (ofTokens_eq_ok.2 hv)
  exact spells_of_scan hts (not_mem_of_run hrun)

end FirmwareBuild.Json
