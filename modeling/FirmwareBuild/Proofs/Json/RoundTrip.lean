import FirmwareBuild.Json.Reader
import FirmwareBuild.Json.Writer
import FirmwareBuild.Proofs.Text.Whole
import Mathlib.Algebra.Group.Nat.Defs

/-! Reading what has been written.

Values that are made of texts, lists and objects are read back from the line that they are
written as. The two escapes of a pair are read as one character, so a text comes back joined, and
keys that are the same when they are joined make one field: `parse_print_of_rereads`. What is
made of whole texts with no key twice comes back as it was: `parse_print`. Values must not be
nested deeper than the reader goes. -/
namespace FirmwareBuild.Json

open Text (ofChars)

variable {m m' : Machine} {a b : Mode}

/-! ### Steps of the reader -/

/-- A code point that completes no word. -/
theorem run_quiet {c : CodePoint} (h : step a c = some ([], b)) (t : Text) :
    Reader.run ⟨a, m⟩ (c :: t) = Reader.run ⟨b, m⟩ t := by
  rw [Reader.run, List.foldlM_cons, Reader.step, h]
  rfl

/-- A code point that completes a word. -/
theorem run_word {c : CodePoint} {w : Token} (h : step a c = some ([w], b))
    (hm : m.step w = .ok m') (t : Text) :
    Reader.run ⟨a, m⟩ (c :: t) = Reader.run ⟨b, m'⟩ t := by
  have hrun : m.run [w] = .ok m' := by
    rw [Machine.run, List.foldlM_cons, hm]
    rfl
  rw [Reader.run, List.foldlM_cons, Reader.step, h]
  show (m.run [w] >>= fun m' => pure (⟨b, m'⟩ : Reader)) >>= _ = _
  rw [hrun]
  rfl

/-! ### Escapes -/

theorem hexValue?_hexDigit (n : Nat) : hexValue? (Text.hexDigit n) = some (n % 16) := by
  have hall : ∀ d < 16, hexValue? ("0123456789abcdef".toList.getD d '0') = some d := by decide
  exact hall (n % 16) (Nat.mod_lt _ (by decide))

/-- Digits of an escape that are not its last ones. -/
theorem run_hex (seen : Text) (pending : Option CodePoint) (w k v n : Nat) (t : Text) :
    Reader.run ⟨.code seen pending (w + (k + 1)) v, m⟩ (ofChars (Text.hex w n) ++ t) =
      Reader.run ⟨.code seen pending (k + 1) (v * 16 ^ w + n % 16 ^ w), m⟩ t := by
  induction w generalizing k n t with
  | zero => simp [Text.hex, ofChars, Nat.mod_one]
  | succ w ih =>
    have hdigit : step (.code seen pending (k + 1 + 1) (v * 16 ^ w + n / 16 % 16 ^ w))
        (.char (Text.hexDigit n)) =
        some ([], .code seen pending (k + 1) (v * 16 ^ (w + 1) + n % 16 ^ (w + 1))) := by
      have hvalue : 16 * (v * 16 ^ w + n / 16 % 16 ^ w) + n % 16 =
          v * 16 ^ (w + 1) + n % 16 ^ (w + 1) := by
        rw [Nat.pow_succ, Nat.mul_comm (16 ^ w) 16, Nat.mod_mul, Nat.mul_add, ← Nat.mul_assoc,
          ← Nat.mul_assoc, Nat.mul_comm v 16]
        omega
      simp only [step, CodePoint.standIn, hexValue?_hexDigit, Option.map_some]
      rw [if_neg (by omega), hvalue]
      rfl
    have hsplit : ofChars (Text.hex (w + 1) n) ++ t =
        ofChars (Text.hex w (n / 16)) ++ .char (Text.hexDigit n) :: t := by
      simp [Text.hex, ofChars]
    rw [hsplit, show w + 1 + (k + 1) = w + (k + 1 + 1) by omega, ih, run_quiet hdigit]

/-- The escape of one unit. -/
theorem run_unit (seen : Text) (pending : Option CodePoint) {n : Nat} (hn : n < 0x10000)
    (t : Text) :
    Reader.run ⟨.text seen pending, m⟩ (ofChars ('\\' :: 'u' :: Text.hex 4 n) ++ t) =
      Reader.run ⟨escaped seen pending (.ofNat n), m⟩ t := by
  have hlast : step (.code seen pending 1 (0 * 16 ^ 3 + n / 16 % 16 ^ 3))
      (.char (Text.hexDigit n)) = some ([], escaped seen pending (.ofNat n)) := by
    simp only [step, CodePoint.standIn, hexValue?_hexDigit, Option.map_some]
    rw [if_pos (Nat.le_refl 1), show 16 * (0 * 16 ^ 3 + n / 16 % 16 ^ 3) + n % 16 = n by omega]
  have hsplit : ofChars ('\\' :: 'u' :: Text.hex 4 n) ++ t =
      .char '\\' :: .char 'u' ::
        (ofChars (Text.hex 3 (n / 16)) ++ .char (Text.hexDigit n) :: t) := by
    simp [Text.hex, ofChars]
  rw [hsplit, run_quiet (b := .escape seen pending) rfl,
    run_quiet (b := .code seen pending 4 0) rfl, run_hex seen pending 3 0 0 (n / 16),
    run_quiet hlast]

/-! ### Texts -/

/-- What is read of a text, last first, with the code point of the last escape. -/
def Mode.shown : Mode → Text
  | .text seen pending => pending.toList ++ seen
  | _ => []

/-- Reading code points comes to a text that has one more of them. -/
def Gains (m : Machine) (a : Mode) (cs : List Char) (c : CodePoint) : Prop :=
  ∃ seen pending, (∀ t, Reader.run ⟨a, m⟩ (ofChars cs ++ t) =
      Reader.run ⟨.text seen pending, m⟩ t) ∧
    pending.toList ++ seen = c :: a.shown ∧ ∀ p ∈ pending, p = c

variable {seen : Text} {pending : Option CodePoint} {c : CodePoint}

/-- An escape of one letter. -/
theorem gains_letter {letter d : Char} (hu : (letter == 'u') = false)
    (h : escape? letter = some d) : Gains m (.text seen pending) ['\\', letter] (.char d) := by
  refine ⟨.char d :: (pending.toList ++ seen), none, fun t => ?_, rfl, nofun⟩
  have hletter : step (.escape seen pending) (.char letter) =
      some ([], .text (.char d :: (pending.toList ++ seen)) none) := by
    have hne : (CodePoint.char letter = .char 'u') = False := by
      simpa using hu
    simp only [step, hne, if_false, CodePoint.standIn, h, Option.map_some]
  show Reader.run _ (.char '\\' :: .char letter :: t) = _
  rw [run_quiet (b := .escape seen pending) rfl, run_quiet hletter]

/-- A character that is written as itself. -/
theorem gains_self {d : Char} (hq : d ≠ '"') (hb : d ≠ '\\') (hd : ¬d.toNat < 0x20) :
    Gains m (.text seen pending) [d] (.char d) := by
  refine ⟨.char d :: (pending.toList ++ seen), none, fun t => ?_, rfl, nofun⟩
  refine run_quiet ?_ t
  rw [step, if_neg (by simpa using hb)]
  simp only [CodePoint.char.injEq, hq, if_false, CodePoint.toNat, hd]

/-- A code point that is written as the escape of one unit. -/
theorem gains_unit (hc : c.toNat < 0x10000) (hp : ∀ p ∈ pending, p.pair? c = none) :
    Gains m (.text seen pending) (unitEscapes c.toNat) c := by
  refine ⟨pending.toList ++ seen, some c, fun t => ?_, rfl, fun p hp => (Option.mem_some.1 hp).symm⟩
  have hpair : (pending.bind fun first => first.pair? c) = none := by
    cases pending with
    | none => rfl
    | some p => exact hp p rfl
  rw [unitEscapes, if_pos hc, run_unit seen pending hc, CodePoint.ofNat_toNat, escaped, hpair]

theorem ofNat_half {n : Nat} (hn : n < 0x800) : CodePoint.ofNat (0xd800 + n) = .half ⟨n, hn⟩ := by
  rw [CodePoint.ofNat, dif_pos (by omega), CodePoint.half.injEq, Fin.mk.injEq,
    Nat.add_sub_cancel_left]

/-- The halves of a pair make its character. -/
theorem pair?_ofNat {n : Nat} (hn : n < 0x100000) :
    (CodePoint.ofNat (0xd800 + n / 0x400)).pair? (.ofNat (0xdc00 + n % 0x400)) =
      some (.ofNat (0x10000 + n)) := by
  have hhigh : n / 0x400 < 0x400 := by omega
  have hlow : 0xdc00 + n % 0x400 = 0xd800 + (0x400 + n % 0x400) := by omega
  have hjoin : 0xfc00 + n / 0x400 * 0x400 + (0x400 + n % 0x400) = 0x10000 + n := by omega
  rw [hlow, ofNat_half (by omega), ofNat_half (by omega), CodePoint.pair?,
    if_pos ⟨hhigh, Nat.le_add_right ..⟩, hjoin, CodePoint.ofNat, dif_neg (by omega)]

/-- A character that is written as the escapes of a pair. -/
theorem gains_pair (hc : 0x10000 ≤ c.toNat) (hlt : c.toNat < 0x110000) :
    Gains m (.text seen pending) (unitEscapes c.toNat) c := by
  refine ⟨c :: (pending.toList ++ seen), none, fun t => ?_, rfl, nofun⟩
  obtain ⟨n, hn⟩ : ∃ n, c.toNat = 0x10000 + n := ⟨_, (Nat.add_sub_cancel' hc).symm⟩
  have hhigh : n / 0x400 < 0x400 := by omega
  have hjoined : (CodePoint.ofNat (0xd800 + n / 0x400)).pair? (.ofNat (0xdc00 + n % 0x400)) =
      some c := by
    rw [pair?_ofNat (by omega), ← hn, CodePoint.ofNat_toNat]
  have hnone : (pending.bind fun first => first.pair? (.ofNat (0xd800 + n / 0x400))) = none := by
    cases pending with
    | none => rfl
    | some p =>
      refine CodePoint.pair?_eq_none_of_isFirstHalf ?_ p
      rw [ofNat_half (by omega), CodePoint.isFirstHalf]
      exact decide_eq_true hhigh
  have hsplit (hex more : List Char) (t : Text) :
      ofChars ('\\' :: 'u' :: hex ++ '\\' :: 'u' :: more) ++ t =
        ofChars ('\\' :: 'u' :: hex) ++ (ofChars ('\\' :: 'u' :: more) ++ t) := by
    simp [ofChars]
  rw [unitEscapes, if_neg (by omega), hn, Nat.add_sub_cancel_left, hsplit,
    run_unit seen pending (by omega), escaped, hnone]
  show Reader.run ⟨.text (pending.toList ++ seen) (some _), m⟩ _ = _
  rw [run_unit _ _ (by omega), escaped, Option.bind_some, hjoined]

/-- Every code point is read back, unless an escape before it makes a pair with it. -/
theorem gains_writeOne (hp : ∀ p ∈ pending, p.pair? c = none) :
    Gains m (.text seen pending) (writeOne c) c := by
  rw [writeOne.eq_def]
  split
  · next place =>
    refine gains_unit ?_ hp
    have := place.isLt
    simp only [CodePoint.toNat]
    omega
  · exact gains_letter rfl rfl
  · exact gains_letter rfl rfl
  · exact gains_letter rfl rfl
  · exact gains_letter rfl rfl
  · exact gains_letter rfl rfl
  · exact gains_letter rfl rfl
  · exact gains_letter rfl rfl
  · next d hq hb _ _ _ _ _ =>
    split
    · next hd => exact gains_self hq hb (by omega)
    · by_cases hd : (CodePoint.char d).toNat < 0x10000
      · exact gains_unit hd hp
      · exact gains_pair (Nat.le_of_not_lt hd) (CodePoint.toNat_lt _)

/-- A whole text between quotes is read back. -/
theorem run_body {s : Text} (hs : s.IsWhole) (seen : Text) (pending : Option CodePoint)
    (hp : ∀ p ∈ pending, ∀ c ∈ s.head?, p.pair? c = none) (t : Text) :
    ∃ seen' pending', Reader.run ⟨.text seen pending, m⟩ (ofChars (s.flatMap writeOne) ++ t) =
        Reader.run ⟨.text seen' pending', m⟩ t ∧
      pending'.toList ++ seen' = s.reverse ++ (pending.toList ++ seen) := by
  induction s generalizing seen pending with
  | nil => exact ⟨seen, pending, rfl, rfl⟩
  | cons c rest ih =>
    obtain ⟨hnext, hrest⟩ := List.isChain_cons.1 hs
    have hgains : Gains m (.text seen pending) (writeOne c) c :=
      gains_writeOne fun p hm => hp p hm c rfl
    obtain ⟨seen₁, pending₁, hone, hshown, hlast⟩ := hgains
    obtain ⟨seen₂, pending₂, hrun, hread⟩ := ih hrest seen₁ pending₁ fun p hm d hd =>
      hlast p hm ▸ hnext d hd
    refine ⟨seen₂, pending₂, ?_, ?_⟩
    · rw [List.flatMap_cons, ofChars, List.map_append, List.append_assoc]
      exact (hone _).trans hrun
    · rw [hread, hshown, List.reverse_cons, List.append_assoc]
      rfl

/-- The character of a pair is written as the halves are. -/
theorem writeOne_pair {a b c : CodePoint} (h : a.pair? b = some c) :
    writeOne c = writeOne a ++ writeOne b := by
  obtain ⟨high, low, rfl, rfl, hhigh, hlow, rfl⟩ := CodePoint.exists_of_pair?_eq_some h
  have hlt := low.isLt
  have hvalid : (0xfc00 + high.val * 0x400 + low.val).isValidChar := by
    simp only [Nat.isValidChar]
    omega
  have hn := CodePoint.toNat_charOfNat hvalid
  generalize Char.ofNat (0xfc00 + high.val * 0x400 + low.val) = d at hn
  have hne {e : Char} (he : e.toNat < 0x10000) : d ≠ e := by
    rintro rfl
    omega
  have hd : writeOne (.char d) = unitEscapes d.toNat := by
    rw [writeOne, if_neg (by omega)]
    all_goals exact hne (by decide)
  have hhalf (place : Fin 0x800) :
      writeOne (.half place) = '\\' :: 'u' :: Text.hex 4 (0xd800 + place.val) := by
    have := place.isLt
    show unitEscapes (0xd800 + place.val) = _
    rw [unitEscapes, if_pos (by omega)]
  have hdiv : (d.toNat - 0x10000) / 0x400 = high.val := by omega
  have hmod : 0xdc00 + (d.toNat - 0x10000) % 0x400 = 0xd800 + low.val := by omega
  rw [hd, hhalf, hhalf, unitEscapes, if_neg (by omega)]
  dsimp only
  rw [hdiv, hmod]

theorem writeText_joined (s : Text) : writeText s.joined = writeText s := by
  have hall : s.joined.flatMap writeOne = s.flatMap writeOne := by
    fun_induction Text.joined s with
    | case1 a b rest c hp ih =>
      rw [List.flatMap_cons, List.flatMap_cons, List.flatMap_cons, ih, writeOne_pair hp,
        List.append_assoc]
    | case2 a b rest hp ih => rw [List.flatMap_cons, ih, @List.flatMap_cons _ _ a (b :: rest)]
    | case3 s hs => rfl
  rw [writeText, hall, writeText]

/-- A text is read back joined. -/
theorem run_writeText {s : Text} (hm : m.step (.text s.joined) = .ok m') (t : Text) :
    Reader.run ⟨.between, m⟩ (ofChars (writeText s) ++ t) = Reader.run ⟨.between, m'⟩ t := by
  have hsplit : ofChars (writeText s) ++ t =
      .char '"' :: (ofChars (s.joined.flatMap writeOne) ++ .char '"' :: t) := by
    rw [← writeText_joined]
    simp [writeText, ofChars]
  obtain ⟨seen, pending, hrun, hread⟩ := run_body (m := m) s.isWhole_joined [] none
    (fun p hp => absurd hp (Option.not_mem_none p)) (.char '"' :: t)
  have hquote : step (.text seen pending) (.char '"') = some ([.text s.joined], .between) := by
    have hs : s.joined = (pending.toList ++ seen).reverse := by simp [hread]
    rw [hs]
    rfl
  rw [hsplit, run_quiet (b := .text [] none) rfl, hrun, run_word hquote hm]

/-! ### Values -/

/-- A field as it is written. -/
def given (f : Text × Json × Json) : Text × Json := (f.1, f.2.1)

/-- A field as it is read back. -/
def reread (f : Text × Json × Json) : Text × Json := (f.1.joined, f.2.2)

/-- What a value that is made of texts, nested at most so deep, is read back as. -/
inductive Rereads : Nat → Json → Json → Prop
  | text {n : Nat} (s : Text) : Rereads n (.text s) (.text s.joined)
  | list {n : Nat} {items : List (Json × Json)} (h : ∀ i ∈ items, Rereads n i.1 i.2) :
      Rereads (n + 1) (.list (items.map Prod.fst)) (.list (items.map Prod.snd))
  | object {n : Nat} {fields : List (Text × Json × Json)}
      (h : ∀ f ∈ fields, Rereads n f.2.1 f.2.2) :
      Rereads (n + 1) (.object (fields.map given)) (ofPairs (fields.map reread))

/-- Where a value may stand. -/
def Expect.IsOpen : Expect → Prop
  | .value | .itemOrEnd => True
  | _ => False

/-- A value is read back as another one wherever there are no more frames than a number. -/
def IsRead (n : Nat) (v w : Json) : Prop :=
  ∀ frames e d t, frames.length + n ≤ depthLimit → Expect.IsOpen e →
    Reader.run ⟨.between, ⟨frames, e⟩⟩ (ofChars (write compact d v) ++ t) =
      Reader.run ⟨.between, ⟨frames, .after w⟩⟩ t

variable {n d : Nat} {frames : List Frame}

/-- A word that begins a value. -/
theorem step_open {e : Expect} (he : e.IsOpen) {w : Token} (hw : w ≠ .closeList) :
    (⟨frames, e⟩ : Machine).step w = startValue frames w := by
  cases e with
  | value => rw [Machine.step.eq_def]
  | itemOrEnd =>
    cases w with
    | closeList => exact absurd rfl hw
    | _ => rw [Machine.step.eq_def]
  | _ => exact he.elim

theorem isRead_text (s : Text) : IsRead n (.text s) (.text s.joined) := by
  intro frames e d t _ he
  exact run_writeText (step_open he nofun) t

/-- The items behind the first one. -/
theorem run_items {items : List (Json × Json)} {done : List Json} {x : Json}
    (h : ∀ i ∈ items, IsRead n i.1 i.2) (hn : frames.length + (n + 1) ≤ depthLimit) (t : Text) :
    Reader.run ⟨.between, ⟨.list done :: frames, .after x⟩⟩
        (ofChars (writeItems compact d (items.map Prod.fst) ++ [']']) ++ t) =
      Reader.run ⟨.between,
        ⟨frames, .after (.list ((x :: done).reverse ++ items.map Prod.snd))⟩⟩ t := by
  induction items generalizing done x with
  | nil =>
    rw [List.map_nil, List.map_nil, List.append_nil]
    exact run_word (w := .closeList) rfl rfl t
  | cons i items ih =>
    have hsplit : ofChars (writeItems compact d ((i :: items).map Prod.fst) ++ [']']) ++ t =
        .char ',' :: .char ' ' :: (ofChars (write compact (d + 1) i.1) ++
          (ofChars (writeItems compact d (items.map Prod.fst) ++ [']']) ++ t)) := by
      simp [writeItems, compact, ofChars]
    have hi := h i (List.mem_cons_self ..) (.list (x :: done) :: frames) .value (d + 1)
      (ofChars (writeItems compact d (items.map Prod.fst) ++ [']']) ++ t) (by simp; omega) trivial
    rw [hsplit, run_word (w := .comma) rfl rfl, run_quiet (b := .between) rfl, hi,
      ih fun j hj => h j (List.mem_cons_of_mem _ hj)]
    simp

theorem isRead_list {items : List (Json × Json)} (h : ∀ i ∈ items, IsRead n i.1 i.2) :
    IsRead (n + 1) (.list (items.map Prod.fst)) (.list (items.map Prod.snd)) := by
  intro frames e d t hn he
  have hopen : (⟨frames, e⟩ : Machine).step .openList = .ok ⟨.list [] :: frames, .itemOrEnd⟩ := by
    rw [step_open (w := .openList) he nofun, startValue, openFrame, if_pos (by omega)]
  cases items with
  | nil =>
    show Reader.run _ (.char '[' :: .char ']' :: t) = _
    rw [run_word (w := .openList) rfl hopen, run_word (w := .closeList) rfl rfl]
    rfl
  | cons i items =>
    have hsplit : ofChars (write compact d (.list ((i :: items).map Prod.fst))) ++ t =
        .char '[' :: (ofChars (write compact (d + 1) i.1) ++
          (ofChars (writeItems compact d (items.map Prod.fst) ++ [']']) ++ t)) := by
      simp [write, compact, ofChars]
    have hi := h i (List.mem_cons_self ..) (.list [] :: frames) .itemOrEnd (d + 1)
      (ofChars (writeItems compact d (items.map Prod.fst) ++ [']']) ++ t) (by simp; omega) trivial
    rw [hsplit, run_word (w := .openList) rfl hopen, hi,
      run_items (fun j hj => h j (List.mem_cons_of_mem _ hj)) hn]
    rfl

/-- A field, wherever its key may stand. -/
theorem run_field {e : Expect} {done : List (Text × Json)} (f : Text × Json × Json)
    (he : (⟨frames, e⟩ : Machine).step (.text (reread f).1) =
      .ok ⟨frames, .colon done (reread f).1⟩)
    (hv : IsRead n f.2.1 f.2.2) (hn : frames.length + (n + 1) ≤ depthLimit) (t : Text) :
    Reader.run ⟨.between, ⟨frames, e⟩⟩ (ofChars (writeField compact d (given f)) ++ t) =
      Reader.run ⟨.between, ⟨.object done (reread f).1 :: frames, .after f.2.2⟩⟩ t := by
  have hsplit : ofChars (writeField compact d (given f)) ++ t =
      ofChars (writeText f.1) ++ (.char ':' :: .char ' ' ::
        (ofChars (write compact (d + 1) f.2.1) ++ t)) := by
    simp [writeField, ofChars, given]
  rw [hsplit, run_writeText he, run_word (w := .colon) rfl rfl, run_quiet (b := .between) rfl]
  exact hv (.object done (reread f).1 :: frames) .value (d + 1) t (by simp; omega) trivial

/-- The fields behind the first one. -/
theorem run_fields {fields : List (Text × Json × Json)} {done : List (Text × Json)} {key : Text}
    {v : Json} (h : ∀ f ∈ fields, IsRead n f.2.1 f.2.2) (hn : frames.length + (n + 1) ≤ depthLimit)
    (t : Text) :
    Reader.run ⟨.between, ⟨.object done key :: frames, .after v⟩⟩
        (ofChars (writeFields compact d (fields.map given) ++ ['\x7d']) ++ t) =
      Reader.run ⟨.between,
        ⟨frames, .after (ofPairs (((key, v) :: done).reverse ++ fields.map reread))⟩⟩ t := by
  induction fields generalizing done key v with
  | nil =>
    rw [List.map_nil, List.map_nil, List.append_nil]
    exact run_word (w := .closeObject) rfl rfl t
  | cons f fields ih =>
    have hsplit : ofChars (writeFields compact d ((f :: fields).map given) ++ ['\x7d']) ++ t =
        .char ',' :: .char ' ' :: (ofChars (writeField compact d (given f)) ++
          (ofChars (writeFields compact d (fields.map given) ++ ['\x7d']) ++ t)) := by
      simp [writeFields, compact, ofChars]
    have hf : Reader.run ⟨.between, ⟨frames, .key ((key, v) :: done)⟩⟩ _ = _ :=
      run_field (d := d) f rfl (h f (List.mem_cons_self ..)) hn
        (ofChars (writeFields compact d (fields.map given) ++ ['\x7d']) ++ t)
    rw [hsplit, run_word (w := .comma) rfl rfl, run_quiet (b := .between) rfl, hf,
      ih fun g hg => h g (List.mem_cons_of_mem _ hg)]
    simp [reread]

theorem isRead_object {fields : List (Text × Json × Json)}
    (h : ∀ f ∈ fields, IsRead n f.2.1 f.2.2) :
    IsRead (n + 1) (.object (fields.map given)) (ofPairs (fields.map reread)) := by
  intro frames e d t hn he
  have hopen : (⟨frames, e⟩ : Machine).step .openObject = .ok ⟨frames, .keyOrEnd⟩ := by
    rw [step_open (w := .openObject) he nofun, startValue, openFrame, if_pos (by omega)]
  cases fields with
  | nil =>
    show Reader.run _ (.char '\x7b' :: .char '\x7d' :: t) = _
    rw [run_word (w := .openObject) rfl hopen, run_word (w := .closeObject) rfl rfl]
    rfl
  | cons f fields =>
    have hsplit : ofChars (write compact d (.object ((f :: fields).map given))) ++ t =
        .char '\x7b' :: (ofChars (writeField compact d (given f)) ++
          (ofChars (writeFields compact d (fields.map given) ++ ['\x7d']) ++ t)) := by
      simp [write, compact, ofChars]
    have hf : Reader.run ⟨.between, ⟨frames, .keyOrEnd⟩⟩ _ = _ :=
      run_field (d := d) f rfl (h f (List.mem_cons_self ..)) hn
        (ofChars (writeFields compact d (fields.map given) ++ ['\x7d']) ++ t)
    rw [hsplit, run_word (w := .openObject) rfl hopen, hf,
      run_fields (fun g hg => h g (List.mem_cons_of_mem _ hg)) hn]
    rfl

theorem isRead_of_rereads {v w : Json} (h : Rereads n v w) : IsRead n v w := by
  induction h with
  | text s => exact isRead_text s
  | list _ ih => exact isRead_list ih
  | object _ ih => exact isRead_object ih

/-- **A value of texts is read back from the line that it is written as**, with its texts
joined. -/
theorem parse_print_of_rereads {v w : Json} (h : Rereads n v w) (hn : n ≤ depthLimit) :
    parse (v.print) = .ok w := by
  have hread := isRead_of_rereads h [] .value 0 [] (by simpa using hn) trivial
  have htext : (v.print : Text) = ofChars (write compact 0 v) ++ [] := by
    rw [List.append_nil, print, Text.ofString, String.toList_ofList]
  rw [parse, htext, Reader.start, Machine.start, hread]
  rfl

/-! ### Whole texts -/

/-- A value that is made of whole texts, nested at most so deep, with no key twice. -/
inductive IsTextual : Nat → Json → Prop
  | text {n s} (hs : s.IsWhole) : IsTextual n (.text s)
  | list {n items} (h : ∀ v ∈ items, IsTextual n v) : IsTextual (n + 1) (.list items)
  | object {n fields} (hkeys : (Entries.keys fields).Nodup)
      (hwhole : ∀ f ∈ fields, f.1.IsWhole) (h : ∀ f ∈ fields, IsTextual n f.2) :
      IsTextual (n + 1) (.object fields)

theorem rereads_of_isTextual {v : Json} (h : IsTextual n v) : Rereads n v v := by
  induction h with
  | @text n s hs =>
    have := Rereads.text (n := n) s
    rwa [Text.joined_of_isWhole hs] at this
  | @list n items _ ih =>
    have := @Rereads.list n (items.map fun v => (v, v)) (List.forall_mem_map.2 ih)
    rw [List.map_map, List.map_map] at this
    have hsame : items.map (Prod.fst ∘ fun v => (v, v)) = items := List.map_id' items
    rwa [hsame, show items.map (Prod.snd ∘ fun v => (v, v)) = items from hsame] at this
  | @object n fields hkeys hwhole _ ih =>
    have := @Rereads.object n (fields.map fun f => (f.1, f.2, f.2)) (List.forall_mem_map.2 ih)
    rw [List.map_map, List.map_map] at this
    have hgiven : fields.map (given ∘ fun f => (f.1, f.2, f.2)) = fields := List.map_id' fields
    have hreread : fields.map (reread ∘ fun f => (f.1, f.2, f.2)) = fields := by
      refine (List.map_congr_left fun f hf => ?_).trans (List.map_id' fields)
      show (f.1.joined, f.2) = f
      rw [Text.joined_of_isWhole (hwhole f hf)]
    rwa [hgiven, hreread, ofPairs, Entries.ofList_of_nodup hkeys] at this

/-- **A textual value is read back from the line that it is written as.** -/
theorem parse_print {v : Json} (h : IsTextual n v) (hn : n ≤ depthLimit) :
    parse (v.print) = .ok v := parse_print_of_rereads (rereads_of_isTextual h) hn

end FirmwareBuild.Json
