/-! Text as octets.

`scan` reads octets as a state machine: each item of its result is a character,
or nothing for a longest stretch of octets that starts no character. `decode?`
refuses a text with such a stretch, `decodeLossy` puts U+FFFD in its place. Both
give a text back from its octets: `decode?_encode` and `decodeLossy_encode`. -/
namespace FirmwareBuild.Text.Utf8

/-- Between characters, or inside one whose value so far is given together with the
number of octets to come and the bounds of the next one. -/
inductive State
  | ground
  | inside (value left lo hi : Nat)
deriving Repr, DecidableEq

/-- What an octet begins: a character, nothing, or a longer character. -/
def first (b : Nat) : List (Option Char) × State :=
  if b < 0x80 then ([some (Char.ofNat b)], .ground)
  else if b < 0xc2 then ([none], .ground)
  else if b < 0xe0 then ([], .inside (b - 0xc0) 1 0x80 0xbf)
  else if b = 0xe0 then ([], .inside 0 2 0xa0 0xbf)
  else if b = 0xed then ([], .inside 0xd 2 0x80 0x9f)
  else if b < 0xf0 then ([], .inside (b - 0xe0) 2 0x80 0xbf)
  else if b = 0xf0 then ([], .inside 0 3 0x90 0xbf)
  else if b < 0xf4 then ([], .inside (b - 0xf0) 3 0x80 0xbf)
  else if b = 0xf4 then ([], .inside 4 3 0x80 0x8f)
  else ([none], .ground)

def next : State → Nat → List (Option Char) × State
  | .ground, b => first b
  | .inside value left lo hi, b =>
    if lo ≤ b ∧ b ≤ hi then
      let value := value * 64 + (b - 0x80)
      if left ≤ 1 then ([some (Char.ofNat value)], .ground)
      else ([], .inside value (left - 1) 0x80 0xbf)
    else
      let (items, state) := first b
      (none :: items, state)

def scan : State → List UInt8 → List (Option Char)
  | .ground, [] => []
  | .inside .., [] => [none]
  | state, b :: rest =>
    let (items, state) := next state b.toNat
    items ++ scan state rest

def decode? (octets : List UInt8) : Option String :=
  ((scan .ground octets).mapM id).map String.ofList

def decodeLossy (octets : List UInt8) : String :=
  String.ofList ((scan .ground octets).map fun c => c.getD '\ufffd')

def encode (s : String) : List UInt8 := s.toList.flatMap String.utf8EncodeChar

theorem scan_cons (state : State) (b : UInt8) (rest : List UInt8) :
    scan state (b :: rest) = (next state b.toNat).1 ++ scan (next state b.toNat).2 rest := by
  cases state <;> rfl

theorem scan_lead {b : UInt8} {state : State} (h : first b.toNat = ([], state))
    (rest : List UInt8) : scan .ground (b :: rest) = scan state rest := by
  rw [scan_cons, next, h, List.nil_append]

theorem scan_inner {value left lo hi : Nat} {b : UInt8} (hl : 1 < left)
    (h : lo ≤ b.toNat ∧ b.toNat ≤ hi) (rest : List UInt8) :
    scan (.inside value left lo hi) (b :: rest) =
      scan (.inside (value * 64 + (b.toNat - 0x80)) (left - 1) 0x80 0xbf) rest := by
  rw [scan_cons, next, if_pos h, if_neg (by omega), List.nil_append]

theorem scan_last {value lo hi : Nat} {b : UInt8} (h : lo ≤ b.toNat ∧ b.toNat ≤ hi)
    (rest : List UInt8) :
    scan (.inside value 1 lo hi) (b :: rest) =
      some (Char.ofNat (value * 64 + (b.toNat - 0x80))) :: scan .ground rest := by
  rw [scan_cons, next, if_pos h, if_pos (Nat.le_refl 1)]
  rfl

/-- The octets of a character make up that character. -/
theorem scan_encodeChar (c : Char) (rest : List UInt8) :
    scan .ground (String.utf8EncodeChar c ++ rest) = some c :: scan .ground rest := by
  have valid : c.toNat < 0xd800 ∨ 0xdfff < c.toNat ∧ c.toNat < 0x110000 := c.valid
  have self : Char.ofNat c.toNat = c := Char.ofNat_toNat c
  unfold String.utf8EncodeChar
  simp only [show c.val.toNat = c.toNat from rfl]
  generalize c.toNat = n at *
  split
  · have b : (UInt8.ofNat n).toNat = n := by simp; omega
    rw [List.singleton_append, scan_cons, b, next, first, if_pos (by omega), self]
    rfl
  split
  · have b₁ : (UInt8.ofNat (n / 64 % 32 + 192)).toNat = n / 64 + 192 := by simp; omega
    have b₂ : (UInt8.ofNat (n % 64 + 128)).toNat = n % 64 + 128 := by simp; omega
    have lead : first (n / 64 + 192) = ([], .inside (n / 64) 1 0x80 0xbf) := by
      rw [first, if_neg (by omega), if_neg (by omega), if_pos (by omega), Nat.add_sub_cancel]
    simp only [List.cons_append, List.nil_append]
    rw [scan_lead (b₁ ▸ lead), scan_last (by omega), b₂,
      show n / 64 * 64 + (n % 64 + 128 - 0x80) = n by omega, self]
  split
  · have b₁ : (UInt8.ofNat (n / 4096 % 16 + 224)).toNat = n / 4096 + 224 := by simp; omega
    have b₂ : (UInt8.ofNat (n / 64 % 64 + 128)).toNat = n / 64 % 64 + 128 := by simp; omega
    have b₃ : (UInt8.ofNat (n % 64 + 128)).toNat = n % 64 + 128 := by simp; omega
    have lead : ∃ lo hi, first (n / 4096 + 224) = ([], .inside (n / 4096) 2 lo hi) ∧
        lo ≤ n / 64 % 64 + 128 ∧ n / 64 % 64 + 128 ≤ hi := by
      rw [first, if_neg (by omega), if_neg (by omega), if_neg (by omega)]
      split
      · exact ⟨0xa0, 0xbf, by rw [show n / 4096 = 0 by omega], by omega, by omega⟩
      split
      · exact ⟨0x80, 0x9f, by rw [show n / 4096 = 0xd by omega], by omega, by omega⟩
      rw [if_pos (by omega), Nat.add_sub_cancel]
      exact ⟨0x80, 0xbf, rfl, by omega, by omega⟩
    obtain ⟨lo, hi, lead, bounds⟩ := lead
    simp only [List.cons_append, List.nil_append]
    rw [scan_lead (b₁ ▸ lead), scan_inner (by omega) (by rw [b₂]; exact bounds),
      scan_last (by omega), b₂, b₃,
      show (n / 4096 * 64 + (n / 64 % 64 + 128 - 0x80)) * 64 + (n % 64 + 128 - 0x80) = n by omega,
      self]
  · have b₁ : (UInt8.ofNat (n / 262144 % 8 + 240)).toNat = n / 262144 + 240 := by simp; omega
    have b₂ : (UInt8.ofNat (n / 4096 % 64 + 128)).toNat = n / 4096 % 64 + 128 := by simp; omega
    have b₃ : (UInt8.ofNat (n / 64 % 64 + 128)).toNat = n / 64 % 64 + 128 := by simp; omega
    have b₄ : (UInt8.ofNat (n % 64 + 128)).toNat = n % 64 + 128 := by simp; omega
    have lead : ∃ lo hi, first (n / 262144 + 240) = ([], .inside (n / 262144) 3 lo hi) ∧
        lo ≤ n / 4096 % 64 + 128 ∧ n / 4096 % 64 + 128 ≤ hi := by
      rw [first, if_neg (by omega), if_neg (by omega), if_neg (by omega), if_neg (by omega),
        if_neg (by omega), if_neg (by omega)]
      split
      · exact ⟨0x90, 0xbf, by rw [show n / 262144 = 0 by omega], by omega, by omega⟩
      split
      · exact ⟨0x80, 0xbf, by rw [Nat.add_sub_cancel], by omega, by omega⟩
      rw [if_pos (by omega)]
      exact ⟨0x80, 0x8f, by rw [show n / 262144 = 4 by omega], by omega, by omega⟩
    obtain ⟨lo, hi, lead, bounds⟩ := lead
    simp only [List.cons_append, List.nil_append]
    rw [scan_lead (b₁ ▸ lead), scan_inner (by omega) (by rw [b₂]; exact bounds),
      scan_inner (by omega) (by omega), scan_last (by omega), b₂, b₃, b₄,
      show ((n / 262144 * 64 + (n / 4096 % 64 + 128 - 0x80)) * 64 + (n / 64 % 64 + 128 - 0x80)) *
        64 + (n % 64 + 128 - 0x80) = n by omega, self]

theorem scan_flatMap_encodeChar (cs : List Char) :
    scan .ground (cs.flatMap String.utf8EncodeChar) = cs.map some := by
  induction cs with
  | nil => rfl
  | cons c cs ih => rw [List.flatMap_cons, scan_encodeChar, ih, List.map_cons]

theorem decode?_encode (s : String) : decode? (encode s) = some s := by
  rw [decode?, encode, scan_flatMap_encodeChar]
  have : (s.toList.map some).mapM id = some s.toList := by
    generalize s.toList = cs
    induction cs with
    | nil => rfl
    | cons c cs ih => simp [ih]
  rw [this, Option.map_some, String.ofList_toList]

theorem decodeLossy_encode (s : String) : decodeLossy (encode s) = s := by
  rw [decodeLossy, encode, scan_flatMap_encodeChar]
  simp [Function.comp_def]

end FirmwareBuild.Text.Utf8
