import Mathlib.Data.Char
import Solverr.Lib.Text

/-!
# UTF-8

`str.encode('utf-8')`, and `bytes.decode('utf-8', 'replace')` as the machine that reads
one byte at a time. A byte is a number below 256. Where a byte cannot go on with the
character that was begun, that character is read as one U+FFFD and the byte is read
anew.

`decode_encode_append`: what was encoded is read back, whatever follows it.
-/

namespace Solverr.Lib

namespace Utf8

/-- The bytes of a character. -/
def encodeChar (c : Char) : List ℕ :=
  let n := c.toNat
  if n < 0x80 then [n]
  else if n < 0x800 then [0xC0 + n / 64, 0x80 + n % 64]
  else if n < 0x10000 then [0xE0 + n / 4096, 0x80 + n / 64 % 64, 0x80 + n % 64]
  else [0xF0 + n / 262144, 0x80 + n / 4096 % 64, 0x80 + n / 64 % 64, 0x80 + n % 64]

/-- `s.encode('utf-8')` -/
def encode (s : Text) : List ℕ := s.flatMap encodeChar

/-- U+FFFD -/
def replacement : Char := Char.ofNat 0xFFFD

/-- A character that was begun: how many bytes it is owed, the bits read so far, and the
least and the greatest byte that may come next. -/
structure Pending where
  owed : ℕ
  bits : ℕ
  low : ℕ
  high : ℕ

/-- What the first byte of a character is or begins. -/
def first (b : ℕ) : Char ⊕ Pending :=
  if b < 0x80 then .inl (Char.ofNat b)
  else if 0xC2 ≤ b ∧ b ≤ 0xDF then .inr ⟨1, b - 0xC0, 0x80, 0xBF⟩
  else if b = 0xE0 then .inr ⟨2, 0, 0xA0, 0xBF⟩
  else if b = 0xED then .inr ⟨2, 0xD, 0x80, 0x9F⟩
  else if 0xE1 ≤ b ∧ b ≤ 0xEF then .inr ⟨2, b - 0xE0, 0x80, 0xBF⟩
  else if b = 0xF0 then .inr ⟨3, 0, 0x90, 0xBF⟩
  else if 0xF1 ≤ b ∧ b ≤ 0xF3 then .inr ⟨3, b - 0xF0, 0x80, 0xBF⟩
  else if b = 0xF4 then .inr ⟨3, 4, 0x80, 0x8F⟩
  else .inl replacement

/-- What one more byte makes of a character that was begun. -/
def Pending.next (p : Pending) (b : ℕ) : Char ⊕ Pending :=
  let bits := p.bits * 64 + (b - 0x80)
  if p.owed = 1 then .inl (Char.ofNat bits) else .inr ⟨p.owed - 1, bits, 0x80, 0xBF⟩

/-- The bytes that are left, from between characters or within one. -/
def decodeFrom : Option Pending → List ℕ → Text
  | none, [] => []
  | some _, [] => [replacement]
  | none, b :: bs =>
    match first b with
    | .inl c => c :: decodeFrom none bs
    | .inr p => decodeFrom (some p) bs
  | some p, b :: bs =>
    if p.low ≤ b ∧ b ≤ p.high then
      match p.next b with
      | .inl c => c :: decodeFrom none bs
      | .inr p => decodeFrom (some p) bs
    else
      replacement ::
        match first b with
        | .inl c => c :: decodeFrom none bs
        | .inr p => decodeFrom (some p) bs

/-- `bs.decode('utf-8', 'replace')` -/
def decode (bs : List ℕ) : Text := decodeFrom none bs

/-! ## Reading back -/

section Steps

variable {b : ℕ} {bs : List ℕ}

theorem decodeFrom_inl {c : Char} (h : first b = .inl c) :
    decodeFrom none (b :: bs) = c :: decodeFrom none bs := by
  rw [decodeFrom, h]

theorem decodeFrom_inr {p : Pending} (h : first b = .inr p) :
    decodeFrom none (b :: bs) = decodeFrom (some p) bs := by
  rw [decodeFrom, h]

/-- A byte that goes on with the character. -/
theorem decodeFrom_more {p : Pending} (hlow : p.low ≤ b) (hhigh : b ≤ p.high)
    (howed : p.owed ≠ 1) : decodeFrom (some p) (b :: bs) =
      decodeFrom (some ⟨p.owed - 1, p.bits * 64 + (b - 0x80), 0x80, 0xBF⟩) bs := by
  rw [decodeFrom, if_pos ⟨hlow, hhigh⟩, Pending.next, if_neg howed]

/-- The last byte of the character. -/
theorem decodeFrom_last {p : Pending} (hlow : p.low ≤ b) (hhigh : b ≤ p.high)
    (howed : p.owed = 1) : decodeFrom (some p) (b :: bs) =
      Char.ofNat (p.bits * 64 + (b - 0x80)) :: decodeFrom none bs := by
  rw [decodeFrom, if_pos ⟨hlow, hhigh⟩, Pending.next, if_pos howed]

end Steps

/-- The code point of a character is no surrogate and below 0x110000. -/
theorem toNat_valid (c : Char) : c.toNat < 0xD800 ∨ 0xDFFF < c.toNat ∧ c.toNat < 0x110000 :=
  c.valid

theorem decode_two {n : ℕ} (hlow : 0x80 ≤ n) (hhigh : n < 0x800) (bs : List ℕ) :
    decodeFrom none ((0xC0 + n / 64) :: (0x80 + n % 64) :: bs) =
      Char.ofNat n :: decodeFrom none bs := by
  have hfirst : first (0xC0 + n / 64) = .inr ⟨1, n / 64, 0x80, 0xBF⟩ := by
    unfold first
    rw [if_neg (by omega), if_pos (by omega), Nat.add_sub_cancel_left]
  rw [decodeFrom_inr hfirst, decodeFrom_last (by dsimp only; omega) (by dsimp only; omega) rfl]
  have hbits : n / 64 * 64 + (0x80 + n % 64 - 0x80) = n := by omega
  exact congrArg (fun k => Char.ofNat k :: decodeFrom none bs) hbits

theorem first_three {n : ℕ} (hlow : 0x800 ≤ n) (hhigh : n < 0x10000)
    (hvalid : n < 0xD800 ∨ 0xDFFF < n) : ∃ low high,
      first (0xE0 + n / 4096) = .inr ⟨2, n / 4096, low, high⟩ ∧ low ≤ 0x80 + n / 64 % 64 ∧
        0x80 + n / 64 % 64 ≤ high := by
  unfold first
  rw [if_neg (by omega), if_neg (by omega)]
  by_cases hE0 : 0xE0 + n / 4096 = 0xE0
  · have hzero : n / 4096 = 0 := by omega
    refine ⟨0xA0, 0xBF, ?_, by omega, by omega⟩
    rw [if_pos hE0, hzero]
  · rw [if_neg hE0]
    by_cases hED : 0xE0 + n / 4096 = 0xED
    · have hthirteen : n / 4096 = 0xD := by omega
      refine ⟨0x80, 0x9F, ?_, by omega, by omega⟩
      rw [if_pos hED, hthirteen]
    · refine ⟨0x80, 0xBF, ?_, by omega, by omega⟩
      rw [if_neg hED, if_pos (by omega), Nat.add_sub_cancel_left]

theorem decode_three {n : ℕ} (hlow : 0x800 ≤ n) (hhigh : n < 0x10000)
    (hvalid : n < 0xD800 ∨ 0xDFFF < n) (bs : List ℕ) :
    decodeFrom none ((0xE0 + n / 4096) :: (0x80 + n / 64 % 64) :: (0x80 + n % 64) :: bs) =
      Char.ofNat n :: decodeFrom none bs := by
  obtain ⟨low, high, hfirst, hge, hle⟩ := first_three hlow hhigh hvalid
  rw [decodeFrom_inr hfirst, decodeFrom_more hge hle (by simp),
    decodeFrom_last (by dsimp only; omega) (by dsimp only; omega) rfl]
  have hbits :
      (n / 4096 * 64 + (0x80 + n / 64 % 64 - 0x80)) * 64 + (0x80 + n % 64 - 0x80) = n := by omega
  exact congrArg (fun k => Char.ofNat k :: decodeFrom none bs) hbits

theorem first_four {n : ℕ} (hlow : 0x10000 ≤ n) (hhigh : n < 0x110000) : ∃ low high,
    first (0xF0 + n / 262144) = .inr ⟨3, n / 262144, low, high⟩ ∧ low ≤ 0x80 + n / 4096 % 64 ∧
      0x80 + n / 4096 % 64 ≤ high := by
  unfold first
  rw [if_neg (by omega), if_neg (by omega), if_neg (by omega), if_neg (by omega),
    if_neg (by omega)]
  by_cases hF0 : 0xF0 + n / 262144 = 0xF0
  · have hzero : n / 262144 = 0 := by omega
    refine ⟨0x90, 0xBF, ?_, by omega, by omega⟩
    rw [if_pos hF0, hzero]
  · rw [if_neg hF0]
    by_cases hF4 : 0xF0 + n / 262144 = 0xF4
    · have hfour : n / 262144 = 4 := by omega
      refine ⟨0x80, 0x8F, ?_, by omega, by omega⟩
      rw [if_neg (by omega), if_pos hF4, hfour]
    · refine ⟨0x80, 0xBF, ?_, by omega, by omega⟩
      rw [if_pos (by omega), Nat.add_sub_cancel_left]

theorem decode_four {n : ℕ} (hlow : 0x10000 ≤ n) (hhigh : n < 0x110000) (bs : List ℕ) :
    decodeFrom none ((0xF0 + n / 262144) :: (0x80 + n / 4096 % 64) :: (0x80 + n / 64 % 64) ::
      (0x80 + n % 64) :: bs) = Char.ofNat n :: decodeFrom none bs := by
  obtain ⟨low, high, hfirst, hge, hle⟩ := first_four hlow hhigh
  rw [decodeFrom_inr hfirst, decodeFrom_more hge hle (by simp),
    decodeFrom_more (by dsimp only; omega) (by dsimp only; omega) (by simp),
    decodeFrom_last (by dsimp only; omega) (by dsimp only; omega) rfl]
  have hbits :
      ((n / 262144 * 64 + (0x80 + n / 4096 % 64 - 0x80)) * 64 + (0x80 + n / 64 % 64 - 0x80)) * 64 +
        (0x80 + n % 64 - 0x80) = n := by omega
  exact congrArg (fun k => Char.ofNat k :: decodeFrom none bs) hbits

/-- A character is read back from its bytes. -/
theorem decode_encodeChar_append (c : Char) (bs : List ℕ) :
    decode (encodeChar c ++ bs) = c :: decode bs := by
  have hvalid := toNat_valid c
  have hc : Char.ofNat c.toNat = c := Char.ofNat_toNat c
  unfold decode encodeChar
  dsimp only
  split
  next hone =>
    have hfirst : first c.toNat = .inl c := by
      unfold first
      rw [if_pos hone, hc]
    exact decodeFrom_inl hfirst
  next hone =>
    split
    next htwo => exact (decode_two (by omega) htwo bs).trans (by rw [hc])
    next htwo =>
      split
      next hthree => exact (decode_three (by omega) hthree (by omega) bs).trans (by rw [hc])
      next hthree => exact (decode_four (by omega) (by omega) bs).trans (by rw [hc])

/-- **What was encoded is read back**, whatever follows it. -/
theorem decode_encode_append (s : Text) (bs : List ℕ) :
    decode (encode s ++ bs) = s ++ decode bs := by
  induction s with
  | nil => rfl
  | cons c s ih =>
    rw [encode, List.flatMap_cons, List.append_assoc, decode_encodeChar_append, List.cons_append]
    exact congrArg (c :: ·) ih

theorem encode_append (a b : Text) : encode (a ++ b) = encode a ++ encode b :=
  List.flatMap_append

/-- ASCII text is its own bytes. -/
theorem encode_ascii {s : Text} (h : ∀ c ∈ s, c.toNat < 0x80) : encode s = s.map Char.toNat := by
  induction s with
  | nil => rfl
  | cons c s ih =>
    have hc : encodeChar c = [c.toNat] := by
      unfold encodeChar
      rw [if_pos (h c List.mem_cons_self)]
    rw [encode, List.flatMap_cons, hc, List.map_cons]
    exact congrArg (c.toNat :: ·) (ih fun d hd => h d (List.mem_cons_of_mem _ hd))

/-- Bytes are below 256. -/
theorem encodeChar_lt {c : Char} : ∀ b ∈ encodeChar c, b < 256 := by
  have hvalid := toNat_valid c
  unfold encodeChar
  dsimp only
  intro b hb
  split at hb
  next => simp at hb; omega
  next =>
    split at hb
    next => simp at hb; omega
    next =>
      split at hb
      next => simp at hb; omega
      next => simp at hb; omega

end Utf8

end Solverr.Lib
