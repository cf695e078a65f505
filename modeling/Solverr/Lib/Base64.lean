import Mathlib.Data.Char
import Solverr.Lib.Text

/-!
# Base64

`base64.b64encode(bs).decode('ascii')`, three bytes a group, and `base64.b64decode(s)` of a
string as the machine that reads one character at a time. The machine is lenient: what is
neither a digit nor a pad it passes over, and it stops at the pads that fill up a group.

`decode_encode`: what was encoded is read back.
-/

namespace Solverr.Lib.Base64

/-- The digit for six bits. -/
def digit (n : ℕ) : Char :=
  if n < 26 then Char.ofNat ('A'.toNat + n)
  else if n < 52 then Char.ofNat ('a'.toNat + (n - 26))
  else if n < 62 then Char.ofNat ('0'.toNat + (n - 52))
  else if n = 62 then '+' else '/'

/-- The six bits of a digit. -/
def value (c : Char) : Option ℕ :=
  if 'A' ≤ c ∧ c ≤ 'Z' then some (c.toNat - 'A'.toNat)
  else if 'a' ≤ c ∧ c ≤ 'z' then some (c.toNat - 'a'.toNat + 26)
  else if '0' ≤ c ∧ c ≤ '9' then some (c.toNat - '0'.toNat + 52)
  else if c = '+' then some 62
  else if c = '/' then some 63
  else none

/-- `b64encode` -/
def encode : List UInt8 → Text
  | [] => []
  | [a] => [digit (a.toNat / 4), digit (a.toNat % 4 * 16), '=', '=']
  | [a, b] => [digit (a.toNat / 4), digit (a.toNat % 4 * 16 + b.toNat / 16),
      digit (b.toNat % 16 * 4), '=']
  | a :: b :: c :: rest => digit (a.toNat / 4) :: digit (a.toNat % 4 * 16 + b.toNat / 16) ::
      digit (b.toNat % 16 * 4 + c.toNat / 64) :: digit (c.toNat % 64) :: encode rest

/-- A group that was begun: the digits read, the bits that no byte has yet, and the pads. -/
structure Group where
  read : ℕ
  left : ℕ
  pads : ℕ

/-- Between groups. -/
def Group.fresh : Group := ⟨0, 0, 0⟩

/-- One more digit: the byte it completes, and the group that is left. -/
def Group.next (g : Group) (v : ℕ) : Option UInt8 × Group :=
  match g.read with
  | 0 => (none, ⟨1, v, 0⟩)
  | 1 => (some (.ofNat (g.left * 4 + v / 16)), ⟨2, v % 16, 0⟩)
  | 2 => (some (.ofNat (g.left * 16 + v / 4)), ⟨3, v % 4, 0⟩)
  | _ => (some (.ofNat (g.left * 64 + v)), .fresh)

/-- The characters that are left. It raises when they end within a group. -/
def decodeFrom : Group → Text → Option (List UInt8)
  | g, [] => if g.read = 0 then some [] else none
  | g, c :: rest =>
    if c = '=' then
      -- a pad counts from the third place of a group on
      if g.read < 2 then decodeFrom g rest
      else if 4 ≤ g.read + (g.pads + 1) then some []
      else decodeFrom { g with pads := g.pads + 1 } rest
    else
      match value c with
      | none => decodeFrom g rest
      | some v => (decodeFrom (g.next v).2 rest).map ((g.next v).1.toList ++ ·)

/-- `b64decode(s)`; a string that is not ASCII raises. -/
def decode (s : Text) : Option (List UInt8) :=
  if s.all fun c => c.toNat < 128 then decodeFrom .fresh s else none

/-! ## Reading back -/

theorem digit_spec : ∀ n, n < 64 →
    digit n ≠ '=' ∧ value (digit n) = some n ∧ (digit n).toNat < 128 := by
  decide +kernel

theorem decodeFrom_digit (g : Group) {n : ℕ} (hn : n < 64) (rest : Text) :
    decodeFrom g (digit n :: rest) =
      (decodeFrom (g.next n).2 rest).map ((g.next n).1.toList ++ ·) := by
  obtain ⟨hpad, hvalue, -⟩ := digit_spec n hn
  rw [decodeFrom, if_neg hpad, hvalue]

section Group

variable {v left : ℕ} (hv : v < 64) (a : UInt8) (rest : Text)
include hv

/-- The first digit of a group. -/
theorem decodeFrom_first : decodeFrom .fresh (digit v :: rest) = decodeFrom ⟨1, v, 0⟩ rest := by
  rw [decodeFrom_digit _ hv]
  show (decodeFrom ⟨1, v, 0⟩ rest).map (fun bs => bs) = _
  exact Option.map_id'

/-- The second digit completes the byte whose parts it and the first hold. -/
theorem decodeFrom_second (ha : left * 4 + v / 16 = a.toNat) :
    decodeFrom ⟨1, left, 0⟩ (digit v :: rest) =
      (decodeFrom ⟨2, v % 16, 0⟩ rest).map (a :: ·) := by
  rw [decodeFrom_digit _ hv]
  show (decodeFrom ⟨2, v % 16, 0⟩ rest).map (fun bs => UInt8.ofNat (left * 4 + v / 16) :: bs) = _
  rw [ha, UInt8.ofNat_toNat]

theorem decodeFrom_third (ha : left * 16 + v / 4 = a.toNat) :
    decodeFrom ⟨2, left, 0⟩ (digit v :: rest) =
      (decodeFrom ⟨3, v % 4, 0⟩ rest).map (a :: ·) := by
  rw [decodeFrom_digit _ hv]
  show (decodeFrom ⟨3, v % 4, 0⟩ rest).map (fun bs => UInt8.ofNat (left * 16 + v / 4) :: bs) = _
  rw [ha, UInt8.ofNat_toNat]

theorem decodeFrom_fourth (ha : left * 64 + v = a.toNat) :
    decodeFrom ⟨3, left, 0⟩ (digit v :: rest) = (decodeFrom .fresh rest).map (a :: ·) := by
  rw [decodeFrom_digit _ hv]
  show (decodeFrom .fresh rest).map (fun bs => UInt8.ofNat (left * 64 + v) :: bs) = _
  rw [ha, UInt8.ofNat_toNat]

end Group

theorem decodeFrom_encode (bs : List UInt8) : decodeFrom .fresh (encode bs) = some bs := by
  induction bs using encode.induct with
  | case1 => rfl
  | case2 a =>
    have ha : a.toNat < 256 := a.toNat_lt
    rw [encode, decodeFrom_first (by omega), decodeFrom_second (by omega) a _ (by omega)]
    rfl
  | case3 a b =>
    have ha : a.toNat < 256 := a.toNat_lt
    have hb : b.toNat < 256 := b.toNat_lt
    rw [encode, decodeFrom_first (by omega), decodeFrom_second (by omega) a _ (by omega),
      decodeFrom_third (by omega) b _ (by omega)]
    rfl
  | case4 a b c rest ih =>
    have ha : a.toNat < 256 := a.toNat_lt
    have hb : b.toNat < 256 := b.toNat_lt
    have hc : c.toNat < 256 := c.toNat_lt
    rw [encode, decodeFrom_first (by omega), decodeFrom_second (by omega) a _ (by omega),
      decodeFrom_third (by omega) b _ (by omega), decodeFrom_fourth (by omega) c _ (by omega), ih]
    rfl

theorem encode_ascii (bs : List UInt8) : ∀ c ∈ encode bs, c.toNat < 128 := by
  have hdigit : ∀ n, n < 64 → (digit n).toNat < 128 := fun n hn => (digit_spec n hn).2.2
  have hpad : '='.toNat < 128 := by decide
  induction bs using encode.induct with
  | case1 => exact List.forall_mem_nil _
  | case2 a =>
    have ha : a.toNat < 256 := a.toNat_lt
    simp only [encode, List.forall_mem_cons]
    exact ⟨hdigit _ (by omega), hdigit _ (by omega), hpad, hpad, List.forall_mem_nil _⟩
  | case3 a b =>
    have ha : a.toNat < 256 := a.toNat_lt
    have hb : b.toNat < 256 := b.toNat_lt
    simp only [encode, List.forall_mem_cons]
    exact ⟨hdigit _ (by omega), hdigit _ (by omega), hdigit _ (by omega), hpad,
      List.forall_mem_nil _⟩
  | case4 a b c rest ih =>
    have ha : a.toNat < 256 := a.toNat_lt
    have hb : b.toNat < 256 := b.toNat_lt
    have hc : c.toNat < 256 := c.toNat_lt
    simp only [encode, List.forall_mem_cons]
    exact ⟨hdigit _ (by omega), hdigit _ (by omega), hdigit _ (by omega), hdigit _ (by omega), ih⟩

/-- **What was encoded is read back.** -/
theorem decode_encode (bs : List UInt8) : decode (encode bs) = some bs := by
  have hascii : (encode bs).all (fun c => c.toNat < 128) = true := by
    simpa using encode_ascii bs
  rw [decode, if_pos hascii, decodeFrom_encode]

end Solverr.Lib.Base64
