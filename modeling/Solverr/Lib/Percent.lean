import Solverr.Lib.Utf8

/-!
# Percent-encoding

`urllib.parse.quote` and `unquote`. `unquote` decodes each run of ASCII on its own, with
the escapes in it; what is not ASCII stays.

`Spells d x` says that the ASCII text `d` is read as `x` wherever it stands. Texts that
spell are put together piece by piece, and `unquote` reads the whole as what they spell.
-/

namespace Solverr.Lib

open Utf8 (encode decode)

namespace Percent

/-- A digit of `'%02X'`. -/
def hexDigit (n : ℕ) : Char := Char.ofNat (if n < 10 then 48 + n else 55 + n)

/-- The value of a hexadecimal digit, of either case. -/
def hexValue (c : Char) : Option ℕ :=
  if '0' ≤ c ∧ c ≤ '9' then some (c.toNat - 48)
  else if 'A' ≤ c ∧ c ≤ 'F' then some (c.toNat - 55)
  else if 'a' ≤ c ∧ c ≤ 'f' then some (c.toNat - 87)
  else none

/-- `'%02X' % b`, after the percent sign. -/
def escaped (b : ℕ) : Text := ['%', hexDigit (b / 16), hexDigit (b % 16)]

/-- The letters and digits of ASCII. -/
def isAlnum (b : ℕ) : Bool :=
  (48 ≤ b && b ≤ 57) || (65 ≤ b && b ≤ 90) || (97 ≤ b && b ≤ 122)

/-- `_ALWAYS_SAFE` and the slash. -/
def isSafe (b : ℕ) : Bool :=
  isAlnum b || b == 0x5F || b == 0x2E || b == 0x2D || b == 0x7E || b == 0x2F

def quoteByte (b : ℕ) : Text := if isSafe b then [Char.ofNat b] else escaped b

/-- `quote(s)` -/
def quote (s : Text) : Text := (encode s).flatMap quoteByte

/-- `quote(s, safe='')` -/
def quoteAll (s : Text) : Text :=
  (encode s).flatMap fun b => if b = 0x2F then escaped b else quoteByte b

/-- `unquote_to_bytes(s)`, of ASCII text -/
def unquoteToBytes : Text → List ℕ
  | [] => []
  | c :: s =>
    if c = '%' then
      match s with
      | a :: b :: rest =>
        match hexValue a, hexValue b with
        | some high, some low => (16 * high + low) :: unquoteToBytes rest
        | _, _ => 0x25 :: unquoteToBytes (a :: b :: rest)
      | s => 0x25 :: unquoteToBytes s
    else c.toNat :: unquoteToBytes s

/-- The rest of a text, after a run of ASCII. -/
def unquoteRuns : Text → Text → Text
  | run, [] => decode (unquoteToBytes run)
  | run, c :: s =>
    if c.toNat < 0x80 then unquoteRuns (run ++ [c]) s
    else decode (unquoteToBytes run) ++ c :: unquoteRuns [] s

/-- `unquote(s)` -/
def unquote (s : Text) : Text := unquoteRuns [] s

theorem unquoteToBytes_cons {c : Char} (h : c ≠ '%') (s : Text) :
    unquoteToBytes (c :: s) = c.toNat :: unquoteToBytes s := by
  rcases s with _ | ⟨a, _ | ⟨b, s⟩⟩ <;> simp [unquoteToBytes, h]

theorem unquoteToBytes_escape {a b : Char} {high low : ℕ} (ha : hexValue a = some high)
    (hb : hexValue b = some low) (s : Text) :
    unquoteToBytes ('%' :: a :: b :: s) = (16 * high + low) :: unquoteToBytes s := by
  rw [unquoteToBytes, if_pos rfl, ha, hb]

/-! ## What a text spells -/

/-- The ASCII text is read as `x`, whatever follows it. -/
structure Spells (d x : Text) : Prop where
  ascii : ∀ c ∈ d, c.toNat < 0x80
  reads : ∀ s, unquoteToBytes (d ++ s) = encode x ++ unquoteToBytes s

theorem unquoteRuns_ascii : ∀ {run s : Text}, (∀ c ∈ s, c.toNat < 0x80) →
    unquoteRuns run s = decode (unquoteToBytes (run ++ s))
  | run, [], _ => by rw [unquoteRuns, List.append_nil]
  | run, c :: s, h => by
    rw [unquoteRuns, if_pos (h c List.mem_cons_self),
      unquoteRuns_ascii fun d hd => h d (List.mem_cons_of_mem _ hd), List.append_assoc]
    rfl

/-- **What is spelt is what is read.** -/
theorem Spells.unquote_eq {d x : Text} (h : Spells d x) : unquote d = x := by
  have hbytes : unquoteToBytes d = encode x := by
    have hreads := h.reads []
    rwa [List.append_nil, show unquoteToBytes [] = [] from rfl, List.append_nil] at hreads
  have hdecode := Utf8.decode_encode_append x []
  rw [List.append_nil, show decode [] = [] from rfl, List.append_nil] at hdecode
  rw [unquote, unquoteRuns_ascii h.ascii, List.nil_append, hbytes, hdecode]

namespace Spells

theorem nil : Spells [] [] := ⟨fun _ hmem => absurd hmem List.not_mem_nil, fun _ => rfl⟩

theorem append {d d' x x' : Text} (h : Spells d x) (h' : Spells d' x') :
    Spells (d ++ d') (x ++ x') := by
  refine ⟨fun c hmem => ?_, fun s => ?_⟩
  · rcases List.mem_append.mp hmem with hmem | hmem
    · exact h.ascii c hmem
    · exact h'.ascii c hmem
  · rw [List.append_assoc, h.reads, h'.reads, Utf8.encode_append, List.append_assoc]

/-- A character that is no percent sign spells itself. -/
theorem char {c : Char} (hascii : c.toNat < 0x80) (hpercent : c ≠ '%') : Spells [c] [c] := by
  have hone : ∀ d ∈ [c], d.toNat < 0x80 := fun d hmem => List.mem_singleton.mp hmem ▸ hascii
  refine ⟨hone, fun s => ?_⟩
  rw [Utf8.encode_ascii hone, List.singleton_append, unquoteToBytes_cons hpercent]
  rfl

/-- ASCII without a percent sign. -/
def isPlain (t : Text) : Bool := t.all fun c => c.toNat < 0x80 && c ≠ '%'

/-- Plain text spells itself. -/
theorem plain {t : Text} (h : isPlain t = true) : Spells t t := by
  induction t with
  | nil => exact nil
  | cons c t ih =>
    unfold isPlain at h ih
    rw [List.all_cons, Bool.and_eq_true] at h
    obtain ⟨hc, ht⟩ := h
    rw [Bool.and_eq_true, decide_eq_true_eq, decide_eq_true_eq] at hc
    exact (char hc.1 hc.2).append (ih ht)

/-- A text spells what its pieces do. -/
theorem flatMap {α : Type} {write read : α → Text} {xs : List α}
    (h : ∀ a ∈ xs, Spells (write a) (read a)) : Spells (xs.flatMap write) (xs.flatMap read) := by
  induction xs with
  | nil => exact nil
  | cons a xs ih =>
    rw [List.flatMap_cons, List.flatMap_cons]
    exact (h a List.mem_cons_self).append (ih fun b hb => h b (List.mem_cons_of_mem _ hb))

end Spells

/-! ## What is quoted -/

/-- A writing of bytes that is read back, byte by byte. -/
structure Writes (write : ℕ → Text) (b b' : ℕ) : Prop where
  ascii : ∀ c ∈ write b, c.toNat < 0x80
  reads : ∀ s, unquoteToBytes (write b ++ s) = b' :: unquoteToBytes s

theorem hexDigit_ascii : ∀ n < 16, (hexDigit n).toNat < 0x80 := by decide

theorem hexValue_hexDigit : ∀ n < 16, hexValue (hexDigit n) = some n := by decide

theorem toNat_ofNat : ∀ b < 0x80, (Char.ofNat b).toNat = b := by decide

theorem escaped_writes {b : ℕ} (h : b < 256) : Writes escaped b b := by
  have hhigh : b / 16 < 16 := by omega
  have hlow : b % 16 < 16 := by omega
  refine ⟨fun c hmem => ?_, fun s => ?_⟩
  · simp only [escaped, List.mem_cons, List.not_mem_nil, or_false] at hmem
    rcases hmem with rfl | rfl | rfl
    · decide
    · exact hexDigit_ascii _ hhigh
    · exact hexDigit_ascii _ hlow
  · simp only [escaped, List.cons_append, List.nil_append]
    rw [unquoteToBytes_escape (hexValue_hexDigit _ hhigh) (hexValue_hexDigit _ hlow),
      Nat.div_add_mod]

/-- A byte that is left as it is, which no percent sign is. -/
theorem bare_writes {b : ℕ} (h : b < 0x80) (hpercent : b ≠ 0x25) :
    Writes (fun b => [Char.ofNat b]) b b := by
  have hnat : (Char.ofNat b).toNat = b := toNat_ofNat b h
  refine ⟨fun c hmem => ?_, fun s => ?_⟩
  · rw [List.mem_singleton.mp hmem, hnat]
    exact h
  · have hne : Char.ofNat b ≠ '%' := fun heq => by
      rw [heq] at hnat
      exact hpercent hnat.symm
    rw [List.singleton_append, unquoteToBytes_cons hne, hnat]

/-- **What is written byte by byte spells the bytes.** -/
theorem spells_of_writes {write : ℕ → Text} {read : ℕ → ℕ} {bs : List ℕ} {x : Text}
    (h : ∀ b ∈ bs, Writes write b (read b)) (hx : bs.map read = encode x) :
    Spells (bs.flatMap write) x := by
  have hreads : ∀ s, unquoteToBytes (bs.flatMap write ++ s) = bs.map read ++ unquoteToBytes s := by
    clear hx
    induction bs with
    | nil => exact fun _ => rfl
    | cons b bs ih =>
      intro s
      rw [List.flatMap_cons, List.append_assoc, (h b List.mem_cons_self).reads,
        ih fun b' hb' => h b' (List.mem_cons_of_mem _ hb')]
      rfl
  refine ⟨fun c hmem => ?_, fun s => hx ▸ hreads s⟩
  obtain ⟨b, hb, hc⟩ := List.mem_flatMap.mp hmem
  exact (h b hb).ascii c hc

theorem isSafe_bare {b : ℕ} (h : isSafe b = true) : b < 0x80 ∧ b ≠ 0x25 := by
  simp only [isSafe, isAlnum, Bool.or_eq_true, Bool.and_eq_true, decide_eq_true_eq, beq_iff_eq] at h
  omega

/-- **What is quoted is read back.** -/
theorem quote_spells (x : Text) : Spells (quote x) x := by
  refine spells_of_writes (fun b hb => ?_) (List.map_id _)
  obtain ⟨c, -, hc⟩ := List.mem_flatMap.mp hb
  have hlt : b < 256 := Utf8.encodeChar_lt b hc
  by_cases hsafe : isSafe b = true
  · have hbare := bare_writes (isSafe_bare hsafe).1 (isSafe_bare hsafe).2
    refine ⟨?_, ?_⟩
    · rw [quoteByte, if_pos hsafe]
      exact hbare.ascii
    · rw [quoteByte, if_pos hsafe]
      exact hbare.reads
  · have hescaped := escaped_writes hlt
    refine ⟨?_, ?_⟩
    · rw [quoteByte, if_neg hsafe]
      exact hescaped.ascii
    · rw [quoteByte, if_neg hsafe]
      exact hescaped.reads

end Percent

end Solverr.Lib
