import Solverr.Lib.Split
import Solverr.PostForm.Build

/-!
# Form data as documented

`postData` is documented as an `application/x-www-form-urlencoded` string. Its fields
reach the form with every space turned into a plus sign (`sent_serialize`): the
percent-encoding of the format is undone, its plus sign is not.
-/

namespace Solverr.PostForm

open Solverr.Lib
open Solverr.Lib.Percent (unquote Spells Writes)
open Solverr.Lib.Html (Entities Field Form)

/-! ## The format -/

/-- A byte that the format leaves as it is. -/
def isBare (b : ℕ) : Bool :=
  Percent.isAlnum b || b == 0x2A || b == 0x2D || b == 0x2E || b == 0x5F

/-- A byte in the format: a space is a plus sign. -/
def formByte (b : ℕ) : Text :=
  if b = 0x20 then ['+'] else if isBare b then [Char.ofNat b] else Percent.escaped b

/-- A name or a value in the format. -/
def formText (s : Text) : Text := (Utf8.encode s).flatMap formByte

/-- A pair in the format. -/
def formPair (field : Text × Text) : Text := formText field.1 ++ '=' :: formText field.2

/-- Names and values in the format. -/
def serialize (fields : List (Text × Text)) : Text := ['&'].intercalate (fields.map formPair)

/-! ## What is read back -/

/-- A space as a plus sign. -/
def plus (c : Char) : Char := if c = ' ' then '+' else c

/-- A name or a value with its spaces as plus signs. -/
def plussed (s : Text) : Text := s.map plus

/-- The byte that a byte in the format is read as. -/
def readByte (b : ℕ) : ℕ := if b = 0x20 then 0x2B else b

theorem isBare_bare {b : ℕ} (h : isBare b = true) : b < 0x80 ∧ b ≠ 0x25 := by
  simp only [isBare, Percent.isAlnum, Bool.or_eq_true, Bool.and_eq_true, decide_eq_true_eq,
    beq_iff_eq] at h
  omega

theorem formByte_writes {b : ℕ} (h : b < 256) : Writes formByte b (readByte b) := by
  by_cases hspace : b = 0x20
  · subst hspace
    refine ⟨fun c hc => ?_, fun s => Percent.unquoteToBytes_cons (by decide) s⟩
    rw [List.mem_singleton.mp (show c ∈ ['+'] from hc)]
    decide
  · by_cases hbare : isBare b = true
    · have hwrites := Percent.bare_writes (isBare_bare hbare).1 (isBare_bare hbare).2
      refine ⟨?_, ?_⟩
      · rw [formByte, if_neg hspace, if_pos hbare]
        exact hwrites.ascii
      · rw [formByte, if_neg hspace, if_pos hbare, readByte, if_neg hspace]
        exact hwrites.reads
    · have hwrites := Percent.escaped_writes h
      refine ⟨?_, ?_⟩
      · rw [formByte, if_neg hspace, if_neg hbare]
        exact hwrites.ascii
      · rw [formByte, if_neg hspace, if_neg hbare, readByte, if_neg hspace]
        exact hwrites.reads

/-- A space is the only character with its byte. -/
theorem space_of_mem_encodeChar {c : Char} (h : 0x20 ∈ Utf8.encodeChar c) : c = ' ' := by
  have hn : c.toNat = 0x20 := by
    unfold Utf8.encodeChar at h
    dsimp only at h
    split at h
    next => exact (List.mem_singleton.mp h).symm
    next =>
      split at h
      next => simp at h; omega
      next =>
        split at h
        next => simp at h; omega
        next => simp at h; omega
  rw [← Char.ofNat_toNat c, hn]

theorem map_readByte_encode (s : Text) :
    (Utf8.encode s).map readByte = Utf8.encode (plussed s) := by
  induction s with
  | nil => rfl
  | cons c s ih =>
    have hchar : (Utf8.encodeChar c).map readByte = Utf8.encodeChar (plus c) := by
      by_cases hspace : c = ' '
      · subst hspace
        rfl
      · rw [plus, if_neg hspace]
        refine (List.map_congr_left fun b hb => ?_).trans (List.map_id _)
        have hne : b ≠ 0x20 := fun heq => hspace (space_of_mem_encodeChar (heq ▸ hb))
        exact if_neg hne
    show ((Utf8.encodeChar c ++ Utf8.encode s).map readByte) = _
    rw [List.map_append, hchar, ih]
    rfl

/-- **A text in the format is read as the text with its spaces as plus signs.** -/
theorem unquote_formText (s : Text) : unquote (formText s) = plussed s := by
  refine Spells.unquote_eq (Percent.spells_of_writes (fun b hb => ?_) (map_readByte_encode s))
  obtain ⟨c, -, hc⟩ := List.mem_flatMap.mp hb
  exact formByte_writes (Utf8.encodeChar_lt b hc)

/-- The delimiters of the format, and the question mark, are not left in a text. -/
theorem formText_chars (s : Text) : ∀ c ∈ formText s, c ≠ '&' ∧ c ≠ '=' ∧ c ≠ '?' := by
  have hbyte : ∀ b < 256, ∀ c ∈ formByte b, c ≠ '&' ∧ c ≠ '=' ∧ c ≠ '?' := by
    have hall : ∀ b < 256, (formByte b).all (fun c => c ≠ '&' && c ≠ '=' && c ≠ '?') = true := by
      decide +kernel
    intro b hb c hc
    simpa [and_assoc] using List.all_eq_true.mp (hall b hb) c hc
  intro c hc
  obtain ⟨b, hb, hc⟩ := List.mem_flatMap.mp hc
  obtain ⟨d, -, hd⟩ := List.mem_flatMap.mp hb
  exact hbyte b (Utf8.encodeChar_lt b hd) c hc

theorem meant_formPair (field : Text × Text) :
    meant (formPair field) = (plussed field.1, plussed field.2) := by
  have hname : '=' ∉ formText field.1 := fun h => (formText_chars _ _ h).2.1 rfl
  unfold meant formPair
  rw [Text.partition_append _ hname, unquote_formText, unquote_formText]

theorem queryString_serialize (fields : List (Text × Text)) :
    queryString (serialize fields) = serialize fields := by
  have hquestion : '?' ∉ serialize fields := by
    refine not_mem_intercalate (by decide) fun pair hpair => ?_
    obtain ⟨field, -, rfl⟩ := List.mem_map.mp hpair
    intro hmem
    rcases List.mem_append.mp hmem with hmem | hmem
    · exact (formText_chars _ _ hmem).2.2 rfl
    · rcases List.mem_cons.mp hmem with heq | hmem
      · exact absurd heq (by decide)
      · exact (formText_chars _ _ hmem).2.2 rfl
  unfold queryString
  split
  next heq => exact absurd (heq ▸ List.mem_cons_self) hquestion
  next => rfl

theorem plus_eq_plus {c : Char} (h : plus c ≠ '+') : plus c = c := by
  unfold plus at h ⊢
  split
  next hspace => exact absurd (if_pos hspace) h
  next => rfl

/-- A text without plus signs is not made from one with spaces. -/
theorem eq_of_plussed {s t : Text} (ht : '+' ∉ t) (h : plussed s = t) : s = t := by
  rw [← h]
  refine (List.map_id s).symm.trans (List.map_congr_left fun c hc => (plus_eq_plus ?_).symm)
  intro hplus
  exact ht (h ▸ hplus ▸ List.mem_map_of_mem hc)

theorem plussed_ne_submit {s : Text} (h : s ≠ "submit".toList) : plussed s ≠ "submit".toList :=
  fun heq => h (eq_of_plussed (by decide) heq)

/-- A text stays as it is exactly when there is no space in it. -/
theorem plussed_eq_self {s : Text} : plussed s = s ↔ ' ' ∉ s := by
  induction s with
  | nil => exact iff_of_true rfl List.not_mem_nil
  | cons c s ih =>
    have hchar : plus c = c ↔ ' ' ≠ c := by
      unfold plus
      split
      next h => exact iff_of_false (h ▸ by decide) fun hne => hne h.symm
      next h => exact iff_of_true rfl (Ne.symm h)
    rw [plussed, List.map_cons, List.cons.injEq, hchar, List.mem_cons, not_or]
    exact and_congr_right fun _ => ih

/-- **The fields of form data in the format** are the ones written, with every space
turned into a plus sign. -/
theorem sent_serialize {fields : List (Text × Text)} (hne : fields ≠ [])
    (hsubmit : ∀ field ∈ fields, field.1 ≠ "submit".toList) :
    sent (serialize fields) = fields.map fun field => (plussed field.1, plussed field.2) := by
  have hsplit : (serialize fields).splitOn '&' = fields.map formPair := by
    refine List.splitOn_intercalate _ (fun pair hpair => ?_) (by simpa using hne)
    obtain ⟨field, -, rfl⟩ := List.mem_map.mp hpair
    intro hmem
    rcases List.mem_append.mp hmem with hmem | hmem
    · exact (formText_chars _ _ hmem).1 rfl
    · rcases List.mem_cons.mp hmem with heq | hmem
      · exact absurd heq (by decide)
      · exact (formText_chars _ _ hmem).1 rfl
  unfold sent fieldsOf
  rw [queryString_serialize, hsplit, List.map_map]
  rw [show (meant ∘ formPair) = fun field => (plussed field.1, plussed field.2) from
    funext meant_formPair]
  refine List.filter_eq_self.mpr fun field hfield => ?_
  obtain ⟨field, hmem, rfl⟩ := List.mem_map.mp hfield
  rw [decide_eq_true_eq]
  exact plussed_ne_submit (hsubmit field hmem)

/-! ## What the server receives -/

/-- The fields that the browser has of a form for this data. -/
def received (ent : Entities) (url postData : Text) : List Field :=
  let document := Html.read ent (unquote (buildPostHtml url postData))
  document.forms.flatMap Form.fields ++ document.loose

theorem received_serialize {ent : Entities} {url : Text} {fields : List (Text × Text)}
    (hne : fields ≠ []) (hsubmit : ∀ field ∈ fields, field.1 ≠ "submit".toList) :
    received ent url (serialize fields) =
      fields.map fun field => fieldOf (plussed field.1, plussed field.2) := by
  unfold received
  dsimp only
  rw [unquote_buildPostHtml, read_page, sent_serialize hne hsubmit]
  simp

/-- **When the documented format is understood.** The fields that were written in it are the
ones in the form, in order, if and only if there is no space in them. -/
theorem serialize_received_iff {ent : Entities} {url : Text} {fields : List (Text × Text)}
    (hne : fields ≠ []) (hsubmit : ∀ field ∈ fields, field.1 ≠ "submit".toList) :
    received ent url (serialize fields) = fields.map fieldOf ↔
      ∀ field ∈ fields, ' ' ∉ field.1 ∧ ' ' ∉ field.2 := by
  rw [received_serialize hne hsubmit, List.map_inj_left]
  refine forall₂_congr fun field _ => ?_
  rw [← plussed_eq_self, ← plussed_eq_self]
  simp [fieldOf]

/-- Percent signs, ampersands and other letters are understood. -/
theorem serialize_received_iff_percent :
    received .few "https://host/".toList
        (serialize [("sale".toList, "100%".toList), ("q".toList, "a&b=é".toList)]) =
        [("sale".toList, "100%".toList), ("q".toList, "a&b=é".toList)].map fieldOf ↔
      ∀ field ∈ [("sale".toList, "100%".toList), ("q".toList, "a&b=é".toList)],
        ' ' ∉ field.1 ∧ ' ' ∉ field.2 :=
  serialize_received_iff (by decide) (by decide)

/-- A space arrives as a plus sign. -/
theorem space_received_as_plus : ¬∀ (ent : Entities) (url : Text) (fields : List (Text × Text)),
    fields ≠ [] → (∀ field ∈ fields, field.1 ≠ [] ∧ field.1 ≠ "submit".toList) →
    received ent url (serialize fields) = fields.map fieldOf := by
  intro h
  have hwords := h .few [] [("q".toList, "a b".toList)] (by decide) (by decide)
  rw [received_serialize (by decide) (by decide)] at hwords
  exact absurd hwords (by decide)

end Solverr.PostForm
