import Whittle.Proofs.Edit.Erasing
import Whittle.Proofs.Scratch.Reading
import Whittle.Proofs.Text.Decoding
import Whittle.Standard

/-
  What editing a file does to the number of its bytes.

  Key definitions include:
    * `Charset.IsCharwise`
    * `SourceRules.erased`
    * `SourceRules.stripped`
    * `SourceRules.Cuts`
    * `bulk`
    * `endedLength`

  Main statements:
    * `Charset.isCharwise_standard`
    * `SourceRules.Cuts.bulk_le`
    * `SourceRules.Cuts.eq_of_bulk_le`
    * `SourceRules.Edits.endedLength_le`

  An edit decodes the bytes of a file, changes the text, and
  writes it in the same charset.  Decoding replaces carriage
  returns, so even an edit that erases nothing may change the
  bytes, but only where there are carriage returns.  How many
  bytes there are then is known for the charsets that write a
  text character by character.
-/

------------------------------------------------------------
-- Charsets That Write Character By Character
------------------------------------------------------------

namespace Whittle

namespace Codecs

theorem isCharwise_of_withAlias
    {codec : Codec}
    {name : String}
    (hNamed : withAlias? name = some codec) :
    codec.IsCharwise := by
  obtain ⟨a, hFind, rfl⟩ := Option.map_eq_some_iff.mp hNamed
  have hMem := List.mem_of_find?_eq_some hFind
  simp only [aliases, List.mem_cons, List.not_mem_nil,
    or_false] at hMem
  rcases hMem with rfl | rfl | rfl
  · exact Codec.isCharwise_utf8
  · exact Codec.isCharwise_latin1
  · exact Codec.isCharwise_ascii

theorem isCharwise_of_standardNamed
    {codec : Codec}
    {name : String}
    (hNamed : standardNamed? name = some codec) :
    codec.IsCharwise := by
  unfold standardNamed? at hNamed
  dsimp only at hNamed
  split at hNamed
  · cases hNamed
    exact Codec.isCharwise_utf8
  · rcases Option.or_eq_some_iff.mp hNamed with hPlain | ⟨_, hJoined⟩
    · exact isCharwise_of_withAlias hPlain
    · exact isCharwise_of_withAlias hJoined

end Codecs

namespace Charset

/- The codec of a charset, if it has one, is charwise. -/
def IsCharwise
    (charset : Charset) : Prop :=
  ∀ codec, charset = .known codec → codec.IsCharwise

variable {charset : Charset} {t : Text} {bs : Bytes}

theorem isCharwise_known
    {codec : Codec}
    (hCodec : codec.IsCharwise) :
    (known codec).IsCharwise := by
  intro codec' hSame
  cases hSame
  exact hCodec

/-
  Whatever a setting says about the charset, the codecs of the
  command line write a text character by character.
-/
theorem isCharwise_standard
    (v : Value) :
    (Codecs.standard.charset v).IsCharwise := by
  intro codec hKnown
  unfold Codecs.charset at hKnown
  split at hKnown
  · cases hKnown
    exact Codec.isCharwise_utf8
  · split at hKnown
    · cases hKnown
    · split at hKnown
      · cases hKnown
      · rename_i hNamed
        cases hKnown
        exact Codecs.isCharwise_of_standardNamed hNamed
  · cases hKnown

/- Bytes are decoded by a codec, and line ends unified then. -/
theorem decode_eq_ok_iff :
    charset.decode bs = .ok t ↔
      ∃ codec t₀, charset = .known codec ∧
        codec.decode? bs = some t₀ ∧ t₀.unifyLineEnds = t := by
  cases charset with
  | misnamed => simp [decode]
  | unknown => simp [decode]
  | known codec =>
      unfold decode
      cases hText : codec.decode? bs with
      | none => simp [hText]
      | some t₀ => simp [hText]

theorem encode_eq_ok_iff :
    charset.encode t = .ok bs ↔
      ∃ codec, charset = .known codec ∧
        codec.encode? t = some bs := by
  cases charset with
  | misnamed => simp [encode]
  | unknown => simp [encode]
  | known codec =>
      unfold encode
      cases hBytes : codec.encode? t with
      | none => simp [hBytes]
      | some bs => simp [hBytes]

/- What a text is written as can be decoded. -/
theorem IsCharwise.exists_decode_of_encode
    (hCharwise : charset.IsCharwise)
    (hEncode : charset.encode t = .ok bs) :
    ∃ t', charset.decode bs = .ok t' := by
  obtain ⟨codec, rfl, hBytes⟩ := encode_eq_ok_iff.mp hEncode
  obtain ⟨form?, hForms⟩ := hCharwise codec rfl
  exact ⟨_, decode_eq_ok_iff.mpr
    ⟨codec, t, rfl, hForms.decode_iff.mpr hBytes, rfl⟩⟩

/- What is left when characters are erased can be written. -/
theorem IsCharwise.exists_encode_of_sublist
    {t' : Text}
    (hCharwise : charset.IsCharwise)
    (hDecode : charset.decode bs = .ok t)
    (hSublist : t'.Sublist t) :
    ∃ bs', charset.encode t' = .ok bs' := by
  obtain ⟨codec, t₀, rfl, hText, rfl⟩ := decode_eq_ok_iff.mp hDecode
  obtain ⟨form?, hForms⟩ := hCharwise codec rfl
  obtain ⟨bs', hBytes⟩ :=
    hForms.exists_encode_of_sublist hText hSublist
  exact ⟨bs', encode_eq_ok_iff.mpr ⟨codec, rfl, hBytes⟩⟩

end Charset

end Whittle

------------------------------------------------------------
-- Edited Contents
------------------------------------------------------------

namespace Whittle

namespace SourceRules

/- Some contents without regions of their text. -/
def erased
    (r : SourceRules)
    (regions : List Region)
    (bs : Bytes) : Except Failure Bytes :=
  match r.charset.decode bs with
  | .error e => .error e
  | .ok t =>
      match eraseRegions t regions with
      | .error e => .error (.regions e)
      | .ok t => r.charset.encode t

/- Some contents without their blank lines. -/
def stripped
    (r : SourceRules)
    (bs : Bytes) : Except Failure Bytes :=
  match r.charset.decode bs with
  | .error e => .error e
  | .ok t => r.charset.encode (Text.withoutBlankLines t)

/- Some contents are what an edit of a text has led to. -/
def Rewrites
    (r : SourceRules)
    (P : Text → Text → Prop)
    (bs bs' : Bytes) : Prop :=
  ∃ t t', r.charset.decode bs = .ok t ∧ P t t' ∧ r.charset.encode t' = .ok bs'

/- Some contents are what is left when characters are erased. -/
def Cuts
    (r : SourceRules)
    (bs bs' : Bytes) : Prop :=
  r.Rewrites (fun t t' => t'.Sublist t) bs bs'

/-
  Some contents are what trials make of others: the same, or
  without some characters, or without their blank lines.
-/
def Edits
    (r : SourceRules)
    (bs bs' : Bytes) : Prop :=
  bs' = bs ∨ r.Cuts bs bs' ∨
    r.Rewrites (fun t t' => t' = t.withoutBlankLines) bs bs'

variable {r : SourceRules} {bs bs' : Bytes}

/- Erasing regions leaves characters out. -/
theorem cuts_of_erased
    {regions : List Region}
    (hErased : r.erased regions bs = .ok bs') :
    r.Cuts bs bs' := by
  unfold erased at hErased
  cases hDecode : r.charset.decode bs with
  | error e =>
      rw [hDecode] at hErased
      cases hErased
  | ok t =>
      rw [hDecode] at hErased
      dsimp only at hErased
      cases hErase : eraseRegions t regions with
      | error e =>
          rw [hErase] at hErased
          cases hErased
      | ok t' =>
          rw [hErase] at hErased
          exact ⟨t, t', hDecode, eraseRegions_sublist hErase,
            hErased⟩

/- Dropping blank lines is an edit. -/
theorem edits_of_stripped
    (hStripped : r.stripped bs = .ok bs') :
    r.Edits bs bs' := by
  unfold stripped at hStripped
  cases hDecode : r.charset.decode bs with
  | error e =>
      rw [hDecode] at hStripped
      cases hStripped
  | ok t =>
      rw [hDecode] at hStripped
      exact .inr (.inr ⟨t, _, hDecode, rfl, hStripped⟩)

/-
  An edit leads from the text that the old bytes write to the
  one that the new bytes write, character by character.
-/
theorem Rewrites.exists_texts
    {P : Text → Text → Prop}
    (hCharwise : r.charset.IsCharwise)
    (hRewrites : r.Rewrites P bs bs') :
    ∃ (codec : Codec) (form? : Char → Option Bytes)
        (t t' : Text),
      codec.HasForms form? ∧ codec.encode? t = some bs ∧
        P t.unifyLineEnds t' ∧ codec.encode? t' = some bs' := by
  obtain ⟨_, t', hDecode, hP, hEncode⟩ := hRewrites
  obtain ⟨codec, t, hKnown, hText, rfl⟩ :=
    Charset.decode_eq_ok_iff.mp hDecode
  obtain ⟨form?, hForms⟩ := hCharwise codec hKnown
  obtain ⟨codec', hKnown', hBytes⟩ :=
    Charset.encode_eq_ok_iff.mp hEncode
  cases hKnown.symm.trans hKnown'
  exact ⟨codec, form?, t, t', hForms, hForms.decode_iff.mp hText,
    hP, hBytes⟩

/- Contents are read, unless they have no text or no tree. -/
theorem decode_of_readTree
    {p : FilePath}
    {e : Failure}
    (hError : r.readTree p bs = .error e)
    (hOther : e ≠ .unparsable) :
    r.charset.decode bs = .error e := by
  unfold readTree at hError
  cases hDecode : r.charset.decode bs with
  | error e' =>
      rw [hDecode] at hError
      cases hError
      rfl
  | ok t =>
      rw [hDecode] at hError
      dsimp only at hError
      split at hError
      · cases hError
      · exact absurd (Except.error.inj hError).symm hOther

end SourceRules

end Whittle

------------------------------------------------------------
-- Bulk
------------------------------------------------------------

namespace Whittle

/- The number of bytes, carriage returns counted twice. -/
def bulk
    (bs : Bytes) : Nat :=
  bs.length + bs.count 13

namespace Codec

/- What a character adds to the bulk of its text. -/
def bulk
    (form? : Char → Option Bytes)
    (c : Char) : Nat :=
  width form? c + if c = '\r' then 1 else 0

namespace HasForms

variable {codec : Codec} {form? : Char → Option Bytes}

theorem bulk_pos
    (hForms : codec.HasForms form?)
    (c : Char) :
    0 < bulk form? c :=
  Nat.lt_of_lt_of_le (hForms.width_pos c) (Nat.le_add_right _ _)

/- A carriage return is replaced by a smaller character. -/
theorem bulk_newline_lt
    (hForms : codec.HasForms form?) :
    bulk form? '\n' < bulk form? '\r' := by
  unfold bulk
  rw [hForms.width_newline, hForms.width_carriageReturn]
  decide

theorem width_newline_le
    (hForms : codec.HasForms form?) :
    width form? '\n' ≤ width form? '\r' :=
  Nat.le_of_eq
    (hForms.width_newline.trans hForms.width_carriageReturn.symm)

/- The bulk of what a text is written as. -/
theorem bulk_of_encode
    {t : Text}
    {bs : Bytes}
    (hForms : codec.HasForms form?)
    (hEncode : codec.encode? t = some bs) :
    Whittle.bulk bs = weight (bulk form?) t := by
  have hSum :
      ∀ t : Text,
        weight (bulk form?) t =
          weight (width form?) t + t.count '\r' := by
    intro t
    induction t with
    | nil => rfl
    | cons c rest ih =>
        rw [weight_cons, weight_cons, ih, List.count_cons]
        unfold bulk
        by_cases hc : c = '\r'
        · simp only [hc, if_true, beq_self_eq_true]
          omega
        · simp only [hc, if_false, beq_iff_eq]
          omega
  unfold Whittle.bulk
  rw [hForms.length_of_encode hEncode,
    hForms.count_of_encode hEncode, hSum]

end HasForms

end Codec

namespace SourceRules

variable {r : SourceRules} {bs bs' : Bytes}

/- A cut does not add to the bulk of a file. -/
theorem Cuts.bulk_le
    (hCharwise : r.charset.IsCharwise)
    (hCuts : r.Cuts bs bs') :
    bulk bs' ≤ bulk bs := by
  obtain ⟨codec, form?, t, t', hForms, hOld, hSub, hNew⟩ :=
    Rewrites.exists_texts hCharwise hCuts
  rw [hForms.bulk_of_encode hOld, hForms.bulk_of_encode hNew]
  calc
    weight (Codec.bulk form?) t' ≤
        weight (Codec.bulk form?) t.unifyLineEnds :=
      weight_le_of_sublist hSub
    _ ≤ weight (Codec.bulk form?) t :=
      Text.weight_unifyLineEnds_le
        (Nat.le_of_lt hForms.bulk_newline_lt)

theorem Cuts.length_le
    (hCharwise : r.charset.IsCharwise)
    (hCuts : r.Cuts bs bs') :
    bs'.length ≤ bs.length := by
  obtain ⟨codec, form?, t, t', hForms, hOld, hSub, hNew⟩ :=
    Rewrites.exists_texts hCharwise hCuts
  rw [hForms.length_of_encode hOld, hForms.length_of_encode hNew]
  calc
    weight (Codec.width form?) t' ≤
        weight (Codec.width form?) t.unifyLineEnds :=
      weight_le_of_sublist hSub
    _ ≤ weight (Codec.width form?) t :=
      Text.weight_unifyLineEnds_le hForms.width_newline_le

theorem Cuts.eq_of_bulk_le
    (hCharwise : r.charset.IsCharwise)
    (hCuts : r.Cuts bs bs')
    (hLe : bulk bs ≤ bulk bs') :
    bs' = bs := by
  obtain ⟨codec, form?, t, t', hForms, hOld, hSub, hNew⟩ :=
    Rewrites.exists_texts hCharwise hCuts
  rw [hForms.bulk_of_encode hOld, hForms.bulk_of_encode hNew] at hLe
  have hEnd := hForms.bulk_newline_lt
  have hErased := weight_le_of_sublist (f := Codec.bulk form?) hSub
  have hUnified :=
    Text.weight_unifyLineEnds_le (t := t) (Nat.le_of_lt hEnd)
  have hSame : t.unifyLineEnds = t :=
    Text.eq_of_weight_unifyLineEnds hEnd (by omega)
  have hAll : t' = t.unifyLineEnds :=
    eq_of_weight_le hForms.bulk_pos hSub (by omega)
  rw [hAll, hSame, hOld] at hNew
  exact (Option.some.inj hNew).symm

end SourceRules

end Whittle

------------------------------------------------------------
-- Ended Length
------------------------------------------------------------

namespace Whittle

/- The number of bytes when the last line has a newline. -/
def endedLength
    (bs : Bytes) : Nat :=
  bs.length + unended 10 bs

/- The ended length of what a text is written as. -/
theorem Codec.HasForms.endedLength_of_encode
    {codec : Codec}
    {form? : Char → Option Bytes}
    {t : Text}
    {bs : Bytes}
    (hForms : codec.HasForms form?)
    (hEncode : codec.encode? t = some bs) :
    endedLength bs = weight (width form?) t + unended '\n' t := by
  unfold endedLength
  rw [hForms.length_of_encode hEncode,
    hForms.unended_of_encode hEncode]

/- Unifying line ends adds nothing to an ended text. -/
theorem Codec.HasForms.weight_add_unended_unifyLineEnds_le
    {codec : Codec}
    {form? : Char → Option Bytes}
    (hForms : codec.HasForms form?)
    (t : Text) :
    weight (width form?) t.unifyLineEnds +
        unended '\n' t.unifyLineEnds ≤
      weight (width form?) t + unended '\n' t := by
  have hLe :=
    Text.weight_unifyLineEnds_le (t := t) hForms.width_newline_le
  have hEnd := Text.unended_unifyLineEnds_le (t := t)
  omega

namespace SourceRules

variable {r : SourceRules} {bs bs' : Bytes}

/-
  An edit adds nothing to a file but a newline that is
  missing at its end.
-/
theorem Edits.endedLength_le
    (hCharwise : r.charset.IsCharwise)
    (hEdits : r.Edits bs bs') :
    endedLength bs' ≤ endedLength bs := by
  rcases hEdits with rfl | hCuts | hStrips
  · exact Nat.le_refl _
  · obtain ⟨codec, form?, t, t', hForms, hOld, hSub, hNew⟩ :=
      Rewrites.exists_texts hCharwise hCuts
    rw [hForms.endedLength_of_encode hOld,
      hForms.endedLength_of_encode hNew]
    exact Nat.le_trans
      (weight_add_unended_le hForms.width_pos hSub)
      (hForms.weight_add_unended_unifyLineEnds_le t)
  · obtain ⟨codec, form?, t, _, hForms, hOld, rfl, hNew⟩ :=
      Rewrites.exists_texts hCharwise hStrips
    have hStripped :=
      Text.weight_withoutBlankLines_le
        (f := Codec.width form?) (t := t.unifyLineEnds)
    have hLe := hForms.weight_add_unended_unifyLineEnds_le t
    rw [hForms.width_newline, Nat.mul_one] at hStripped
    rw [hForms.endedLength_of_encode hOld,
      hForms.endedLength_of_encode hNew,
      Text.unended_withoutBlankLines]
    omega

end SourceRules

end Whittle
