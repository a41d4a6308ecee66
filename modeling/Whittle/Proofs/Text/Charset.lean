import Mathlib.Tactic.SplitIfs
import Whittle.Proofs.Text.Weight

/-
  Texts and the bytes that write them.

  Key definitions include:
    * `Codec.HasForms`
    * `Codec.IsCharwise`
    * `Codec.width`

  Main statements:
    * `Utf8.encode_of_decodeFrom`
    * `Codec.HasForms.length_of_encode`
    * `Codec.HasForms.count_of_encode`
    * `Codec.HasForms.unended_of_encode`
    * `Codec.HasForms.exists_encode_of_sublist`

  Many codecs write each character by bytes of its own, and
  read back just what they write.  What is known of bytes can
  then be shown of the characters that they write.
-/

------------------------------------------------------------
-- One Character In UTF-8
------------------------------------------------------------

namespace Whittle

namespace Utf8

theorem toNat_ofNat
    {n : Nat}
    (hValid : n < 0xD800 ∨ (0xDFFF < n ∧ n < 0x110000)) :
    (Char.ofNat n).val.toNat = n := by
  have hChar : n.isValidChar := hValid
  unfold Char.ofNat
  rw [dif_pos hChar]
  rfl

theorem continuation_succ
    {low high : UInt8}
    {bits need used code : Nat}
    {bs : Bytes}
    (hRead :
      continuation low high bits (need + 1) bs =
        (some code, used)) :
    ∃ b rest more,
      bs = b :: rest ∧ low.toNat ≤ b.toNat ∧
        b.toNat ≤ high.toNat ∧ used = more + 1 ∧
        continuation 0x80 0xBF
          (bits * 64 + (b.toNat - 0x80)) need rest =
            (some code, more) := by
  cases bs with
  | nil => cases hRead
  | cons b rest =>
      unfold continuation at hRead
      by_cases hIn : low ≤ b && b ≤ high
      · rw [if_pos hIn] at hRead
        simp only [Bool.and_eq_true, decide_eq_true_eq,
          UInt8.le_iff_toNat_le] at hIn
        obtain ⟨hCode, rfl⟩ := Prod.mk.inj hRead
        exact ⟨b, rest, _, rfl, hIn.1, hIn.2, rfl,
          Prod.ext hCode rfl⟩
      · rw [if_neg hIn] at hRead
        cases hRead

theorem continuation_zero
    {low high : UInt8}
    {bits used code : Nat}
    {bs : Bytes}
    (hRead :
      continuation low high bits 0 bs = (some code, used)) :
    code = bits ∧ used = 0 := by
  unfold continuation at hRead
  cases hRead
  exact ⟨rfl, rfl⟩

theorem leading?_cases
    {b low high : UInt8}
    {need bits : Nat}
    (hLeading : leading? b = some (need, low, high, bits)) :
    (need = 0 ∧ b.toNat < 0x80 ∧ bits = b.toNat) ∨
      (need = 1 ∧ 0xC2 ≤ b.toNat ∧ b.toNat < 0xE0 ∧
        bits = b.toNat - 0xC0 ∧ low = 0x80 ∧ high = 0xBF) ∨
      (need = 2 ∧ 0xE0 ≤ b.toNat ∧ b.toNat < 0xF0 ∧
        bits = b.toNat - 0xE0 ∧
        0x80 ≤ low.toNat ∧ high.toNat ≤ 0xBF ∧
        (b.toNat = 0xE0 → 0xA0 ≤ low.toNat) ∧
        (b.toNat = 0xED → high.toNat ≤ 0x9F)) ∨
      (need = 3 ∧ 0xF0 ≤ b.toNat ∧ b.toNat ≤ 0xF4 ∧
        bits = b.toNat - 0xF0 ∧
        0x80 ≤ low.toNat ∧ high.toNat ≤ 0xBF ∧
        (b.toNat = 0xF0 → 0x90 ≤ low.toNat) ∧
        (b.toNat = 0xF4 → high.toNat ≤ 0x8F)) := by
  unfold leading? at hLeading
  by_cases h80 : b < 0x80
  · rw [if_pos h80] at hLeading
    cases hLeading
    exact .inl ⟨rfl, UInt8.lt_iff_toNat_lt.mp h80, rfl⟩
  rw [if_neg h80] at hLeading
  by_cases hC2 : b < 0xC2
  · rw [if_pos hC2] at hLeading
    cases hLeading
  rw [if_neg hC2] at hLeading
  have hFrom : 0xC2 ≤ b.toNat :=
    Nat.le_of_not_lt fun h => hC2 (UInt8.lt_iff_toNat_lt.mpr h)
  by_cases hE0 : b < 0xE0
  · rw [if_pos hE0] at hLeading
    cases hLeading
    exact .inr (.inl ⟨rfl, hFrom, UInt8.lt_iff_toNat_lt.mp hE0,
      rfl, rfl, rfl⟩)
  rw [if_neg hE0] at hLeading
  have hFrom' : 0xE0 ≤ b.toNat :=
    Nat.le_of_not_lt fun h => hE0 (UInt8.lt_iff_toNat_lt.mpr h)
  by_cases hIsE0 : b = 0xE0
  · subst hIsE0
    cases hLeading
    exact .inr (.inr (.inl (by decide)))
  rw [if_neg hIsE0] at hLeading
  by_cases hIsED : b = 0xED
  · subst hIsED
    cases hLeading
    exact .inr (.inr (.inl (by decide)))
  rw [if_neg hIsED] at hLeading
  have hNotE0 : b.toNat ≠ 0xE0 :=
    fun h => hIsE0 (UInt8.toNat_inj.mp h)
  have hNotED : b.toNat ≠ 0xED :=
    fun h => hIsED (UInt8.toNat_inj.mp h)
  by_cases hF0 : b < 0xF0
  · rw [if_pos hF0] at hLeading
    cases hLeading
    exact .inr (.inr (.inl ⟨rfl, hFrom',
      UInt8.lt_iff_toNat_lt.mp hF0, rfl, by decide, by decide,
      fun h => absurd h hNotE0, fun h => absurd h hNotED⟩))
  rw [if_neg hF0] at hLeading
  have hFrom'' : 0xF0 ≤ b.toNat :=
    Nat.le_of_not_lt fun h => hF0 (UInt8.lt_iff_toNat_lt.mpr h)
  by_cases hIsF0 : b = 0xF0
  · subst hIsF0
    cases hLeading
    exact .inr (.inr (.inr (by decide)))
  rw [if_neg hIsF0] at hLeading
  have hNotF0 : b.toNat ≠ 0xF0 :=
    fun h => hIsF0 (UInt8.toNat_inj.mp h)
  by_cases hF4 : b < 0xF4
  · rw [if_pos hF4] at hLeading
    cases hLeading
    have hBelow : b.toNat < 0xF4 := UInt8.lt_iff_toNat_lt.mp hF4
    exact .inr (.inr (.inr ⟨rfl, hFrom'', Nat.le_of_lt hBelow, rfl,
      by decide, by decide, fun h => absurd h hNotF0,
      fun h => absurd h (Nat.ne_of_lt hBelow)⟩))
  rw [if_neg hF4] at hLeading
  by_cases hIsF4 : b = 0xF4
  · subst hIsF4
    cases hLeading
    exact .inr (.inr (.inr (by decide)))
  rw [if_neg hIsF4] at hLeading
  cases hLeading

/- The bytes of a character by its number. -/
theorem utf8EncodeChar_ofNat
    {n : Nat}
    (hValid : n < 0xD800 ∨ (0xDFFF < n ∧ n < 0x110000)) :
    String.utf8EncodeChar (Char.ofNat n) =
      if n ≤ 127 then
        [UInt8.ofNat n]
      else if n ≤ 2047 then
        [UInt8.ofNat (n / 64 % 32 + 192),
          UInt8.ofNat (n % 64 + 128)]
      else if n ≤ 65535 then
        [UInt8.ofNat (n / 4096 % 16 + 224),
          UInt8.ofNat (n / 64 % 64 + 128),
          UInt8.ofNat (n % 64 + 128)]
      else
        [UInt8.ofNat (n / 262144 % 8 + 240),
          UInt8.ofNat (n / 4096 % 64 + 128),
          UInt8.ofNat (n / 64 % 64 + 128),
          UInt8.ofNat (n % 64 + 128)] := by
  unfold String.utf8EncodeChar
  rw [toNat_ofNat hValid]

theorem ofNat_eq
    {n : Nat}
    {b : UInt8}
    (hByte : n = b.toNat) :
    UInt8.ofNat n = b := by
  rw [hByte]
  exact UInt8.ofNat_toNat

/-
  The first character that is read is written as the bytes
  that it was read from.
-/
theorem encodeChar_of_first
    {b : UInt8}
    {rest : Bytes}
    {c : Char}
    {used : Nat}
    (hFirst : first b rest = (some c, used)) :
    String.utf8EncodeChar c ++ rest.drop used = b :: rest := by
  unfold first at hFirst
  cases hLeading : leading? b with
  | none =>
      rw [hLeading] at hFirst
      cases hFirst
  | some found =>
      obtain ⟨need, low, high, bits⟩ := found
      rw [hLeading] at hFirst
      dsimp only at hFirst
      rcases hRead : continuation low high bits need rest with
        ⟨_ | code, used'⟩
      · rw [hRead] at hFirst
        cases hFirst
      · rw [hRead] at hFirst
        cases hFirst
        rcases leading?_cases hLeading with
          ⟨rfl, hb, rfl⟩ |
          ⟨rfl, hb, hb', hBits, hLow, hHigh⟩ |
          ⟨rfl, hb, hb', hBits, hLow, hHigh, hFirst, hLast⟩ |
          ⟨rfl, hb, hb', hBits, hLow, hHigh, hFirst, hLast⟩
        · obtain ⟨rfl, rfl⟩ := continuation_zero hRead
          rw [utf8EncodeChar_ofNat (by omega), if_pos (by omega),
            ofNat_eq (b := b) rfl]
          rfl
        · obtain ⟨b₁, rest₁, _, rfl, h₁, h₁', rfl, hRead₁⟩ :=
            continuation_succ hRead
          obtain ⟨hCode, rfl⟩ := continuation_zero hRead₁
          rw [hLow] at h₁
          rw [hHigh] at h₁'
          have hLow₁ : 0x80 ≤ b₁.toNat := h₁
          have hHigh₁ : b₁.toNat ≤ 0xBF := h₁'
          rw [utf8EncodeChar_ofNat (by omega), if_neg (by omega),
            if_pos (by omega), ofNat_eq (b := b) (by omega),
            ofNat_eq (b := b₁) (by omega)]
          rfl
        · obtain ⟨b₁, rest₁, _, rfl, h₁, h₁', rfl, hRead₁⟩ :=
            continuation_succ hRead
          obtain ⟨b₂, rest₂, _, rfl, h₂, h₂', rfl, hRead₂⟩ :=
            continuation_succ hRead₁
          obtain ⟨hCode, rfl⟩ := continuation_zero hRead₂
          have hLow₂ : 0x80 ≤ b₂.toNat := h₂
          have hHigh₂ : b₂.toNat ≤ 0xBF := h₂'
          rw [utf8EncodeChar_ofNat (by omega), if_neg (by omega),
            if_neg (by omega), if_pos (by omega),
            ofNat_eq (b := b) (by omega),
            ofNat_eq (b := b₁) (by omega),
            ofNat_eq (b := b₂) (by omega)]
          rfl
        · obtain ⟨b₁, rest₁, _, rfl, h₁, h₁', rfl, hRead₁⟩ :=
            continuation_succ hRead
          obtain ⟨b₂, rest₂, _, rfl, h₂, h₂', rfl, hRead₂⟩ :=
            continuation_succ hRead₁
          obtain ⟨b₃, rest₃, _, rfl, h₃, h₃', rfl, hRead₃⟩ :=
            continuation_succ hRead₂
          obtain ⟨hCode, rfl⟩ := continuation_zero hRead₃
          have hLow₂ : 0x80 ≤ b₂.toNat := h₂
          have hHigh₂ : b₂.toNat ≤ 0xBF := h₂'
          have hLow₃ : 0x80 ≤ b₃.toNat := h₃
          have hHigh₃ : b₃.toNat ≤ 0xBF := h₃'
          rw [utf8EncodeChar_ofNat (by omega), if_neg (by omega),
            if_neg (by omega), if_neg (by omega),
            ofNat_eq (b := b) (by omega),
            ofNat_eq (b := b₁) (by omega),
            ofNat_eq (b := b₂) (by omega),
            ofNat_eq (b := b₃) (by omega)]
          rfl

/- A text is written as the bytes that it was decoded from. -/
theorem encode_of_decodeFrom
    {skip : Nat}
    {bs : Bytes}
    {t : Text}
    (hDecode : decodeFrom none skip bs = some t) :
    encode t = bs.drop skip := by
  fun_induction decodeFrom none skip bs generalizing t with
  | case1 skip =>
      cases hDecode
      exact List.drop_nil.symm
  | case2 skip b rest ih => exact ih hDecode
  | case3 b rest c used hFirst ih =>
      cases hRest : decodeFrom none used rest with
      | none =>
          rw [hRest] at hDecode
          cases hDecode
      | some t' =>
          rw [hRest] at hDecode
          cases hDecode
          have hBytes := encodeChar_of_first hFirst
          rw [← ih hRest] at hBytes
          exact hBytes
  | case4 => cases hDecode
  | case5 _ _ _ _ _ hNone => cases hNone

end Utf8

end Whittle

------------------------------------------------------------
-- Bytes Of One Character
------------------------------------------------------------

namespace Whittle

namespace Utf8

/- A character of UTF-8 that takes several bytes. -/
theorem le_of_mem_utf8EncodeChar
    {c : Char}
    {b : UInt8}
    (hWide : 0x80 ≤ c.toNat)
    (hByte : b ∈ String.utf8EncodeChar c) :
    0x80 ≤ b.toNat := by
  have hValue : ¬ c.val.toNat ≤ 127 := by
    change 0x80 ≤ c.val.toNat at hWide
    omega
  unfold String.utf8EncodeChar at hByte
  dsimp only at hByte
  rw [if_neg hValue] at hByte
  split at hByte
  · simp only [List.mem_cons, List.not_mem_nil, or_false] at hByte
    rcases hByte with rfl | rfl <;>
      rw [UInt8.toNat_ofNat'] <;> omega
  · split at hByte
    · simp only [List.mem_cons, List.not_mem_nil,
        or_false] at hByte
      rcases hByte with rfl | rfl | rfl <;>
        rw [UInt8.toNat_ofNat'] <;> omega
    · simp only [List.mem_cons, List.not_mem_nil,
        or_false] at hByte
      rcases hByte with rfl | rfl | rfl | rfl <;>
        rw [UInt8.toNat_ofNat'] <;> omega

/- A plain character is written as its number. -/
theorem utf8EncodeChar_plain
    {c : Char}
    (hPlain : c.toNat < 0x80) :
    String.utf8EncodeChar c = [c.toNat.toUInt8] := by
  have hValue : c.val.toNat ≤ 127 := by
    change c.val.toNat < 0x80 at hPlain
    omega
  unfold String.utf8EncodeChar
  dsimp only
  rw [if_pos hValue]
  rfl

end Utf8

end Whittle

------------------------------------------------------------
-- Codecs That Write Character By Character
------------------------------------------------------------

namespace Whittle

namespace Codec

/-
  A codec writes each character by bytes of its own, whatever
  stands around it.
    * `newline`, `carriageReturn` : the ends of lines have the
      forms that they have in ASCII.
    * `others` : other characters are written without these
      bytes, but not without any.
    * `decode_iff` : bytes write a text just if they are what
      the text is written as.
-/
structure HasForms
    (codec : Codec)
    (form? : Char → Option Bytes) : Prop where
  encode : ∀ t,
    codec.encode? t = (t.mapM form?).map List.flatten
  newline : form? '\n' = some [10]
  carriageReturn : form? '\r' = some [13]
  others : ∀ {c bs}, form? c = some bs → c ≠ '\n' → c ≠ '\r' →
    bs ≠ [] ∧ 10 ∉ bs ∧ 13 ∉ bs
  decode_iff : ∀ {bs t},
    codec.decode? bs = some t ↔ codec.encode? t = some bs

/- Characters have forms, whichever these are. -/
def IsCharwise
    (codec : Codec) : Prop :=
  ∃ form?, codec.HasForms form?

/-
  The number of bytes that write a character.  One without a
  form counts once.
-/
def width
    (form? : Char → Option Bytes)
    (c : Char) : Nat :=
  ((form? c).map List.length).getD 1

namespace HasForms

variable {codec : Codec} {form? : Char → Option Bytes}
variable {c : Char} {t : Text} {bs : Bytes}

theorem width_pos
    (hForms : codec.HasForms form?)
    (c : Char) :
    0 < width form? c := by
  unfold width
  cases hForm : form? c with
  | none => exact Nat.one_pos
  | some bs =>
      have hNe : bs ≠ [] := by
        rintro rfl
        by_cases hNewline : c = '\n'
        · subst hNewline
          cases hForms.newline.symm.trans hForm
        · by_cases hReturn : c = '\r'
          · subst hReturn
            cases hForms.carriageReturn.symm.trans hForm
          · exact (hForms.others hForm hNewline hReturn).1 rfl
      exact List.length_pos_of_ne_nil hNe

@[simp]
theorem width_newline
    (hForms : codec.HasForms form?) :
    width form? '\n' = 1 := by
  unfold width
  rw [hForms.newline]
  rfl

@[simp]
theorem width_carriageReturn
    (hForms : codec.HasForms form?) :
    width form? '\r' = 1 := by
  unfold width
  rw [hForms.carriageReturn]
  rfl

/- The only carriage return is the one that is written. -/
theorem count_of_form
    (hForms : codec.HasForms form?)
    (hForm : form? c = some bs) :
    bs.count 13 = if c = '\r' then 1 else 0 := by
  by_cases hReturn : c = '\r'
  · subst hReturn
    cases hForms.carriageReturn.symm.trans hForm
    rfl
  · rw [if_neg hReturn]
    apply List.count_eq_zero_of_not_mem
    by_cases hNewline : c = '\n'
    · subst hNewline
      cases hForms.newline.symm.trans hForm
      decide
    · exact (hForms.others hForm hNewline hReturn).2.2

/- Only a newline is written by bytes that end with one. -/
theorem getLast?_of_form
    (hForms : codec.HasForms form?)
    (hForm : form? c = some bs) :
    ∃ b, bs.getLast? = some b ∧ (b == 10) = (c == '\n') := by
  by_cases hNewline : c = '\n'
  · subst hNewline
    cases hForms.newline.symm.trans hForm
    exact ⟨10, rfl, rfl⟩
  · rw [beq_false_of_ne hNewline]
    by_cases hReturn : c = '\r'
    · subst hReturn
      cases hForms.carriageReturn.symm.trans hForm
      exact ⟨13, rfl, rfl⟩
    · obtain ⟨hSome, hNot, _⟩ :=
        hForms.others hForm hNewline hReturn
      refine ⟨bs.getLast hSome,
        List.getLast?_eq_some_getLast hSome, ?_⟩
      apply beq_false_of_ne
      intro hLast
      exact hNot (hLast ▸ List.getLast_mem hSome)

end HasForms

end Codec

end Whittle

------------------------------------------------------------
-- Texts
------------------------------------------------------------

namespace Whittle

namespace Codec

namespace HasForms

variable {codec : Codec} {form? : Char → Option Bytes}
variable {t : Text} {bs : Bytes}

theorem encode_nil
    (hForms : codec.HasForms form?) :
    codec.encode? [] = some [] := by
  rw [hForms.encode]
  rfl

theorem encode_cons_iff
    {c : Char}
    (hForms : codec.HasForms form?) :
    codec.encode? (c :: t) = some bs ↔
      ∃ first rest,
        form? c = some first ∧
          codec.encode? t = some rest ∧ bs = first ++ rest := by
  rw [hForms.encode, hForms.encode, List.mapM_cons]
  cases form? c with
  | none => simp
  | some first =>
      cases t.mapM form? with
      | none => simp
      | some forms => simp [eq_comm]

/-
  What holds of no bytes, and of more bytes whenever another
  character is written in front, holds of all that is written.
-/
theorem induction_of_encode
    {P : Text → Bytes → Prop}
    (hForms : codec.HasForms form?)
    (hNil : P [] [])
    (hCons : ∀ {c first t rest},
      form? c = some first → codec.encode? t = some rest →
        P t rest → P (c :: t) (first ++ rest))
    (hEncode : codec.encode? t = some bs) :
    P t bs := by
  induction t generalizing bs with
  | nil =>
      cases hForms.encode_nil.symm.trans hEncode
      exact hNil
  | cons c t ih =>
      obtain ⟨first, rest, hFirst, hRest, rfl⟩ :=
        hForms.encode_cons_iff.mp hEncode
      exact hCons hFirst hRest (ih hRest)

theorem length_of_encode
    (hForms : codec.HasForms form?)
    (hEncode : codec.encode? t = some bs) :
    bs.length = weight (width form?) t := by
  refine hForms.induction_of_encode
    (P := fun t bs => bs.length = weight (width form?) t)
    rfl ?_ hEncode
  intro c first t rest hFirst _ ih
  have hWidth : width form? c = first.length := by
    unfold width
    rw [hFirst]
    rfl
  rw [List.length_append, weight_cons, ih, hWidth]

/- The carriage returns of a text are those that are written. -/
theorem count_of_encode
    (hForms : codec.HasForms form?)
    (hEncode : codec.encode? t = some bs) :
    bs.count 13 = t.count '\r' := by
  refine hForms.induction_of_encode
    (P := fun t bs => bs.count 13 = t.count '\r') rfl ?_ hEncode
  intro c first t rest hFirst _ ih
  rw [List.count_append, hForms.count_of_form hFirst, ih,
    List.count_cons, Nat.add_comm]
  simp

/- Bytes end with a newline where the text does. -/
theorem unended_of_encode
    (hForms : codec.HasForms form?)
    (hEncode : codec.encode? t = some bs) :
    unended 10 bs = unended '\n' t := by
  have hLast :
      bs.getLast?.map (· == 10) = t.getLast?.map (· == '\n') := by
    refine hForms.induction_of_encode
      (P := fun t bs =>
        bs.getLast?.map (· == 10) = t.getLast?.map (· == '\n'))
      rfl ?_ hEncode
    intro c first t rest hFirst _ ih
    obtain ⟨b, hByte, hSame⟩ := hForms.getLast?_of_form hFirst
    rw [List.getLast?_append, List.getLast?_cons]
    cases hText : t.getLast? with
    | none =>
        rw [hText, Option.map_none, Option.map_eq_none_iff] at ih
        rw [ih, hByte]
        exact congrArg some hSame
    | some d =>
        rw [hText] at ih
        obtain ⟨b', hRest, hSame'⟩ := Option.map_eq_some_iff.mp ih
        rw [hRest]
        exact congrArg some hSame'
  unfold unended
  cases hBytes : bs.getLast? with
  | none =>
      rw [hBytes, Option.map_none, eq_comm,
        Option.map_eq_none_iff] at hLast
      rw [hLast]
      rfl
  | some b =>
      rw [hBytes] at hLast
      obtain ⟨d, hText, hSame⟩ :=
        Option.map_eq_some_iff.mp hLast.symm
      have hSame' : (d == '\n') = (b == 10) := hSame
      rw [hText, Option.all_some, Option.all_some, hSame']

/- A text can be written if each of its characters can be. -/
theorem exists_encode_iff
    (hForms : codec.HasForms form?) :
    (∃ bs, codec.encode? t = some bs) ↔
      ∀ c ∈ t, ∃ bs, form? c = some bs := by
  induction t with
  | nil => exact ⟨by simp, fun _ => ⟨[], hForms.encode_nil⟩⟩
  | cons c t ih =>
      rw [List.forall_mem_cons, ← ih]
      constructor
      · rintro ⟨bs, hEncode⟩
        obtain ⟨first, rest, hFirst, hRest, _⟩ :=
          hForms.encode_cons_iff.mp hEncode
        exact ⟨⟨first, hFirst⟩, rest, hRest⟩
      · rintro ⟨⟨first, hFirst⟩, rest, hRest⟩
        exact ⟨first ++ rest,
          hForms.encode_cons_iff.mpr
            ⟨first, rest, hFirst, hRest, rfl⟩⟩

end HasForms

end Codec

theorem Text.mem_of_mem_unifyLineEnds
    {c : Char}
    {t : Text}
    (hMem : c ∈ t.unifyLineEnds) :
    c = '\n' ∨ c ∈ t := by
  induction t using Text.unifyLineEnds.induct with
  | case1 => exact .inr hMem
  | case2 rest ih =>
      rw [unifyLineEnds, List.mem_cons] at hMem
      rcases hMem with rfl | hRest
      · exact .inl rfl
      · exact (ih hRest).imp_right fun hIn => by simp [hIn]
  | case3 d rest hPair ih =>
      rw [unifyLineEnds, List.mem_cons] at hMem
      · rcases hMem with rfl | hRest
        · split
          · exact .inl rfl
          · exact .inr (List.mem_cons_self)
        · exact (ih hRest).imp_right (List.mem_cons_of_mem d)
      · exact hPair

/-
  What is left of a text after characters are erased can be
  written in the charset that the text was read in.
-/
theorem Codec.HasForms.exists_encode_of_sublist
    {codec : Codec}
    {form? : Char → Option Bytes}
    {t t' : Text}
    {bs : Bytes}
    (hForms : codec.HasForms form?)
    (hDecode : codec.decode? bs = some t)
    (hSublist : t'.Sublist t.unifyLineEnds) :
    ∃ bs', codec.encode? t' = some bs' := by
  have hAll :=
    hForms.exists_encode_iff.mp ⟨bs, hForms.decode_iff.mp hDecode⟩
  refine hForms.exists_encode_iff.mpr fun c hc => ?_
  rcases Text.mem_of_mem_unifyLineEnds (hSublist.subset hc) with
    rfl | hOld
  · exact ⟨_, hForms.newline⟩
  · exact hAll c hOld

end Whittle
