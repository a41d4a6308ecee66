import Whittle.Proofs.Text.Charset

/-
  Reading back what is written, and decoding that never fails.

  Main statements:
    * `Utf8.first_encodeChar`
    * `decodeLenient_encode`
    * `Codec.hasForms_of_table`
    * `Codec.isCharwise_utf8`
    * `decodeLenient_append`
    * `mem_of_decodeLenient`

  UTF-8, Latin-1 and ASCII write character by character, and
  read back just what they write.  In UTF-8 a
  byte of ASCII ends the character before it, broken or not, so
  a text may be decoded line by line.
-/

------------------------------------------------------------
-- Reading Back
------------------------------------------------------------

namespace Whittle

namespace Utf8

theorem continuation_cons
    {low high b : UInt8}
    (hLow : low.toNat ≤ b.toNat)
    (hHigh : b.toNat ≤ high.toNat)
    (bits need : Nat)
    (rest : Bytes) :
    continuation low high bits (need + 1) (b :: rest) =
      ((continuation 0x80 0xBF (bits * 64 + (b.toNat - 0x80)) need
          rest).1,
        (continuation 0x80 0xBF (bits * 64 + (b.toNat - 0x80)) need
          rest).2 + 1) := by
  have hIn : (low ≤ b && b ≤ high) = true := by
    simp only [Bool.and_eq_true, decide_eq_true_eq,
      UInt8.le_iff_toNat_le]
    exact ⟨hLow, hHigh⟩
  rw [continuation, if_pos hIn]

theorem not_lt_of_le
    {b n : UInt8}
    {least : Nat}
    (hFrom : least ≤ b.toNat)
    (hLe : n.toNat ≤ least) :
    ¬ b < n := by
  intro hLt
  have hBelow := UInt8.lt_iff_toNat_lt.mp hLt
  omega

theorem leading?_two
    {b : UInt8}
    (hFrom : 0xC2 ≤ b.toNat)
    (hTo : b < 0xE0) :
    leading? b = some (1, 0x80, 0xBF, b.toNat - 0xC0) := by
  unfold leading?
  rw [if_neg (not_lt_of_le hFrom (by decide)),
    if_neg (not_lt_of_le hFrom (by decide)), if_pos hTo]

theorem leading?_three
    {b : UInt8}
    (hFrom : 0xE0 ≤ b.toNat)
    (hTo : b < 0xF0) :
    leading? b =
      some (2, if b = 0xE0 then 0xA0 else 0x80,
        if b = 0xED then 0x9F else 0xBF, b.toNat - 0xE0) := by
  unfold leading?
  rw [if_neg (not_lt_of_le hFrom (by decide)),
    if_neg (not_lt_of_le hFrom (by decide)),
    if_neg (not_lt_of_le hFrom (by decide))]
  by_cases hE0 : b = 0xE0
  · subst hE0
    rfl
  · by_cases hED : b = 0xED
    · subst hED
      rfl
    · rw [if_neg hE0, if_neg hED, if_pos hTo, if_neg hE0, if_neg hED]

theorem leading?_four
    {b : UInt8}
    (hFrom : 0xF0 ≤ b.toNat)
    (hTo : b.toNat ≤ 0xF4) :
    leading? b =
      some (3, if b = 0xF0 then 0x90 else 0x80,
        if b = 0xF4 then 0x8F else 0xBF, b.toNat - 0xF0) := by
  have hNotE0 : b ≠ 0xE0 := by
    rintro rfl
    exact absurd hFrom (by decide)
  have hNotED : b ≠ 0xED := by
    rintro rfl
    exact absurd hFrom (by decide)
  unfold leading?
  rw [if_neg (not_lt_of_le hFrom (by decide)),
    if_neg (not_lt_of_le hFrom (by decide)),
    if_neg (not_lt_of_le hFrom (by decide)), if_neg hNotE0,
    if_neg hNotED, if_neg (not_lt_of_le hFrom (by decide))]
  by_cases hF0 : b = 0xF0
  · subst hF0
    rfl
  · by_cases hF4 : b = 0xF4
    · subst hF4
      rfl
    · have hNe : b.toNat ≠ 0xF4 := fun h => hF4 (UInt8.toNat_inj.mp h)
      have hBelow : b.toNat < 0xF4 := by omega
      rw [if_neg hF0, if_pos (UInt8.lt_iff_toNat_lt.mpr hBelow),
        if_neg hF0, if_neg hF4]

theorem toNat_byte
    {n : Nat}
    (hSmall : n < 256) :
    (UInt8.ofNat n).toNat = n := by
  rw [UInt8.toNat_ofNat']
  omega

/- A byte that follows others in a character. -/
def IsNext
    (b : UInt8) : Prop :=
  (0x80 : UInt8).toNat ≤ b.toNat ∧ b.toNat ≤ (0xBF : UInt8).toNat

theorem first_one
    {b : UInt8}
    (hb : b < 0x80)
    (rest : Bytes) :
    first b rest = (some (Char.ofNat b.toNat), 0) := by
  unfold first leading?
  rw [if_pos hb]
  rfl

theorem first_two
    {b b₁ : UInt8}
    (hFrom : 0xC2 ≤ b.toNat)
    (hTo : b < 0xE0)
    (h₁ : IsNext b₁)
    (rest : Bytes) :
    first b (b₁ :: rest) =
      (some (Char.ofNat
        ((b.toNat - 0xC0) * 64 + (b₁.toNat - 0x80))), 1) := by
  unfold first
  rw [leading?_two hFrom hTo]
  dsimp only
  rw [continuation_cons h₁.1 h₁.2]
  rfl

theorem first_three
    {b b₁ b₂ : UInt8}
    (hFrom : 0xE0 ≤ b.toNat)
    (hTo : b < 0xF0)
    (h₁ : IsNext b₁)
    (hLeast : b = 0xE0 → 0xA0 ≤ b₁.toNat)
    (hGreatest : b = 0xED → b₁.toNat ≤ 0x9F)
    (h₂ : IsNext b₂)
    (rest : Bytes) :
    first b (b₁ :: b₂ :: rest) =
      (some (Char.ofNat
        (((b.toNat - 0xE0) * 64 + (b₁.toNat - 0x80)) * 64 +
          (b₂.toNat - 0x80))), 2) := by
  have hLow :
      (if b = 0xE0 then 0xA0 else 0x80 : UInt8).toNat ≤
        b₁.toNat := by
    split
    · rename_i hE0
      exact hLeast hE0
    · exact h₁.1
  have hHigh :
      b₁.toNat ≤
        (if b = 0xED then 0x9F else 0xBF : UInt8).toNat := by
    split
    · rename_i hED
      exact hGreatest hED
    · exact h₁.2
  unfold first
  rw [leading?_three hFrom hTo]
  dsimp only
  rw [continuation_cons hLow hHigh, continuation_cons h₂.1 h₂.2]
  rfl

theorem first_four
    {b b₁ b₂ b₃ : UInt8}
    (hFrom : 0xF0 ≤ b.toNat)
    (hTo : b.toNat ≤ 0xF4)
    (h₁ : IsNext b₁)
    (hLeast : b = 0xF0 → 0x90 ≤ b₁.toNat)
    (hGreatest : b = 0xF4 → b₁.toNat ≤ 0x8F)
    (h₂ : IsNext b₂)
    (h₃ : IsNext b₃)
    (rest : Bytes) :
    first b (b₁ :: b₂ :: b₃ :: rest) =
      (some (Char.ofNat
        ((((b.toNat - 0xF0) * 64 + (b₁.toNat - 0x80)) * 64 +
          (b₂.toNat - 0x80)) * 64 + (b₃.toNat - 0x80))), 3) := by
  have hLow :
      (if b = 0xF0 then 0x90 else 0x80 : UInt8).toNat ≤
        b₁.toNat := by
    split
    · rename_i hF0
      exact hLeast hF0
    · exact h₁.1
  have hHigh :
      b₁.toNat ≤
        (if b = 0xF4 then 0x8F else 0xBF : UInt8).toNat := by
    split
    · rename_i hF4
      exact hGreatest hF4
    · exact h₁.2
  unfold first
  rw [leading?_four hFrom hTo]
  dsimp only
  rw [continuation_cons hLow hHigh, continuation_cons h₂.1 h₂.2,
    continuation_cons h₃.1 h₃.2]
  rfl

/- Six bits of a number make a byte that follows others. -/
theorem isNext_ofNat
    (n : Nat) :
    IsNext (UInt8.ofNat (n % 64 + 128)) := by
  unfold IsNext
  rw [toNat_byte (by omega)]
  change 0x80 ≤ _ ∧ _ ≤ 0xBF
  omega

theorem first_ofNat_one
    {n : Nat}
    (hTo : n ≤ 127)
    (rest : Bytes) :
    first (UInt8.ofNat n) rest = (some (Char.ofNat n), 0) := by
  have hByte := toNat_byte (n := n) (by omega)
  have hLt : UInt8.ofNat n < 0x80 := by
    rw [UInt8.lt_iff_toNat_lt, hByte]
    exact Nat.lt_succ_of_le hTo
  rw [first_one hLt, hByte]

theorem first_ofNat_two
    {n : Nat}
    (hFrom : 127 < n)
    (hTo : n ≤ 2047)
    (rest : Bytes) :
    first (UInt8.ofNat (n / 64 % 32 + 192))
        (UInt8.ofNat (n % 64 + 128) :: rest) =
      (some (Char.ofNat n), 1) := by
  have hByte := toNat_byte (n := n / 64 % 32 + 192) (by omega)
  have hByte₁ := toNat_byte (n := n % 64 + 128) (by omega)
  have hLt : UInt8.ofNat (n / 64 % 32 + 192) < 0xE0 := by
    rw [UInt8.lt_iff_toNat_lt, hByte]
    exact Nat.lt_of_le_of_lt (m := 0xDF) (by omega) (by decide)
  have hNumber :
      (n / 64 % 32 + 192 - 0xC0) * 64 + (n % 64 + 128 - 0x80) =
        n := by
    omega
  rw [first_two (by omega) hLt (isNext_ofNat n), hByte, hByte₁,
    hNumber]

theorem first_ofNat_three
    {n : Nat}
    (hFrom : 2047 < n)
    (hTo : n ≤ 65535)
    (hValid : n < 0xD800 ∨ 0xDFFF < n)
    (rest : Bytes) :
    first (UInt8.ofNat (n / 4096 % 16 + 224))
        (UInt8.ofNat (n / 64 % 64 + 128) ::
          UInt8.ofNat (n % 64 + 128) :: rest) =
      (some (Char.ofNat n), 2) := by
  have hByte := toNat_byte (n := n / 4096 % 16 + 224) (by omega)
  have hByte₁ := toNat_byte (n := n / 64 % 64 + 128) (by omega)
  have hByte₂ := toNat_byte (n := n % 64 + 128) (by omega)
  have hLt : UInt8.ofNat (n / 4096 % 16 + 224) < 0xF0 := by
    rw [UInt8.lt_iff_toNat_lt, hByte]
    exact Nat.lt_of_le_of_lt (m := 0xEF) (by omega) (by decide)
  have hLeast :
      UInt8.ofNat (n / 4096 % 16 + 224) = 0xE0 →
        0xA0 ≤ (UInt8.ofNat (n / 64 % 64 + 128)).toNat := by
    intro hE0
    have hNat : n / 4096 % 16 + 224 = 0xE0 :=
      hByte.symm.trans (congrArg UInt8.toNat hE0)
    omega
  have hGreatest :
      UInt8.ofNat (n / 4096 % 16 + 224) = 0xED →
        (UInt8.ofNat (n / 64 % 64 + 128)).toNat ≤ 0x9F := by
    intro hED
    have hNat : n / 4096 % 16 + 224 = 0xED :=
      hByte.symm.trans (congrArg UInt8.toNat hED)
    omega
  have hNumber :
      ((n / 4096 % 16 + 224 - 0xE0) * 64 +
          (n / 64 % 64 + 128 - 0x80)) * 64 +
        (n % 64 + 128 - 0x80) = n := by
    omega
  rw [first_three (by omega) hLt (isNext_ofNat (n / 64)) hLeast
      hGreatest (isNext_ofNat n), hByte, hByte₁, hByte₂, hNumber]

theorem first_ofNat_four
    {n : Nat}
    (hFrom : 65535 < n)
    (hTo : n < 0x110000)
    (rest : Bytes) :
    first (UInt8.ofNat (n / 262144 % 8 + 240))
        (UInt8.ofNat (n / 4096 % 64 + 128) ::
          UInt8.ofNat (n / 64 % 64 + 128) ::
            UInt8.ofNat (n % 64 + 128) :: rest) =
      (some (Char.ofNat n), 3) := by
  have hByte := toNat_byte (n := n / 262144 % 8 + 240) (by omega)
  have hByte₁ := toNat_byte (n := n / 4096 % 64 + 128) (by omega)
  have hByte₂ := toNat_byte (n := n / 64 % 64 + 128) (by omega)
  have hByte₃ := toNat_byte (n := n % 64 + 128) (by omega)
  have hLeast :
      UInt8.ofNat (n / 262144 % 8 + 240) = 0xF0 →
        0x90 ≤ (UInt8.ofNat (n / 4096 % 64 + 128)).toNat := by
    intro hF0
    have hNat : n / 262144 % 8 + 240 = 0xF0 :=
      hByte.symm.trans (congrArg UInt8.toNat hF0)
    omega
  have hGreatest :
      UInt8.ofNat (n / 262144 % 8 + 240) = 0xF4 →
        (UInt8.ofNat (n / 4096 % 64 + 128)).toNat ≤ 0x8F := by
    intro hF4
    have hNat : n / 262144 % 8 + 240 = 0xF4 :=
      hByte.symm.trans (congrArg UInt8.toNat hF4)
    omega
  have hNumber :
      (((n / 262144 % 8 + 240 - 0xF0) * 64 +
          (n / 4096 % 64 + 128 - 0x80)) * 64 +
        (n / 64 % 64 + 128 - 0x80)) * 64 +
          (n % 64 + 128 - 0x80) = n := by
    omega
  rw [first_four (by omega) (by omega) (isNext_ofNat (n / 4096))
      hLeast hGreatest (isNext_ofNat (n / 64)) (isNext_ofNat n),
    hByte, hByte₁, hByte₂, hByte₃, hNumber]

theorem first_encodeChar
    (c : Char)
    (rest : Bytes) :
    ∃ b more, String.utf8EncodeChar c = b :: more ∧
      first b (more ++ rest) = (some c, more.length) := by
  have hChar : Char.ofNat c.toNat = c := Char.ofNat_toNat c
  have hValid :
      c.toNat < 0xD800 ∨
        (0xDFFF < c.toNat ∧ c.toNat < 0x110000) :=
    c.valid
  rw [← hChar]
  generalize c.toNat = n at *
  rw [utf8EncodeChar_ofNat hValid]
  by_cases hOne : n ≤ 127
  · rw [if_pos hOne]
    exact ⟨_, _, rfl, first_ofNat_one hOne rest⟩
  rw [if_neg hOne]
  by_cases hTwo : n ≤ 2047
  · rw [if_pos hTwo]
    exact ⟨_, _, rfl, first_ofNat_two (by omega) hTwo rest⟩
  rw [if_neg hTwo]
  by_cases hThree : n ≤ 65535
  · rw [if_pos hThree]
    exact ⟨_, _, rfl,
      first_ofNat_three (by omega) hThree (by omega) rest⟩
  · rw [if_neg hThree]
    exact ⟨_, _, rfl, first_ofNat_four (by omega) (by omega) rest⟩

theorem decodeFrom_append_length
    (onBroken : Option Text)
    (more rest : Bytes) :
    decodeFrom onBroken more.length (more ++ rest) =
      decodeFrom onBroken 0 rest := by
  induction more with
  | nil => rfl
  | cons b more ih =>
      rw [List.length_cons, List.cons_append, decodeFrom]
      exact ih

/- A character that is written whole is read first. -/
theorem decodeFrom_encodeChar
    (onBroken : Option Text)
    (c : Char)
    (rest : Bytes) :
    decodeFrom onBroken 0 (String.utf8EncodeChar c ++ rest) =
      (decodeFrom onBroken 0 rest).map (c :: ·) := by
  rcases first_encodeChar c rest with ⟨b, more, hBytes, hFirst⟩
  rw [hBytes, List.cons_append, decodeFrom, hFirst]
  dsimp only
  rw [decodeFrom_append_length]

/- What is written is read back. -/
theorem decodeFrom_encode
    (onBroken : Option Text)
    (t : Text) :
    decodeFrom onBroken 0 (encode t) = some t := by
  induction t with
  | nil => rfl
  | cons c rest ih =>
      change
        decodeFrom onBroken 0
          (String.utf8EncodeChar c ++ encode rest) = _
      rw [decodeFrom_encodeChar, ih]
      rfl

end Utf8

/- What is written is read back. -/
theorem decodeLenient_encode
    (t : Text) :
    decodeLenient (Utf8.encode t) = t := by
  unfold decodeLenient
  rw [Utf8.decodeFrom_encode]
  rfl

end Whittle

------------------------------------------------------------
-- Codecs That Are Charwise
------------------------------------------------------------

namespace Whittle

/- Each element of a list is mapped to one of the result. -/
theorem mapM_eq_some_iff
    {α β : Type}
    {f : α → Option β}
    {as : List α}
    {bs : List β} :
    as.mapM f = some bs ↔
      List.Forall₂ (fun a b => f a = some b) as bs := by
  induction as generalizing bs with
  | nil => cases bs <;> simp
  | cons a rest ih =>
      rw [List.mapM_cons]
      cases hFirst : f a with
      | none => cases bs <;> simp [hFirst]
      | some b =>
          cases hRest : rest.mapM f with
          | none => cases bs <;> simp [← ih, hRest]
          | some bs' => cases bs <;> simp [← ih, hFirst, hRest]

namespace Codec

/-
  A table gives each byte at most one character, and each
  character at most the byte that it is read from.  A codec
  that goes by the table writes character by character.
-/
theorem hasForms_of_table
    {codec : Codec}
    {char? : UInt8 → Option Char}
    {byte? : Char → Option UInt8}
    (hDecode : ∀ bs, codec.decode? bs = bs.mapM char?)
    (hEncode : ∀ t, codec.encode? t = t.mapM byte?)
    (hTable : ∀ b c, char? b = some c ↔ byte? c = some b)
    (hNewline : byte? '\n' = some 10)
    (hReturn : byte? '\r' = some 13) :
    codec.HasForms fun c => (byte? c).map ([·]) where
  encode t := by
    rw [hEncode]
    induction t with
    | nil => rfl
    | cons c t ih =>
        rw [List.mapM_cons, List.mapM_cons, ih]
        cases byte? c with
        | none => rfl
        | some b =>
            cases t.mapM fun c => (byte? c).map ([·]) <;> rfl
  newline := by rw [hNewline]; rfl
  carriageReturn := by rw [hReturn]; rfl
  others {c bs} hForm hNotNewline hNotReturn := by
    obtain ⟨b, hByte, rfl⟩ := Option.map_eq_some_iff.mp hForm
    have hChar := (hTable b c).mpr hByte
    -- Two characters would be read from one byte.
    have hNotTen : b ≠ 10 := by
      rintro rfl
      have hRead := (hTable 10 '\n').mpr hNewline
      exact hNotNewline (Option.some.inj (hChar.symm.trans hRead))
    have hNotThirteen : b ≠ 13 := by
      rintro rfl
      have hRead := (hTable 13 '\r').mpr hReturn
      exact hNotReturn (Option.some.inj (hChar.symm.trans hRead))
    simp [hNotTen.symm, hNotThirteen.symm]
  decode_iff {bs t} := by
    rw [hDecode, hEncode, mapM_eq_some_iff, mapM_eq_some_iff]
    simp only [hTable]
    exact ⟨List.Forall₂.flip, List.Forall₂.flip⟩

theorem toNat_ofNat_byte
    (b : UInt8) :
    (Char.ofNat b.toNat).toNat = b.toNat :=
  Utf8.toNat_ofNat (.inl (Nat.lt_trans b.toNat_lt (by decide)))

theorem ofNat_eq_iff_toUInt8_eq
    {b : UInt8}
    {c : Char}
    (hSmall : c.toNat < 0x100) :
    Char.ofNat b.toNat = c ↔ c.toNat.toUInt8 = b := by
  constructor
  · rintro rfl
    rw [toNat_ofNat_byte]
    exact UInt8.ofNat_toNat
  · rintro rfl
    have hNumber : c.toNat.toUInt8.toNat = c.toNat :=
      Utf8.toNat_byte hSmall
    rw [hNumber]
    exact Char.ofNat_toNat c

theorem isCharwise_utf8 :
    utf8.IsCharwise := by
  refine ⟨fun c => some (String.utf8EncodeChar c), ?_, rfl, rfl,
    ?_, ?_⟩
  · intro t
    have hForms :
        t.mapM (fun c => some (String.utf8EncodeChar c)) =
          some (t.map String.utf8EncodeChar) :=
      List.mapM_pure
    rw [hForms]
    exact congrArg some List.flatMap_def
  · intro c bs hForm hNotNewline hNotReturn
    cases hForm
    refine ⟨String.utf8EncodeChar_ne_nil, ?_⟩
    by_cases hPlain : c.toNat < 0x80
    · have hNot : ∀ d : Char, d.toNat < 0x80 → c ≠ d →
          d.toNat.toUInt8 ∉ [c.toNat.toUInt8] := by
        intro d hd hNe hMem
        apply hNe
        have hByte := List.mem_singleton.mp hMem
        have hSmall : c.toNat < 0x100 := by omega
        have hSmall' : d.toNat < 0x100 := by omega
        rw [← (ofNat_eq_iff_toUInt8_eq hSmall).mpr rfl, ← hByte,
          (ofNat_eq_iff_toUInt8_eq hSmall').mpr rfl]
      rw [Utf8.utf8EncodeChar_plain hPlain]
      exact ⟨hNot '\n' (by decide) hNotNewline,
        hNot '\r' (by decide) hNotReturn⟩
    · have hWide : 0x80 ≤ c.toNat := by omega
      constructor
      · intro hMem
        exact absurd (Utf8.le_of_mem_utf8EncodeChar hWide hMem)
          (by decide)
      · intro hMem
        exact absurd (Utf8.le_of_mem_utf8EncodeChar hWide hMem)
          (by decide)
  · intro bs t
    constructor
    · intro hDecode
      exact congrArg some (Utf8.encode_of_decodeFrom hDecode)
    · intro hEncode
      cases hEncode
      exact Utf8.decodeFrom_encode none t

/- Bytes and characters whose numbers are the same, up to a limit. -/
theorem char_eq_some_iff
    {limit : Nat}
    (hLimit : limit ≤ 0x100)
    (b : UInt8)
    (c : Char) :
    (if b.toNat < limit then
        some (Char.ofNat b.toNat)
      else
        none) = some c ↔
      (if c.toNat < limit then
        some c.toNat.toUInt8
      else
        none) = some b := by
  constructor
  · intro hChar
    split at hChar
    · rename_i hBelow
      cases hChar
      have hSmall : (Char.ofNat b.toNat).toNat < limit := by
        rw [toNat_ofNat_byte]
        exact hBelow
      rw [if_pos hSmall,
        (ofNat_eq_iff_toUInt8_eq (by omega)).mp rfl]
    · cases hChar
  · intro hByte
    split at hByte
    · rename_i hBelow
      cases hByte
      have hNumber : c.toNat.toUInt8.toNat = c.toNat :=
        Utf8.toNat_byte (by omega)
      rw [if_pos (by omega),
        (ofNat_eq_iff_toUInt8_eq (by omega)).mpr rfl]
    · cases hByte

theorem isCharwise_latin1 :
    latin1.IsCharwise := by
  refine ⟨_, hasForms_of_table ?_ (fun t => rfl)
    (char_eq_some_iff (Nat.le_refl 0x100)) rfl rfl⟩
  intro bs
  have hAll : ∀ b : UInt8,
      (if b.toNat < 0x100 then
        some (Char.ofNat b.toNat)
      else
        none) = some (Char.ofNat b.toNat) :=
    fun b => if_pos b.toNat_lt
  simp only [hAll]
  exact List.mapM_pure (m := Option).symm

theorem isCharwise_ascii :
    ascii.IsCharwise :=
  ⟨_, hasForms_of_table
    (fun _ => by simp only [ascii, UInt8.lt_iff_toNat_lt]; rfl)
    (fun _ => rfl) (char_eq_some_iff (by decide)) rfl rfl⟩

end Codec

end Whittle

------------------------------------------------------------
-- Bytes Of ASCII
------------------------------------------------------------

namespace Whittle

namespace Utf8

theorem continuation_append
    {b low : UInt8}
    (hb : b < 0x80)
    (hLow : 0x80 ≤ low)
    (high : UInt8)
    (bits need : Nat)
    (bs rest : Bytes) :
    continuation low high bits need (bs ++ b :: rest) =
      continuation low high bits need bs := by
  induction need generalizing low high bits bs with
  | zero => rfl
  | succ need ih =>
      cases bs with
      | nil =>
          have hNot : ¬ (low ≤ b && b ≤ high) = true := by
            simp only [Bool.and_eq_true, decide_eq_true_eq, not_and]
            intro hLe
            exact absurd hb (UInt8.not_lt.mpr (UInt8.le_trans hLow hLe))
          simp only [List.nil_append, continuation, if_neg hNot]
      | cons x bs =>
          rw [List.cons_append, continuation, continuation,
            ih (by decide)]

theorem continuation_used
    (low high : UInt8)
    (bits need : Nat)
    (bs : Bytes) :
    (continuation low high bits need bs).2 ≤ bs.length := by
  induction need generalizing low high bits bs with
  | zero => exact Nat.zero_le _
  | succ need ih =>
      cases bs with
      | nil => exact Nat.le_refl _
      | cons x bs =>
          rw [continuation]
          split
          · exact Nat.succ_le_succ (ih _ _ _ bs)
          · exact Nat.zero_le _

/- The bytes after a leading one are no bytes of ASCII. -/
theorem low_of_leading
    {b low high : UInt8}
    {need bits : Nat}
    (hLeading : leading? b = some (need, low, high, bits)) :
    need = 0 ∨ 0x80 ≤ low := by
  rcases leading?_cases hLeading with
    ⟨hNone, -⟩ | ⟨-, -, -, -, rfl, -⟩ |
    ⟨-, -, -, -, hLow, -⟩ | ⟨-, -, -, -, hLow, -⟩
  · exact .inl hNone
  · exact .inr (by decide)
  · exact .inr (UInt8.le_iff_toNat_le.mpr hLow)
  · exact .inr (UInt8.le_iff_toNat_le.mpr hLow)

theorem first_append
    {b : UInt8}
    (hb : b < 0x80)
    (x : UInt8)
    (bs rest : Bytes) :
    first x (bs ++ b :: rest) = first x bs := by
  unfold first
  cases hLeading : leading? x with
  | none => rfl
  | some found =>
      rcases found with ⟨need, low, high, bits⟩
      dsimp only
      rcases low_of_leading hLeading with rfl | hLow
      · rfl
      · rw [continuation_append hb hLow]

theorem first_used
    (x : UInt8)
    (bs : Bytes) :
    (first x bs).2 ≤ bs.length := by
  unfold first
  cases leading? x with
  | none => exact Nat.zero_le _
  | some found => exact continuation_used _ _ _ _ _

theorem decodeFrom_append
    {b : UInt8}
    (hb : b < 0x80)
    (mark : Text)
    {skip : Nat}
    {bs : Bytes}
    (hSkip : skip ≤ bs.length)
    (rest : Bytes) :
    decodeFrom (some mark) skip (bs ++ b :: rest) =
      (decodeFrom (some mark) skip bs).bind fun s =>
        (decodeFrom (some mark) 0 rest).map fun t =>
          s ++ Char.ofNat b.toNat :: t := by
  induction bs generalizing skip with
  | nil =>
      obtain rfl : skip = 0 := Nat.le_zero.mp hSkip
      simp [decodeFrom, first_one hb]
  | cons x bs ih =>
      cases skip with
      | succ skip =>
          rw [List.cons_append, decodeFrom, decodeFrom]
          exact ih (Nat.le_of_succ_le_succ hSkip)
      | zero =>
          have hUsed := first_used x bs
          rw [List.cons_append, decodeFrom, decodeFrom,
            first_append hb]
          rcases hFirst : first x bs with ⟨_ | c, used⟩
          · rw [hFirst] at hUsed
            dsimp only
            rw [ih hUsed]
            cases decodeFrom (some mark) used bs <;>
              cases decodeFrom (some mark) 0 rest <;> simp
          · rw [hFirst] at hUsed
            dsimp only
            rw [ih hUsed]
            cases decodeFrom (some mark) used bs <;>
              cases decodeFrom (some mark) 0 rest <;> simp

/- Decoding with a mark for broken characters never fails. -/
theorem exists_decodeFrom
    (mark : Text)
    (skip : Nat)
    (bs : Bytes) :
    ∃ t, decodeFrom (some mark) skip bs = some t := by
  induction bs generalizing skip with
  | nil => exact ⟨[], by cases skip <;> rfl⟩
  | cons b rest ih =>
      cases skip with
      | succ skip =>
          rw [decodeFrom]
          exact ih skip
      | zero =>
          rw [decodeFrom]
          rcases first b rest with ⟨_ | c, used⟩
          · rcases ih used with ⟨t, hRest⟩
            exact ⟨mark ++ t, by simp [hRest]⟩
          · rcases ih used with ⟨t, hRest⟩
            exact ⟨c :: t, by simp [hRest]⟩

theorem mem_of_decodeFrom
    {c : Char}
    (hc : c.toNat < 0x80)
    {mark : Text}
    (hMark : c ∉ mark)
    {skip : Nat}
    {bs : Bytes}
    {t : Text}
    (hDecode : decodeFrom (some mark) skip bs = some t)
    (hMem : c ∈ t) :
    c.toNat.toUInt8 ∈ bs := by
  induction bs generalizing skip t with
  | nil =>
      cases skip <;> · cases hDecode; cases hMem
  | cons b rest ih =>
      cases skip with
      | succ skip =>
          rw [decodeFrom] at hDecode
          exact List.mem_cons_of_mem b (ih hDecode hMem)
      | zero =>
          rw [decodeFrom] at hDecode
          rcases hFirst : first b rest with ⟨_ | d, used⟩
          · rw [hFirst] at hDecode
            rcases Option.map_eq_some_iff.mp hDecode with
              ⟨s, hRest, rfl⟩
            rcases List.mem_append.mp hMem with hMem | hMem
            · exact absurd hMem hMark
            · exact List.mem_cons_of_mem b (ih hRest hMem)
          · rw [hFirst] at hDecode
            rcases Option.map_eq_some_iff.mp hDecode with
              ⟨s, hRest, rfl⟩
            rcases List.mem_cons.mp hMem with rfl | hMem
            · have hBytes := encodeChar_of_first hFirst
              rw [utf8EncodeChar_plain hc] at hBytes
              rw [(List.cons.inj hBytes).1]
              exact List.mem_cons_self
            · exact List.mem_cons_of_mem b (ih hRest hMem)

end Utf8

theorem decodeLenient_append
    {b : UInt8}
    (hb : b < 0x80)
    (bs rest : Bytes) :
    decodeLenient (bs ++ b :: rest) =
      decodeLenient bs ++ Char.ofNat b.toNat :: decodeLenient rest := by
  rcases Utf8.exists_decodeFrom ['\uFFFD'] 0 bs with ⟨s, hBefore⟩
  rcases Utf8.exists_decodeFrom ['\uFFFD'] 0 rest with ⟨t, hAfter⟩
  unfold decodeLenient
  rw [Utf8.decodeFrom_append hb _ (Nat.zero_le _), hBefore, hAfter]
  rfl

theorem mem_of_decodeLenient
    {c : Char}
    (hc : c.toNat < 0x80)
    {bs : Bytes}
    (hMem : c ∈ decodeLenient bs) :
    c.toNat.toUInt8 ∈ bs := by
  rcases Utf8.exists_decodeFrom ['\uFFFD'] 0 bs with ⟨t, hDecode⟩
  have hMark : c ∉ ['\uFFFD'] := by
    intro hEq
    rw [List.mem_singleton] at hEq
    subst hEq
    exact absurd hc (by decide)
  unfold decodeLenient at hMem
  rw [hDecode] at hMem
  exact Utf8.mem_of_decodeFrom hc hMark hDecode hMem

end Whittle
