import Whittle.Proofs.Text.Decoding

/-
  Texts that are cut off after some of their bytes.

  Key definitions include:
    * `Utf8.size`

  Main statements:
    * `Utf8.first_take`
    * `decodeIgnoring_take_encodeChar`
    * `Utf8.size_take_lt`
    * `Utf8.encode_slice`

  The bytes of a character that has lost its end are the start
  of a broken one, all of them.  So ignoring what is broken
  leaves just the characters that are whole.
-/

------------------------------------------------------------
-- Characters That Have Lost Their End
------------------------------------------------------------

namespace Whittle

namespace Utf8

/- A character takes as many bytes as its first one asks for. -/
theorem used_eq_of_continuation
    {low high : UInt8}
    {bits need used code : Nat}
    {bs : Bytes}
    (hRead :
      continuation low high bits need bs = (some code, used)) :
    used = need := by
  induction need generalizing low high bits used bs with
  | zero => exact (continuation_zero hRead).2
  | succ need ih =>
      obtain ⟨_, _, _, _, _, _, rfl, hRest⟩ :=
        continuation_succ hRead
      rw [ih hRest]

theorem continuation_take
    {low high : UInt8}
    {bits need used code n : Nat}
    {bs : Bytes}
    (hRead :
      continuation low high bits need bs = (some code, used))
    (hShort : n < need) :
    continuation low high bits need (bs.take n) = (none, n) := by
  induction n generalizing low high bits need used bs with
  | zero =>
      obtain ⟨need, rfl⟩ := Nat.exists_eq_succ_of_ne_zero
        (Nat.ne_of_gt hShort)
      rfl
  | succ n ih =>
      obtain ⟨need, rfl⟩ := Nat.exists_eq_succ_of_ne_zero
        (Nat.ne_of_gt (Nat.zero_lt_of_lt hShort))
      obtain ⟨b, rest, _, rfl, hLow, hHigh, _, hRest⟩ :=
        continuation_succ hRead
      rw [List.take_succ_cons, continuation_cons hLow hHigh,
        ih hRest (Nat.lt_of_succ_lt_succ hShort)]

theorem first_take
    {b : UInt8}
    {rest : Bytes}
    {c : Char}
    {used n : Nat}
    (hFirst : first b rest = (some c, used))
    (hShort : n < used) :
    first b (rest.take n) = (none, n) := by
  unfold first at hFirst ⊢
  cases hLeading : leading? b with
  | none =>
      rw [hLeading] at hFirst
      cases hFirst
  | some found =>
      obtain ⟨need, low, high, bits⟩ := found
      rw [hLeading] at hFirst
      dsimp only at hFirst ⊢
      rcases hRead : continuation low high bits need rest with
        ⟨_ | code, used'⟩
      · rw [hRead] at hFirst
        cases hFirst
      · rw [hRead] at hFirst
        cases hFirst
        rw [used_eq_of_continuation hRead] at hShort
        rw [continuation_take hRead hShort]
        rfl

end Utf8

/- A character that is written whole is read first. -/
theorem decodeIgnoring_encodeChar
    (c : Char)
    (rest : Bytes) :
    decodeIgnoring (String.utf8EncodeChar c ++ rest) =
      c :: decodeIgnoring rest := by
  rcases Utf8.exists_decodeFrom [] 0 rest with ⟨t, hRest⟩
  unfold decodeIgnoring
  rw [Utf8.decodeFrom_encodeChar, hRest]
  rfl

/- Nothing is read of a character that has lost its end. -/
theorem decodeIgnoring_take_encodeChar
    {c : Char}
    {n : Nat}
    (hShort : n < c.utf8Size) :
    decodeIgnoring ((String.utf8EncodeChar c).take n) = [] := by
  cases n with
  | zero => rfl
  | succ n =>
      obtain ⟨b, more, hBytes, hFirst⟩ :=
        Utf8.first_encodeChar c []
      have hLength := String.length_utf8EncodeChar c
      rw [hBytes, List.length_cons] at hLength
      rw [List.append_nil] at hFirst
      have hBroken :
          Utf8.first b (more.take n) = (none, n) :=
        Utf8.first_take hFirst (by omega)
      have hSkip :
          Utf8.decodeFrom (some []) n (more.take n) = some [] := by
        have hAll :=
          Utf8.decodeFrom_append_length (some []) (more.take n) []
        rwa [List.append_nil, List.length_take,
          Nat.min_eq_left (by omega)] at hAll
      unfold decodeIgnoring
      rw [hBytes, List.take_succ_cons, Utf8.decodeFrom, hBroken]
      dsimp only
      rw [hSkip]
      rfl

end Whittle

------------------------------------------------------------
-- Sizes
------------------------------------------------------------

namespace Whittle

namespace Utf8

/- The number of bytes that a text takes. -/
def size
    (t : Text) : Nat :=
  (encode t).length

variable {t : Text} {j k : Nat}

theorem size_eq_weight
    (t : Text) :
    size t = weight Char.utf8Size t := by
  induction t with
  | nil => rfl
  | cons c t ih =>
      have hBytes : encode (c :: t) =
          String.utf8EncodeChar c ++ encode t := rfl
      unfold size at ih ⊢
      rw [hBytes, List.length_append, ih, weight_cons,
        String.length_utf8EncodeChar]

@[simp]
theorem size_nil :
    size [] = 0 :=
  rfl

@[simp]
theorem size_cons
    (c : Char)
    (t : Text) :
    size (c :: t) = c.utf8Size + size t := by
  simp [size_eq_weight]

theorem encode_append
    (s t : Text) :
    encode (s ++ t) = encode s ++ encode t :=
  List.flatMap_append

@[simp]
theorem size_append
    (s t : Text) :
    size (s ++ t) = size s + size t := by
  simp [size_eq_weight]

theorem size_take_le
    (t : Text)
    (hLe : j ≤ k) :
    size (t.take j) ≤ size (t.take k) := by
  rw [size_eq_weight, size_eq_weight]
  exact weight_le_of_sublist (List.take_sublist_take_left hLe)

theorem size_take_lt
    (hLt : j < k)
    (hSome : j < t.length) :
    size (t.take j) < size (t.take k) := by
  by_contra hNot
  have hSame : t.take j = t.take k := by
    rw [size_eq_weight, size_eq_weight] at hNot
    exact eq_of_weight_le Char.utf8Size_pos
      (List.take_sublist_take_left (Nat.le_of_lt hLt))
      (Nat.not_lt.mp hNot)
  have hLength := congrArg List.length hSame
  rw [List.length_take, List.length_take] at hLength
  omega

/-
  The characters between two offsets are written as the bytes
  from where the one starts up to where the other does.
-/
theorem encode_slice
    (t : Text)
    (start stop : Nat) :
    encode ((t.drop start).take (stop - start)) =
      ((encode t).drop (size (t.take start))).take
        (size (t.take stop) - size (t.take start)) := by
  have hAfter :
      (encode t).drop (size (t.take start)) =
        encode (t.drop start) := by
    conv_lhs => rw [← List.take_append_drop start t, encode_append]
    rw [List.take_append_drop]
    exact List.drop_left
  rw [hAfter]
  rcases Nat.le_total stop start with hLe | hLe
  · rw [Nat.sub_eq_zero_of_le hLe,
      Nat.sub_eq_zero_of_le (size_take_le t hLe)]
    rfl
  · obtain ⟨n, rfl⟩ := Nat.exists_eq_add_of_le hLe
    rw [List.take_add, size_append, Nat.add_sub_cancel_left,
      Nat.add_sub_cancel_left]
    conv_rhs => rw [← List.take_append_drop n (t.drop start)]
    rw [encode_append, List.take_append_drop]
    exact List.take_left.symm

end Utf8

end Whittle
