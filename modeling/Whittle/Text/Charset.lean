import Whittle.Text.Basic

/-
  Bytes and texts: codecs, the charsets of files, and line ends.

  Key definitions include:
    * `Bytes`
    * `Codec`
    * `Charset`
    * `decodeLenient`
    * `Text.unifyLineEnds`
-/

------------------------------------------------------------
-- UTF-8
------------------------------------------------------------

namespace Whittle

/- The contents of a file. -/
abbrev Bytes :=
  List UInt8

namespace Utf8

/- The UTF-8 form of a text. -/
def encode
    (t : Text) : Bytes :=
  t.flatMap String.utf8EncodeChar

/-
  What a leading byte asks for: the number of continuation
  bytes, the range of the first of them, and the bits it
  carries itself.
-/
def leading?
    (b : UInt8) : Option (Nat × UInt8 × UInt8 × Nat) :=
  if b < 0x80 then
    some (0, 0x80, 0xBF, b.toNat)
  else if b < 0xC2 then
    none
  else if b < 0xE0 then
    some (1, 0x80, 0xBF, b.toNat - 0xC0)
  else if b = 0xE0 then
    some (2, 0xA0, 0xBF, 0)
  else if b = 0xED then
    some (2, 0x80, 0x9F, 0xD)
  else if b < 0xF0 then
    some (2, 0x80, 0xBF, b.toNat - 0xE0)
  else if b = 0xF0 then
    some (3, 0x90, 0xBF, 0)
  else if b < 0xF4 then
    some (3, 0x80, 0xBF, b.toNat - 0xF0)
  else if b = 0xF4 then
    some (3, 0x80, 0x8F, 4)
  else
    none

/-
  Read `need` continuation bytes onto the bits read so far.
  The first of them lies between `low` and `high`.  The
  number of bytes that fit is returned in any case.
-/
def continuation
    (low high : UInt8)
    (bits : Nat) : (need : Nat) → Bytes → Option Nat × Nat
  | 0, _ => (some bits, 0)
  | _ + 1, [] => (none, 0)
  | need + 1, b :: rest =>
      if low ≤ b && b ≤ high then
        let (r, used) :=
          continuation 0x80 0xBF
            (bits * 64 + (b.toNat - 0x80)) need rest
        (r, used + 1)
      else
        (none, 0)

/-
  The first character of a non-empty byte string, and how
  many bytes after the first one belong to it.  Without a
  character these bytes are the start of a broken one.
-/
def first
    (b : UInt8)
    (rest : Bytes) : Option Char × Nat :=
  match leading? b with
  | none => (none, 0)
  | some (need, low, high, bits) =>
      let (code?, used) := continuation low high bits need rest
      (code?.map Char.ofNat, used)

/-
  Decode, skipping the first `skip` bytes, which belong to a
  character already read.  `onBroken` says what stands for a
  broken character; without it decoding fails.
-/
def decodeFrom
    (onBroken : Option Text) : (skip : Nat) → Bytes → Option Text
  | _, [] => some []
  | skip + 1, _ :: rest => decodeFrom onBroken skip rest
  | 0, b :: rest =>
      match first b rest with
      | (some c, used) =>
          (decodeFrom onBroken used rest).map (c :: ·)
      | (none, used) =>
          match onBroken with
          | none => none
          | some mark =>
              (decodeFrom onBroken used rest).map (mark ++ ·)

/- Strict decoding: every byte belongs to a character. -/
def decode?
    (bs : Bytes) : Option Text :=
  decodeFrom none 0 bs

end Utf8

/-
  Decoding that never fails: the longest start of a broken
  character is read as one U+FFFD.
-/
def decodeLenient
    (bs : Bytes) : Text :=
  (Utf8.decodeFrom (some ['\uFFFD']) 0 bs).getD []

/- Decoding that leaves broken characters out. -/
def decodeIgnoring
    (bs : Bytes) : Text :=
  (Utf8.decodeFrom (some []) 0 bs).getD []

end Whittle

------------------------------------------------------------
-- Codecs
------------------------------------------------------------

namespace Whittle

/-
  A way to write texts as bytes, as files of text are written
  and read.  Some bytes may write no text, and some texts may
  have no form.
-/
structure Codec where
  decode? : Bytes → Option Text
  encode? : Text → Option Bytes

namespace Codec

def utf8 : Codec where
  decode? := Utf8.decode?
  encode? t := some (Utf8.encode t)

/- Each character is written as its own number. -/
def latin1 : Codec where
  decode? bs := some (bs.map fun b => Char.ofNat b.toNat)
  encode? t :=
    t.mapM fun c =>
      if c.toNat < 0x100 then some c.toNat.toUInt8 else none

def ascii : Codec where
  decode? bs :=
    bs.mapM fun b =>
      if b < 0x80 then some (Char.ofNat b.toNat) else none
  encode? t :=
    t.mapM fun c =>
      if c.toNat < 0x80 then some c.toNat.toUInt8 else none

end Codec

/-
  What is said about the charset of files: something that is
  no name, the name of no codec, or the name of a codec.
-/
inductive Charset where
| misnamed
| unknown
| known (codec : Codec)

end Whittle

------------------------------------------------------------
-- Line Ends
------------------------------------------------------------

namespace Whittle

namespace Text

/-
  Write every line end as a newline: a carriage return, with
  the newline after it if there is one, counts as one end.
-/
def unifyLineEnds : Text → Text
  | [] => []
  | '\r' :: '\n' :: rest => '\n' :: unifyLineEnds rest
  | c :: rest =>
      (if c = '\r' then '\n' else c) :: unifyLineEnds rest

end Text

end Whittle
