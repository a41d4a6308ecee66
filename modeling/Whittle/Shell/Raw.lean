import Whittle.Disk.Basic

/-
  Texts that hold one character for each byte.

  Key definitions include:
    * `rawText`
    * `rawBytes`
    * `rawPath`
-/

------------------------------------------------------------
-- Bytes As Characters
------------------------------------------------------------

namespace Whittle

namespace Shell

/- The characters that stand for bytes. -/
def rawText
    (bs : Bytes) : Text :=
  bs.map fun b => Char.ofNat b.toNat

/- The bytes that characters stand for. -/
def rawBytes
    (t : Text) : Bytes :=
  t.map fun c => c.toNat.toUInt8

/- The characters for the bytes that write a string. -/
def rawString
    (s : String) : Text :=
  rawText (Utf8.encode s.toList)

/- The string whose bytes a text stands for. -/
def cooked
    (t : Text) : String :=
  String.ofList (decodeLenient (rawBytes t))

/- The path that a text names. -/
def rawPath
    (t : Text) : FilePath :=
  .ofText (cooked t)

end Shell

end Whittle
