import Whittle.FrontEnd.Python
import Whittle.Settings.Reading
import Whittle.Token.CharacterName
import Whittle.Yaml.Document

/-
  What the command line of this library brings along for a
  run: a few codecs, a reader of small YAML documents, and the
  Python language with the names of common characters.

  Key definitions include:
    * `Codecs.standard`
    * `SettingsReader.standard`
    * `standardLanguages`

  A run takes each of them as it is given.  These are no more
  than a choice, and what is known of all runs does not depend
  on them.
-/

------------------------------------------------------------
-- Codecs
------------------------------------------------------------

namespace Whittle

namespace Codecs

/-
  A name in lower case, in which single underscores stand for
  all that is no letter, digit or point.
-/
def plainName
    (name : String) : String :=
  let words :=
    splitWhere (fun c => !(c.isAlphanum || c = '.'))
      (name.toList.map Char.toLower)
  String.ofList
    (List.intercalate ['_'] (words.filter (!·.isEmpty)))

/- The plain names of some codecs. -/
def aliases : List (Codec × List String) :=
  [(.utf8,
      ["utf_8", "u8", "utf", "utf8", "utf8_ucs2", "utf8_ucs4",
        "cp65001"]),
    (.latin1,
      ["latin_1", "8859", "cp819", "csisolatin1", "ibm819",
        "iso8859", "iso8859_1", "iso_8859_1", "iso_8859_1_1987",
        "iso_ir_100", "l1", "latin", "latin1"]),
    (.ascii,
      ["ascii", "646", "ansi_x3.4_1968", "ansi_x3.4_1986",
        "ansi_x3_4_1968", "cp367", "csascii", "ibm367",
        "iso646_us", "iso_646.irv_1991", "iso_ir_6", "us",
        "us_ascii"])]

/- The codec of a plain name. -/
def withAlias?
    (name : String) : Option Codec :=
  (aliases.find? fun a => a.2.contains name).map (·.1)

/- The codec of a name; points may stand for underscores. -/
def standardNamed?
    (name : String) : Option Codec :=
  let plain := plainName name
  let joined := plain.map fun c => if c = '.' then '_' else c
  if name = "locale" then
    some .utf8
  else
    (withAlias? plain).or (withAlias? joined)

def standard : Codecs :=
  ⟨standardNamed?, .utf8⟩

end Codecs

end Whittle

------------------------------------------------------------
-- Settings And Languages
------------------------------------------------------------

namespace Whittle

def SettingsReader.standard : SettingsReader :=
  ⟨.standard, Value.ofYaml?⟩

def standardLanguages : List FrontEnd :=
  [Python.frontEnd isCharacterName]

end Whittle
