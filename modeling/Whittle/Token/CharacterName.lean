/-
  The names of some characters, for the command line of this
  library.

  Key definitions include:
    * `characterNames`
    * `isCharacterName`

  The language takes it as given which names there are.
-/

------------------------------------------------------------
-- Names
------------------------------------------------------------

namespace Whittle

/-
  The names of characters that an escape may use: letters of
  the Latin, Greek and Cyrillic alphabets, digits, marks and
  common signs, in alphabetical order.
-/
def characterNames : Array String :=
  #[
    "ACUTE ACCENT", "ALERT", "ALMOST EQUAL TO", "AMPERSAND",
    "ANGRY FACE", "ANGUISHED FACE", "APOSTROPHE", "ASTERISK",
    "ASTONISHED FACE", "BACKSPACE", "BALLOT X", "BEL",
    "BITCOIN SIGN", "BLACK CIRCLE", "BLACK CLUB SUIT",
    "BLACK DIAMOND SUIT", "BLACK HEART SUIT", "BLACK SMILING FACE",
    "BLACK SPADE SUIT", "BLACK SQUARE", "BLACK STAR",
    "BLACK SUN WITH RAYS", "BOM", "BOX DRAWINGS HEAVY HORIZONTAL",
    "BOX DRAWINGS HEAVY VERTICAL", "BOX DRAWINGS LIGHT HORIZONTAL",
    "BOX DRAWINGS LIGHT VERTICAL", "BROKEN BAR", "BULLET",
    "BULLSEYE", "BYTE ORDER MARK", "CARRIAGE RETURN", "CAT FACE",
    "CAT FACE WITH TEARS OF JOY", "CAT FACE WITH WRY SMILE",
    "CEDILLA", "CENT SIGN", "CHARACTER TABULATION", "CHECK MARK",
    "CIRCLE WITH VERTICAL FILL", "CIRCUMFLEX ACCENT", "CLOUD",
    "COLON", "COMET", "COMMA", "COMMERCIAL AT", "COMPLEMENT",
    "CONFOUNDED FACE", "CONFUSED FACE", "CONTAINS AS MEMBER",
    "COPYRIGHT SIGN", "CR", "CRYING CAT FACE", "CRYING FACE",
    "CUBE ROOT", "CURRENCY SIGN", "CYRILLIC CAPITAL LETTER A",
    "CYRILLIC CAPITAL LETTER BE", "CYRILLIC CAPITAL LETTER CHE",
    "CYRILLIC CAPITAL LETTER DE", "CYRILLIC CAPITAL LETTER E",
    "CYRILLIC CAPITAL LETTER EF", "CYRILLIC CAPITAL LETTER EL",
    "CYRILLIC CAPITAL LETTER EM", "CYRILLIC CAPITAL LETTER EN",
    "CYRILLIC CAPITAL LETTER ER", "CYRILLIC CAPITAL LETTER ES",
    "CYRILLIC CAPITAL LETTER GHE", "CYRILLIC CAPITAL LETTER HA",
    "CYRILLIC CAPITAL LETTER HARD SIGN", "CYRILLIC CAPITAL LETTER I",
    "CYRILLIC CAPITAL LETTER IE", "CYRILLIC CAPITAL LETTER KA",
    "CYRILLIC CAPITAL LETTER O", "CYRILLIC CAPITAL LETTER PE",
    "CYRILLIC CAPITAL LETTER SHA", "CYRILLIC CAPITAL LETTER SHCHA",
    "CYRILLIC CAPITAL LETTER SHORT I",
    "CYRILLIC CAPITAL LETTER SOFT SIGN",
    "CYRILLIC CAPITAL LETTER TE", "CYRILLIC CAPITAL LETTER TSE",
    "CYRILLIC CAPITAL LETTER U", "CYRILLIC CAPITAL LETTER VE",
    "CYRILLIC CAPITAL LETTER YA", "CYRILLIC CAPITAL LETTER YERU",
    "CYRILLIC CAPITAL LETTER YU", "CYRILLIC CAPITAL LETTER ZE",
    "CYRILLIC CAPITAL LETTER ZHE", "CYRILLIC SMALL LETTER A",
    "CYRILLIC SMALL LETTER BE", "CYRILLIC SMALL LETTER CHE",
    "CYRILLIC SMALL LETTER DE", "CYRILLIC SMALL LETTER E",
    "CYRILLIC SMALL LETTER EF", "CYRILLIC SMALL LETTER EL",
    "CYRILLIC SMALL LETTER EM", "CYRILLIC SMALL LETTER EN",
    "CYRILLIC SMALL LETTER ER", "CYRILLIC SMALL LETTER ES",
    "CYRILLIC SMALL LETTER GHE", "CYRILLIC SMALL LETTER HA",
    "CYRILLIC SMALL LETTER HARD SIGN", "CYRILLIC SMALL LETTER I",
    "CYRILLIC SMALL LETTER IE", "CYRILLIC SMALL LETTER KA",
    "CYRILLIC SMALL LETTER O", "CYRILLIC SMALL LETTER PE",
    "CYRILLIC SMALL LETTER SHA", "CYRILLIC SMALL LETTER SHCHA",
    "CYRILLIC SMALL LETTER SHORT I",
    "CYRILLIC SMALL LETTER SOFT SIGN", "CYRILLIC SMALL LETTER TE",
    "CYRILLIC SMALL LETTER TSE", "CYRILLIC SMALL LETTER U",
    "CYRILLIC SMALL LETTER VE", "CYRILLIC SMALL LETTER YA",
    "CYRILLIC SMALL LETTER YERU", "CYRILLIC SMALL LETTER YU",
    "CYRILLIC SMALL LETTER ZE", "CYRILLIC SMALL LETTER ZHE",
    "DAGGER", "DEGREE SIGN", "DEL", "DELETE", "DIAERESIS",
    "DIGIT EIGHT", "DIGIT FIVE", "DIGIT FOUR", "DIGIT NINE",
    "DIGIT ONE", "DIGIT SEVEN", "DIGIT SIX", "DIGIT THREE",
    "DIGIT TWO", "DIGIT ZERO", "DISAPPOINTED BUT RELIEVED FACE",
    "DISAPPOINTED FACE", "DIVISION SIGN", "DIZZY FACE",
    "DOES NOT CONTAIN AS MEMBER", "DOG FACE", "DOLLAR SIGN",
    "DOTTED CIRCLE", "DOUBLE DAGGER",
    "DOUBLE HIGH-REVERSED-9 QUOTATION MARK",
    "DOUBLE LOW-9 QUOTATION MARK", "DOUBLE PRIME", "DOWNWARDS ARROW",
    "DOWNWARDS DOUBLE ARROW", "ELEMENT OF", "EM DASH", "EMPTY SET",
    "EN DASH", "END OF LINE", "END OF PROOF", "EQUALS SIGN", "ESC",
    "ESCAPE", "EURO SIGN", "EXCLAMATION MARK", "EXPRESSIONLESS FACE",
    "FACE SAVOURING DELICIOUS FOOD", "FACE SCREAMING IN FEAR",
    "FACE THROWING A KISS", "FACE WITH COLD SWEAT",
    "FACE WITH LOOK OF TRIUMPH", "FACE WITH MEDICAL MASK",
    "FACE WITH NO GOOD GESTURE", "FACE WITH OK GESTURE",
    "FACE WITH OPEN MOUTH", "FACE WITH OPEN MOUTH AND COLD SWEAT",
    "FACE WITH ROLLING EYES", "FACE WITH STUCK-OUT TONGUE",
    "FACE WITH STUCK-OUT TONGUE AND TIGHTLY-CLOSED EYES",
    "FACE WITH STUCK-OUT TONGUE AND WINKING EYE",
    "FACE WITH TEARS OF JOY", "FACE WITHOUT MOUTH", "FEARFUL FACE",
    "FEMININE ORDINAL INDICATOR", "FF", "FIGURE DASH", "FIRE",
    "FLUSHED FACE", "FOR ALL", "FORM FEED", "FOURTH ROOT",
    "FROWNING FACE WITH OPEN MOUTH", "FULL BLOCK", "FULL STOP",
    "GRAVE ACCENT", "GREATER-THAN OR EQUAL TO", "GREATER-THAN SIGN",
    "GREEK CAPITAL LETTER ALPHA", "GREEK CAPITAL LETTER BETA",
    "GREEK CAPITAL LETTER CHI", "GREEK CAPITAL LETTER DELTA",
    "GREEK CAPITAL LETTER EPSILON", "GREEK CAPITAL LETTER ETA",
    "GREEK CAPITAL LETTER GAMMA", "GREEK CAPITAL LETTER IOTA",
    "GREEK CAPITAL LETTER KAPPA", "GREEK CAPITAL LETTER LAMDA",
    "GREEK CAPITAL LETTER MU", "GREEK CAPITAL LETTER NU",
    "GREEK CAPITAL LETTER OMEGA", "GREEK CAPITAL LETTER OMICRON",
    "GREEK CAPITAL LETTER PHI", "GREEK CAPITAL LETTER PI",
    "GREEK CAPITAL LETTER PSI", "GREEK CAPITAL LETTER RHO",
    "GREEK CAPITAL LETTER SIGMA", "GREEK CAPITAL LETTER TAU",
    "GREEK CAPITAL LETTER THETA", "GREEK CAPITAL LETTER UPSILON",
    "GREEK CAPITAL LETTER XI", "GREEK CAPITAL LETTER ZETA",
    "GREEK SMALL LETTER ALPHA", "GREEK SMALL LETTER BETA",
    "GREEK SMALL LETTER CHI", "GREEK SMALL LETTER DELTA",
    "GREEK SMALL LETTER EPSILON", "GREEK SMALL LETTER ETA",
    "GREEK SMALL LETTER FINAL SIGMA", "GREEK SMALL LETTER GAMMA",
    "GREEK SMALL LETTER IOTA", "GREEK SMALL LETTER KAPPA",
    "GREEK SMALL LETTER LAMDA", "GREEK SMALL LETTER MU",
    "GREEK SMALL LETTER NU", "GREEK SMALL LETTER OMEGA",
    "GREEK SMALL LETTER OMICRON", "GREEK SMALL LETTER PHI",
    "GREEK SMALL LETTER PI", "GREEK SMALL LETTER PSI",
    "GREEK SMALL LETTER RHO", "GREEK SMALL LETTER SIGMA",
    "GREEK SMALL LETTER TAU", "GREEK SMALL LETTER THETA",
    "GREEK SMALL LETTER UPSILON", "GREEK SMALL LETTER XI",
    "GREEK SMALL LETTER ZETA", "GRIMACING FACE",
    "GRINNING CAT FACE WITH SMILING EYES", "GRINNING FACE",
    "GRINNING FACE WITH SMILING EYES",
    "HAPPY PERSON RAISING ONE HAND", "HEAR-NO-EVIL MONKEY",
    "HEAVY BALLOT X", "HEAVY BLACK HEART", "HEAVY CHECK MARK",
    "HEAVY MULTIPLICATION X", "HORIZONTAL BAR",
    "HORIZONTAL ELLIPSIS", "HORIZONTAL TABULATION", "HT",
    "HUSHED FACE", "HYPHEN", "HYPHEN-MINUS", "IDENTICAL TO",
    "IDEOGRAPHIC COMMA", "IDEOGRAPHIC FULL STOP",
    "IDEOGRAPHIC SPACE", "INCREMENT", "INFINITY", "INTEGRAL",
    "INTERSECTION", "INVERTED EXCLAMATION MARK",
    "INVERTED QUESTION MARK", "KISSING CAT FACE WITH CLOSED EYES",
    "KISSING FACE", "KISSING FACE WITH CLOSED EYES",
    "KISSING FACE WITH SMILING EYES", "LATIN CAPITAL LETTER A",
    "LATIN CAPITAL LETTER A WITH ACUTE",
    "LATIN CAPITAL LETTER A WITH CIRCUMFLEX",
    "LATIN CAPITAL LETTER A WITH DIAERESIS",
    "LATIN CAPITAL LETTER A WITH GRAVE",
    "LATIN CAPITAL LETTER A WITH RING ABOVE",
    "LATIN CAPITAL LETTER A WITH TILDE", "LATIN CAPITAL LETTER AE",
    "LATIN CAPITAL LETTER B", "LATIN CAPITAL LETTER C",
    "LATIN CAPITAL LETTER C WITH CEDILLA", "LATIN CAPITAL LETTER D",
    "LATIN CAPITAL LETTER E", "LATIN CAPITAL LETTER E WITH ACUTE",
    "LATIN CAPITAL LETTER E WITH CIRCUMFLEX",
    "LATIN CAPITAL LETTER E WITH DIAERESIS",
    "LATIN CAPITAL LETTER E WITH GRAVE", "LATIN CAPITAL LETTER ETH",
    "LATIN CAPITAL LETTER F", "LATIN CAPITAL LETTER G",
    "LATIN CAPITAL LETTER H", "LATIN CAPITAL LETTER I",
    "LATIN CAPITAL LETTER I WITH ACUTE",
    "LATIN CAPITAL LETTER I WITH CIRCUMFLEX",
    "LATIN CAPITAL LETTER I WITH DIAERESIS",
    "LATIN CAPITAL LETTER I WITH GRAVE", "LATIN CAPITAL LETTER J",
    "LATIN CAPITAL LETTER K", "LATIN CAPITAL LETTER L",
    "LATIN CAPITAL LETTER M", "LATIN CAPITAL LETTER N",
    "LATIN CAPITAL LETTER N WITH TILDE", "LATIN CAPITAL LETTER O",
    "LATIN CAPITAL LETTER O WITH ACUTE",
    "LATIN CAPITAL LETTER O WITH CIRCUMFLEX",
    "LATIN CAPITAL LETTER O WITH DIAERESIS",
    "LATIN CAPITAL LETTER O WITH GRAVE",
    "LATIN CAPITAL LETTER O WITH STROKE",
    "LATIN CAPITAL LETTER O WITH TILDE", "LATIN CAPITAL LETTER P",
    "LATIN CAPITAL LETTER Q", "LATIN CAPITAL LETTER R",
    "LATIN CAPITAL LETTER S", "LATIN CAPITAL LETTER S WITH CARON",
    "LATIN CAPITAL LETTER T", "LATIN CAPITAL LETTER THORN",
    "LATIN CAPITAL LETTER U", "LATIN CAPITAL LETTER U WITH ACUTE",
    "LATIN CAPITAL LETTER U WITH CIRCUMFLEX",
    "LATIN CAPITAL LETTER U WITH DIAERESIS",
    "LATIN CAPITAL LETTER U WITH GRAVE", "LATIN CAPITAL LETTER V",
    "LATIN CAPITAL LETTER W", "LATIN CAPITAL LETTER X",
    "LATIN CAPITAL LETTER Y", "LATIN CAPITAL LETTER Y WITH ACUTE",
    "LATIN CAPITAL LETTER Z", "LATIN CAPITAL LETTER Z WITH CARON",
    "LATIN CAPITAL LIGATURE OE", "LATIN SMALL LETTER A",
    "LATIN SMALL LETTER A WITH ACUTE",
    "LATIN SMALL LETTER A WITH CIRCUMFLEX",
    "LATIN SMALL LETTER A WITH DIAERESIS",
    "LATIN SMALL LETTER A WITH GRAVE",
    "LATIN SMALL LETTER A WITH RING ABOVE",
    "LATIN SMALL LETTER A WITH TILDE", "LATIN SMALL LETTER AE",
    "LATIN SMALL LETTER B", "LATIN SMALL LETTER C",
    "LATIN SMALL LETTER C WITH CEDILLA", "LATIN SMALL LETTER D",
    "LATIN SMALL LETTER E", "LATIN SMALL LETTER E WITH ACUTE",
    "LATIN SMALL LETTER E WITH CIRCUMFLEX",
    "LATIN SMALL LETTER E WITH DIAERESIS",
    "LATIN SMALL LETTER E WITH GRAVE", "LATIN SMALL LETTER ETH",
    "LATIN SMALL LETTER F", "LATIN SMALL LETTER G",
    "LATIN SMALL LETTER H", "LATIN SMALL LETTER I",
    "LATIN SMALL LETTER I WITH ACUTE",
    "LATIN SMALL LETTER I WITH CIRCUMFLEX",
    "LATIN SMALL LETTER I WITH DIAERESIS",
    "LATIN SMALL LETTER I WITH GRAVE", "LATIN SMALL LETTER J",
    "LATIN SMALL LETTER K", "LATIN SMALL LETTER L",
    "LATIN SMALL LETTER M", "LATIN SMALL LETTER N",
    "LATIN SMALL LETTER N WITH TILDE", "LATIN SMALL LETTER O",
    "LATIN SMALL LETTER O WITH ACUTE",
    "LATIN SMALL LETTER O WITH CIRCUMFLEX",
    "LATIN SMALL LETTER O WITH DIAERESIS",
    "LATIN SMALL LETTER O WITH GRAVE",
    "LATIN SMALL LETTER O WITH STROKE",
    "LATIN SMALL LETTER O WITH TILDE", "LATIN SMALL LETTER P",
    "LATIN SMALL LETTER Q", "LATIN SMALL LETTER R",
    "LATIN SMALL LETTER S", "LATIN SMALL LETTER S WITH CARON",
    "LATIN SMALL LETTER SHARP S", "LATIN SMALL LETTER T",
    "LATIN SMALL LETTER THORN", "LATIN SMALL LETTER U",
    "LATIN SMALL LETTER U WITH ACUTE",
    "LATIN SMALL LETTER U WITH CIRCUMFLEX",
    "LATIN SMALL LETTER U WITH DIAERESIS",
    "LATIN SMALL LETTER U WITH GRAVE", "LATIN SMALL LETTER V",
    "LATIN SMALL LETTER W", "LATIN SMALL LETTER X",
    "LATIN SMALL LETTER Y", "LATIN SMALL LETTER Y WITH ACUTE",
    "LATIN SMALL LETTER Y WITH DIAERESIS", "LATIN SMALL LETTER Z",
    "LATIN SMALL LETTER Z WITH CARON", "LATIN SMALL LIGATURE OE",
    "LEFT CURLY BRACKET", "LEFT DOUBLE QUOTATION MARK",
    "LEFT PARENTHESIS", "LEFT RIGHT ARROW",
    "LEFT RIGHT DOUBLE ARROW", "LEFT SINGLE QUOTATION MARK",
    "LEFT SQUARE BRACKET",
    "LEFT-POINTING DOUBLE ANGLE QUOTATION MARK",
    "LEFT-TO-RIGHT MARK", "LEFTWARDS ARROW",
    "LEFTWARDS DOUBLE ARROW", "LESS-THAN OR EQUAL TO",
    "LESS-THAN SIGN", "LF", "LINE FEED", "LINE SEPARATOR",
    "LINE TABULATION", "LOGICAL AND", "LOGICAL OR",
    "LOUDLY CRYING FACE", "LOW LINE", "MACRON",
    "MASCULINE ORDINAL INDICATOR", "MICRO SIGN", "MIDDLE DOT",
    "MINUS SIGN", "MINUS-OR-PLUS SIGN", "MULTIPLICATION SIGN",
    "MULTIPLICATION X", "N-ARY COPRODUCT", "N-ARY PRODUCT",
    "N-ARY SUMMATION", "NABLA", "NARROW NO-BREAK SPACE", "NBSP",
    "NEL", "NEUTRAL FACE", "NEW LINE", "NEXT LINE", "NO-BREAK SPACE",
    "NON-BREAKING HYPHEN", "NOT A SUBSET OF", "NOT A SUPERSET OF",
    "NOT AN ELEMENT OF", "NOT EQUAL TO", "NOT IDENTICAL TO",
    "NOT SIGN", "NUL", "NULL", "NUMBER SIGN", "OHM SIGN",
    "PARAGRAPH SEPARATOR", "PARTIAL DIFFERENTIAL", "PARTY POPPER",
    "PENSIVE FACE", "PER MILLE SIGN", "PERCENT SIGN",
    "PERSEVERING FACE", "PERSON BOWING DEEPLY", "PERSON FROWNING",
    "PERSON RAISING BOTH HANDS IN CELEBRATION",
    "PERSON WITH FOLDED HANDS", "PERSON WITH POUTING FACE",
    "PILCROW SIGN", "PILE OF POO", "PLUS SIGN", "PLUS-MINUS SIGN",
    "POUND SIGN", "POUTING CAT FACE", "POUTING FACE", "PRIME",
    "PROPORTIONAL TO", "QUESTION MARK", "QUOTATION MARK",
    "REGISTERED SIGN", "RELIEVED FACE", "REPLACEMENT CHARACTER",
    "REVERSE SOLIDUS", "RIGHT CURLY BRACKET",
    "RIGHT DOUBLE QUOTATION MARK", "RIGHT PARENTHESIS",
    "RIGHT SINGLE QUOTATION MARK", "RIGHT SQUARE BRACKET",
    "RIGHT-POINTING DOUBLE ANGLE QUOTATION MARK",
    "RIGHT-TO-LEFT MARK", "RIGHTWARDS ARROW",
    "RIGHTWARDS DOUBLE ARROW", "ROCKET", "SECTION SIGN",
    "SEE-NO-EVIL MONKEY", "SEMICOLON", "SHY",
    "SINGLE HIGH-REVERSED-9 QUOTATION MARK",
    "SINGLE LOW-9 QUOTATION MARK", "SLEEPING FACE", "SLEEPY FACE",
    "SLIGHTLY FROWNING FACE", "SLIGHTLY SMILING FACE",
    "SMALL CONTAINS AS MEMBER", "SMALL ELEMENT OF",
    "SMILING CAT FACE WITH HEART-SHAPED EYES",
    "SMILING CAT FACE WITH OPEN MOUTH", "SMILING FACE WITH HALO",
    "SMILING FACE WITH HEART-SHAPED EYES", "SMILING FACE WITH HORNS",
    "SMILING FACE WITH OPEN MOUTH",
    "SMILING FACE WITH OPEN MOUTH AND COLD SWEAT",
    "SMILING FACE WITH OPEN MOUTH AND SMILING EYES",
    "SMILING FACE WITH OPEN MOUTH AND TIGHTLY-CLOSED EYES",
    "SMILING FACE WITH SMILING EYES", "SMILING FACE WITH SUNGLASSES",
    "SMIRKING FACE", "SNAKE", "SNOWMAN", "SOFT HYPHEN", "SOLIDUS",
    "SP", "SPACE", "SPEAK-NO-EVIL MONKEY", "SQUARE ROOT",
    "START OF HEADING", "STRICTLY EQUIVALENT TO", "SUBSET OF",
    "SUBSET OF OR EQUAL TO", "SUPERSCRIPT ONE", "SUPERSCRIPT THREE",
    "SUPERSCRIPT TWO", "SUPERSET OF", "SUPERSET OF OR EQUAL TO",
    "TAB", "THERE DOES NOT EXIST", "THERE EXISTS",
    "THUMBS DOWN SIGN", "THUMBS UP SIGN", "TILDE", "TIRED FACE",
    "TRADE MARK SIGN", "UMBRELLA", "UNAMUSED FACE", "UNION",
    "UP DOWN ARROW", "UP DOWN DOUBLE ARROW", "UPSIDE-DOWN FACE",
    "UPWARDS ARROW", "UPWARDS DOUBLE ARROW", "VERTICAL LINE",
    "VERTICAL TABULATION", "VULGAR FRACTION ONE HALF",
    "VULGAR FRACTION ONE QUARTER", "VULGAR FRACTION THREE QUARTERS",
    "WEARY CAT FACE", "WEARY FACE", "WHITE CIRCLE",
    "WHITE CLUB SUIT", "WHITE DIAMOND SUIT", "WHITE FROWNING FACE",
    "WHITE HEART SUIT", "WHITE SMILING FACE", "WHITE SPADE SUIT",
    "WHITE SQUARE", "WHITE STAR", "WINKING FACE", "WORRIED FACE",
    "YEN SIGN", "ZERO WIDTH JOINER", "ZERO WIDTH NO-BREAK SPACE",
    "ZERO WIDTH NON-JOINER", "ZERO WIDTH SPACE", "ZWJ", "ZWNJ",
    "ZWSP"
  ]

/- Some character has this name, in letters of any case. -/
def isCharacterName
    (name : String) : Bool :=
  characterNames.contains name.toUpper

end Whittle
