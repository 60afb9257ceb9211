/-!
# Upper and lower case

The words of the declaration language are ASCII, and they are recognised in any case.  Besides
the ASCII letters a few other characters have ASCII letters as their upper or lower case form:
the sharp s, the dotless i, the long s, the Latin ligatures and the Kelvin sign.  `upper` and
`lower` apply these and leave every other character alone.  Against an ASCII word this decides
exactly what the full case mapping of Unicode decides, since every character left alone has a
full mapping with a character outside ASCII in it, and is itself outside ASCII.
-/

namespace CheckRegistry.Text

/-- The characters outside ASCII whose upper case form is ASCII. -/
def upperForms : List (Nat × List Char) :=
  [(0xdf, ['S', 'S']), (0x131, ['I']), (0x17f, ['S']), (0xfb00, ['F', 'F']), (0xfb01, ['F', 'I']),
   (0xfb02, ['F', 'L']), (0xfb03, ['F', 'F', 'I']), (0xfb04, ['F', 'F', 'L']),
   (0xfb05, ['S', 'T']), (0xfb06, ['S', 'T'])]

/-- The characters outside ASCII whose lower case form is ASCII: the Kelvin sign. -/
def lowerForms : List (Nat × List Char) := [(0x212a, ['k'])]

/-- The upper case form of a character, as far as it is ASCII. -/
def upperChar (c : Char) : List Char := (upperForms.lookup c.toNat).getD [c.toUpper]

/-- The lower case form of a character, as far as it is ASCII. -/
def lowerChar (c : Char) : List Char := (lowerForms.lookup c.toNat).getD [c.toLower]

/-- The text with each character in its upper case form. -/
def upper (s : String) : String := String.ofList (s.toList.flatMap upperChar)

/-- The text with each character in its lower case form. -/
def lower (s : String) : String := String.ofList (s.toList.flatMap lowerChar)

end CheckRegistry.Text
