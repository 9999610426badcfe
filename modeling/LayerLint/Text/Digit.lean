import LayerLint.Text.Blank

/-!
# Digits of all scripts

A number may be written with the decimal digits of any script of Unicode 14, and with any white space around it.
`numeral` gives such a text in ASCII. A whole number is neither read from more than `maxDigits` digits nor written in
more.
-/

namespace LayerLint.Text

/-- The code points of the digits for zero, in order. The digits up to nine follow each of them. -/
def zeroCodes : List Nat :=
  [0x30, 0x660, 0x6F0, 0x7C0, 0x966, 0x9E6, 0xA66, 0xAE6, 0xB66, 0xBE6, 0xC66, 0xCE6, 0xD66, 0xDE6, 0xE50, 0xED0,
    0xF20, 0x1040, 0x1090, 0x17E0, 0x1810, 0x1946, 0x19D0, 0x1A80, 0x1A90, 0x1B50, 0x1BB0, 0x1C40, 0x1C50, 0xA620,
    0xA8D0, 0xA900, 0xA9D0, 0xA9F0, 0xAA50, 0xABF0, 0xFF10, 0x104A0, 0x10D30, 0x11066, 0x110F0, 0x11136, 0x111D0,
    0x112F0, 0x11450, 0x114D0, 0x11650, 0x116C0, 0x11730, 0x118E0, 0x11950, 0x11C50, 0x11D50, 0x11DA0, 0x16A60,
    0x16AC0, 0x16B50, 0x1D7CE, 0x1D7D8, 0x1D7E2, 0x1D7EC, 0x1D7F6, 0x1E140, 0x1E2F0, 0x1E950, 0x1FBF0]

/-- The value of a decimal digit of any script. -/
def decimalDigit? (c : Char) : Option Nat :=
  (zeroCodes.find? fun first => decide (first ≤ c.toNat ∧ c.toNat < first + 10)).map (c.toNat - ·)

/-- A character as numbers show it: a digit as that of ASCII and white space as a space. -/
def plainDigit (c : Char) : Char :=
  if c.toNat < 0x80 then c
  else
    match decimalDigit? c with
    | some digit => Char.ofNat ('0'.toNat + digit)
    | none => if isBlank c then ' ' else c

/-- The character is white space of ASCII, without the separators among its control characters. -/
def isPlainBlank (c : Char) : Bool := c == ' ' || ('\t' ≤ c && c ≤ '\r')

/-- The text of a number in ASCII, without the white space around it. -/
def numeral (s : List Char) : List Char := trimChars isPlainBlank (s.map plainDigit)

/-- The character is a hexadecimal digit. -/
def isHex (c : Char) : Bool := c.isDigit || ('a' ≤ c && c ≤ 'f') || ('A' ≤ c && c ≤ 'F')

/-- The most digits of a whole number in base ten. -/
def maxDigits : Nat := 4300

/-- The wording of the error that a whole number has too many digits, with what is known about it. -/
def digitsMessage (known : String) : String :=
  s!"Exceeds the limit ({maxDigits} digits) for integer string conversion{known}; use " ++
    "sys.set_int_max_str_digits() to increase the limit"

/-- The whole number is written in base ten with no more digits than that. -/
def isWritable (n : Int) : Bool := n.natAbs < Nat.pow 10 maxDigits

/-- Numbers of a few digits are written. -/
theorem isWritable_of_lt {n : Int} {digits : Nat} (h : n.natAbs < Nat.pow 10 digits) (hdigits : digits ≤ maxDigits) :
    isWritable n = true := by
  have hpow : ∀ {most}, digits ≤ most → Nat.pow 10 digits ≤ Nat.pow 10 most := fun hmost =>
    Nat.pow_le_pow_right (by decide) hmost
  exact decide_eq_true (Nat.lt_of_lt_of_le h (hpow hdigits))

end LayerLint.Text
