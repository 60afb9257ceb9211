import CheckRegistry.Text.Hex

/-!
# UTF-8

Reading the bytes of a file as text.  The reader accepts exactly the well-formed sequences: no
overlong form, no surrogate, nothing above U+10FFFF.  On the first ill-formed sequence it stops
and reports the longest stretch of bytes that could still have begun a character, and why the
next byte, or the end of the file, does not continue it.
-/

namespace CheckRegistry.Utf8

/-- Why a stretch of bytes is not the beginning of a character. -/
inductive Flaw
  /-- No character begins with this byte. -/
  | badStart
  /-- The byte that follows cannot continue the character. -/
  | badContinuation
  /-- The bytes end within the character. -/
  | cutShort
  deriving DecidableEq, Repr

/-- The wording of a flaw. -/
def Flaw.message : Flaw → String
  | .badStart => "invalid start byte"
  | .badContinuation => "invalid continuation byte"
  | .cutShort => "unexpected end of data"

/-- The first ill-formed stretch: its first byte, where it starts, how long it is, and why. -/
structure DecodeError where
  byte : UInt8
  start : Nat
  length : Nat
  flaw : Flaw
  deriving DecidableEq, Repr

/-- The wording of a decoding error: the byte when the stretch is a single one, and the offsets
of the stretch otherwise. -/
def DecodeError.message (e : DecodeError) : String :=
  let place :=
    if e.length = 1 then
      s!"byte 0x{String.ofList (Text.hex 2 e.byte.toNat)} in position {e.start}"
    else s!"bytes in position {e.start}-{e.start + e.length - 1}"
  "'utf-8' codec can't decode " ++ place ++ ": " ++ e.flaw.message

/-- The bounds of the byte after a lead byte, how many continuation bytes follow in all, and the
part of the code point that the lead byte carries. -/
structure Lead where
  low : Nat
  high : Nat
  following : Nat
  bits : Nat

/-- Reads a byte as the lead byte of a character of several bytes. -/
def lead? (b : Nat) : Option Lead :=
  if b < 0xc2 then none
  else if b < 0xe0 then some ⟨0x80, 0xbf, 1, b - 0xc0⟩
  else if b = 0xe0 then some ⟨0xa0, 0xbf, 2, 0⟩
  else if b = 0xed then some ⟨0x80, 0x9f, 2, 0xd⟩
  else if b < 0xf0 then some ⟨0x80, 0xbf, 2, b - 0xe0⟩
  else if b = 0xf0 then some ⟨0x90, 0xbf, 3, 0⟩
  else if b < 0xf4 then some ⟨0x80, 0xbf, 3, b - 0xf0⟩
  else if b = 0xf4 then some ⟨0x80, 0x8f, 3, 4⟩
  else none

/-- What reading the continuation bytes of one character came to: the finished code point, or
the flaw and the number of bytes it spans. -/
inductive Tail
  | done (code : Nat)
  | flawed (length : Nat) (flaw : Flaw)

/-- Reads `following` continuation bytes.  The first of them is bounded by `low` and `high`, the
others by 80 and BF.  `taken` counts the bytes of the character already read. -/
def continuation (low high following code taken : Nat) : List UInt8 → Tail
  | rest =>
    match following with
    | 0 => .done code
    | following + 1 =>
      match rest with
      | [] => .flawed taken .cutShort
      | b :: rest =>
        if low ≤ b.toNat ∧ b.toNat ≤ high then
          continuation 0x80 0xbf following (code * 64 + b.toNat % 64) (taken + 1) rest
        else .flawed taken .badContinuation

/-- Reads the bytes that start at offset `start`, of which the first `skip` belong to a character
already read. -/
def decodeFrom (start skip : Nat) : List UInt8 → Except DecodeError (List Char)
  | [] => .ok []
  | b :: rest =>
    match skip with
    | skip + 1 => decodeFrom (start + 1) skip rest
    | 0 =>
      if b.toNat < 0x80 then
        (Char.ofNat b.toNat :: ·) <$> decodeFrom (start + 1) 0 rest
      else
        match lead? b.toNat with
        | none => .error ⟨b, start, 1, .badStart⟩
        | some lead =>
          match continuation lead.low lead.high lead.following lead.bits 1 rest with
          | .done code => (Char.ofNat code :: ·) <$> decodeFrom (start + 1) lead.following rest
          | .flawed length flaw => .error ⟨b, start, length, flaw⟩

/-- Reads bytes as text. -/
def decode (bytes : List UInt8) : Except DecodeError (List Char) := decodeFrom 0 0 bytes

/-- The bytes of a text. -/
def encode (s : String) : List UInt8 := s.toUTF8.toList

example : (decode [0x61, 0xc3, 0xa9]).toOption = some ['a', 'é'] := by decide
example : decode [0xf0, 0x9f, 0x98] = .error ⟨0xf0, 0, 3, .cutShort⟩ := by rfl
example : decode [0xed, 0xa0, 0x80] = .error ⟨0xed, 0, 1, .badContinuation⟩ := by rfl

end CheckRegistry.Utf8
