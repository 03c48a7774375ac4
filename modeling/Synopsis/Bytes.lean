import Synopsis.Text.Basic

/-!
# Bytes

Bytes are written in base 64 with four characters for three of them, and shown in quotes after a letter.
They may hold a text in UTF-8.
-/

namespace Synopsis

abbrev Bytes := List UInt8

namespace Bytes

/-- The text that bytes hold in UTF-8, if they hold one. -/
def toText? (bs : Bytes) : Option Text :=
  (String.fromUTF8? ⟨bs.toArray⟩).map String.toList

def quoteFor (bs : Bytes) : Char :=
  if bs.contains 0x27 && !bs.contains 0x22 then '"' else '\''

def quotedByte (quote : Char) (b : UInt8) : Text :=
  let c := Char.ofNat b.toNat
  if c = quote || c = '\\' then ['\\', c]
  else if c = '\n' then ['\\', 'n']
  else if c = '\r' then ['\\', 'r']
  else if c = '\t' then ['\\', 't']
  else if 0x20 ≤ b && b < 0x7F then [c]
  else '\\' :: 'x' :: Text.hexadecimal 2 b.toNat

def quoted (bs : Bytes) : Text :=
  'b' :: bs.quoteFor :: bs.flatMap (quotedByte bs.quoteFor) ++ [bs.quoteFor]

def sextet? (c : Char) : Option Nat :=
  if 'A' ≤ c && c ≤ 'Z' then some (c.toNat - 'A'.toNat)
  else if 'a' ≤ c && c ≤ 'z' then some (c.toNat - 'a'.toNat + 26)
  else if '0' ≤ c && c ≤ '9' then some (c.toNat - '0'.toNat + 52)
  else if c = '+' then some 62
  else if c = '/' then some 63
  else none

/-- Reads base 64 from a place in a group of four on, with the bits left over from the character before. Other
characters are skipped, and a group that ends in padding ends the text. -/
def ofBase64From (place left padding : Nat) : Text → Option Bytes
  | [] => if place = 0 then some [] else none
  | c :: rest =>
    if c = '=' then
      if place < 2 then ofBase64From place left padding rest
      else if 4 ≤ place + padding + 1 then some []
      else ofBase64From place left (padding + 1) rest
    else match sextet? c, place with
      | none, _ => ofBase64From place left padding rest
      | some n, 0 => ofBase64From 1 n 0 rest
      | some n, 1 => (ofBase64From 2 (n % 16) 0 rest).map ((4 * left + n / 16).toUInt8 :: ·)
      | some n, 2 => (ofBase64From 3 (n % 4) 0 rest).map ((16 * left + n / 4).toUInt8 :: ·)
      | some n, _ => (ofBase64From 0 0 0 rest).map ((64 * left + n).toUInt8 :: ·)

def ofBase64? (t : Text) : Option Bytes :=
  ofBase64From 0 0 0 t

@[simp] theorem ofBase64?_nil : ofBase64? [] = some [] := rfl

end Bytes

end Synopsis
