import CpuLoad.CodePoint
import CpuLoad.Printable

/-!
How a message shows a text: between single quotes, or between double quotes when the text has a single quote and no
double one. The quote, the backslash and every code point that does not print are escaped. Bytes are shown in the same
way behind the letter `b`, all beyond ASCII escaped.
-/
namespace CpuLoad.Quoted
open CpuLoad.Printable

/-- A number in lower-case hexadecimal, filled with zeros to a width. -/
def hexText (width n : Nat) : List Char :=
  let digits := Nat.toDigits 16 n
  List.replicate (width - digits.length) '0' ++ digits

def quoteFor (text : List Nat) : Char :=
  if text.contains '\''.toNat && !text.contains '"'.toNat then '"' else '\''

/-- The escaped form of one code point between two quotes. -/
def escape (quote : Char) (n : Nat) : List Char :=
  if n = quote.toNat || n = '\\'.toNat then ['\\', Char.ofNat n]
  else if n = '\n'.toNat then ['\\', 'n']
  else if n = '\r'.toNat then ['\\', 'r']
  else if n = '\t'.toNat then ['\\', 't']
  else if isPrintable n then [Char.ofNat n]
  else if n < 0x100 then '\\' :: 'x' :: hexText 2 n
  else if n < 0x10000 then '\\' :: 'u' :: hexText 4 n
  else '\\' :: 'U' :: hexText 8 n

def encode (text : List Nat) : List Char :=
  let quote := quoteFor text
  quote :: text.flatMap (escape quote) ++ [quote]

def quoted (s : String) : String := String.ofList (encode (CodePoint.points s))

def escapeByte (quote : Char) (n : Nat) : List Char :=
  if n < 0x7F then escape quote n else '\\' :: 'x' :: hexText 2 n

/-- Bytes between quotes, with their escapes. -/
def quotedBytes (bytes : List UInt8) : String :=
  let codes := bytes.map UInt8.toNat
  let quote := quoteFor codes
  String.ofList ('b' :: quote :: codes.flatMap (escapeByte quote) ++ [quote])

end CpuLoad.Quoted
