/-!
The decimal digits of every script. Each script has ten of them in a row, so its zero stands for all ten.
-/
namespace CpuLoad.DecimalDigit

-- Powers are the core library's, whatever else is loaded.
attribute [local instance (high)] instPowNat

/-- The zeros of the scripts that write decimal numbers, in increasing order. -/
def zeros : List Nat := [
  0x30, 0x660, 0x6F0, 0x7C0, 0x966, 0x9E6, 0xA66, 0xAE6, 0xB66, 0xBE6, 0xC66, 0xCE6, 0xD66, 0xDE6, 0xE50, 0xED0,
  0xF20, 0x1040, 0x1090, 0x17E0, 0x1810, 0x1946, 0x19D0, 0x1A80, 0x1A90, 0x1B50, 0x1BB0, 0x1C40, 0x1C50, 0xA620,
  0xA8D0, 0xA900, 0xA9D0, 0xA9F0, 0xAA50, 0xABF0, 0xFF10, 0x104A0, 0x10D30, 0x11066, 0x110F0, 0x11136, 0x111D0,
  0x112F0, 0x11450, 0x114D0, 0x11650, 0x116C0, 0x11730, 0x118E0, 0x11950, 0x11C50, 0x11D50, 0x11DA0, 0x16A60,
  0x16AC0, 0x16B50, 0x1D7CE, 0x1D7D8, 0x1D7E2, 0x1D7EC, 0x1D7F6, 0x1E140, 0x1E2F0, 0x1E950, 0x1FBF0]

def value? (c : Char) : Option Nat :=
  (zeros.find? fun z => z ≤ c.toNat && c.toNat < z + 10).map (c.toNat - ·)

/-- The digit of a value below ten. -/
def ofNat (d : Nat) : Char := Char.ofNat ('0'.toNat + d)

/-- The value of a run of digits read from the left, after the value `start`. -/
def numberFrom (start : Nat) (digits : List Nat) : Nat := digits.foldl (fun n d => 10 * n + d) start

/-- The value of a run of digits. -/
def number (digits : List Nat) : Nat := numberFrom 0 digits

/-- The decimal digits of a number, the leading one first; zero has the one digit zero. -/
def digitsOf (n : Nat) : List Char := Nat.toDigits 10 n

/-- A number filled with zeros to a width. -/
def padded (width n : Nat) : String :=
  let digits := digitsOf n
  String.ofList (List.replicate (width - digits.length) '0' ++ digits)

/-- The most decimal digits that an integer is read or written with. -/
def maxDigits : Nat := 4300

def isWritable (n : Int) : Bool := decide (n.natAbs < 10 ^ maxDigits)

def intText (n : Int) : String :=
  if n < 0 then String.ofList ('-' :: digitsOf n.natAbs) else String.ofList (digitsOf n.natAbs)

end CpuLoad.DecimalDigit
