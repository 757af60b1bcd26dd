import CpuLoad.Blank
import CpuLoad.Markup.Cursor

/-!
How the bytes of a document become the characters that are read. Bytes are taken in chunks and decoded as UTF-8, with
every line end as a line feed; characters are handed over in portions of 4096, the first time two portions at once. A
chunk that is no UTF-8, and a portion with a character that may not stand in a document, end the supply with a fault
before anything of that portion is handed over; what was handed over before is still read, and may be refused first.
-/
namespace CpuLoad.Markup

/-- The characters of a document, and the fault that the supply ends with if it does not end with the document. -/
structure Supply where
  text : List Char
  ending : Option Fault
  deriving Inhabited

namespace Supply

/-! ### Decoding -/

/-- How a run of bytes ends. -/
inductive Ending
  | whole
  | inside
  /-- With the byte at an offset, which cannot stand there. -/
  | wrong (offset : Nat)

/-- The range of a byte that continues a character. -/
def continuing : Nat × Nat := (0x80, 0xBF)

/-- The part of a character's number that its first byte holds, and the ranges of the bytes that have to follow. -/
def leading (b : Nat) : Option (Nat × List (Nat × Nat)) :=
  if b < 0x80 then some (b, [])
  else if b < 0xC2 then none
  else if b < 0xE0 then some (b - 0xC0, [continuing])
  else if b = 0xE0 then some (b - 0xE0, [(0xA0, 0xBF), continuing])
  else if b = 0xED then some (b - 0xE0, [(0x80, 0x9F), continuing])
  else if b < 0xF0 then some (b - 0xE0, [continuing, continuing])
  else if b = 0xF0 then some (b - 0xF0, [(0x90, 0xBF), continuing, continuing])
  else if b < 0xF4 then some (b - 0xF0, [continuing, continuing, continuing])
  else if b = 0xF4 then some (b - 0xF0, [(0x80, 0x8F), continuing, continuing])
  else none

/-- The characters of bytes from an offset on, each with the offset behind it. `number` and `ranges` are those of the
    character that has begun. -/
def decodeFrom (number : Nat) (ranges : List (Nat × Nat)) (offset : Nat) :
    List UInt8 → List (Char × Nat) × Ending
  | [] => ([], if ranges.isEmpty then .whole else .inside)
  | byte :: rest =>
    let b := byte.toNat
    let begun := match ranges with
      | [] => leading b
      | (least, greatest) :: more =>
        if least ≤ b && b ≤ greatest then some (number * 0x40 + (b - 0x80), more) else none
    match begun with
    | none => ([], .wrong offset)
    | some (number, []) =>
      let (others, ending) := decodeFrom 0 [] (offset + 1) rest
      ((Char.ofNat number, offset + 1) :: others, ending)
    | some (number, ranges) => decodeFrom number ranges (offset + 1) rest

/-! ### Chunks -/

/-- The bytes of a chunk, unless more of them are needed for the characters that are asked for. -/
def chunkSize : Nat := 8192

/-- How far a file has been read. -/
structure Progress where
  /-- The characters that are decoded and not yet handed over. -/
  ready : List Char
  coming : List (Char × Nat)
  ending : Ending
  /-- The bytes of the file. -/
  size : Nat
  /-- The bytes that were taken. -/
  taken : Nat := 0
  /-- The bytes and the characters of the last chunk. -/
  rate : Nat × Nat := (1, 1)
  /-- Whether the last character was a carriage return, which a line feed may follow. -/
  held : Bool := false

def beginning (bytes : ByteArray) : Progress :=
  let (coming, ending) := decodeFrom 0 [] 0 bytes.toList
  { ready := [], coming, ending, size := bytes.size }

/-- The number of bytes that are taken for some characters, going by the last chunk. -/
def bytesFor (wanted : Nat) (rate : Nat × Nat) : Nat :=
  max chunkSize (if rate.2 < rate.1 && 0 < rate.2 then wanted * rate.1 / rate.2 else wanted)

/-- One more chunk, for some characters that are wanted, and whether there was anything left. -/
def takeChunk (wanted : Nat) (p : Progress) : Except Fault (Progress × Bool) :=
  if p.taken = p.size then
    match p.ending with
    | .inside => .error .encoding
    | _ => .ok ({ p with ready := p.ready ++ (if p.held then ['\n'] else []), held := false }, p.held)
  else
    let taken := min p.size (p.taken + bytesFor wanted p.rate)
    let isWrong := match p.ending with
      | .wrong offset => decide (offset < taken)
      | _ => false
    if isWrong then .error .encoding
    else
      let part := p.coming.takeWhile fun c => c.2 ≤ taken
      let raw := (if p.held then ['\r'] else []) ++ part.map (·.1)
      let held := raw.getLast? == some '\r'
      let chars := Blank.plainNewlines (if held then raw.dropLast else raw)
      .ok ({ p with ready := p.ready ++ chars, coming := p.coming.drop part.length, taken
                    rate := (taken - p.taken, chars.length), held }, true)

/-- Takes chunks until so many characters are ready or the file ends. -/
def prepare (wanted : Nat) : Nat → Progress → Except Fault Progress
  | 0, p => .ok p
  | fuel + 1, p =>
    if wanted ≤ p.ready.length then .ok p
    else do
      let (p, more) ← takeChunk (wanted - p.ready.length) p
      if more then prepare wanted fuel p else return p

/-! ### Portions -/

def portionSize : Nat := 4096

/-- The next portion, empty at the end of the file. -/
def portion (p : Progress) : Except Fault (List Char × Progress) := do
  let p ← prepare portionSize (p.size + 2) p
  return (p.ready.take portionSize, { p with ready := p.ready.drop portionSize })

/-- A portion if all its characters may stand in a document. -/
def allowed (chars : List Char) : Except Fault (List Char) :=
  if chars.all isAllowed then .ok chars else .error malformed

/-- The supply from some point of the file on. -/
def rest : Nat → Progress → Supply
  | 0, _ => ⟨[], none⟩
  | fuel + 1, p =>
    match (do let (chars, p) ← portion p; return (← allowed chars, p)) with
    | .error cause => ⟨[], some cause⟩
    | .ok ([], _) => ⟨[], none⟩
    | .ok (chars, p) => let more := rest fuel p; ⟨chars ++ more.text, more.ending⟩

def ofBytes (bytes : ByteArray) : Supply :=
  let first : Except Fault (List Char × Progress) := do
    let (one, p) ← portion (beginning bytes)
    let (two, p) ← portion p
    return (← allowed (one ++ two), p)
  match first with
  | .error cause => ⟨[], some cause⟩
  | .ok (chars, p) => let more := rest (bytes.size + 1) p; ⟨chars ++ more.text, more.ending⟩

end Supply
end CpuLoad.Markup
