/-!
What kind of value a node stands for. A plain scalar has the kind that its text looks like: nothing, a truth value, an
integer in one of five notations, a double in one of four, a timestamp, the sign that merges a table, or else a text.
-/
namespace CpuLoad.Markup

/-- The kind of value of a node. -/
inductive Tag
  | null
  | bool
  | int
  | float
  | text
  | bytes
  | timestamp
  | sequence
  | mapping
  /-- A mapping whose keys alone count. -/
  | set
  /-- A sequence of mappings with one row each. -/
  | pairs
  /-- The key under which tables stand that are merged in. -/
  | merge
  /-- The key under which the value of a table stands that is used as a scalar. -/
  | value
  /-- Any other kind. -/
  | other (name : String)
  deriving DecidableEq, Inhabited

namespace Tag

def common : String := "tag:yaml.org,2002:"

def names : List (String × Tag) := [
  ("null", null), ("bool", bool), ("int", int), ("float", float), ("str", text), ("binary", bytes),
  ("timestamp", timestamp), ("seq", sequence), ("map", mapping), ("set", set), ("omap", pairs), ("pairs", pairs),
  ("merge", merge), ("value", value)]

def ofName (name : String) : Tag :=
  match names.find? fun p => common ++ p.1 = name with
  | some (_, tag) => tag
  | none => .other name

/-! ### The looks of plain scalars -/

/-- The truth values by their words in small letters. -/
def truths : List (String × Bool) := [
  ("yes", true), ("no", false), ("true", true), ("false", false), ("on", true), ("off", false)]

/-- A word written small, with a capital, or in capitals. -/
def inThreeCases (words : List String) (cs : List Char) : Bool :=
  words.any fun w =>
    let capital := match w.toList with
      | [] => []
      | c :: rest => c.toUpper :: rest
    cs = w.toList || cs = capital || cs = w.toList.map Char.toUpper

def isSpacedDigit (c : Char) : Bool := c.isDigit || c = '_'

/-- The text without a sign before it. -/
def unsigned : List Char → List Char
  | '-' :: rest => rest
  | '+' :: rest => rest
  | cs => cs

def colonParts : List Char → List (List Char)
  | [] => [[]]
  | c :: rest =>
    match colonParts rest with
    | [] => [[c]]
    | part :: parts => if c = ':' then [] :: part :: parts else (c :: part) :: parts

/-- A number below sixty in one or two digits. -/
def isSixtieth : List Char → Bool
  | [a] => a.isDigit
  | [a, b] => ('0' ≤ a && a ≤ '5') && b.isDigit
  | _ => false

/-- An exponent with a letter, a sign and digits. -/
def isExponent : List Char → Bool
  | c :: sign :: digits =>
    (c = 'e' || c = 'E') && (sign = '-' || sign = '+') && digits ≠ [] && digits.all Char.isDigit
  | _ => false

/-- An integer: binary, octal, decimal, hexadecimal, or in sixtieths. -/
def looksInt (cs : List Char) : Bool :=
  match unsigned cs with
  | '0' :: 'b' :: rest => rest ≠ [] && rest.all fun c => c = '0' || c = '1' || c = '_'
  | '0' :: 'x' :: rest =>
    rest ≠ [] && rest.all fun c => isSpacedDigit c || ('a' ≤ c && c ≤ 'f') || ('A' ≤ c && c ≤ 'F')
  | '0' :: rest => rest.all fun c => ('0' ≤ c && c ≤ '7') || c = '_'
  | c :: rest =>
    match colonParts rest with
    | [] => false
    | first :: parts => c.isDigit && first.all isSpacedDigit && parts.all isSixtieth
  | [] => false

/-- Digits with a point behind them, more digits, and perhaps an exponent. -/
def looksDecimal (cs : List Char) : Bool :=
  match cs, cs.dropWhile isSpacedDigit with
  | c :: _, '.' :: rest =>
    let after := rest.dropWhile isSpacedDigit
    c.isDigit && (after = [] || isExponent after)
  | _, _ => false

/-- A point with digits behind it, and perhaps an exponent. -/
def looksFraction : List Char → Bool
  | '.' :: c :: rest =>
    let after := rest.dropWhile isSpacedDigit
    c.isDigit && (after = [] || isExponent after)
  | _ => false

/-- A double in sixtieths: the last one has a point behind it. -/
def looksSixtieths (cs : List Char) : Bool :=
  match cs, colonParts cs with
  | c :: _, first :: parts =>
    match parts.getLast? with
    | none => false
    | some last =>
      let point := last.dropWhile Char.isDigit
      c.isDigit && first.all isSpacedDigit && parts.dropLast.all isSixtieth &&
        isSixtieth (last.takeWhile Char.isDigit) && point.head? = some '.' && (point.drop 1).all isSpacedDigit
  | _, _ => false

/-- A double in one of four notations. -/
def looksFloat (cs : List Char) : Bool :=
  let size := unsigned cs
  looksDecimal size || looksFraction cs || looksSixtieths size ||
    [".inf".toList, ".Inf".toList, ".INF".toList].contains size ||
    [".nan".toList, ".NaN".toList, ".NAN".toList].contains cs

/-! ### Timestamps -/

def digitRun (most : Nat) (cs : List Char) : Option (List Char × List Char) :=
  let run := (cs.take most).takeWhile Char.isDigit
  if run = [] then none else some (run, cs.drop run.length)

def exactRun (n : Nat) (cs : List Char) : Option (List Char × List Char) :=
  (digitRun n cs).filter fun p => p.1.length = n

/-- What follows a sign that has to stand here. -/
def behind (sign : Char) : List Char → Option (List Char)
  | c :: rest => if c = sign then some rest else none
  | [] => none

/-- The digits of a time of day, and those of the distance from universal time with its sign. -/
structure TimeParts where
  hour : List Char
  minute : List Char
  second : List Char
  fraction : List Char
  /-- The distance, one of nothing for universal time itself. -/
  zone : Option (Option (Char × List Char × List Char))

/-- The digits of a timestamp. -/
structure TimestampParts where
  year : List Char
  month : List Char
  day : List Char
  time : Option TimeParts

/-- A space or a tab. -/
def isGap (c : Char) : Bool := c = ' ' || c = '\t'

/-- The distance from universal time at the end of a timestamp. -/
def zoneParts (cs : List Char) : Option (Option (Option (Char × List Char × List Char))) :=
  match cs.dropWhile isGap with
  | [] => if cs = [] then some none else none
  | ['Z'] => some (some none)
  | sign :: rest =>
    if sign = '+' || sign = '-' then do
      let (hour, rest) ← digitRun 2 rest
      match rest with
      | [] => some (some (some (sign, hour, [])))
      | rest =>
        let (minute, rest) ← exactRun 2 (← behind ':' rest)
        if rest = [] then some (some (some (sign, hour, minute))) else none
    else none

/-- The time of day from its hour on. -/
def timeParts (cs : List Char) : Option TimeParts := do
  let (hour, rest) ← digitRun 2 cs
  let (minute, rest) ← exactRun 2 (← behind ':' rest)
  let (second, rest) ← exactRun 2 (← behind ':' rest)
  let (fraction, rest) := match rest with
    | '.' :: rest => (rest.takeWhile Char.isDigit, rest.dropWhile Char.isDigit)
    | rest => ([], rest)
  some { hour, minute, second, fraction, zone := ← zoneParts rest }

/-- The digits of a timestamp: a date, or a date and a time behind a letter or behind blanks. -/
def timestampParts (cs : List Char) : Option TimestampParts := do
  let (year, rest) ← exactRun 4 cs
  let (month, rest) ← digitRun 2 (← behind '-' rest)
  let (day, rest) ← digitRun 2 (← behind '-' rest)
  match rest with
  | [] => some { year, month, day, time := none }
  | c :: after =>
    if c = 'T' || c = 't' then some { year, month, day, time := some (← timeParts after) }
    else if isGap c then some { year, month, day, time := some (← timeParts (after.dropWhile isGap)) }
    else none

/-- A timestamp; a date alone has two digits for its month and two for its day. -/
def looksTimestamp (cs : List Char) : Bool :=
  match timestampParts cs with
  | some parts => parts.time.isSome || (parts.month.length = 2 && parts.day.length = 2)
  | none => false

/-! ### Plain scalars -/

/-- The text whose looks count: a line feed at its end does not. -/
def lookedAt (cs : List Char) : List Char :=
  match cs.getLast? with
  | some '\n' => if cs.length = 1 then cs else cs.dropLast
  | _ => cs

/-- The kind of a plain scalar. -/
def ofPlain (s : String) : Tag :=
  let cs := lookedAt s.toList
  if cs = [] || cs = ['~'] || inThreeCases ["null"] cs then null
  else if inThreeCases (truths.map (·.1)) cs then bool
  else if looksFloat cs then float
  else if looksInt cs then int
  else if looksTimestamp cs then timestamp
  else if cs = ['<', '<'] then merge
  else if cs = ['='] then value
  else if cs = ['!'] || cs = ['&'] || cs = ['*'] then other (common ++ "yaml")
  else text

end Tag
end CpuLoad.Markup
