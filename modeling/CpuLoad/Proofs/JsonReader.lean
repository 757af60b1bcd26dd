import Mathlib.Data.List.Basic

/-!
How a line of JSON is read. The characters are cut into tokens (`token?`), and an automaton with a stack of what is open
puts these together (`State.step`). A number keeps the characters that it is written with. A text is read as its code
points, a high and a low surrogate beside one another as the code point that they stand for (`joined`).
-/
namespace CpuLoad.JsonReader

/-- What a JSON text says. -/
inductive Json
  | null
  | bool (b : Bool)
  | number (literal : List Char)
  | text (points : List Nat)
  | array (items : List Json)
  | object (members : List (List Nat × Json))

/-! ### Texts -/

def hexValue? (c : Char) : Option Nat :=
  if c.isDigit then some (c.toNat - '0'.toNat)
  else if 'a' ≤ c && c ≤ 'f' then some (c.toNat - 'a'.toNat + 10)
  else if 'A' ≤ c && c ≤ 'F' then some (c.toNat - 'A'.toNat + 10)
  else none

def unit? (a b c d : Char) : Option Nat := do
  return (((← hexValue? a) * 16 + (← hexValue? b)) * 16 + (← hexValue? c)) * 16 + (← hexValue? d)

/-- The code point that a letter behind a backslash stands for. -/
def letterValue? : Char → Option Nat
  | '"' => some 0x22
  | '\\' => some 0x5C
  | '/' => some 0x2F
  | 'b' => some 0x08
  | 'f' => some 0x0C
  | 'n' => some 0x0A
  | 'r' => some 0x0D
  | 't' => some 0x09
  | _ => none

/-- A unit before what is read behind it. -/
def before (unit : Nat) (read : List Nat × List Char) : List Nat × List Char := (unit :: read.1, read.2)

/-- The units of a text up to the quote that ends it, and what stands behind that. -/
def units? : List Char → Option (List Nat × List Char)
  | [] => none
  | '"' :: rest => some ([], rest)
  | '\\' :: 'u' :: a :: b :: c :: d :: rest => (unit? a b c d).bind fun unit => (units? rest).map (before unit)
  | '\\' :: letter :: rest => (letterValue? letter).bind fun unit => (units? rest).map (before unit)
  | c :: rest => if c.toNat < 0x20 then none else (units? rest).map (before c.toNat)

def isHigh (n : Nat) : Bool := 0xD800 ≤ n && n ≤ 0xDBFF

def isLow (n : Nat) : Bool := 0xDC00 ≤ n && n ≤ 0xDFFF

/-- The units with each pair of a high and a low surrogate joined. -/
def joined : List Nat → List Nat
  | [] => []
  | [n] => [n]
  | high :: low :: rest =>
    if isHigh high && isLow low then (0x10000 + (high - 0xD800) * 0x400 + (low - 0xDC00)) :: joined rest
    else high :: joined (low :: rest)

/-! ### Numbers -/

def isDigits (cs : List Char) : Bool := !cs.isEmpty && cs.all Char.isDigit

def isExponent : List Char → Bool
  | [] => true
  | e :: '+' :: digits | e :: '-' :: digits | e :: digits => (e == 'e' || e == 'E') && isDigits digits

def isFraction : List Char → Bool
  | '.' :: rest => isDigits (rest.takeWhile Char.isDigit) && isExponent (rest.dropWhile Char.isDigit)
  | rest => isExponent rest

/-- Whether characters are a number without a sign. The digits before a point begin with a zero only if it stands alone. -/
def isUnsigned (cs : List Char) : Bool :=
  let whole := cs.takeWhile Char.isDigit
  (whole == ['0'] || whole.head?.any (· != '0')) && isFraction (cs.dropWhile Char.isDigit)

def isNumber : List Char → Bool
  | '-' :: cs => isUnsigned cs
  | cs => isUnsigned cs

/-! ### Tokens -/

inductive Token
  | listOpen
  | listClose
  | objectOpen
  | objectClose
  | comma
  | colon
  | text (points : List Nat)
  | scalar (j : Json)

def mark? : Char → Option Token
  | '[' => some .listOpen
  | ']' => some .listClose
  | '\x7b' => some .objectOpen
  | '\x7d' => some .objectClose
  | ',' => some .comma
  | ':' => some .colon
  | _ => none

def isWordChar (c : Char) : Bool := c.isAlphanum || c == '+' || c == '-' || c == '.'

def scalar? (word : List Char) : Option Json :=
  if word = "null".toList then some .null
  else if word = "true".toList then some (.bool true)
  else if word = "false".toList then some (.bool false)
  else if isNumber word then some (.number word)
  else none

def isSpace (c : Char) : Bool := c == ' ' || c == '\t' || c == '\n' || c == '\r'

/-- The token with which characters begin, and what stands behind it. -/
def token? (c : Char) (cs : List Char) : Option (Token × List Char) :=
  if c = '"' then (units? cs).map fun (units, rest) => (.text (joined units), rest)
  else match mark? c with
    | some mark => some (mark, cs)
    | none => (scalar? ((c :: cs).takeWhile isWordChar)).map fun j => (.scalar j, (c :: cs).dropWhile isWordChar)

/-! ### Values -/

/-- What is open around a value: a list or an object, with what there is of it before the value. -/
inductive Frame
  | list (items : List Json)
  | object (members : List (List Nat × Json)) (key : List Nat)

/-- Where a reader stands. -/
inductive State
  /-- A value is due. -/
  | value (frames : List Frame)
  /-- The key of an object's next member is due. -/
  | key (members : List (List Nat × Json)) (frames : List Frame)
  /-- The colon behind a key is due. -/
  | colon (members : List (List Nat × Json)) (key : List Nat) (frames : List Frame)
  /-- A value is complete. -/
  | complete (j : Json) (frames : List Frame)

/-- What a token makes of a state. A list or an object may end before its first entry, but not behind a comma. -/
def State.step : State → Token → Option State
  | .value frames, .scalar j => some (.complete j frames)
  | .value frames, .text points => some (.complete (.text points) frames)
  | .value frames, .listOpen => some (.value (.list [] :: frames))
  | .value (.list [] :: frames), .listClose => some (.complete (.array []) frames)
  | .value frames, .objectOpen => some (.key [] frames)
  | .key [] frames, .objectClose => some (.complete (.object []) frames)
  | .key members frames, .text points => some (.colon members points frames)
  | .colon members points frames, .colon => some (.value (.object members points :: frames))
  | .complete j (.list items :: frames), .comma => some (.value (.list (items ++ [j]) :: frames))
  | .complete j (.list items :: frames), .listClose => some (.complete (.array (items ++ [j])) frames)
  | .complete j (.object members points :: frames), .comma => some (.key (members ++ [(points, j)]) frames)
  | .complete j (.object members points :: frames), .objectClose =>
    some (.complete (.object (members ++ [(points, j)])) frames)
  | _, _ => none

/-- What has been read when no characters are left. -/
def State.result? : State → Option Json
  | .complete j [] => some j
  | _ => none

theorem shorter_of_before {cs rest : List Char} {units : List Nat} {unit : Nat}
    (ih : ∀ {units rest}, units? cs = some (units, rest) → rest.length < cs.length)
    (known : (units? cs).map (before unit) = some (units, rest)) : rest.length < cs.length := by
  obtain ⟨⟨inner, left⟩, read, same⟩ := Option.map_eq_some_iff.mp known
  cases same
  exact ih read

theorem units_shorter {cs : List Char} {units : List Nat} {rest : List Char} (known : units? cs = some (units, rest)) :
    rest.length < cs.length := by
  fun_induction units? cs generalizing units rest with
  | case1 => cases known
  | case2 =>
    cases known
    simp
  | case3 a b c d behind ih =>
    obtain ⟨unit, _, known⟩ := Option.bind_eq_some_iff.mp known
    have shorter := shorter_of_before ih known
    simp only [List.length_cons]
    omega
  | case4 letter behind _ ih =>
    obtain ⟨unit, _, known⟩ := Option.bind_eq_some_iff.mp known
    have shorter := shorter_of_before ih known
    simp only [List.length_cons]
    omega
  | case5 => cases known
  | case6 c behind _ _ _ _ ih =>
    have shorter := shorter_of_before ih known
    simp only [List.length_cons]
    omega

theorem token_shorter {c : Char} {cs rest : List Char} {t : Token} (known : token? c cs = some (t, rest)) :
    rest.length ≤ cs.length := by
  unfold token? at known
  split at known
  · obtain ⟨⟨units, left⟩, read, same⟩ := Option.map_eq_some_iff.mp known
    cases same
    exact Nat.le_of_lt (units_shorter read)
  · split at known
    · cases known
      exact Nat.le_refl _
    · obtain ⟨j, word, same⟩ := Option.map_eq_some_iff.mp known
      cases same
      have some : (c :: cs).takeWhile isWordChar ≠ [] := by
        intro none
        rw [none] at word
        cases word
      have split := congrArg List.length (@List.takeWhile_append_dropWhile _ isWordChar (c :: cs))
      have positive := List.length_pos_of_ne_nil some
      rw [List.length_append, List.length_cons] at split
      omega

/-- What is read from characters in a state. -/
def readFrom (s : State) : List Char → Option Json
  | [] => s.result?
  | c :: cs =>
    if isSpace c then readFrom s cs
    else match _found : token? c cs with
      | none => none
      | some (t, rest) => (s.step t).bind fun s => readFrom s rest
termination_by cs => cs.length
decreasing_by
  · simp
  · exact Nat.lt_succ_of_le (token_shorter _found)

/-- The JSON value of a text, if it has one. -/
def read (cs : List Char) : Option Json := readFrom (.value []) cs

end CpuLoad.JsonReader
