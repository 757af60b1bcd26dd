/-!
A text is a sequence of code points. Most of them are characters, but a text may also hold the halves of surrogate
pairs, which no character is. A string holds such a half as a stand-in from the end of the last private plane, and puts
a mark before every character of that range that is meant itself. Reading a string back gives the code points it was
written for (`points_stringOf`).
-/
namespace CpuLoad.CodePoint

-- The empty sum is the core library's zero, whatever else is loaded.
attribute [local instance (high)] Zero.ofOfNat0

def greatest : Nat := 0x10FFFF

def isHalf (n : Nat) : Bool := 0xD800 ≤ n && n ≤ 0xDFFF

/-- The code point of the mark. The stand-ins are the code points behind it. -/
def mark : Nat := 0x10F7FF

/-- The distance of a stand-in from the half that it stands for. -/
def distance : Nat := 0x102000

def write (n : Nat) : List Char :=
  if isHalf n then [Char.ofNat (n + distance)]
  else if mark ≤ n then [Char.ofNat mark, Char.ofNat n]
  else [Char.ofNat n]

def read : List Char → List Nat
  | [] => []
  | [c] => if mark < c.toNat then [c.toNat - distance] else [c.toNat]
  | c :: d :: rest =>
    if c.toNat = mark then d.toNat :: read rest
    else if mark < c.toNat then (c.toNat - distance) :: read (d :: rest)
    else c.toNat :: read (d :: rest)

private theorem read_cons {c : Char} (h : c.toNat ≠ mark) (rest : List Char) :
    read (c :: rest) = (if mark < c.toNat then c.toNat - distance else c.toNat) :: read rest := by
  cases rest with
  | nil => by_cases beyond : mark < c.toNat <;> simp [read, beyond]
  | cons d rest => by_cases beyond : mark < c.toNat <;> simp [read, h, beyond]

private theorem toNat_ofNat {n : Nat} (h : n.isValidChar) : (Char.ofNat n).toNat = n := by
  unfold Char.ofNat
  rw [dif_pos h]
  rfl

theorem read_write {ns : List Nat} (h : ∀ n ∈ ns, n ≤ greatest) : read (ns.flatMap write) = ns := by
  induction ns with
  | nil => rfl
  | cons n ns ih =>
    have inside : n ≤ 0x10FFFF := h n (by simp)
    have rest := ih fun m hm => h m (by simp [hm])
    rw [List.flatMap_cons]
    by_cases half : isHalf n = true
    · have bounds : 0xD800 ≤ n ∧ n ≤ 0xDFFF := by simpa [isHalf] using half
      have own : (Char.ofNat (n + distance)).toNat = n + distance :=
        toNat_ofNat (by simp only [Nat.isValidChar, distance]; omega)
      have other : (Char.ofNat (n + distance)).toNat ≠ mark := by rw [own]; simp only [distance, mark]; omega
      have beyond : mark < n + distance := by simp only [distance, mark]; omega
      simp [write, half, read_cons other, own, beyond, rest]
    · have valid : n.isValidChar := by
        simp only [isHalf, Bool.and_eq_true, decide_eq_true_eq, not_and] at half
        simp only [Nat.isValidChar]
        omega
      have own := toNat_ofNat valid
      by_cases high : mark ≤ n
      · have sign : (Char.ofNat mark).toNat = mark := toNat_ofNat (by simp [Nat.isValidChar, mark])
        simp [write, half, high, read, sign, own, rest]
      · have other : (Char.ofNat n).toNat ≠ mark := by omega
        have inRange : ¬ mark < n := by omega
        simp [write, half, high, read_cons other, own, inRange, rest]

/-! ### On strings -/

def stringOf (ns : List Nat) : String := String.ofList (ns.flatMap write)

def points (s : String) : List Nat := read s.toList

theorem points_stringOf {ns : List Nat} (h : ∀ n ∈ ns, n ≤ greatest) : points (stringOf ns) = ns := by
  simp [points, stringOf, read_write h]

def ofChars (cs : List Char) : String := stringOf (cs.map Char.toNat)

def toChars (s : String) : List Char := (points s).map fun n => if isHalf n then '\ufffd' else Char.ofNat n

/-! ### Bytes -/

/-- The bytes of a code point in the names of files, if it has some. The halves that stand for single bytes are those
    bytes. -/
def nameBytes? (n : Nat) : Option (List UInt8) :=
  if 0xDC80 ≤ n && n ≤ 0xDCFF then some [UInt8.ofNat (n - 0xDC00)]
  else if isHalf n then none
  else some (String.singleton (Char.ofNat n)).toUTF8.toList

/-- The number of bytes of a string in the name of a file, if it can stand in one. -/
def nameSize? (s : String) : Option Nat :=
  ((points s).mapM nameBytes?).map fun parts => (parts.map List.length).sum

def chars? (s : String) : Option (List Char) :=
  (points s).mapM fun n => if isHalf n then none else some (Char.ofNat n)

end CpuLoad.CodePoint
