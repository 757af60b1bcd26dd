import CpuLoad.JsonLine
import CpuLoad.Proofs.FixedWidth
import CpuLoad.Proofs.JsonNumbers
import CpuLoad.Proofs.JsonTexts
import CpuLoad.Proofs.Outcome
import Mathlib

/-!
Which values have a written form (`exists_encode_iff`). It is printable ASCII (`plain_encode`) and, if every double in
the value is finite, JSON that is read back (`read_encode`). Reading goes through the written form from left to right.
Where a value is due, its characters lead to the state in which that value is complete, whatever is open around it and
whatever comes behind (`readFrom_encode`), as long as what comes behind does not go on with a word.
-/
namespace CpuLoad.JsonValues
open CpuLoad.CodePoint CpuLoad.DecimalDigit CpuLoad.FixedWidth CpuLoad.JsonLine CpuLoad.JsonNumbers CpuLoad.JsonReader
  CpuLoad.JsonTexts CpuLoad.Outcome

/-! ### Written forms -/

section
variable {cs : List Char} {n : Int} {items : List Value} {rows : List (Value × Value)} {row : Value × Value} {k v w : Value}

theorem encodeInt_eq_ok_iff {s : String} : encodeInt n = .ok s ↔ isWritable n ∧ s = intText n := by
  unfold encodeInt
  by_cases short : isWritable n
  · rw [if_pos short]
    exact ⟨fun known => ⟨short, (Except.ok.inj known).symm⟩, fun ⟨_, known⟩ => congrArg Except.ok known.symm⟩
  · rw [if_neg short]
    exact ⟨nofun, fun ⟨contra, _⟩ => absurd contra short⟩

theorem encode_int_eq_ok (written : encode (.int n) = .ok cs) : cs = (intText n).toList := by
  rw [encode] at written
  obtain ⟨s, known, done⟩ := eq_ok_of_bind written
  rw [← (encodeInt_eq_ok_iff.mp known).2]
  exact (Except.ok.inj done).symm

theorem encode_list_eq_ok (written : encode (.list items) = .ok cs) :
    ∃ inner, encodeItems items = .ok inner ∧ cs = '[' :: inner ++ [']'] := by
  rw [encode] at written
  obtain ⟨inner, known, done⟩ := eq_ok_of_bind written
  exact ⟨inner, known, (Except.ok.inj done).symm⟩

theorem encode_table_eq_ok (written : encode (.table rows) = .ok cs) :
    ∃ inner, encodeRows rows = .ok inner ∧ cs = '\x7b' :: inner ++ ['\x7d'] := by
  rw [encode] at written
  obtain ⟨inner, known, done⟩ := eq_ok_of_bind written
  exact ⟨inner, known, (Except.ok.inj done).symm⟩

theorem encode_pair_eq_ok (written : encode (.pair v w) = .ok cs) :
    ∃ front back, encode v = .ok front ∧ encode w = .ok back ∧ cs = '[' :: front ++ ',' :: ' ' :: back ++ [']'] := by
  rw [encode] at written
  obtain ⟨front, first, others⟩ := eq_ok_of_bind written
  obtain ⟨back, second, done⟩ := eq_ok_of_bind others
  exact ⟨front, back, first, second, (Except.ok.inj done).symm⟩

theorem encodeItems_cons_eq_ok (written : encodeItems (v :: w :: items) = .ok cs) :
    ∃ front back, encode v = .ok front ∧ encodeItems (w :: items) = .ok back ∧ cs = front ++ ',' :: ' ' :: back := by
  rw [encodeItems] at written
  · obtain ⟨front, first, others⟩ := eq_ok_of_bind written
    obtain ⟨back, second, done⟩ := eq_ok_of_bind others
    exact ⟨front, back, first, second, (Except.ok.inj done).symm⟩
  · nofun

theorem encodeRows_single_eq_ok (written : encodeRows [(k, v)] = .ok cs) :
    ∃ key inner, keyText k = .ok key ∧ encode v = .ok inner ∧ cs = encodeText key ++ ':' :: ' ' :: inner := by
  rw [encodeRows] at written
  obtain ⟨key, named, others⟩ := eq_ok_of_bind written
  obtain ⟨inner, known, done⟩ := eq_ok_of_bind others
  exact ⟨key, inner, named, known, (Except.ok.inj done).symm⟩

theorem encodeRows_cons_eq_ok (written : encodeRows ((k, v) :: row :: rows) = .ok cs) :
    ∃ key inner back, keyText k = .ok key ∧ encode v = .ok inner ∧ encodeRows (row :: rows) = .ok back ∧
      cs = encodeText key ++ ':' :: ' ' :: inner ++ ',' :: ' ' :: back := by
  rw [encodeRows] at written
  · obtain ⟨key, named, others⟩ := eq_ok_of_bind written
    obtain ⟨inner, known, others⟩ := eq_ok_of_bind others
    obtain ⟨back, behind, done⟩ := eq_ok_of_bind others
    exact ⟨key, inner, back, named, known, behind, (Except.ok.inj done).symm⟩
  · nofun

end

/-- Whether a value can stand as a key of an object. -/
def keyHasForm : Value → Bool
  | .text _ | .null | .bool _ | .float _ => true
  | .int n => isWritable n
  | _ => false

mutual

/-- Whether JSON has a form for a value. -/
def hasForm : Value → Bool
  | .int n => isWritable n
  | .list items => itemsHaveForm items
  | .table rows => rowsHaveForm rows
  | .pair v w => hasForm v && hasForm w
  | .null | .bool _ | .float _ | .text _ => true
  | .bytes _ | .time _ | .set _ | .again _ => false

def itemsHaveForm : List Value → Bool
  | [] => true
  | v :: vs => hasForm v && itemsHaveForm vs

def rowsHaveForm : List (Value × Value) → Bool
  | [] => true
  | (k, v) :: rows => keyHasForm k && hasForm v && rowsHaveForm rows

end

/-- Two results one after the other are there exactly if each one is. -/
theorem exists_bind_iff {α β γ : Type} {r : Except Fault α} {s : Except Fault β} (g : α → β → γ) :
    (∃ c, (do return g (← r) (← s)) = Except.ok (ε := Fault) c) ↔ (∃ a, r = .ok a) ∧ ∃ b, s = .ok b := by
  cases r with
  | error e => exact ⟨nofun, nofun⟩
  | ok a =>
    cases s with
    | error e => exact ⟨nofun, nofun⟩
    | ok b => exact ⟨fun _ => ⟨⟨a, rfl⟩, b, rfl⟩, fun _ => ⟨g a b, rfl⟩⟩

theorem exists_map_iff {α β : Type} {r : Except Fault α} (g : α → β) :
    (∃ b, (do return g (← r)) = Except.ok (ε := Fault) b) ↔ ∃ a, r = .ok a := by
  cases r with
  | error e => exact ⟨nofun, nofun⟩
  | ok a => exact ⟨fun _ => ⟨a, rfl⟩, fun _ => ⟨g a, rfl⟩⟩

theorem exists_keyText_iff (k : Value) : (∃ key, keyText k = .ok key) ↔ keyHasForm k := by
  cases k with
  | int n => exact ⟨fun ⟨_, known⟩ => (encodeInt_eq_ok_iff.mp known).1, fun short => ⟨_, encodeInt_eq_ok_iff.mpr ⟨short, rfl⟩⟩⟩
  | text | null | bool | float => exact ⟨fun _ => rfl, fun _ => ⟨_, rfl⟩⟩
  | list | table | bytes | time | pair | set | again => exact ⟨nofun, nofun⟩

mutual

/-- Exactly the values that JSON has a form for are written. -/
theorem exists_encode_iff : ∀ v : Value, (∃ cs, encode v = .ok cs) ↔ hasForm v
  | .int n => by
    rw [encode, exists_map_iff]
    exact ⟨fun ⟨_, known⟩ => (encodeInt_eq_ok_iff.mp known).1, fun short => ⟨_, encodeInt_eq_ok_iff.mpr ⟨short, rfl⟩⟩⟩
  | .list items => by
    rw [encode, exists_map_iff, exists_encodeItems_iff items]
    rfl
  | .table rows => by
    rw [encode, exists_map_iff, exists_encodeRows_iff rows]
    rfl
  | .pair v w => by
    rw [encode, exists_bind_iff, exists_encode_iff v, exists_encode_iff w]
    exact (Bool.and_eq_true_iff (x := hasForm v) (y := hasForm w)).symm
  | .null | .bool _ | .float _ | .text _ => by
    rw [encode]
    exact ⟨fun _ => rfl, fun _ => ⟨_, rfl⟩⟩
  | .bytes _ | .time _ | .set _ | .again _ => by
    rw [encode]
    exact ⟨nofun, nofun⟩

theorem exists_encodeItems_iff : ∀ vs : List Value, (∃ cs, encodeItems vs = .ok cs) ↔ itemsHaveForm vs
  | [] => ⟨fun _ => rfl, fun _ => ⟨[], rfl⟩⟩
  | [v] => by
    rw [encodeItems, exists_encode_iff v, itemsHaveForm, itemsHaveForm, Bool.and_true]
  | v :: w :: vs => by
    have whole : itemsHaveForm (v :: w :: vs) = (hasForm v && itemsHaveForm (w :: vs)) := rfl
    rw [whole, Bool.and_eq_true, encodeItems, exists_bind_iff, exists_encode_iff v, exists_encodeItems_iff (w :: vs)]
    nofun

theorem exists_encodeRows_iff : ∀ rows : List (Value × Value), (∃ cs, encodeRows rows = .ok cs) ↔ rowsHaveForm rows
  | [] => ⟨fun _ => rfl, fun _ => ⟨[], rfl⟩⟩
  | [(k, v)] => by
    rw [encodeRows, exists_bind_iff, exists_keyText_iff, exists_encode_iff v, rowsHaveForm, rowsHaveForm, Bool.and_true,
      Bool.and_eq_true]
  | (k, v) :: row :: rows => by
    rw [rowsHaveForm, Bool.and_eq_true, Bool.and_eq_true, ← exists_keyText_iff, ← exists_encode_iff v,
      ← exists_encodeRows_iff (row :: rows)]
    constructor
    · rintro ⟨cs, written⟩
      obtain ⟨key, inner, back, named, known, behind, _⟩ := encodeRows_cons_eq_ok written
      exact ⟨⟨⟨key, named⟩, inner, known⟩, back, behind⟩
    · rintro ⟨⟨⟨key, named⟩, inner, known⟩, back, behind⟩
      rw [encodeRows, named, known, behind]
      · exact ⟨_, rfl⟩
      · nofun

end

theorem beginsAgain_of_keyHasForm {k : Value} (form : keyHasForm k) : k.beginsAgain = false := by
  cases k with
  | text | null | bool | float | int => rfl
  | list | table | bytes | time | pair | set | again => cases form

mutual

theorem beginsAgain_of_hasForm : ∀ v : Value, hasForm v → v.beginsAgain = false
  | .list items => fun form => itemsBeginAgain_of_form items form
  | .table rows => fun form => rowsBeginAgain_of_form rows form
  | .pair v w => by
    intro form
    obtain ⟨left, right⟩ := Bool.and_eq_true_iff.mp form
    exact Bool.or_eq_false_iff.mpr ⟨beginsAgain_of_hasForm v left, beginsAgain_of_hasForm w right⟩
  | .set _ | .again _ => by
    intro form
    cases form
  | .null | .bool _ | .int _ | .float _ | .text _ | .bytes _ | .time _ => fun _ => rfl

theorem itemsBeginAgain_of_form : ∀ vs : List Value, itemsHaveForm vs → Value.itemsBeginAgain vs = false
  | [], _ => rfl
  | v :: vs, form => by
    obtain ⟨own, others⟩ := Bool.and_eq_true_iff.mp form
    exact Bool.or_eq_false_iff.mpr ⟨beginsAgain_of_hasForm v own, itemsBeginAgain_of_form vs others⟩

theorem rowsBeginAgain_of_form : ∀ rows : List (Value × Value), rowsHaveForm rows → Value.rowsBeginAgain rows = false
  | [], _ => rfl
  | (k, v) :: rows, form => by
    obtain ⟨row, others⟩ := Bool.and_eq_true_iff.mp form
    obtain ⟨key, own⟩ := Bool.and_eq_true_iff.mp row
    rw [Value.rowsBeginAgain, beginsAgain_of_keyHasForm key, beginsAgain_of_hasForm v own,
      rowsBeginAgain_of_form rows others]
    rfl

end

/-- A sample has a line exactly if JSON has a form for what is written of it, and its description has an end. -/
theorem exists_lineOf_iff (s : Sample) :
    (∃ line, lineOf s = .ok line) ↔ hasForm (recordOf s) ∧ s.description.beginsAgain = false := by
  unfold lineOf
  by_cases again : (recordOf s).beginsAgain || s.description.beginsAgain
  · rw [if_pos again]
    constructor
    · nofun
    · rintro ⟨form, ends⟩
      rw [beginsAgain_of_hasForm _ form, ends] at again
      cases again
  · have ends : s.description.beginsAgain = false := by
      rw [Bool.or_eq_true, not_or] at again
      exact Bool.eq_false_iff.mpr again.2
    rw [if_neg again, ← exists_encode_iff]
    exact (exists_map_iff _).trans (and_iff_left ends).symm

/-- A sample whose texts and labels JSON has forms for has a line exactly if it has forms for the time and the value. -/
theorem exists_lineOf_iff_of_texts {s : Sample} (name : hasForm s.name) (unit : hasForm s.unit) (labels : hasForm s.labels)
    (ends : s.description.beginsAgain = false) :
    (∃ line, lineOf s = .ok line) ↔ hasForm s.timestamp ∧ hasForm s.value := by
  rw [exists_lineOf_iff]
  simp [recordOf, hasForm, rowsHaveForm, keyHasForm, name, unit, labels, ends, and_comm]

/-! ### Characters -/

/-- A printable character of ASCII. -/
def isPlain (c : Char) : Bool := 32 ≤ c.toNat && c.toNat < 127

theorem isPlain_of_isWordChar {c : Char} (word : isWordChar c) : isPlain c := by
  simp only [isWordChar, Char.isAlphanum, Char.isAlpha, Char.isUpper, Char.isLower, Char.isDigit, Bool.or_eq_true,
    Bool.and_eq_true, decide_eq_true_eq, beq_iff_eq, UInt32.le_iff_toNat_le, ge_iff_le] at word
  have number : c.toNat = c.val.toNat := rfl
  simp only [isPlain, Bool.and_eq_true, decide_eq_true_eq]
  rcases word with ((((⟨low, high⟩ | ⟨low, high⟩) | ⟨low, high⟩) | rfl) | rfl) | rfl
  · simp at *
    omega
  · simp at *
    omega
  · simp at *
    omega
  · decide
  · decide
  · decide

theorem plain_unitEscape {n : Nat} (bound : n < 0x10000) : ∀ c ∈ unitEscape n, isPlain c := by
  have digits : Quoted.hexText 4 n = lastDigits 16 4 n := filled_eq (by decide) bound
  have all : ∀ d < 16, isPlain (Nat.digitChar d) := by decide
  have digit (k : Nat) : isPlain (Nat.digitChar (k % 16)) := all _ (Nat.mod_lt k (by decide))
  unfold unitEscape
  rw [digits]
  simp only [lastDigits, List.nil_append, List.cons_append, List.forall_mem_cons]
  exact ⟨rfl, rfl, digit _, digit _, digit _, digit _, List.forall_mem_nil _⟩

theorem plain_escape {n : Nat} (bound : n ≤ greatest) : ∀ c ∈ escape n, isPlain c := by
  unfold greatest at bound
  unfold escape
  split
  · next letter known =>
    have plain : isPlain letter := by
      unfold letterFor? at known
      split_ifs at known <;> cases known <;> rfl
    exact List.forall_mem_cons.mpr ⟨rfl, List.forall_mem_singleton.mpr plain⟩
  · split
    · next inside =>
      obtain ⟨least, most⟩ : 32 ≤ n ∧ n < 127 := by simpa using inside
      refine List.forall_mem_singleton.mpr ?_
      simp [isPlain, toNat_plain most, least, most]
    · split
      · next small => exact plain_unitEscape small
      · intro c member
        rcases List.mem_append.mp member with high | low
        · exact plain_unitEscape (by omega) c high
        · exact plain_unitEscape (by omega) c low

theorem plain_encodeText (s : String) : ∀ c ∈ encodeText s, isPlain c := by
  intro c member
  unfold encodeText at member
  simp only [List.cons_append, List.mem_cons, List.mem_append, List.mem_flatMap, List.not_mem_nil, or_false] at member
  rcases member with rfl | ⟨n, known, inside⟩ | rfl
  · rfl
  · exact plain_escape (points_le s n known) c inside
  · rfl

theorem plain_encodeFloat (x : Float) : ∀ c ∈ encodeFloat x, isPlain c := by
  unfold encodeFloat
  split
  · exact List.all_eq_true.mp rfl
  · split <;> exact List.all_eq_true.mp rfl
  · next finite => exact fun c member => isPlain_of_isWordChar (isWordChar_of_isNumber (isNumber_text finite) c member)

mutual

/-- The written form of a value is plain. -/
theorem plain_encode : ∀ (v : Value) {cs : List Char}, encode v = .ok cs → ∀ c ∈ cs, isPlain c
  | .null => by
    intro written
    rw [encode] at written
    cases written
    exact List.all_eq_true.mp rfl
  | .bool b => by
    intro written
    rw [encode] at written
    cases written
    cases b <;> exact List.all_eq_true.mp rfl
  | .int n => by
    intro written c member
    rw [encode_int_eq_ok written] at member
    exact isPlain_of_isWordChar (isWordChar_of_isNumber (isNumber_intText n) c member)
  | .float x => by
    intro written
    rw [encode] at written
    cases written
    exact plain_encodeFloat x
  | .text s => by
    intro written
    rw [encode] at written
    cases written
    exact plain_encodeText s
  | .list items => by
    intro written
    obtain ⟨inner, known, rfl⟩ := encode_list_eq_ok written
    simp only [List.cons_append, List.forall_mem_cons, List.forall_mem_append]
    exact ⟨rfl, plain_encodeItems items known, rfl, nofun⟩
  | .table rows => by
    intro written
    obtain ⟨inner, known, rfl⟩ := encode_table_eq_ok written
    simp only [List.cons_append, List.forall_mem_cons, List.forall_mem_append]
    exact ⟨rfl, plain_encodeRows rows known, rfl, nofun⟩
  | .pair v w => by
    intro written
    obtain ⟨front, back, first, second, rfl⟩ := encode_pair_eq_ok written
    simp only [List.cons_append, List.forall_mem_cons, List.forall_mem_append]
    exact ⟨rfl, ⟨plain_encode v first, rfl, rfl, plain_encode w second⟩, rfl, nofun⟩
  | .bytes _ | .time _ | .set _ | .again _ => by
    intro written
    rw [encode] at written
    cases written

theorem plain_encodeItems : ∀ (vs : List Value) {cs : List Char}, encodeItems vs = .ok cs → ∀ c ∈ cs, isPlain c
  | [], _, written => by
    cases written
    nofun
  | [v], _, written => by
    rw [encodeItems] at written
    exact plain_encode v written
  | v :: w :: vs, _, written => by
    obtain ⟨front, back, first, others, rfl⟩ := encodeItems_cons_eq_ok written
    simp only [List.forall_mem_cons, List.forall_mem_append]
    exact ⟨plain_encode v first, rfl, rfl, plain_encodeItems (w :: vs) others⟩

theorem plain_encodeRows : ∀ (rows : List (Value × Value)) {cs : List Char}, encodeRows rows = .ok cs → ∀ c ∈ cs, isPlain c
  | [], _, written => by
    cases written
    nofun
  | [(k, v)], _, written => by
    obtain ⟨key, inner, _, known, rfl⟩ := encodeRows_single_eq_ok written
    simp only [List.forall_mem_cons, List.forall_mem_append]
    exact ⟨plain_encodeText key, rfl, rfl, plain_encode v known⟩
  | (k, v) :: row :: rows, _, written => by
    obtain ⟨key, inner, back, _, known, others, rfl⟩ := encodeRows_cons_eq_ok written
    simp only [List.forall_mem_cons, List.forall_mem_append]
    exact ⟨⟨plain_encodeText key, rfl, rfl, plain_encode v known⟩, rfl, rfl, plain_encodeRows (row :: rows) others⟩

end

/-! ### Reading -/

mutual

/-- Whether every double in a value is finite. -/
def isFinite : Value → Bool
  | .float x => (Binary64.value? x).isSome
  | .list items => itemsFinite items
  | .table rows => rowsFinite rows
  | .pair v w => isFinite v && isFinite w
  | _ => true

def itemsFinite : List Value → Bool
  | [] => true
  | v :: vs => isFinite v && itemsFinite vs

def rowsFinite : List (Value × Value) → Bool
  | [] => true
  | (_, v) :: rows => isFinite v && rowsFinite rows

end

/-- What is read from a text. -/
def readPoints (s : String) : List Nat := joined (points s)

/-- The text that a key has, if it can be one. -/
def keyOf (k : Value) : String := (keyText k).toOption.getD ""

theorem keyOf_eq {k : Value} {key : String} (named : keyText k = .ok key) : keyOf k = key := by
  unfold keyOf
  rw [named]
  rfl

mutual

/-- What is read from the written form of a value, if it has one. -/
def jsonOf : Value → Json
  | .bool b => .bool b
  | .int n => .number (intText n).toList
  | .float x => .number (encodeFloat x)
  | .text s => .text (readPoints s)
  | .list items => .array (jsonItems items)
  | .table rows => .object (jsonRows rows)
  | .pair v w => .array [jsonOf v, jsonOf w]
  | _ => .null

def jsonItems : List Value → List Json
  | [] => []
  | v :: vs => jsonOf v :: jsonItems vs

def jsonRows : List (Value × Value) → List (List Nat × Json)
  | [] => []
  | (k, v) :: rows => (readPoints (keyOf k), jsonOf v) :: jsonRows rows

end

/-- Characters that do not go on with a word. -/
def EndsWord (cs : List Char) : Prop := ∀ c ∈ cs.head?, isWordChar c = false

section
variable {s s' : State} {c : Char} {cs rest : List Char} {t : Token} {frames : List Frame}

theorem readFrom_space : readFrom s (' ' :: cs) = readFrom s cs := by
  rw [readFrom]
  rfl

theorem readFrom_token (visible : isSpace c = false) (found : token? c cs = some (t, rest)) (step : s.step t = some s') :
    readFrom s (c :: cs) = readFrom s' rest := by
  rw [readFrom, visible, if_neg Bool.false_ne_true]
  split
  · next none =>
    rw [found] at none
    cases none
  · next known =>
    rw [found] at known
    cases known
    rw [step, Option.bind_some]

theorem readFrom_mark (visible : isSpace c = false) (quote : c ≠ '"') (mark : mark? c = some t) (step : s.step t = some s') :
    readFrom s (c :: cs) = readFrom s' cs := by
  refine readFrom_token visible ?_ step
  rw [token?, if_neg quote, mark]

theorem readFrom_text (text : String) (step : s.step (.text (readPoints text)) = some s') :
    readFrom s (encodeText text ++ rest) = readFrom s' rest := by
  have written : encodeText text ++ rest = '"' :: ((points text).flatMap escape ++ '"' :: rest) := by
    simp [encodeText]
  rw [written]
  refine readFrom_token rfl ?_ step
  rw [token?, if_pos rfl, units_text (points_le text), Option.map_some]
  dsimp only
  rw [joined_flatMap (points_le text)]
  rfl

theorem readFrom_word {j : Json} (word : ∀ c ∈ cs, isWordChar c) (known : scalar? cs = some j) (ends : EndsWord rest) :
    readFrom (.value frames) (cs ++ rest) = readFrom (.complete j frames) rest := by
  cases cs with
  | nil => cases known
  | cons c cs =>
    have first : isWordChar c := word c List.mem_cons_self
    obtain ⟨front, back⟩ := span_append word ends
    rw [List.cons_append] at front back ⊢
    have visible : isSpace c = false := by
      by_contra space
      simp only [isSpace, Bool.not_eq_false, Bool.or_eq_true, beq_iff_eq] at space
      rcases space with ((rfl | rfl) | rfl) | rfl <;> cases first
    have quote : c ≠ '"' := by
      rintro rfl
      cases first
    have mark : mark? c = none := by
      unfold mark?
      split <;> first | rfl | cases first
    refine readFrom_token visible ?_ (rfl : (State.value frames).step (.scalar j) = some (.complete j frames))
    rw [token?, if_neg quote, mark]
    dsimp only
    rw [front, back, known, Option.map_some]

theorem readFrom_number (number : isNumber cs) (ends : EndsWord rest) :
    readFrom (.value frames) (cs ++ rest) = readFrom (.complete (.number cs) frames) rest := by
  have other {word : List Char} (noNumber : isNumber word = false) : cs ≠ word := by
    rintro rfl
    rw [noNumber] at number
    cases number
  refine readFrom_word (isWordChar_of_isNumber number) ?_ ends
  rw [scalar?, if_neg (other rfl), if_neg (other rfl), if_neg (other rfl), if_pos number]

end

theorem isNumber_encodeFloat {x : Float} (finite : (Binary64.value? x).isSome) : isNumber (encodeFloat x) := by
  unfold Binary64.value? at finite
  unfold encodeFloat
  split
  · next spelled =>
    rw [spelled] at finite
    cases finite
  · next spelled =>
    rw [spelled] at finite
    cases finite
  · next spelled => exact isNumber_text spelled

theorem endsWord_cons {c : Char} (other : isWordChar c = false) (cs : List Char) : EndsWord (c :: cs) := by
  intro d first
  cases first
  exact other

section
variable {s : State} {j : Json} {rest : List Char} {frames : List Frame}

theorem readFrom_comma {s' : State} (step : s.step .comma = some s') : readFrom s (',' :: ' ' :: rest) = readFrom s' rest := by
  rw [readFrom_mark rfl (by decide) rfl step, readFrom_space]

theorem readFrom_key {members : List (List Nat × Json)} (key : String) :
    readFrom (.key members frames) (encodeText key ++ ':' :: ' ' :: rest) =
      readFrom (.value (.object members (readPoints key) :: frames)) rest := by
  have due : (State.key members frames).step (.text (readPoints key)) = some (.colon members (readPoints key) frames) := by
    cases members <;> rfl
  have colon : (State.colon members (readPoints key) frames).step .colon =
      some (.value (.object members (readPoints key) :: frames)) := rfl
  rw [readFrom_text key due, readFrom_mark rfl (by decide) rfl colon, readFrom_space]

end

mutual

/-- The written form of a value is read as that value, where one is due, up to what stands behind it. -/
theorem readFrom_encode : ∀ (v : Value) {cs : List Char}, encode v = .ok cs → isFinite v → ∀ (frames : List Frame)
    (rest : List Char), EndsWord rest → readFrom (.value frames) (cs ++ rest) = readFrom (.complete (jsonOf v) frames) rest
  | .null => by
    intro written _ _ _ ends
    rw [encode] at written
    cases written
    exact readFrom_word (List.all_eq_true.mp rfl) rfl ends
  | .bool b => by
    intro written _ _ _ ends
    rw [encode] at written
    cases written
    cases b with
    | true => exact readFrom_word (List.all_eq_true.mp rfl) rfl ends
    | false => exact readFrom_word (List.all_eq_true.mp rfl) rfl ends
  | .int n => by
    intro written _ _ _ ends
    rw [encode_int_eq_ok written]
    exact readFrom_number (isNumber_intText n) ends
  | .float x => by
    intro written finite _ _ ends
    rw [encode] at written
    cases written
    exact readFrom_number (isNumber_encodeFloat finite) ends
  | .text s => by
    intro written _ _ _ _
    rw [encode] at written
    cases written
    exact readFrom_text s rfl
  | .list [] => by
    intro written _ _ _ _
    obtain ⟨inner, known, rfl⟩ := encode_list_eq_ok written
    cases known
    exact (readFrom_mark rfl (by decide) rfl rfl).trans (readFrom_mark rfl (by decide) rfl rfl)
  | .list (v :: vs) => by
    intro written finite frames rest _
    obtain ⟨inner, known, rfl⟩ := encode_list_eq_ok written
    have inside := readFrom_encodeItems (v :: vs) known (by simp) finite [] frames rest
    rw [List.append_assoc]
    exact (readFrom_mark rfl (by decide) rfl rfl).trans inside
  | .table [] => by
    intro written _ _ _ _
    obtain ⟨inner, known, rfl⟩ := encode_table_eq_ok written
    cases known
    exact (readFrom_mark rfl (by decide) rfl rfl).trans (readFrom_mark rfl (by decide) rfl rfl)
  | .table (row :: rows) => by
    intro written finite frames rest _
    obtain ⟨inner, known, rfl⟩ := encode_table_eq_ok written
    have inside := readFrom_encodeRows (row :: rows) known (by simp) finite [] frames rest
    rw [List.append_assoc]
    exact (readFrom_mark rfl (by decide) rfl rfl).trans inside
  | .pair v w => by
    intro written finite frames rest _
    obtain ⟨front, back, known, known', rfl⟩ := encode_pair_eq_ok written
    obtain ⟨left, right⟩ := Bool.and_eq_true_iff.mp finite
    have first := readFrom_encode v known left (.list [] :: frames) (',' :: ' ' :: (back ++ ']' :: rest)) (endsWord_cons rfl _)
    have second := readFrom_encode w known' right (.list [jsonOf v] :: frames) (']' :: rest) (endsWord_cons rfl _)
    have parts : '[' :: front ++ ',' :: ' ' :: back ++ [']'] ++ rest =
        '[' :: (front ++ ',' :: ' ' :: (back ++ ']' :: rest)) := by
      simp
    rw [parts, readFrom_mark rfl (by decide) rfl rfl, first, readFrom_comma rfl, List.nil_append, second]
    exact readFrom_mark rfl (by decide) rfl rfl
  | .bytes _ | .time _ | .set _ | .again _ => by
    intro written
    rw [encode] at written
    cases written

theorem readFrom_encodeItems : ∀ (vs : List Value) {cs : List Char}, encodeItems vs = .ok cs → vs ≠ [] → itemsFinite vs →
    ∀ (items : List Json) (frames : List Frame) (rest : List Char), readFrom (.value (.list items :: frames))
      (cs ++ ']' :: rest) = readFrom (.complete (.array (items ++ jsonItems vs)) frames) rest
  | [], _, _, nonempty, _, _, _, _ => absurd rfl nonempty
  | [v], _, written, _, finite, items, frames, rest => by
    obtain ⟨own, _⟩ := Bool.and_eq_true_iff.mp finite
    rw [encodeItems] at written
    rw [readFrom_encode v written own _ _ (endsWord_cons rfl rest)]
    exact readFrom_mark rfl (by decide) rfl rfl
  | v :: w :: vs, _, written, _, finite, items, frames, rest => by
    obtain ⟨front, back, first, second, rfl⟩ := encodeItems_cons_eq_ok written
    obtain ⟨own, others⟩ := Bool.and_eq_true_iff.mp finite
    have behind := readFrom_encodeItems (w :: vs) second (by simp) others (items ++ [jsonOf v]) frames rest
    have parts : front ++ ',' :: ' ' :: back ++ ']' :: rest = front ++ ',' :: ' ' :: (back ++ ']' :: rest) := by
      simp
    rw [List.append_assoc] at behind
    rw [parts, readFrom_encode v first own _ _ (endsWord_cons rfl _), readFrom_comma rfl, behind]
    rfl

theorem readFrom_encodeRows : ∀ (rows : List (Value × Value)) {cs : List Char}, encodeRows rows = .ok cs → rows ≠ [] →
    rowsFinite rows → ∀ (members : List (List Nat × Json)) (frames : List Frame) (rest : List Char),
      readFrom (.key members frames) (cs ++ '\x7d' :: rest) =
        readFrom (.complete (.object (members ++ jsonRows rows)) frames) rest
  | [], _, _, nonempty, _, _, _, _ => absurd rfl nonempty
  | [(k, v)], _, written, _, finite, members, frames, rest => by
    obtain ⟨key, inner, named, known, rfl⟩ := encodeRows_single_eq_ok written
    obtain ⟨own, _⟩ := Bool.and_eq_true_iff.mp finite
    rw [List.append_assoc, List.cons_append, List.cons_append, readFrom_key,
      readFrom_encode v known own _ _ (endsWord_cons rfl rest), ← keyOf_eq named]
    exact readFrom_mark rfl (by decide) rfl rfl
  | (k, v) :: row :: rows, _, written, _, finite, members, frames, rest => by
    obtain ⟨key, inner, back, named, known, second, rfl⟩ := encodeRows_cons_eq_ok written
    obtain ⟨own, others⟩ := Bool.and_eq_true_iff.mp finite
    have behind := readFrom_encodeRows (row :: rows) second (by simp) others (members ++ [(readPoints (keyOf k), jsonOf v)])
      frames rest
    have parts : encodeText key ++ ':' :: ' ' :: inner ++ ',' :: ' ' :: back ++ '\x7d' :: rest =
        encodeText key ++ ':' :: ' ' :: (inner ++ ',' :: ' ' :: (back ++ '\x7d' :: rest)) := by
      simp
    rw [List.append_assoc] at behind
    rw [parts, readFrom_key, readFrom_encode v known own _ _ (endsWord_cons rfl _), readFrom_comma rfl, ← keyOf_eq named,
      behind]
    rfl

end

/-- The written form of a value whose doubles are finite is read back. -/
theorem read_encode {v : Value} {cs : List Char} (written : encode v = .ok cs) (finite : isFinite v) :
    JsonReader.read cs = some (jsonOf v) := by
  have whole := readFrom_encode v written finite [] [] nofun
  rw [List.append_nil] at whole
  rw [JsonReader.read, whole, readFrom]
  rfl

end CpuLoad.JsonValues
