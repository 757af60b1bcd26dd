import CpuLoad.Proofs.StatRows
import Mathlib.Data.List.TakeWhile

/-!
What a text of processor descriptions says. Its first block are the lines up to the first blank one that follows a line
with a colon (`IsFirstBlock`); every text has exactly one. The fields that are read depend on this block alone
(`fieldsOf_eq`), and a key has the value of the first line of the block that names it (`lookup_fieldsOf_iff`). The identity
that is made of such a text, of a serial number and of what was known before takes each of its fields from the texts if they
say something of it, and else keeps what was known (`Describes`).
-/
namespace CpuLoad.FirstBlock
open CpuLoad.Blank CpuLoad.Identity CpuLoad.Outcome

/-! ### The first block -/

def IsBlankText (cs : List Char) : Prop := ∀ c ∈ cs, isBlank c

instance (cs : List Char) : Decidable (IsBlankText cs) := List.decidableBAll _ _

/-- Lines begin with a block in which no blank line follows one with a colon, and that ends before such a line or with
    the last one. -/
structure IsFirstBlock (block ls : List (List Char)) : Prop where
  begins : block <+: ls
  closed : block.Pairwise fun earlier line => ':' ∈ earlier → ¬ IsBlankText line
  ended : ∀ line rest, ls = block ++ line :: rest → IsBlankText line ∧ ∃ earlier ∈ block, ':' ∈ earlier

variable {block other ls : List (List Char)}

theorem not_longer (first : IsFirstBlock block ls) (second : IsFirstBlock other ls) (shorter : block <+: other) :
    block = other := by
  obtain ⟨more, rfl⟩ := shorter
  cases more with
  | nil => exact (List.append_nil block).symm
  | cons line more =>
    -- The longer block would hold a blank line behind one with a colon.
    obtain ⟨rest, whole⟩ := second.begins
    rw [List.append_assoc, List.cons_append] at whole
    obtain ⟨blank, earlier, member, colon⟩ := first.ended line (more ++ rest) whole.symm
    have apart := (List.pairwise_append.mp second.closed).2.2 earlier member line (List.mem_cons_self ..)
    exact absurd blank (apart colon)

theorem eq_of_isFirstBlock (first : IsFirstBlock block ls) (second : IsFirstBlock other ls) : block = other := by
  rcases List.prefix_or_prefix_of_prefix first.begins second.begins with shorter | longer
  · exact not_longer first second shorter
  · exact (not_longer second first longer).symm

/-- What follows the line that ends a first block does not matter. -/
theorem isFirstBlock_of_rest {line : List Char} {rest : List (List Char)} (first : IsFirstBlock block (block ++ line :: rest))
    (rest' : List (List Char)) : IsFirstBlock block (block ++ line :: rest') := by
  refine ⟨List.prefix_append .., first.closed, fun line' later whole => ?_⟩
  obtain ⟨rfl, _⟩ := List.cons.inj (List.append_cancel_left whole)
  exact first.ended line rest rfl

/-- The lines up to the first blank one that follows a line with a colon, some lines having come before. -/
def blockAfter (seen : Bool) : List (List Char) → List (List Char)
  | [] => []
  | line :: rest =>
    if seen ∧ IsBlankText line then [] else line :: blockAfter (seen || line.contains ':') rest

/-- Lines that were read before belong to the block, and all that is known of them is whether one has a colon. -/
theorem isFirstBlock_blockAfter (before ls : List (List Char))
    (closed : before.Pairwise fun earlier line => ':' ∈ earlier → ¬ IsBlankText line) :
    IsFirstBlock (before ++ blockAfter (before.any (·.contains ':')) ls) (before ++ ls) := by
  induction ls generalizing before with
  | nil =>
    rw [blockAfter, List.append_nil]
    refine ⟨List.prefix_refl before, closed, fun line rest whole => ?_⟩
    exact absurd (List.self_eq_append_right.mp whole) (List.cons_ne_nil line rest)
  | cons line rest ih =>
    have seen_iff : before.any (·.contains ':') = true ↔ ∃ earlier ∈ before, ':' ∈ earlier := by simp
    rw [blockAfter]
    split_ifs with stops
    · rw [List.append_nil]
      refine ⟨List.prefix_append .., closed, fun line' rest' whole => ?_⟩
      obtain ⟨rfl, _⟩ := List.cons.inj (List.append_cancel_left whole)
      exact ⟨stops.2, seen_iff.mp stops.1⟩
    · have longer : (before ++ [line]).Pairwise fun earlier line => ':' ∈ earlier → ¬ IsBlankText line := by
        refine List.pairwise_append.mpr ⟨closed, List.pairwise_singleton .., ?_⟩
        intro earlier member last own colon blank
        rw [List.mem_singleton.mp own] at blank
        exact stops ⟨seen_iff.mpr ⟨earlier, member, colon⟩, blank⟩
      have rest := ih (before ++ [line]) longer
      simpa using rest

theorem isFirstBlock_lines (ls : List (List Char)) : IsFirstBlock (blockAfter false ls) ls :=
  isFirstBlock_blockAfter [] ls List.Pairwise.nil

/-! ### Fields of a line -/

/-- A line names a key with a value: they stand before and after its first colon, without the blanks around them. -/
def Gives (line : List Char) (key value : String) : Prop :=
  ∃ front back, line = front ++ ':' :: back ∧ ':' ∉ front ∧ key = String.ofList (trim front) ∧
    value = String.ofList (trim back)

/-- The first of some lines that names a key gives it a value. -/
inductive FirstGives (key value : String) : List (List Char) → Prop
  | here {line : List Char} {rest : List (List Char)} : Gives line key value → FirstGives key value (line :: rest)
  | later {line : List Char} {rest : List (List Char)} : (∀ v, ¬ Gives line key v) → FirstGives key value rest →
      FirstGives key value (line :: rest)

theorem splitColon_eq_some_iff {line front back : List Char} :
    splitColon line = some (front, back) ↔ line = front ++ ':' :: back ∧ ':' ∉ front := by
  induction line generalizing front with
  | nil => simp [splitColon]
  | cons c rest ih =>
    by_cases colon : c = ':'
    · subst colon
      cases front with
      | nil => simp [splitColon]
      | cons f front =>
        refine ⟨by rintro ⟨⟩, ?_⟩
        rintro ⟨whole, apart⟩
        exact absurd (List.mem_cons.mpr (.inl (List.cons.inj whole).1)) apart
    · have step : splitColon (c :: rest) = (splitColon rest).map fun field => (c :: field.1, field.2) := by
        rw [splitColon.eq_def]
        split <;> simp_all
      rw [step, Option.map_eq_some_iff]
      constructor
      · rintro ⟨⟨key, value⟩, split, same⟩
        obtain ⟨rfl, rfl⟩ := Prod.mk.inj same
        obtain ⟨rfl, apart⟩ := ih.mp split
        exact ⟨rfl, List.not_mem_cons_of_ne_of_not_mem (Ne.symm colon) apart⟩
      · rintro ⟨whole, apart⟩
        cases front with
        | nil => exact absurd (List.cons.inj whole).1 colon
        | cons f front =>
          obtain ⟨rfl, rfl⟩ := List.cons.inj whole
          exact ⟨(front, back), ih.mpr ⟨rfl, (List.ne_and_not_mem_of_not_mem_cons apart).2⟩, rfl⟩

theorem field_eq_some_iff {line : List Char} {key value : String} :
    field? line = some (key, value) ↔ Gives line key value := by
  unfold field? Gives
  rw [Option.map_eq_some_iff]
  constructor
  · rintro ⟨⟨front, back⟩, split, same⟩
    obtain ⟨rfl, rfl⟩ := Prod.mk.inj same
    obtain ⟨whole, apart⟩ := splitColon_eq_some_iff.mp split
    exact ⟨front, back, whole, apart, rfl, rfl⟩
  · rintro ⟨front, back, whole, apart, rfl, rfl⟩
    exact ⟨(front, back), splitColon_eq_some_iff.mpr ⟨whole, apart⟩, rfl⟩

theorem field_eq_none_iff {line : List Char} : field? line = none ↔ ':' ∉ line := by
  constructor
  · intro none colon
    obtain ⟨front, back, apart, whole⟩ := List.eq_append_cons_of_mem colon
    have some := field_eq_some_iff.mpr ⟨front, back, apart, whole, rfl, rfl⟩
    rw [none] at some
    cases some
  · intro apart
    cases read : field? line with
    | none => rfl
    | some field =>
      obtain ⟨front, back, rfl, _⟩ := field_eq_some_iff.mp read
      exact absurd (List.mem_append_right front (List.mem_cons_self ..)) apart

/-! ### Blank texts -/

theorem trim_eq_nil_iff {cs : List Char} : trim cs = [] ↔ IsBlankText cs := by
  unfold trim trimRight trimLeft IsBlankText
  rw [List.reverse_eq_nil_iff, List.dropWhile_eq_nil_iff]
  simp only [List.mem_reverse]
  constructor
  · intro rest c member
    rw [← List.takeWhile_append_dropWhile (p := isBlank) (l := cs)] at member
    rcases List.mem_append.mp member with front | back
    · exact List.mem_takeWhile_imp front
    · exact rest c back
  · intro all c member
    exact all c ((List.dropWhile_sublist isBlank).subset member)

theorem words_eq_nil_iff {cs : List Char} : words cs = [] ↔ IsBlankText cs := by
  unfold IsBlankText
  induction cs with
  | nil => exact iff_of_true rfl fun c member => absurd member List.not_mem_nil
  | cons c rest ih =>
    rw [List.forall_mem_cons]
    cases visible : isBlank c with
    | true =>
      have skipped : words (c :: rest) = words rest := by
        rw [words.eq_def]
        exact if_pos visible
      rw [skipped, ih]
      exact (and_iff_right rfl).symm
    | false => exact iff_of_false (StatRows.words_ne_nil visible rest) fun all => Bool.noConfusion all.1

/-! ### Fields of a block -/

/-- The fields with that of a line, unless one of them has its key. -/
def record (fields : List (String × String)) (line : List Char) : List (String × String) :=
  match field? line with
  | none => fields
  | some (key, value) => if (fields.lookup key).isSome then fields else fields ++ [(key, value)]

variable {fields : List (String × String)} {key value : String} {line : List Char}

theorem record_of_not_colon (apart : ':' ∉ line) : record fields line = fields := by
  unfold record
  rw [field_eq_none_iff.mpr apart]

theorem isEmpty_record (fields : List (String × String)) (line : List Char) :
    (!(record fields line).isEmpty) = (!fields.isEmpty || line.contains ':') := by
  by_cases colon : ':' ∈ line
  · rw [List.contains_iff_mem.mpr colon, Bool.or_true]
    cases read : field? line with
    | none => exact absurd colon (field_eq_none_iff.mp read)
    | some field =>
      unfold record
      simp only [read]
      split_ifs with known
      · cases fields with
        | nil => cases known
        | cons first rest => rfl
      · simp
  · have absent : line.contains ':' = false := by simpa using colon
    rw [record_of_not_colon colon, absent, Bool.or_false]

theorem blockFields_cons (visible : ¬ IsBlankText line) (fields : List (String × String)) (rest : List (List Char)) :
    blockFields fields (line :: rest) = blockFields (record fields line) rest := by
  rw [blockFields, if_neg (trim_eq_nil_iff.not.mpr visible)]
  unfold record
  cases field? line with
  | none => rfl
  | some field =>
    dsimp only
    split_ifs <;> rfl

/-- The fields of a text are those of the lines up to the first blank one after a line with a colon: there is a field
    exactly if such a line has been read. -/
theorem blockFields_eq (fields : List (String × String)) (ls : List (List Char)) :
    blockFields fields ls = (blockAfter (!fields.isEmpty) ls).foldl record fields := by
  induction ls generalizing fields with
  | nil => rfl
  | cons line rest ih =>
    rw [blockAfter]
    by_cases blank : IsBlankText line
    · have apart : ':' ∉ line := fun colon => absurd (blank ':' colon) (by decide)
      have absent : line.contains ':' = false := by simpa using apart
      rw [blockFields, if_pos (trim_eq_nil_iff.mpr blank)]
      cases fields with
      | nil =>
        rw [if_pos rfl, if_neg fun stops => Bool.noConfusion stops.1, absent, List.foldl_cons,
          record_of_not_colon apart, ih]
        rfl
      | cons first others =>
        rw [if_neg (List.cons_ne_nil first others), if_pos ⟨rfl, blank⟩]
        rfl
    · rw [blockFields_cons blank, if_neg fun stops => blank stops.2, ih, isEmpty_record]
      rfl

theorem fieldsOf_eq {text : String} (first : IsFirstBlock block (lines text.toList)) :
    fieldsOf text = block.foldl record [] := by
  rw [eq_of_isFirstBlock first (isFirstBlock_lines _)]
  exact blockFields_eq [] _

theorem lookup_record_of_some (known : fields.lookup key = some value) (line : List Char) :
    (record fields line).lookup key = some value := by
  unfold record
  cases field? line with
  | none => exact known
  | some field =>
    dsimp only
    split_ifs with old
    · exact known
    · rw [List.lookup_append, known]
      rfl

/-- A key without a field gets the value that the line gives it. -/
theorem lookup_record_of_none (unknown : fields.lookup key = none) :
    (record fields line).lookup key = some value ↔ Gives line key value := by
  rw [← field_eq_some_iff]
  unfold record
  cases field? line with
  | none => simp [unknown]
  | some field =>
    obtain ⟨named, told⟩ := field
    dsimp only
    by_cases own : key = named
    · subst own
      rw [unknown, if_neg (by simp), List.lookup_append, unknown]
      simp
    · split_ifs
      · simp [unknown, Ne.symm own]
      · simp [List.lookup_append, unknown, own, Ne.symm own]

theorem firstGives_cons {rest : List (List Char)} :
    FirstGives key value (line :: rest) ↔ Gives line key value ∨ ((∀ v, ¬ Gives line key v) ∧ FirstGives key value rest) := by
  constructor
  · rintro (own | ⟨silent, later⟩)
    · exact .inl own
    · exact .inr ⟨silent, later⟩
  · rintro (own | ⟨silent, later⟩)
    · exact .here own
    · exact .later silent later

theorem lookup_recorded_of_some (known : fields.lookup key = some value) (block : List (List Char)) :
    (block.foldl record fields).lookup key = some value := by
  induction block generalizing fields with
  | nil => exact known
  | cons line rest ih => exact ih (lookup_record_of_some known line)

/-- A key without a field gets the value of the first line that names it. -/
theorem lookup_recorded_of_none (unknown : fields.lookup key = none) :
    (block.foldl record fields).lookup key = some value ↔ FirstGives key value block := by
  induction block generalizing fields with
  | nil =>
    rw [List.foldl_nil, unknown]
    exact iff_of_false (by rintro ⟨⟩) (by rintro ⟨⟩)
  | cons line rest ih =>
    rw [List.foldl_cons, firstGives_cons]
    cases told : (record fields line).lookup key with
    | none =>
      have silent : ∀ v, ¬ Gives line key v := fun v given => by
        rw [(lookup_record_of_none unknown).mpr given] at told
        cases told
      rw [ih told]
      exact ⟨fun later => .inr ⟨silent, later⟩, fun either => (either.resolve_left (silent value)).2⟩
    | some v =>
      have own := (lookup_record_of_none unknown).mp told
      rw [lookup_recorded_of_some told]
      constructor
      · rintro ⟨⟩
        exact .inl own
      · rintro (given | ⟨silent, _⟩)
        · rw [← told]
          exact (lookup_record_of_none unknown).mpr given
        · exact absurd own (silent v)

theorem nodup_recorded (once : (fields.map Prod.fst).Nodup) (block : List (List Char)) :
    ((block.foldl record fields).map Prod.fst).Nodup := by
  induction block generalizing fields with
  | nil => exact once
  | cons line rest ih =>
    refine ih ?_
    unfold record
    cases field? line with
    | none => exact once
    | some field =>
      dsimp only
      split_ifs with old
      · exact once
      · rw [List.map_append, List.map_singleton, ← List.concat_eq_append]
        refine once.concat fun member => old ?_
        obtain ⟨known, member, same⟩ := List.mem_map.mp member
        exact List.lookup_isSome_iff.mpr ⟨known, member, beq_iff_eq.mpr same.symm⟩

/-- A key has the value of the first line of the block that names it. -/
theorem lookup_fieldsOf_iff {text : String} (first : IsFirstBlock block (lines text.toList)) :
    (fieldsOf text).lookup key = some value ↔ FirstGives key value block := by
  rw [fieldsOf_eq first]
  exact lookup_recorded_of_none rfl

/-! ### Identities -/

/-- The fields of an identity that a text gives as they stand there, with their keys. -/
def textFields : List (String × (Identity → Value)) := [
  ("vendor_id", Identity.vendor),
  ("model name", Identity.name),
  ("cpu family", Identity.family),
  ("model", Identity.model),
  ("stepping", Identity.stepping)]

/-- An identity is what a block of lines, a serial number and what was known before make of it, each field on its own. -/
structure Describes (block : List (List Char)) (serial : List Char) (fallback p : Identity) : Prop where
  given : ∀ f ∈ textFields, ∀ value, FirstGives f.1 value block → f.2 p = .text value
  kept : ∀ f ∈ textFields, (∀ value, ¬ FirstGives f.1 value block) → f.2 p = f.2 fallback
  flagged : ∀ flags, FirstGives "flags" flags block → ¬ IsBlankText flags.toList →
    p.is64Bit = .bool (decide ("lm" ∈ wordsOf flags))
  unflagged : (∀ flags, FirstGives "flags" flags block → IsBlankText flags.toList) → p.is64Bit = fallback.is64Bit
  numbered : serial ≠ [] → p.serialNumber = .text (String.ofList serial)
  unnumbered : serial = [] → p.serialNumber = fallback.serialNumber

variable {serial : List Char} {fallback p p' : Identity}

/-- Nothing else enters an identity. -/
theorem describes_unique (first : Describes block serial fallback p) (second : Describes block serial fallback p') :
    p = p' := by
  have texts : ∀ f ∈ textFields, f.2 p = f.2 p' := by
    intro f member
    by_cases known : ∃ value, FirstGives f.1 value block
    · obtain ⟨value, gives⟩ := known
      rw [first.given f member value gives, second.given f member value gives]
    · have silent : ∀ value, ¬ FirstGives f.1 value block := not_exists.mp known
      rw [first.kept f member silent, second.kept f member silent]
  have flags : p.is64Bit = p'.is64Bit := by
    by_cases known : ∃ flags, FirstGives "flags" flags block ∧ ¬ IsBlankText flags.toList
    · obtain ⟨flags, gives, visible⟩ := known
      rw [first.flagged flags gives visible, second.flagged flags gives visible]
    · have blank : ∀ flags, FirstGives "flags" flags block → IsBlankText flags.toList := fun flags gives =>
        not_not.mp fun visible => known ⟨flags, gives, visible⟩
      rw [first.unflagged blank, second.unflagged blank]
  have numbers : p.serialNumber = p'.serialNumber := by
    by_cases empty : serial = []
    · rw [first.unnumbered empty, second.unnumbered empty]
    · rw [first.numbered empty, second.numbered empty]
  cases p
  cases p'
  simp only [textFields, List.forall_mem_cons] at texts
  simp_all

theorem get_withFields (fields : List (String × String)) (serial : String) (fallback : Identity) :
    ∀ f ∈ textFields, f.2 (fallback.withFields fields serial) =
      ((fields.lookup f.1).map Value.text).getD (f.2 fallback) := by
  unfold textFields
  simp only [List.forall_mem_cons]
  exact ⟨rfl, rfl, rfl, rfl, rfl, by simp⟩

theorem wordsOf_eq_nil_iff {text : String} : wordsOf text = [] ↔ IsBlankText text.toList := by
  rw [← words_eq_nil_iff, wordsOf, List.map_eq_nil_iff]

theorem describes_withFields (meaning : ∀ key value, fields.lookup key = some value ↔ FirstGives key value block)
    (serial : String) (fallback : Identity) :
    Describes block (trim serial.toList) fallback (fallback.withFields fields serial) where
  given f member value gives := by
    rw [get_withFields fields serial fallback f member, (meaning f.1 value).mpr gives]
    rfl
  kept f member silent := by
    have unknown : fields.lookup f.1 = none :=
      Option.eq_none_iff_forall_ne_some.mpr fun value known => silent value ((meaning f.1 value).mp known)
    rw [get_withFields fields serial fallback f member, unknown]
    rfl
  flagged flags gives visible := by
    unfold withFields
    dsimp only
    rw [(meaning "flags" flags).mpr gives, Option.getD_some, if_neg (wordsOf_eq_nil_iff.not.mpr visible),
      List.contains_eq_mem]
  unflagged blank := by
    refine if_pos ?_
    cases known : fields.lookup "flags" with
    | none => rfl
    | some flags => exact wordsOf_eq_nil_iff.mpr (blank flags ((meaning "flags" flags).mp known))
  numbered present := by
    have visible : ¬ trimText serial = "" := fun empty => present (String.ofList_eq_empty_iff.mp empty)
    unfold withFields
    dsimp only
    rw [if_neg visible]
    rfl
  unnumbered absent := by
    have empty : trimText serial = "" := String.ofList_eq_empty_iff.mpr absent
    unfold withFields
    dsimp only
    rw [if_pos empty]

/-! ### Files -/

/-- The lines of a file, none if it cannot be opened. -/
def linesIn (found : Option String) : List (List Char) := (found.map fun text => lines text.toList).getD []

/-- The serial number in a file, without the blanks around it. -/
def serialIn (found : Option String) : List Char := trim (found.getD "").toList

section
variable {ω : Type} [Files (StateM ω)] {descriptions serial : String} {found number : Option String} {world middle left : ω}

theorem run_describe (described : Opens descriptions world found middle) (numbered : Opens serial middle number left)
    (fallback : Identity) :
    (ProcSource.describe descriptions serial fallback : ExceptT Fault (StateM ω) Identity).run.run world =
      (.ok (fallback.withFields ((found.map fieldsOf).getD []) (number.getD "")), left) := by
  obtain ⟨r, read, rfl⟩ := run_readIfOpen numbered
  exact (run_bind_ok (run_readOrNote described)).trans ((run_bind_ok read).trans rfl)

/-- The identity that is read from two files. -/
theorem exists_described (described : Opens descriptions world found middle) (numbered : Opens serial middle number left)
    (first : IsFirstBlock block (linesIn found)) (fallback : Identity) :
    ∃ p, (ProcSource.describe descriptions serial fallback : ExceptT Fault (StateM ω) Identity).run.run world = (.ok p, left) ∧
      Describes block (serialIn number) fallback p := by
  refine ⟨_, run_describe described numbered fallback, describes_withFields (fun key value => ?_) _ _⟩
  cases found with
  | none =>
    obtain rfl : block = [] := List.prefix_nil.mp first.begins
    exact iff_of_false (by rintro ⟨⟩) (by rintro ⟨⟩)
  | some text => exact lookup_fieldsOf_iff first

end

/-- Every text has one first block, whatever follows the line that ends it. The fields that are read of a text are the same
for all texts with its first block, have no key twice, and have for each key the value of the first line of the block that
names it. The identity that is read
from a file of descriptions and one of a serial number takes each field from them if they have it, and from what was known
before if they do not, and nothing but the first block, the serial number without the blanks around it and what was known
enters it. -/
theorem identity_comes_from_first_block :
    (∀ ls, ∃! block, IsFirstBlock block ls) ∧
    (∀ block line rest rest', IsFirstBlock block (block ++ line :: rest) → IsFirstBlock block (block ++ line :: rest')) ∧
    (∀ (text : String) (block : List (List Char)), IsFirstBlock block (lines text.toList) →
      ((fieldsOf text).map Prod.fst).Nodup ∧
      (∀ key value, (fieldsOf text).lookup key = some value ↔ FirstGives key value block) ∧
      ∀ other : String, IsFirstBlock block (lines other.toList) → fieldsOf other = fieldsOf text) ∧
    (∀ (ω : Type) [Files (StateM ω)] (descriptions serial : String) (fallback : Identity) (found number : Option String)
      (world middle left : ω) (block : List (List Char)), Opens descriptions world found middle →
      Opens serial middle number left → IsFirstBlock block (linesIn found) →
      ∃ p, (ProcSource.describe descriptions serial fallback : ExceptT Fault (StateM ω) Identity).run.run world =
        (.ok p, left) ∧ Describes block (serialIn number) fallback p) ∧
    ∀ block serial fallback p p', Describes block serial fallback p → Describes block serial fallback p' → p = p' := by
  refine ⟨fun ls => ?_, fun _ _ _ rest' first => isFirstBlock_of_rest first rest',
    fun text block first => ⟨?_, ?_, ?_⟩, ?_, ?_⟩
  · exact ⟨_, isFirstBlock_lines ls, fun other second => eq_of_isFirstBlock second (isFirstBlock_lines ls)⟩
  · rw [fieldsOf_eq first]
    exact @nodup_recorded [] List.nodup_nil block
  · exact fun key value => lookup_fieldsOf_iff first
  · intro other second
    rw [fieldsOf_eq first, fieldsOf_eq second]
  · intro ω _ descriptions serial fallback found number world middle left block described numbered first
    exact exists_described described numbered first fallback
  · exact fun block serial fallback p p' first second => describes_unique first second

/-- A first block that begins with a blank line and one without a colon and names a key twice, and a second block. -/
def twoBlocks : String := "\nx\nmodel: A: B\nmodel: C\n\nmodel: D\n"

/-- The same first block, ended by another blank line and with another block behind it. -/
def otherBlocks : String := "\nx\nmodel: A: B\nmodel: C\n \nstepping: 1"

theorem identity_comes_from_first_block_twice :
    let describe (shelf : LoadAverages.Shelf) : Except Fault Identity × LoadAverages.Shelf :=
      (ProcSource.describe "cpuinfo" "serial" {} : ExceptT Fault (StateM LoadAverages.Shelf) Identity).run.run shelf
    let one : LoadAverages.Shelf := ⟨[("cpuinfo", twoBlocks), ("serial", " 12 \n")]⟩
    let other : LoadAverages.Shelf := ⟨[("cpuinfo", otherBlocks), ("serial", "12")]⟩
    ∃ p, describe one = (.ok p, one) ∧ describe other = (.ok p, other) ∧ p.model = .text "A: B" := by
  intro describe one other
  have ⟨_, _, fields, described, unique⟩ := identity_comes_from_first_block
  have same : blockAfter false (lines otherBlocks.toList) = blockAfter false (lines twoBlocks.toList) := by decide +kernel
  have first := isFirstBlock_lines (lines twoBlocks.toList)
  have second := isFirstBlock_lines (lines otherBlocks.toList)
  rw [same] at second
  obtain ⟨p, run, describes⟩ := described _ "cpuinfo" "serial" {} (some twoBlocks) (some " 12 \n") one one one _
    (.opened rfl rfl) (.opened rfl rfl) first
  obtain ⟨p', run', describes'⟩ := described _ "cpuinfo" "serial" {} (some otherBlocks) (some "12") other other other _
    (.opened rfl rfl) (.opened rfl rfl) second
  obtain rfl := unique _ _ _ _ _ describes describes'
  have gives := ((fields twoBlocks _ first).2.1 "model" "A: B").mp (by decide +kernel)
  exact ⟨p, run, run', describes.given ("model", Identity.model) (.tail _ (.tail _ (.tail _ (.head _)))) "A: B" gives⟩

end CpuLoad.FirstBlock
