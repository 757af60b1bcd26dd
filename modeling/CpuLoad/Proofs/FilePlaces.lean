import CpuLoad.Proofs.DailyNames

/-!
Where files stand in a tree, and what it is to store bytes at one place of it. A tree that only gains files and bytes keeps
its directories, so names lead to the same places as before (`placeOf_of_directories`), and the files of two days stand at
two places (`eq_of_places`).
-/
namespace CpuLoad.FilePlaces
open CpuLoad.Calendar CpuLoad.DailyNames CpuLoad.Journal CpuLoad.Location

/-! ### Places in a tree -/

section
variable {t u v : FileTree} {names : List String} {place : List String} {name : String}

/-- Every directory of a tree is one of another tree. -/
def Directories (t u : FileTree) : Prop := ∀ p, t.node? p = some .directory → u.node? p = some .directory

theorem follow_of_directories (kept : Directories t u) {start : List String} (leads : t.follow start names = .ok place) :
    u.follow start names = .ok place := by
  induction names generalizing start with
  | nil => exact leads
  | cons name names ih =>
    unfold FileTree.follow at leads ⊢
    cases here : t.node? start with
    | none => simp [here] at leads
    | some node =>
      cases node with
      | file bytes => simp [here] at leads
      | directory =>
        rw [kept start here]
        simp only [here] at leads
        split at leads
        · cases leads
        · next short => simpa [short] using ih leads

theorem placeOf_eq_ok_iff : t.placeOf names = .ok place ↔
    (∃ size, FileTree.pathSize names = .ok size ∧ size ≤ FileTree.longestPath) ∧ t.follow [] names = .ok place := by
  unfold FileTree.placeOf
  cases FileTree.pathSize names with
  | error e => simp [bind, Except.bind]
  | ok size =>
    by_cases short : size ≤ FileTree.longestPath
    · simp [bind, Except.bind, short, Nat.not_lt.mpr short]
    · simp [bind, Except.bind, short, Nat.lt_of_not_le short]

theorem placeOf_of_directories (kept : Directories t u) (leads : t.placeOf names = .ok place) :
    u.placeOf names = .ok place := by
  obtain ⟨short, leads⟩ := placeOf_eq_ok_iff.mp leads
  exact placeOf_eq_ok_iff.mpr ⟨short, follow_of_directories kept leads⟩

theorem follow_append (start front back : List String) :
    t.follow start (front ++ back) = (t.follow start front).bind fun p => t.follow p back := by
  induction front generalizing start with
  | nil => rfl
  | cons name front ih =>
    rw [List.cons_append, FileTree.follow, FileTree.follow]
    cases t.node? start with
    | none => rfl
    | some node =>
      cases node with
      | file bytes => rfl
      | directory =>
        dsimp only
        split
        · rfl
        · exact ih _

/-- A plain name leads to a place below that of the names before it. -/
theorem place_of_plain (plain : IsPlain name) (leads : t.placeOf (names ++ [name]) = .ok place) :
    ∃ above, t.follow [] names = .ok above ∧ place = above ++ [name] := by
  have followed := (placeOf_eq_ok_iff.mp leads).2
  rw [follow_append] at followed
  cases first : t.follow [] names with
  | error e =>
    rw [first] at followed
    cases followed
  | ok above =>
    rw [first] at followed
    change t.follow above [name] = .ok place at followed
    unfold FileTree.follow at followed
    split at followed
    · split at followed
      · cases followed
      · cases followed
        exact ⟨above, rfl, by simp [FileTree.step, plain.ne_above]⟩
    · cases followed
    · cases followed

/-- The file of a day. -/
def namesOfDay (directory : String) (d : Date) : List String := namesOf (fileOf directory d)

variable {directory : String} {d other : Date}

theorem place_of_day (leads : t.placeOf (namesOfDay directory d) = .ok place) :
    ∃ above, t.follow [] (namesOf (normal directory)) = .ok above ∧ place = above ++ [fileName d] := by
  rw [namesOfDay, namesOf_fileOf] at leads
  exact place_of_plain (isPlain_fileName d) leads

theorem place_ne_nil (leads : t.placeOf (namesOfDay directory d) = .ok place) : place ≠ [] := by
  obtain ⟨above, _, rfl⟩ := place_of_day leads
  simp

/-- The files of two days stand at two places. -/
theorem eq_of_places (positive : 1 ≤ other.year) (left : t.placeOf (namesOfDay directory d) = .ok place)
    (right : t.placeOf (namesOfDay directory other) = .ok place) : d = other := by
  obtain ⟨above, first, rfl⟩ := place_of_day left
  obtain ⟨above', second, same⟩ := place_of_day right
  obtain rfl := Except.ok.inj (first.symm.trans second)
  exact fileName_inj positive (by simpa using same)

/-! ### What an export stores -/

/-- The bytes of a file, none if it is not there. -/
def bytesAt (t : FileTree) (place : List String) : ByteArray :=
  match t.node? place with
  | some (.file bytes) => bytes
  | _ => .empty

/-- A tree in which a file has other bytes, or is new, and everything else is as before. -/
def Stores (t u : FileTree) (place : List String) (bytes : ByteArray) : Prop :=
  ∀ p, u.node? p = if p = place then some (.file bytes) else t.node? p

theorem Stores.file {bytes : ByteArray} (stores : Stores t u place bytes) : u.node? place = some (.file bytes) :=
  (stores place).trans (if_pos rfl)

theorem Stores.elsewhere {bytes : ByteArray} (stores : Stores t u place bytes) {p : List String} (apart : p ≠ place) :
    u.node? p = t.node? p :=
  (stores p).trans (if_neg apart)

theorem bytesAt_eq {bytes : ByteArray} (here : t.node? place = some (.file bytes)) : bytesAt t place = bytes := by
  unfold bytesAt
  rw [here]

theorem Stores.trans {bytes more : ByteArray} (first : Stores t u place bytes) (second : Stores u v place more) :
    Stores t v place more := by
  intro p
  rw [second p, first p]
  by_cases here : p = place <;> simp [here]

theorem Stores.directories {bytes : ByteArray} (stores : Stores t u place bytes) (free : t.node? place ≠ some .directory) :
    Directories t u := by
  intro p known
  rw [stores p, if_neg]
  · exact known
  · rintro rfl
    exact free known

theorem stores_put (below : place ≠ []) (bytes : ByteArray) : Stores t (t.put place (.file bytes)) place bytes :=
  fun p => FileTree.node?_put below _ _ p

theorem openEnd_eq (leads : t.placeOf names = .ok place) : t.openEnd names =
    match t.node? place with
    | some .directory => .error .isDirectory
    | some (.file _) => .ok t
    | none => .ok (t.put place (.file .empty)) := by
  unfold FileTree.openEnd
  rw [leads]
  rfl

/-- A file that can be opened is there afterwards, with the bytes that it had. -/
theorem stores_openEnd (leads : t.placeOf names = .ok place) (below : place ≠ []) (opened : t.openEnd names = .ok u) :
    t.node? place ≠ some .directory ∧ Stores t u place (bytesAt t place) := by
  rw [openEnd_eq leads] at opened
  cases here : t.node? place with
  | none =>
    rw [here] at opened
    cases opened
    refine ⟨by simp, ?_⟩
    simpa [bytesAt, here] using stores_put below ByteArray.empty
  | some node =>
    cases node with
    | directory =>
      rw [here] at opened
      cases opened
    | file bytes =>
      rw [here] at opened
      cases opened
      refine ⟨by simp, fun p => ?_⟩
      by_cases same : p = place <;> simp [bytesAt, same, here]

theorem stores_append {bytes : ByteArray} (leads : t.placeOf names = .ok place) (below : place ≠ [])
    (here : t.node? place = some (.file bytes)) (text : String) :
    Stores t (t.append names text) place (bytes ++ text.toUTF8) := by
  simpa [FileTree.append, leads, here] using stores_put below (bytes ++ text.toUTF8)

theorem free_of_openEnd (opened : t.openEnd names = .ok u) :
    ∃ place, t.placeOf names = .ok place ∧ t.node? place ≠ some .directory := by
  cases leads : t.placeOf names with
  | error e =>
    unfold FileTree.openEnd at opened
    rw [leads] at opened
    cases opened
  | ok place =>
    refine ⟨place, rfl, fun blocked => ?_⟩
    rw [openEnd_eq leads, blocked] at opened
    cases opened

theorem openEnd_of_free (leads : t.placeOf names = .ok place)
    (free : t.node? place ≠ some .directory) : ∃ u, t.openEnd names = .ok u := by
  rw [openEnd_eq leads]
  cases here : t.node? place with
  | none => exact ⟨_, rfl⟩
  | some node =>
    cases node with
    | directory => exact absurd here free
    | file bytes => exact ⟨t, rfl⟩

end

end CpuLoad.FilePlaces
