import CpuLoad.Journal
import CpuLoad.Proofs.Outcome

/-!
What an export does to the handle of a journal. The text of a file is what was passed on to it, and behind that what the
handle holds back. Writing a line adds to this text and passes on as much of it as the system likes (`Buffered`), and a
flush passes on the rest. So an export adds the lines of its batch up to the first sample that has none, and
holds nothing back if every sample has one (`exists_append_of_live`, `exists_append_of_other`).
-/
namespace CpuLoad.HeldLines
open CpuLoad.Calendar CpuLoad.Journal CpuLoad.JsonLine CpuLoad.Outcome

/-! ### The lines of a batch -/

/-- The lines of the samples of a batch, up to the first that has none. -/
def linesOf : List Sample → String
  | [] => ""
  | s :: rest =>
    match lineOf s with
    | .ok line => line ++ linesOf rest
    | .error _ => ""

/-- Whether every sample of a batch has a line; if not, the fault of the first that has none. -/
def check : List Sample → Except Fault Unit
  | [] => .ok ()
  | s :: rest => do
    let _ ← lineOf s
    check rest

section
variable {s : Sample} {line : String} {e : Fault} {batch : List Sample}

theorem check_cons_ok (has : lineOf s = .ok line) : check (s :: batch) = check batch := by
  rw [check, has]
  rfl

theorem check_cons_error (lacks : lineOf s = .error e) : check (s :: batch) = .error e := by
  rw [check, lacks]
  rfl

theorem linesOf_cons_ok (has : lineOf s = .ok line) : linesOf (s :: batch) = line ++ linesOf batch := by
  rw [linesOf, has]

theorem linesOf_cons_error (lacks : lineOf s = .error e) : linesOf (s :: batch) = "" := by
  rw [linesOf, lacks]

theorem check_eq_ok_iff : check batch = .ok () ↔ ∀ s ∈ batch, ∃ line, lineOf s = .ok line := by
  induction batch with
  | nil => exact ⟨fun _ _ member => absurd member List.not_mem_nil, fun _ => rfl⟩
  | cons s batch ih =>
    rw [List.forall_mem_cons]
    cases known : lineOf s with
    | error e =>
      rw [check_cons_error known]
      exact ⟨nofun, fun ⟨⟨_, other⟩, _⟩ => nomatch other⟩
    | ok line =>
      rw [check_cons_ok known, ih]
      exact ⟨fun others => ⟨⟨line, rfl⟩, others⟩, And.right⟩

theorem check_append (batch more : List Sample) : check (batch ++ more) = check batch >>= fun _ => check more := by
  induction batch with
  | nil => rfl
  | cons s batch ih =>
    rw [List.cons_append]
    cases known : lineOf s with
    | error e =>
      rw [check_cons_error known, check_cons_error known]
      rfl
    | ok line => rw [check_cons_ok known, check_cons_ok known, ih]

theorem check_append_eq_ok {more : List Sample} (complete : check (batch ++ more) = .ok ()) :
    check batch = .ok () ∧ check more = .ok () := by
  rw [check_append] at complete
  cases first : check batch with
  | error e =>
    rw [first] at complete
    cases complete
  | ok done =>
    rw [first] at complete
    exact ⟨rfl, complete⟩

theorem linesOf_append (complete : check batch = .ok ()) (more : List Sample) :
    linesOf (batch ++ more) = linesOf batch ++ linesOf more := by
  induction batch with
  | nil => exact (String.empty_append).symm
  | cons s batch ih =>
    rw [List.cons_append]
    cases known : lineOf s with
    | error e =>
      rw [check_cons_error known] at complete
      cases complete
    | ok line =>
      rw [check_cons_ok known] at complete
      rw [linesOf_cons_ok known, linesOf_cons_ok known, ih complete, String.append_assoc]

end

/-! ### Passing text on -/

section
variable {ω : Type} [Files (StateM ω)] {path text more held : String} {world between left : ω}

/-- A system that passes the beginning of a written text on at once, as much of it as it likes. -/
class Buffered (ω : Type) [Files (StateM ω)] : Prop where
  write_run (path text : String) (world : ω) : ∃ passed rest, passed ++ rest = text ∧
    (Files.write path text : StateM ω String).run world = (rest, ((Files.append path passed : StateM ω Unit).run world).2)

/-- The first characters of a text. -/
def front (n : Nat) (text : String) : String := String.ofList (text.toList.take n)

def behind (n : Nat) (text : String) : String := String.ofList (text.toList.drop n)

theorem front_append_behind (n : Nat) (text : String) : front n text ++ behind n text = text := by
  rw [front, behind, ← String.ofList_append, List.take_append_drop, String.ofList_toList]

/-- What the surroundings are once a text was passed on to a file, in pieces. -/
inductive Passes (path : String) (world : ω) : String → ω → Prop
  | nothing : Passes path world "" world
  | more {text : String} {left : ω} (before : Passes path world text left) (piece : String) :
      Passes path world (text ++ piece) ((Files.append path piece : StateM ω Unit).run left).2

theorem Passes.once (path text : String) (world : ω) :
    Passes path world text ((Files.append path text : StateM ω Unit).run world).2 := by
  simpa using Passes.more Passes.nothing text

theorem Passes.trans (first : Passes path world text between) (second : Passes path between more left) :
    Passes path world (text ++ more) left := by
  induction second with
  | nothing => simpa using first
  | more before piece ih =>
    rw [← String.append_assoc]
    exact .more ih piece

/-! ### Writing and flushing -/

variable {j : Journal} {batch : List Sample}

theorem exists_write [Buffered ω] (live : j.handle = .live held) (onPath : j.path? = some path) (text : String) (world : ω) :
    ∃ passed rest left, passed ++ rest = held ++ text ∧ Passes path world passed left ∧
      outcome (write text) j world = (.ok (), { j with handle := .live rest }, left) := by
  obtain ⟨passed, rest, whole, written⟩ := Buffered.write_run path (held ++ text) world
  refine ⟨passed, rest, _, whole, .once path passed world, ?_⟩
  have lifted : outcome (ExceptT.lift (Files.write path (held ++ text)) : JournalM (StateM ω) String) j world =
      (.ok rest, j, ((Files.append path passed : StateM ω Unit).run world).2) := by
    change ((fun r : String × ω => (Except.ok r.1, j, r.2))
      ((Files.write path (held ++ text) : StateM ω String).run world)) = _
    rw [written]
  unfold write
  rw [outcome_bind, outcome_get, andThen_ok, live, onPath]
  dsimp only
  rw [outcome_bind, lifted, andThen_ok, outcome_set]

/-- A sample without a line fails before anything of it is written. -/
theorem outcome_writeLines_cons (s : Sample) (batch : List Sample) (j : Journal) (world : ω) :
    outcome (writeLines (s :: batch) : JournalM (StateM ω) Unit) j world =
      match lineOf s with
      | .error e => (.error e, j, world)
      | .ok line => andThen (outcome (write line) j world) fun _ => outcome (writeLines batch) := by
  rw [writeLines, outcome_bind, outcome_ofExcept]
  cases lineOf s with
  | error e => rfl
  | ok line => exact outcome_bind

/-- Writing a batch adds its lines, up to the first sample that has none, to what is passed on and held back. -/
theorem exists_writeLines [Buffered ω] (live : j.handle = .live held) (onPath : j.path? = some path) (batch : List Sample)
    (world : ω) : ∃ passed rest left, passed ++ rest = held ++ linesOf batch ∧ Passes path world passed left ∧
      outcome (writeLines batch) j world = (check batch, { j with handle := .live rest }, left) := by
  have same : { j with handle := .live held } = j := by rw [← live]
  induction batch generalizing j world held with
  | nil =>
    refine ⟨"", held, world, by simp [linesOf], .nothing, ?_⟩
    rw [same]
    rfl
  | cons s batch ih =>
    rw [outcome_writeLines_cons]
    cases known : lineOf s with
    | error e =>
      refine ⟨"", held, world, by simp [linesOf_cons_error known], .nothing, ?_⟩
      rw [check_cons_error known, same]
    | ok line =>
      obtain ⟨passed, rest, between, whole, first, wrote⟩ := exists_write live onPath line world
      obtain ⟨passed', rest', left, whole', second, others⟩ :=
        ih (j := { j with handle := .live rest }) rfl onPath between rfl
      refine ⟨passed ++ passed', rest', left, ?_, first.trans second, ?_⟩
      · rw [linesOf_cons_ok known, String.append_assoc, whole', ← String.append_assoc, whole, String.append_assoc]
      · dsimp only
        rw [check_cons_ok known, wrote, andThen_ok, others]

/-- A journal once it has passed on what it holds back. -/
def settled (j : Journal) : Journal :=
  match j.handle, j.path? with
  | .live _, some _ => { j with handle := .live "" }
  | _, _ => j

/-- What the surroundings are then. -/
def flushed (j : Journal) (world : ω) : ω :=
  match j.handle, j.path? with
  | .live held, some path => if held = "" then world else ((Files.append path held : StateM ω Unit).run world).2
  | _, _ => world

theorem outcome_flush (j : Journal) (world : ω) :
    outcome (flush : JournalM (StateM ω) Unit) j world = (.ok (), settled j, flushed j world) := by
  unfold flush settled flushed
  rw [outcome_bind, outcome_get, andThen_ok]
  cases handle : j.handle with
  | none | closed => rfl
  | live held =>
    cases path : j.path? with
    | none => rfl
    | some path =>
      by_cases empty : held = ""
      · simp [empty]
      · simp [empty]
        rfl

theorem passes_flushed (live : j.handle = .live held) (onPath : j.path? = some path) (world : ω) :
    Passes path world held (flushed j world) := by
  unfold flushed
  rw [live, onPath]
  dsimp only
  by_cases empty : held = ""
  · rw [if_pos empty, empty]
    exact .nothing
  · rw [if_neg empty]
    exact .once path held world

theorem settled_of_live (live : j.handle = .live held) (onPath : j.path? = some path) :
    settled j = { j with handle := .live "" } := by
  unfold settled
  rw [live, onPath]

theorem turn_settled (d : Date) (j : Journal) : (settled j).turn d = j.turn d := by
  unfold settled turn
  cases handle : j.handle with
  | none | closed => simp [handle]
  | live held => cases path : j.path? <;> simp [handle]

/-- A journal that is closed passes on what it holds back. -/
theorem outcome_close (j : Journal) (world : ω) : outcome (Journal.close : JournalM (StateM ω) Unit) j world =
    (.ok (), { j with handle := .none }, flushed j world) := by
  have same : { settled j with handle := .none } = { j with handle := .none } := by
    unfold settled
    split <;> rfl
  unfold Journal.close
  rw [outcome_bind, outcome_flush, andThen_ok, outcome_bind, outcome_modify, andThen_ok, outcome_note, same]

/-- A batch that is complete leaves nothing held back. -/
theorem exists_write_all [Buffered ω] (live : j.handle = .live held) (onPath : j.path? = some path) (batch : List Sample)
    (world : ω) : ∃ passed rest left, passed ++ rest = held ++ linesOf batch ∧ (check batch = .ok () → rest = "") ∧
      Passes path world passed left ∧
      andThen (outcome (writeLines batch) j world) (fun _ => outcome flush) =
        (check batch, { j with handle := .live rest }, left) := by
  obtain ⟨passed, rest, left, whole, passes, wrote⟩ := exists_writeLines live onPath batch world
  rw [wrote]
  cases complete : check batch with
  | error e => exact ⟨passed, rest, left, whole, nofun, passes, rfl⟩
  | ok done =>
    have open' : { j with handle := Handle.live rest }.handle = .live rest := rfl
    refine ⟨passed ++ rest, "", _, by simpa using whole, fun _ => rfl, passes.trans (passes_flushed open' onPath left), ?_⟩
    rw [andThen_ok, outcome_flush, settled_of_live open' onPath]

end

/-! ### Exports -/

section
variable {ω : Type} [Clock (StateM ω)] {j : Journal} {world read : ω} {wall : Value}

theorem outcome_today (shows : (Clock.wallSeconds : StateM ω Value).run world = (wall, read)) :
    outcome (today : JournalM (StateM ω) Date) j world = (dateOf wall, j, read) := by
  have asked : outcome (Clock.wallSeconds : JournalM (StateM ω) Value) j world = (.ok wall, j, read) := by
    change ((fun r : Value × ω => (Except.ok r.1, j, r.2)) ((Clock.wallSeconds : StateM ω Value).run world)) = _
    rw [shows]
  unfold today
  rw [outcome_bind, asked, andThen_ok, outcome_ofExcept]

theorem holds_iff {d : Date} : j.holds d ↔ j.handle ≠ .none ∧ j.date = some d := by
  unfold holds
  simp

variable [Files (StateM ω)] {batch : List Sample} {d : Date} {held : String} {left : ω}

theorem outcome_toToday_undated {e : Fault} (shows : (Clock.wallSeconds : StateM ω Value).run world = (wall, read))
    (undated : dateOf wall = .error e) : outcome (toToday : JournalM (StateM ω) Unit) j world = (.error e, j, read) := by
  unfold toToday
  rw [outcome_bind, outcome_today shows, undated, andThen_error]

/-- A journal that has a handle under the date of the day keeps it. -/
theorem outcome_toToday_of_holds (shows : (Clock.wallSeconds : StateM ω Value).run world = (wall, read))
    (dated : dateOf wall = .ok d) (holds : j.holds d) :
    outcome (toToday : JournalM (StateM ω) Unit) j world = (.ok (), j, read) := by
  unfold toToday
  rw [outcome_bind, outcome_today shows, dated, andThen_ok, outcome_bind, outcome_get, andThen_ok, holds]
  rfl

/-- Any other journal passes on what it holds back, turns to the file of the day and tries to open it. -/
theorem outcome_toToday_of_other (shows : (Clock.wallSeconds : StateM ω Value).run world = (wall, read))
    (dated : dateOf wall = .ok d) (other : ¬ j.holds d) :
    outcome (toToday : JournalM (StateM ω) Unit) j world =
      match (Files.openEnd (fileOf j.directory d) : StateM ω (Except FileFault Unit)).run (flushed j read) with
      | (.ok (), left) => (.ok (), ⟨j.directory, .live "", some d⟩, left)
      | (.error f, left) => (.error (.file f), j.turn d, left) := by
  have turns : (!j.holds d) = true := by simpa using other
  have opens (world : ω) :
      outcome (Files.request (Files.openEnd (fileOf j.directory d)) : JournalM (StateM ω) Unit) (j.turn d) world =
        let opened := (Files.openEnd (fileOf j.directory d) : StateM ω (Except FileFault Unit)).run world
        (opened.1.mapError .file, j.turn d, opened.2) := rfl
  unfold toToday
  rw [outcome_bind, outcome_today shows, dated, andThen_ok, outcome_bind, outcome_get, andThen_ok, if_pos turns,
    outcome_bind, outcome_flush, andThen_ok, outcome_bind, outcome_modify, andThen_ok, outcome_bind, turn_settled, opens]
  rcases (Files.openEnd (fileOf j.directory d) : StateM ω (Except FileFault Unit)).run (flushed j read) with
    ⟨e | done, left⟩ <;> rfl

/-- A batch with samples is written through the handle on the file of the day, and passed on when it is complete. -/
theorem outcome_append (nonempty : batch ≠ []) : outcome (Journal.append batch : JournalM (StateM ω) Unit) j world =
    andThen (outcome toToday j world) fun _ j world =>
      andThen (outcome (writeLines batch) j world) fun _ => outcome flush := by
  have full : ¬ batch.isEmpty = true := by simpa using nonempty
  unfold Journal.append
  rw [if_neg full, outcome_bind]
  simp only [outcome_bind_fun]

/-- A batch that comes when the clock shows no date changes nothing. -/
theorem outcome_append_undated {e : Fault} (shows : (Clock.wallSeconds : StateM ω Value).run world = (wall, read))
    (nonempty : batch ≠ []) (undated : dateOf wall = .error e) :
    outcome (Journal.append batch : JournalM (StateM ω) Unit) j world = (.error e, j, read) := by
  rw [outcome_append nonempty, outcome_toToday_undated shows undated, andThen_error]

/-- A journal with a handle on the file of the day adds the lines of a batch to the text of that file. -/
theorem exists_append_of_live [Buffered ω] (shows : (Clock.wallSeconds : StateM ω Value).run world = (wall, read))
    (nonempty : batch ≠ []) (dated : dateOf wall = .ok d) (live : j.handle = .live held) (date : j.date = some d) :
    ∃ passed rest left, passed ++ rest = held ++ linesOf batch ∧ (check batch = .ok () → rest = "") ∧
      Passes (fileOf j.directory d) read passed left ∧
      outcome (Journal.append batch : JournalM (StateM ω) Unit) j world =
        (check batch, { j with handle := .live rest }, left) := by
  have holds : j.holds d := holds_iff.mpr ⟨by simp [live], date⟩
  have onPath : j.path? = some (fileOf j.directory d) := by
    unfold path?
    rw [date]
    rfl
  rw [outcome_append nonempty, outcome_toToday_of_holds shows dated holds, andThen_ok]
  exact exists_write_all live onPath batch read

/-- A journal that turns to the file of the day makes the lines of a batch the first text that it adds to that file. -/
theorem exists_append_of_other [Buffered ω] (shows : (Clock.wallSeconds : StateM ω Value).run world = (wall, read))
    (nonempty : batch ≠ []) (dated : dateOf wall = .ok d) (other : ¬ j.holds d)
    (opens : (Files.openEnd (fileOf j.directory d) : StateM ω (Except FileFault Unit)).run (flushed j read) =
      (.ok (), left)) :
    ∃ passed rest last, passed ++ rest = linesOf batch ∧ (check batch = .ok () → rest = "") ∧
      Passes (fileOf j.directory d) left passed last ∧
      outcome (Journal.append batch : JournalM (StateM ω) Unit) j world =
        (check batch, ⟨j.directory, .live rest, some d⟩, last) := by
  rw [outcome_append nonempty, outcome_toToday_of_other shows dated other, opens]
  dsimp only
  rw [andThen_ok]
  simpa using exists_write_all (j := ⟨j.directory, .live "", some d⟩) rfl rfl batch left

/-- A journal that cannot open the file of the day keeps a closed handle under the date of the day, if it had a handle. -/
theorem outcome_append_unopened {f : FileFault} (shows : (Clock.wallSeconds : StateM ω Value).run world = (wall, read))
    (nonempty : batch ≠ []) (dated : dateOf wall = .ok d) (other : ¬ j.holds d)
    (opens : (Files.openEnd (fileOf j.directory d) : StateM ω (Except FileFault Unit)).run (flushed j read) =
      (.error f, left)) :
    outcome (Journal.append batch : JournalM (StateM ω) Unit) j world = (.error (.file f), j.turn d, left) := by
  rw [outcome_append nonempty, outcome_toToday_of_other shows dated other, opens]
  rfl

/-- A journal that keeps a closed handle under the date of the day fails on it with the first line, if there is one. -/
theorem outcome_append_closed (shows : (Clock.wallSeconds : StateM ω Value).run world = (wall, read))
    (nonempty : batch ≠ []) (dated : dateOf wall = .ok d) (closed : j.handle = .closed) (date : j.date = some d) :
    outcome (Journal.append batch : JournalM (StateM ω) Unit) j world =
      (check (batch.take 1) >>= fun _ => .error .closedHandle, j, read) := by
  have holds : j.holds d := holds_iff.mpr ⟨by simp [closed], date⟩
  have fails (text : String) : outcome (write text : JournalM (StateM ω) Unit) j read = (.error .closedHandle, j, read) := by
    unfold write
    rw [outcome_bind, outcome_get, andThen_ok, closed]
    rfl
  rw [outcome_append nonempty, outcome_toToday_of_holds shows dated holds, andThen_ok]
  cases batch with
  | nil => exact absurd rfl nonempty
  | cons s batch =>
    rw [outcome_writeLines_cons, List.take_succ_cons, List.take_zero]
    cases known : lineOf s with
    | error e =>
      rw [check_cons_error known]
      rfl
    | ok line =>
      dsimp only
      rw [check_cons_ok known, fails]
      rfl

end

end CpuLoad.HeldLines
