import CpuLoad.Proofs.HeldLines
import Mathlib.Data.List.Induction

/-!
What a journal holds on to after exports that could not open their file. A journal without a handle, or with one on the
file of its date, writes the next batch to the file of the day or tries to open that file. But a journal that closes its
file for that of another day, and then cannot open this one, keeps the closed handle under the new date: it is stranded,
and until the date changes again every export fails on the closed handle without another try (`sound_iff_not_stranded`,
`perform_closed`). It stays so until it is shut down or a file is opened.
-/
namespace CpuLoad.JournalHandle
open CpuLoad.HeldLines CpuLoad.Journal CpuLoad.Outcome

/-- The surroundings of a journal: what the wall clock shows, what the next opening of a file comes to, the files that
    were to be opened so far with what came of it, the latest first, the text that was passed on to each file, and how
    many characters are passed on at once of each text that is yet to be written. -/
structure Desk where
  wall : Value
  opening : Except FileFault Unit
  openings : List (String × Except FileFault Unit)
  files : String → String
  passing : Nat → Nat

/-- A desk on which a text was passed on to a file. -/
def Desk.added (path text : String) (passing : Nat → Nat) (desk : Desk) : Desk :=
  { desk with files := Function.update desk.files path (desk.files path ++ text), passing }

def Desk.append (path text : String) (desk : Desk) : Desk := desk.added path text fun n => desk.passing (n + 1)

/-- Nothing but opening and writing is asked of the files. -/
instance : Files (StateM Desk) where
  read _ := return .ok ⟨#[]⟩
  isPresent _ := return .ok true
  makeDirectory _ := return .ok ()
  openEnd path := modifyGet fun desk => (desk.opening, { desk with openings := (path, desk.opening) :: desk.openings })
  write path text := modifyGet fun desk =>
    (behind (desk.passing 0) text, desk.append path (front (desk.passing 0) text))
  append path text := modify (Desk.append path text)

instance : Clock (StateM Desk) where
  milliseconds := return (← get).wall
  wallSeconds := return (← get).wall

instance : Buffered Desk where
  write_run _ text desk := ⟨_, _, front_append_behind (desk.passing 0) text, rfl⟩

theorem Desk.added_added (path text more : String) (passing later : Nat → Nat) (desk : Desk) :
    (desk.added path text passing).added path more later = desk.added path (text ++ more) later := by
  simp [added, String.append_assoc]

/-- Text that is passed on in pieces comes to the same as text that is passed on at once. -/
theorem added_of_passes {path text : String} {desk left : Desk} (passes : Passes path desk text left) :
    ∃ passing, left = desk.added path text passing := by
  induction passes with
  | nothing => exact ⟨desk.passing, by simp [Desk.added]⟩
  | @more text left before piece ih =>
    obtain ⟨passing, rfl⟩ := ih
    exact ⟨_, desk.added_added path text piece passing _⟩

/-- What is done to a journal. An append is labelled with the wall clock and with what an opening would come to. -/
inductive Act
  | append (wall : Value) (opening : Except FileFault Unit) (batch : List Sample)
  | shutdown

structure Scene where
  journal : Journal
  desk : Desk

namespace Act

def program : Act → JournalM (StateM Desk) Unit
  | .append _ _ batch => Journal.append batch
  | .shutdown => Journal.close

def setting : Act → Desk → Desk
  | .append wall opening _, desk => { desk with wall, opening }
  | .shutdown, desk => desk

def perform (act : Act) (scene : Scene) : Except Fault Unit × Scene :=
  let result := outcome act.program scene.journal (act.setting scene.desk)
  (result.1, ⟨result.2.1, result.2.2⟩)

/-- Whether every sample that an act exports has a line. -/
def IsWhole : Act → Prop
  | append _ _ batch => check batch = .ok ()
  | shutdown => True

end Act

def opened (directory : String) (passing : Nat → Nat) : Scene :=
  ⟨⟨directory, .none, none⟩, ⟨.null, .ok (), [], fun _ => "", passing⟩⟩

def after (directory : String) (passing : Nat → Nat) (acts : List Act) : Scene :=
  acts.foldl (fun scene act => (act.perform scene).2) (opened directory passing)

/-! ### One act -/

def Desk.tried (desk : Desk) (path : String) : Desk := { desk with openings := (path, desk.opening) :: desk.openings }

section
variable {scene : Scene} {wall : Value} {opening : Except FileFault Unit} {batch : List Sample} {d : Calendar.Date}
  {held : String}

theorem run_wallSeconds (desk : Desk) : (Clock.wallSeconds : StateM Desk Value).run desk = (desk.wall, desk) := rfl

theorem perform_shutdown : Act.shutdown.perform scene =
    (.ok (), ⟨{ scene.journal with handle := .none }, flushed scene.journal scene.desk⟩) := by
  unfold Act.perform Act.program
  dsimp only
  rw [outcome_close]
  rfl

theorem perform_empty :
    (Act.append wall opening []).perform scene = (.ok (), ⟨scene.journal, { scene.desk with wall, opening }⟩) := rfl

/-- Passing text on leaves what the next opening comes to. -/
theorem opening_flushed (j : Journal) (desk : Desk) : (flushed j desk).opening = desk.opening := by
  unfold flushed
  split
  · split <;> rfl
  · rfl

abbrev Scene.deskOf (scene : Scene) (wall : Value) (opening : Except FileFault Unit) : Desk :=
  { scene.desk with wall, opening }

private theorem perform_of_outcome {r : Except Fault Unit} {j : Journal} {desk : Desk}
    (left : outcome (Journal.append batch : JournalM (StateM Desk) Unit) scene.journal (scene.deskOf wall opening) =
      (r, j, desk)) :
    (Act.append wall opening batch).perform scene = (r, ⟨j, desk⟩) := by
  unfold Act.perform Act.program Act.setting
  dsimp only
  rw [left]

theorem perform_undated {e : Fault} (nonempty : batch ≠ []) (undated : Calendar.dateOf wall = .error e) :
    (Act.append wall opening batch).perform scene = (.error e, ⟨scene.journal, scene.deskOf wall opening⟩) :=
  perform_of_outcome (outcome_append_undated rfl nonempty undated)

/-- A journal with a handle on the file of the day adds to that file. -/
theorem exists_perform_live (opening : Except FileFault Unit) (nonempty : batch ≠ [])
    (dated : Calendar.dateOf wall = .ok d) (live : scene.journal.handle = .live held)
    (date : scene.journal.date = some d) :
    ∃ passed rest passing, passed ++ rest = held ++ linesOf batch ∧ (check batch = .ok () → rest = "") ∧
      (Act.append wall opening batch).perform scene =
        (check batch, ⟨⟨scene.journal.directory, .live rest, some d⟩,
          (scene.deskOf wall opening).added (fileOf scene.journal.directory d) passed passing⟩) := by
  obtain ⟨passed, rest, left, whole, complete, passes, done⟩ :=
    exists_append_of_live (run_wallSeconds (scene.deskOf wall opening)) nonempty dated live date
  obtain ⟨passing, rfl⟩ := added_of_passes passes
  rw [date] at done
  exact ⟨passed, rest, passing, whole, complete, perform_of_outcome done⟩

/-- A journal that keeps a closed handle under the date of the day fails on it, unless its first sample has no line. -/
theorem perform_closed (opening : Except FileFault Unit) (nonempty : batch ≠ []) (dated : Calendar.dateOf wall = .ok d)
    (closed : scene.journal.handle = .closed) (date : scene.journal.date = some d) :
    (Act.append wall opening batch).perform scene =
      (check (batch.take 1) >>= fun _ => .error .closedHandle, ⟨scene.journal, scene.deskOf wall opening⟩) :=
  perform_of_outcome (outcome_append_closed rfl nonempty dated closed date)

/-- Any other journal passes on what it holds back and opens the file of the day. Then it adds to that file. -/
theorem exists_perform_opened (nonempty : batch ≠ []) (dated : Calendar.dateOf wall = .ok d)
    (other : ¬ scene.journal.holds d) :
    ∃ passed rest passing, passed ++ rest = linesOf batch ∧ (check batch = .ok () → rest = "") ∧
      (Act.append wall (.ok ()) batch).perform scene =
        (check batch, ⟨⟨scene.journal.directory, .live rest, some d⟩,
          ((flushed scene.journal (scene.deskOf wall (.ok ()))).tried (fileOf scene.journal.directory d)).added
            (fileOf scene.journal.directory d) passed passing⟩) := by
  have opens : (Files.openEnd (fileOf scene.journal.directory d) : StateM Desk (Except FileFault Unit)).run
      (flushed scene.journal (scene.deskOf wall (.ok ()))) =
        (.ok (), (flushed scene.journal (scene.deskOf wall (.ok ()))).tried (fileOf scene.journal.directory d)) :=
    congrArg (·, _) (opening_flushed scene.journal _)
  obtain ⟨passed, rest, left, whole, complete, passes, done⟩ :=
    exists_append_of_other (run_wallSeconds (scene.deskOf wall (.ok ()))) nonempty dated other opens
  obtain ⟨passing, rfl⟩ := added_of_passes passes
  exact ⟨passed, rest, passing, whole, complete, perform_of_outcome done⟩

theorem perform_unopened {f : FileFault} (nonempty : batch ≠ []) (dated : Calendar.dateOf wall = .ok d)
    (other : ¬ scene.journal.holds d) :
    (Act.append wall (.error f) batch).perform scene = (.error (.file f), ⟨scene.journal.turn d,
      (flushed scene.journal (scene.deskOf wall (.error f))).tried (fileOf scene.journal.directory d)⟩) := by
  have opens : (Files.openEnd (fileOf scene.journal.directory d) : StateM Desk (Except FileFault Unit)).run
      (flushed scene.journal (scene.deskOf wall (.error f))) =
        (.error f, (flushed scene.journal (scene.deskOf wall (.error f))).tried (fileOf scene.journal.directory d)) :=
    congrArg (·, _) (opening_flushed scene.journal _)
  exact perform_of_outcome (outcome_append_unopened rfl nonempty dated other opens)

end

/-! ### What a journal holds -/

/-- A journal that holds nothing, or an open file: the one that was opened last and that of its date. -/
def Sound (scene : Scene) : Prop :=
  scene.journal.handle = .none ∨ ∃ held path, scene.journal.handle = .live held ∧ scene.journal.path? = some path ∧
    scene.desk.openings.head? = some (path, .ok ())

/-- Whether the export of a batch needs the file of another day than the handle is for. -/
def Turns (scene : Scene) (wall : Value) (batch : List Sample) (d : Calendar.Date) : Prop :=
  batch ≠ [] ∧ Calendar.dateOf wall = .ok d ∧ ¬ scene.journal.holds d

/-- Whether an act closes a file for that of another day and cannot open this one. -/
def FailsToTurn (scene : Scene) (act : Act) : Prop :=
  ∃ wall f batch d, act = .append wall (.error f) batch ∧ Turns scene wall batch d ∧ scene.journal.handle ≠ .none

/-- Whether an act shuts the journal down or opens a file. -/
def Releases (scene : Scene) (act : Act) : Prop :=
  act = .shutdown ∨ ∃ wall batch d, act = .append wall (.ok ()) batch ∧ Turns scene wall batch d

/-- Whether some act failed to turn to the file of another day, and no act after it opened a file or shut the journal
    down. -/
def Stranded (directory : String) (passing : Nat → Nat) (acts : List Act) : Prop :=
  ∃ earlier act later, acts = earlier ++ act :: later ∧ FailsToTurn (after directory passing earlier) act ∧
    ∀ front next rest, later = front ++ next :: rest → ¬ Releases (after directory passing (earlier ++ act :: front)) next

/-- What an act leaves that turns to no other file: the handle stays open, closed or away, nothing was opened, and a
    whole export holds nothing back that was not held back before. -/
structure Stays (act : Act) (before after : Scene) : Prop where
  directory : after.journal.directory = before.journal.directory
  date : after.journal.date = before.journal.date
  openings : after.desk.openings = before.desk.openings
  closed : after.journal.handle = .closed ↔ before.journal.handle = .closed
  live : ∀ rest, after.journal.handle = .live rest →
    ∃ held, before.journal.handle = .live held ∧ (act.IsWhole → held = "" → rest = "")

variable {scene : Scene} {directory : String} {passing : Nat → Nat}

theorem stays_same {act : Act} {after : Scene} (journal : after.journal = scene.journal)
    (openings : after.desk.openings = scene.desk.openings) : Stays act scene after := by
  refine ⟨by rw [journal], by rw [journal], openings, by rw [journal], fun rest live => ?_⟩
  rw [journal] at live
  exact ⟨rest, live, fun _ none => none⟩

theorem stays_of_not_turns {wall : Value} (opening : Except FileFault Unit) {batch : List Sample}
    (still : ∀ d, ¬ Turns scene wall batch d) :
    Stays (.append wall opening batch) scene ((Act.append wall opening batch).perform scene).2 := by
  by_cases empty : batch = []
  · rw [empty, perform_empty]
    exact stays_same rfl rfl
  · cases dated : Calendar.dateOf wall with
    | error e =>
      rw [perform_undated empty dated]
      exact stays_same rfl rfl
    | ok d =>
      have holds : scene.journal.holds d := by
        by_contra other
        exact still d ⟨empty, dated, other⟩
      obtain ⟨held, date⟩ := holds_iff.mp holds
      cases handle : scene.journal.handle with
      | none => exact absurd handle held
      | live held =>
        obtain ⟨passed, rest, passing, _, complete, done⟩ := exists_perform_live opening empty dated handle date
        rw [done]
        refine ⟨rfl, date.symm, rfl, by simp [handle], fun rest' live => ⟨held, handle, fun whole _ => ?_⟩⟩
        obtain rfl : rest = rest' := Handle.live.inj live
        exact complete whole
      | closed =>
        rw [perform_closed opening empty dated handle date]
        exact stays_same rfl rfl

/-- What an act can do: it shuts the journal down, turns to the file of another day, or leaves the handle. -/
theorem perform_cases (scene : Scene) (act : Act) :
    act = .shutdown ∨
      (∃ wall opening batch d, act = .append wall opening batch ∧ Turns scene wall batch d) ∨
      (Stays act scene (act.perform scene).2 ∧ ¬ FailsToTurn scene act ∧ ¬ Releases scene act) := by
  cases act with
  | shutdown => exact .inl rfl
  | append wall opening batch =>
    right
    by_cases turns : ∃ d, Turns scene wall batch d
    · obtain ⟨d, turns⟩ := turns
      exact .inl ⟨wall, opening, batch, d, rfl, turns⟩
    · have still : ∀ d, ¬ Turns scene wall batch d := fun d contra => turns ⟨d, contra⟩
      refine .inr ⟨stays_of_not_turns opening still, ?_, ?_⟩
      · rintro ⟨_, _, _, d, ⟨⟩, contra, _⟩
        exact still d contra
      · rintro (shut | ⟨_, _, d, ⟨⟩, contra⟩)
        · cases shut
        · exact still d contra

theorem turn_closed_iff (d : Calendar.Date) (j : Journal) : (j.turn d).handle = .closed ↔ j.handle ≠ .none := by
  unfold turn
  by_cases none : j.handle = .none <;> simp [none]

theorem turn_not_live (d : Calendar.Date) (j : Journal) (held : String) : (j.turn d).handle ≠ .live held := by
  unfold turn
  by_cases none : j.handle = .none <;> simp [none]

/-- A journal keeps a closed handle after an act exactly if the act fails to turn, or if it had one and the act does not
    release it. -/
theorem closed_perform_iff (scene : Scene) (act : Act) :
    (act.perform scene).2.journal.handle = .closed ↔
      FailsToTurn scene act ∨ scene.journal.handle = .closed ∧ ¬ Releases scene act := by
  rcases perform_cases scene act with rfl | ⟨wall, opening, batch, d, rfl, turns⟩ | ⟨stays, fails, releases⟩
  · rw [perform_shutdown]
    constructor
    · rintro ⟨⟩
    · rintro (⟨_, _, _, _, ⟨⟩, _⟩ | ⟨_, kept⟩)
      exact absurd (.inl rfl) kept
  · obtain ⟨nonempty, dated, other⟩ := turns
    cases opening with
    | ok done =>
      obtain ⟨_, _, _, _, _, left⟩ := exists_perform_opened nonempty dated other
      rw [left]
      constructor
      · rintro ⟨⟩
      · rintro (⟨_, _, _, _, ⟨⟩, _⟩ | ⟨_, kept⟩)
        exact absurd (.inr ⟨wall, batch, d, rfl, nonempty, dated, other⟩) kept
    | error f =>
      rw [perform_unopened nonempty dated other]
      refine (turn_closed_iff d scene.journal).trans ?_
      constructor
      · intro held
        exact .inl ⟨wall, f, batch, d, rfl, ⟨nonempty, dated, other⟩, held⟩
      · rintro (⟨_, _, _, _, _, _, held⟩ | ⟨closed, _⟩)
        · exact held
        · rw [closed]
          decide
  · rw [stays.closed]
    constructor
    · intro closed
      exact .inr ⟨closed, releases⟩
    · rintro (contra | ⟨closed, _⟩)
      · exact absurd contra fails
      · exact closed

/-! ### Runs -/

@[simp] theorem after_append (acts : List Act) (act : Act) :
    after directory passing (acts ++ [act]) = (act.perform (after directory passing acts)).2 := by
  unfold after
  rw [List.foldl_append]
  rfl

private theorem stranded_append_iff (acts : List Act) (act : Act) :
    Stranded directory passing (acts ++ [act]) ↔ FailsToTurn (after directory passing acts) act ∨
      Stranded directory passing acts ∧ ¬ Releases (after directory passing acts) act := by
  constructor
  · rintro ⟨earlier, failing, later, split, fails, kept⟩
    rcases append_singleton_eq_iff.mp split with ⟨rfl, rfl, _⟩ | ⟨inner, rfl, rfl⟩
    · exact .inl fails
    · refine .inr ⟨⟨earlier, failing, inner, rfl, fails, ?_⟩, kept inner act [] rfl⟩
      rintro front next rest rfl
      exact kept front next (rest ++ [act]) (by simp)
  · rintro (fails | ⟨⟨earlier, failing, later, rfl, fails, kept⟩, stays⟩)
    · exact ⟨acts, act, [], rfl, fails, by simp⟩
    · refine ⟨earlier, failing, later ++ [act], by simp, fails, ?_⟩
      intro front next rest split
      rcases append_singleton_eq_iff.mp split with ⟨rfl, rfl, _⟩ | ⟨inner, _, rfl⟩
      · exact stays
      · exact kept front next inner rfl

/-- A journal keeps a closed handle exactly if it is stranded. -/
theorem closed_iff_stranded (acts : List Act) :
    (after directory passing acts).journal.handle = .closed ↔ Stranded directory passing acts := by
  induction acts using List.reverseRecOn with
  | nil =>
    constructor
    · rintro ⟨⟩
    · rintro ⟨earlier, act, later, split, _⟩
      simp at split
  | append_singleton acts act ih => rw [after_append, closed_perform_iff, stranded_append_iff, ih]

/-- Whether an open handle is on the file that was opened last, and this one is that of the journal's date. -/
def HoldsLast (scene : Scene) : Prop :=
  ∀ held, scene.journal.handle = .live held →
    ∃ path, scene.journal.path? = some path ∧ scene.desk.openings.head? = some (path, .ok ())

theorem holdsLast_perform (before : HoldsLast scene) (act : Act) : HoldsLast (act.perform scene).2 := by
  rcases perform_cases scene act with rfl | ⟨wall, opening, batch, d, rfl, turns⟩ | ⟨stays, _⟩
  · rw [perform_shutdown]
    rintro held ⟨⟩
  · obtain ⟨nonempty, dated, other⟩ := turns
    cases opening with
    | ok done =>
      obtain ⟨_, _, _, _, _, left⟩ := exists_perform_opened nonempty dated other
      rw [left]
      intro _ _
      refine ⟨fileOf scene.journal.directory d, rfl, ?_⟩
      exact congrArg (fun opening => some (_, opening)) (opening_flushed scene.journal _)
    | error f =>
      rw [perform_unopened nonempty dated other]
      intro held live
      exact absurd live (turn_not_live d scene.journal held)
  · intro rest live
    obtain ⟨held, live, _⟩ := stays.live rest live
    obtain ⟨path, onPath, last⟩ := before held live
    refine ⟨path, ?_, by rw [stays.openings, last]⟩
    unfold path? at onPath ⊢
    rw [stays.directory, stays.date, onPath]

theorem holdsLast_after (acts : List Act) : HoldsLast (after directory passing acts) := by
  induction acts using List.reverseRecOn with
  | nil => rintro held ⟨⟩
  | append_singleton acts act ih =>
    rw [after_append]
    exact holdsLast_perform ih act

/-- A journal holds nothing or an open file exactly if it is not stranded. -/
theorem sound_iff_not_stranded (acts : List Act) :
    Sound (after directory passing acts) ↔ ¬ Stranded directory passing acts := by
  rw [← closed_iff_stranded]
  unfold Sound
  cases handle : (after directory passing acts).journal.handle with
  | none => simp
  | live held => simpa using holdsLast_after acts held handle
  | closed => simp

/-- Nothing is held back after exports of which every sample had a line. -/
theorem held_of_whole {acts : List Act} (whole : ∀ act ∈ acts, act.IsWhole) {held : String}
    (live : (after directory passing acts).journal.handle = .live held) : held = "" := by
  induction acts using List.reverseRecOn generalizing held with
  | nil => cases live
  | append_singleton acts act ih =>
    obtain ⟨sooner, own⟩ : (∀ act ∈ acts, act.IsWhole) ∧ act.IsWhole := by simpa [or_imp, forall_and] using whole
    rw [after_append] at live
    rcases perform_cases (after directory passing acts) act with rfl | ⟨wall, opening, batch, d, rfl, turns⟩ | ⟨stays, _⟩
    · rw [perform_shutdown] at live
      cases live
    · obtain ⟨nonempty, dated, other⟩ := turns
      cases opening with
      | ok done =>
        obtain ⟨_, rest, _, _, complete, left⟩ := exists_perform_opened nonempty dated other
        rw [left] at live
        obtain rfl : rest = held := Handle.live.inj live
        exact complete own
      | error f =>
        rw [perform_unopened nonempty dated other] at live
        exact absurd live (turn_not_live _ _ held)
    · obtain ⟨before, kept, none⟩ := stays.live held live
      exact none own (ih sooner kept)

theorem directory_after (directory : String) (passing : Nat → Nat) (acts : List Act) :
    (after directory passing acts).journal.directory = directory := by
  induction acts using List.reverseRecOn with
  | nil => rfl
  | append_singleton acts act ih =>
    rw [after_append]
    rcases perform_cases (after directory passing acts) act with rfl | ⟨wall, opening, batch, d, rfl, turns⟩ | ⟨stays, _⟩
    · rw [perform_shutdown]
      exact ih
    · obtain ⟨nonempty, dated, other⟩ := turns
      cases opening with
      | ok done =>
        obtain ⟨_, _, _, _, _, left⟩ := exists_perform_opened nonempty dated other
        rw [left]
        exact ih
      | error f =>
        rw [perform_unopened nonempty dated other]
        exact ih
    · rw [stays.directory, ih]

/-- A journal holds nothing, or an open file under its date, exactly if it is not stranded. The next batch goes through
    an open handle on the file of the day; without one the file is opened, and takes all the lines or reports why it
    cannot be opened. Only a stranded journal does neither, while its date is that of the day: it fails on the closed
    handle, opens nothing and stays as it is. A batch with a sample that has no line fails on that sample, and its lines
    before that one go the same way, up to what is held back; nothing is, as long as all samples have lines. -/
theorem export_recovers_unless_stranded (directory : String) (passing : Nat → Nat) (before : List Act) :
    (Sound (after directory passing before) ↔ ¬ Stranded directory passing before) ∧
      (∀ held, (∀ act ∈ before, act.IsWhole) → (after directory passing before).journal.handle = .live held → held = "") ∧
      ∀ (wall : Value) (opening : Except FileFault Unit) (batch : List Sample) (d : Calendar.Date),
        batch ≠ [] → Calendar.dateOf wall = .ok d →
          let scene := after directory passing before
          let desk := scene.deskOf wall opening
          let file := fileOf directory d
          let next := (Act.append wall opening batch).perform scene
          (∀ held, scene.journal.handle = .live held → scene.journal.date = some d →
            ∃ passed rest passing, passed ++ rest = held ++ linesOf batch ∧ (check batch = .ok () → rest = "") ∧
              next = (check batch, ⟨⟨directory, .live rest, some d⟩, desk.added file passed passing⟩)) ∧
          (¬ scene.journal.holds d → match opening with
            | .ok () => ∃ passed rest passing, passed ++ rest = linesOf batch ∧ (check batch = .ok () → rest = "") ∧
                next = (check batch, ⟨⟨directory, .live rest, some d⟩,
                  ((flushed scene.journal desk).tried file).added file passed passing⟩)
            | .error f => next = (.error (.file f), ⟨scene.journal.turn d, (flushed scene.journal desk).tried file⟩)) ∧
          (Stranded directory passing before ∧ scene.journal.date = some d →
            next = (check (batch.take 1) >>= fun _ => .error .closedHandle, ⟨scene.journal, desk⟩)) := by
  refine ⟨sound_iff_not_stranded before, fun held whole => held_of_whole whole, ?_⟩
  intro wall opening batch d nonempty dated
  have place := directory_after directory passing before
  refine ⟨?_, ?_, ?_⟩
  · intro held live date
    have written := exists_perform_live opening nonempty dated live date
    rw [place] at written
    exact written
  · intro other
    cases opening with
    | ok done =>
      have tried := exists_perform_opened nonempty dated other
      rw [place] at tried
      exact tried
    | error f =>
      have tried := perform_unopened (f := f) nonempty dated other
      rw [place] at tried
      exact tried
  · rintro ⟨stranded, date⟩
    exact perform_closed opening nonempty dated ((closed_iff_stranded before).mpr stranded) date

/-- An export on one day, and one on the next whose file is a directory. -/
def blockedTurn : List Act :=
  [.append (.int 1700000000) (.ok ()) [default],
    .append (.int 1700086400) (.error ⟨.isDirectory, "out/cpu-load-2023-11-15.jsonl"⟩) [default]]

/-- What is left of it on a system that passes nothing on before it has to. -/
abbrev blocked : Scene := after "out" (fun _ => 0) blockedTurn

theorem stranded_blockedTurn : Stranded "out" (fun _ => 0) blockedTurn := (closed_iff_stranded blockedTurn).mp rfl

theorem export_recovers_unless_stranded_blockedTurn :
    ((Act.append (.int 1700086401) (.ok ()) [default]).perform blocked).1 = .error .closedHandle := by
  have law := (export_recovers_unless_stranded "out" (fun _ => 0) blockedTurn).2.2 (.int 1700086401) (.ok ()) [default]
    ⟨2023, 11, 15⟩ (by decide) rfl
  exact congrArg Prod.fst (law.2.2 ⟨stranded_blockedTurn, rfl⟩)

theorem blockedTurn_not_sound : ¬ Sound blocked ∧
    ((Act.append (.int 1700086401) (.ok ()) [default]).perform blocked).1 = .error .closedHandle := by
  refine ⟨fun sound => (sound_iff_not_stranded blockedTurn).mp sound stranded_blockedTurn, ?_⟩
  have failed : blocked.journal.handle = .closed := (closed_iff_stranded blockedTurn).mpr stranded_blockedTurn
  exact congrArg Prod.fst (perform_closed (d := ⟨2023, 11, 15⟩) (.ok ()) (by decide) rfl failed rfl)

end CpuLoad.JournalHandle
