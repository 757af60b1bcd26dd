import CpuLoad.Proofs.FaithfulFiles

/-!
What a journal leaves on a disk. After any exports and shutdowns, at whatever times, the file of a day has the bytes that
it had at first and behind them the lines of what was exported on that day, in the order of the exports. Every other file
and directory is as it was. If a sample has no line, its export ends there, and the lines before it are held back until the
next export on that day, or until the file is closed.
-/
namespace CpuLoad.DailyFiles
open CpuLoad.Calendar CpuLoad.DailyNames CpuLoad.FaithfulFiles CpuLoad.FilePlaces CpuLoad.HeldLines CpuLoad.Journal
  CpuLoad.Location CpuLoad.Outcome

/-! ### A disk -/

/-- The surroundings of a journal: what the wall clock shows, a file system, and how many characters it passes on at once
of each text that is yet to be written. -/
structure Disk where
  wall : Value
  tree : FileTree
  passing : Nat → Nat

def Disk.openEnd (path : String) (disk : Disk) : Except FileFault Unit × Disk :=
  match disk.tree.openEnd (namesOf path) with
  | .ok tree => (.ok (), { disk with tree })
  | .error cause => (.error ⟨cause, path⟩, disk)

def Disk.append (path text : String) (disk : Disk) : Disk :=
  { disk with tree := disk.tree.append (namesOf path) text, passing := fun n => disk.passing (n + 1) }

instance : Clock (StateM Disk) where
  milliseconds := return (← get).wall
  wallSeconds := return (← get).wall

instance : Files (StateM Disk) where
  read path := return ((← get).tree.read (namesOf path)).mapError (⟨·, path⟩)
  isPresent path := return ((← get).tree.isPresent (namesOf path)).mapError (⟨·, path⟩)
  makeDirectory path := modifyGet fun disk =>
    let (made, tree) := disk.tree.makeDirectories (namesOf path)
    (made.mapError (⟨·, path⟩), { disk with tree })
  openEnd path := modifyGet (Disk.openEnd path)
  write path text := modifyGet fun disk =>
    (behind (disk.passing 0) text, disk.append path (front (disk.passing 0) text))
  append path text := modify (Disk.append path text)

instance : Storage Disk where
  tree := Disk.tree
  write_run _ text disk := ⟨_, _, front_append_behind (disk.passing 0) text, rfl⟩
  tree_wallSeconds _ := rfl
  tree_append _ _ _ := rfl
  openEnd_ok path disk opened opens := by
    have run : (Files.openEnd path : StateM Disk (Except FileFault Unit)).run disk = disk.openEnd path := rfl
    refine ⟨{ disk with tree := opened }, ?_, rfl⟩
    rw [run, Disk.openEnd, opens]

structure Scene where
  journal : Journal
  disk : Disk

def program : Act → JournalM (StateM Disk) Unit
  | .append _ batch => Journal.append batch
  | .shutdown => Journal.close

def setting : Act → Disk → Disk
  | .append wall _, disk => { disk with wall }
  | .shutdown, disk => disk

def perform (act : Act) (scene : Scene) : Except Fault Unit × Scene :=
  let result := outcome (program act) scene.journal (setting act scene.disk)
  (result.1, ⟨result.2.1, result.2.2⟩)

/-- A new journal over a directory. -/
def fresh (directory : String) : Journal := ⟨directory, .none, none⟩

def after (directory : String) (disk : Disk) (acts : List Act) : Scene :=
  acts.foldl (fun scene act => (perform act scene).2) ⟨fresh directory, disk⟩

/-! ### One act -/

section
variable {scene : Scene} {wall : Value} {batch : List Sample}

/-- An empty batch leaves the journal and the files. -/
theorem perform_empty : perform (.append wall []) scene = (.ok (), ⟨scene.journal, { scene.disk with wall }⟩) := rfl

theorem perform_shutdown : perform .shutdown scene =
    (.ok (), ⟨{ scene.journal with handle := .none }, flushed scene.journal scene.disk⟩) := by
  unfold perform program
  dsimp only
  rw [outcome_close]
  rfl

theorem run_wallSeconds (disk : Disk) : (Clock.wallSeconds : StateM Disk Value).run disk = (disk.wall, disk) := rfl

theorem perform_of_outcome {r : Except Fault Unit} {j : Journal} {disk : Disk}
    (left : outcome (Journal.append batch : JournalM (StateM Disk) Unit) scene.journal { scene.disk with wall } =
      (r, j, disk)) : perform (.append wall batch) scene = (r, ⟨j, disk⟩) := by
  unfold perform program setting
  dsimp only
  rw [left]

end

/-! ### What a run stores -/

variable {directory : String} {disk : Disk} {acts : List Act} {scene : Scene} {act : Act} {d : Date} {tree : FileTree}

theorem anchored_fresh : Anchored (fresh directory) tree := .inl rfl

theorem heldOn_fresh : heldOn d (fresh directory) = "" := rfl

theorem needs_fresh_iff : Needs (fresh directory) acts d ↔ samplesOn d acts ≠ [] := by
  unfold Needs fresh
  simp

/-- Every act answers as it should and keeps the files faithful. -/
theorem faithful_perform (faithful : Faithful (fresh directory) tree acts scene.journal scene.disk.tree)
    (openable : Openable directory tree (acts ++ [act])) :
    (perform act scene).1 = act.answer ∧ Faithful (fresh directory) tree (acts ++ [act]) (perform act scene).2.journal
      (perform act scene).2.disk.tree := by
  cases act with
  | append wall batch =>
    obtain ⟨j, left, done, kept⟩ :=
      faithful_append faithful anchored_fresh openable (run_wallSeconds { scene.disk with wall })
    rw [perform_of_outcome done]
    exact ⟨rfl, kept⟩
  | shutdown =>
    rw [perform_shutdown]
    exact ⟨rfl, faithful_close scene.disk faithful anchored_fresh (openable_of_append openable)⟩

theorem after_append (disk : Disk) (acts : List Act) (act : Act) :
    after directory disk (acts ++ [act]) = (perform act (after directory disk acts)).2 := by
  simp [after]

theorem faithful_after (disk : Disk) (openable : Openable directory disk.tree acts) :
    Faithful (fresh directory) disk.tree acts (after directory disk acts).journal
      (after directory disk acts).disk.tree := by
  induction acts using List.reverseRecOn with
  | nil => exact faithful_start anchored_fresh
  | append_singleton acts act ih =>
    rw [after_append]
    exact (faithful_perform (ih (openable_of_append openable)) openable).2

/-- Nothing is held back for a day on which every sample had a line. -/
theorem heldOn_after (disk : Disk) (openable : Openable directory disk.tree acts)
    (complete : check (samplesOn d acts) = .ok ()) : heldOn d (after directory disk acts).journal = "" := by
  have faithful := faithful_after disk openable
  by_cases none : samplesOn d acts = []
  · exact faithful.heldOn_of_unneeded (mt needs_fresh_iff.mp (not_not.mpr none))
  · exact faithful.settled d (endsWhole_of_check none complete)

theorem outcome_within (body : JournalM (StateM Disk) Unit) (journal : Journal) (disk : Disk) :
    outcome (Journal.within body) journal disk =
      let r := outcome body journal disk
      (r.1, { r.2.1 with handle := .none }, flushed r.2.1 r.2.2) := by
  unfold Journal.within
  rw [outcome_bind, outcome_attempt, andThen_ok, outcome_bind, outcome_close, andThen_ok, outcome_ofExcept]

/-- After any exports and shutdowns, at any times and over any files of which those that are needed can be opened: the
file of a day has what it had at first and behind it the lines of what was exported on that day, in the order of the
exports, and nothing else is new or different. Of an export that reaches a sample without a line these are the lines before
it, and a part of them may be held back until a later export of the day is whole. An export whose samples have lines
succeeds if the clock shows a date, and an empty batch leaves the journal and the files. An operation that is run within
the journal ends with a shutdown, also if it fails. -/
theorem daily_files_hold_what_was_exported (directory : String) (disk : Disk) (acts : List Act)
    (openable : Openable directory disk.tree acts) :
    let scene := after directory disk acts
    (∀ d place, disk.tree.placeOf (namesOfDay directory d) = .ok place →
      scene.disk.tree.placeOf (namesOfDay directory d) = .ok place ∧
        ∃ passed, passed ++ heldOn d scene.journal = writtenOn d acts ∧
          scene.disk.tree.node? place = (if samplesOn d acts = [] then disk.tree.node? place
            else some (.file (bytesAt disk.tree place ++ passed.toUTF8))) ∧
          (EndsWhole d acts → passed = writtenOn d acts) ∧
          (check (samplesOn d acts) = .ok () → passed = linesOf (samplesOn d acts))) ∧
    (∀ place, scene.disk.tree.node? place ≠ disk.tree.node? place →
      ∃ d, samplesOn d acts ≠ [] ∧ disk.tree.placeOf (namesOfDay directory d) = .ok place) ∧
    (∀ earlier wall batch later d, acts = earlier ++ .append wall batch :: later → dateOf wall = .ok d →
      (perform (.append wall batch) (after directory disk earlier)).1 = check batch) ∧
    (∀ wall, perform (.append wall []) scene = (.ok (), ⟨scene.journal, { scene.disk with wall }⟩)) ∧
    (∀ (body : JournalM (StateM Disk) Unit) (inner : List Act),
      let within := outcome (Journal.within body) scene.journal scene.disk
      let alone := outcome body scene.journal scene.disk
      after directory disk (acts ++ inner) = ⟨alone.2.1, alone.2.2⟩ →
        within.1 = alone.1 ∧ after directory disk (acts ++ inner ++ [.shutdown]) = ⟨within.2.1, within.2.2⟩) := by
  intro scene
  have faithful : Faithful (fresh directory) disk.tree acts scene.journal scene.disk.tree := faithful_after disk openable
  refine ⟨fun d place leads => ⟨?_, ?_⟩, fun place changed => ?_, ?_, fun wall => perform_empty, ?_⟩
  · exact placeOf_of_directories (faithful.directories anchored_fresh openable) leads
  · by_cases none : samplesOn d acts = []
    · have unneeded : ¬ Needs (fresh directory) acts d := by
        rw [needs_fresh_iff]
        exact not_not.mpr none
      refine ⟨"", ?_, ?_, fun _ => (writtenOn_of_unexported none).symm, ?_⟩
      · rw [faithful.heldOn_of_unneeded unneeded, writtenOn_of_unexported none]
        rfl
      · rw [if_pos none, faithful.node_of_unneeded anchored_fresh unneeded leads]
      · rw [none]
        exact fun _ => rfl
    · obtain ⟨passed, whole, here⟩ := faithful.filed d place (needs_fresh_iff.mpr none) leads
      rw [heldOn_fresh, String.empty_append] at whole
      have ends (last : EndsWhole d acts) : passed = writtenOn d acts := by
        rw [← whole, faithful.settled d last, String.append_empty]
      refine ⟨passed, whole, by rw [if_neg none, here], ends, fun lines => ?_⟩
      rw [ends (endsWhole_of_check none lines), writtenOn_eq lines]
  · obtain ⟨d, written, leads⟩ := faithful.exists_of_changed anchored_fresh changed
    exact ⟨d, written.resolve_right (not_not.mpr heldOn_fresh), leads⟩
  · rintro earlier wall batch later d rfl dated
    by_cases empty : batch = []
    · subst empty
      rfl
    · rw [List.append_cons] at openable
      have sooner := openable_of_append openable
      have answered := (faithful_perform (faithful_after disk (openable_of_append sooner)) sooner).1
      rw [answered, Act.answer, if_neg empty, dated]
      rfl
  · intro body inner within alone reached
    have left : within = _ := outcome_within body scene.journal scene.disk
    rw [after_append, reached, perform_shutdown, left]
    exact ⟨rfl, rfl⟩

/-- A directory with the file of a day, on a system that passes nothing on before it has to. -/
def shelf : Disk :=
  ⟨.int 0, ⟨[(["out"], .directory), (["out", "cpu-load-2023-11-14.jsonl"], .file "old\n".toUTF8)]⟩, fun _ => 0⟩

/-- Exports on that day, on the next one, and on the first again after a shutdown. -/
def thereAndBack : List Act :=
  [.append (.int 1700000000) [default], .append (.int 1700086400) [default], .shutdown,
    .append (.int 1700000001) [default, default]]

theorem nameSize_eq {name : String} {n : Nat} (size : CodePoint.nameSize? name = some n) (clean : '\x00' ∉ name.toList) :
    FileTree.nameSize name = .ok n := by
  simp [FileTree.nameSize, size, clean]

theorem place_on_shelf (named : namesOfDay "out" d = ["out", fileName d])
    (size : CodePoint.nameSize? (fileName d) = some 25) (clean : '\x00' ∉ (fileName d).toList) :
    shelf.tree.placeOf (namesOfDay "out" d) = .ok ["out", fileName d] := by
  have above : FileTree.nameSize "out" = .ok 3 := nameSize_eq (by decide +kernel) (by decide +kernel)
  have own := nameSize_eq size clean
  rw [named, placeOf_eq_ok_iff]
  refine ⟨⟨29, ?_, by decide⟩, ?_⟩
  · simp [FileTree.pathSize, above, own]
    rfl
  · simp [FileTree.follow, FileTree.isTooLong, FileTree.longestName, above, own, FileTree.step, FileTree.node?, shelf,
      (isPlain_fileName d).ne_above]

theorem place_of_first : shelf.tree.placeOf (namesOfDay "out" ⟨2023, 11, 14⟩) = .ok ["out", "cpu-load-2023-11-14.jsonl"] :=
  place_on_shelf (by decide +kernel) (by decide +kernel) (by decide +kernel)

theorem openable_thereAndBack : Openable "out" shelf.tree thereAndBack := by
  intro d exported
  have samples : samplesOn d thereAndBack = (if ⟨2023, 11, 14⟩ = d then [default] else []) ++
      ((if ⟨2023, 11, 15⟩ = d then [default] else []) ++ ([] ++
        ((if ⟨2023, 11, 14⟩ = d then [default, default] else []) ++ []))) := rfl
  by_cases first : (⟨2023, 11, 14⟩ : Date) = d
  · subst first
    exact openEnd_of_free place_of_first nofun
  by_cases second : (⟨2023, 11, 15⟩ : Date) = d
  · subst second
    exact openEnd_of_free (place_on_shelf (by decide +kernel) (by decide +kernel) (by decide +kernel)) nofun
  simp [samples, first, second] at exported

theorem daily_files_hold_what_was_exported_there_and_back :
    (after "out" shelf thereAndBack).disk.tree.node? ["out", "cpu-load-2023-11-14.jsonl"] =
      some (.file ("old\n".toUTF8 ++ (linesOf [default, default, default]).toUTF8)) := by
  have law := daily_files_hold_what_was_exported "out" shelf thereAndBack openable_thereAndBack
  obtain ⟨_, passed, _, here, _, whole⟩ := law.1 ⟨2023, 11, 14⟩ _ place_of_first
  have lines : check (samplesOn ⟨2023, 11, 14⟩ thereAndBack) = .ok () := rfl
  rw [here, whole lines]
  rfl

end CpuLoad.DailyFiles
