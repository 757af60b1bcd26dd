import CpuLoad.Proofs.FilePlaces
import CpuLoad.Proofs.HeldLines
import Mathlib.Data.List.Induction

/-!
What exports leave in the files of a journal, whatever else goes on around them. An export passes on what the journal holds
back for the file of another day, opens the file of the day if it is not open, and adds its lines to it
(`exists_export`). So after any exports and shutdowns the file of a day has what it had at first and behind it what was
written for that day, up to what is still held back, and everything else is as it was (`Faithful`).
-/
namespace CpuLoad.FaithfulFiles
open CpuLoad.Calendar CpuLoad.DailyNames CpuLoad.FilePlaces CpuLoad.HeldLines CpuLoad.Journal CpuLoad.Location
  CpuLoad.Outcome

/-- Surroundings with a tree of files. A look at the clock leaves the files. -/
class Storage (ω : Type) [Clock (StateM ω)] [Files (StateM ω)] extends Buffered ω where
  tree : ω → FileTree
  tree_wallSeconds (world : ω) : tree ((Clock.wallSeconds : StateM ω Value).run world).2 = tree world
  tree_append (path text : String) (world : ω) :
    tree ((Files.append path text : StateM ω Unit).run world).2 = (tree world).append (namesOf path) text
  openEnd_ok (path : String) (world : ω) {opened : FileTree} (opens : (tree world).openEnd (namesOf path) = .ok opened) :
    ∃ left, (Files.openEnd path : StateM ω (Except FileFault Unit)).run world = (.ok (), left) ∧ tree left = opened

open Storage

/-! ### What is held back -/

/-- What a journal holds back for the file of a day. -/
def heldOn (d : Date) (j : Journal) : String :=
  match j.handle with
  | .live held => if j.date = some d then held else ""
  | _ => ""

section
variable {d e : Date} {j : Journal} {held : String}

theorem heldOn_live (live : j.handle = .live held) (date : j.date = some d) : heldOn d j = held := by
  unfold heldOn
  rw [live]
  exact if_pos date

theorem heldOn_of_date_ne (other : j.date ≠ some d) : heldOn d j = "" := by
  unfold heldOn
  split
  · exact if_neg other
  · rfl

theorem heldOn_none (none : j.handle = .none) : heldOn d j = "" := by
  unfold heldOn
  rw [none]

end

/-- A journal without a handle, or with one on a file that is there. -/
def Anchored (j : Journal) (t : FileTree) : Prop :=
  j.handle = .none ∨ ∃ held d place bytes, j.handle = .live held ∧ j.date = some d ∧ 1 ≤ d.year ∧
    t.placeOf (namesOfDay j.directory d) = .ok place ∧ t.node? place = some (.file bytes)

/-- What becomes of the files when a journal passes on what it holds back, other than for the file of a day that it may
keep open. -/
inductive Released (keep : Option Date) (j : Journal) (t : FileTree) : FileTree → Prop
  | nothing (none : ∀ e, keep ≠ some e → heldOn e j = "") : Released keep j t t
  | passed {held : String} {e : Date} {place : List String} {bytes : ByteArray} {u : FileTree} (other : keep ≠ some e)
      (live : j.handle = .live held) (date : j.date = some e) (leads : t.placeOf (namesOfDay j.directory e) = .ok place)
      (here : t.node? place = some (.file bytes)) (stores : Stores t u place (bytes ++ held.toUTF8)) : Released keep j t u

namespace Released
variable {keep : Option Date} {j : Journal} {t u : FileTree} {d : Date} {place : List String}

theorem directories (released : Released keep j t u) : Directories t u := by
  cases released with
  | nothing => exact fun _ known => known
  | passed _ _ _ _ here stores => exact stores.directories (by simp [here])

/-- The file of the day that is kept open is as before. -/
theorem node_of_kept (released : Released (some d) j t u) (positive : 1 ≤ d.year)
    (leads : t.placeOf (namesOfDay j.directory d) = .ok place) : u.node? place = t.node? place := by
  cases released with
  | nothing => rfl
  | passed other _ _ leads' _ stores =>
    refine stores.elsewhere ?_
    rintro rfl
    exact other (congrArg some (eq_of_places positive leads' leads).symm)

end Released

/-! ### One operation -/

section
variable {ω : Type} [Clock (StateM ω)] [Files (StateM ω)] [Storage ω] {j : Journal} {world read left : ω} {wall : Value}
  {batch : List Sample} {d : Date} {path text : String} {place : List String} {bytes : ByteArray}

/-- A text that is passed on in pieces is stored behind what the file has. -/
theorem stores_of_passes (passes : Passes path world text left) (leads : (tree world).placeOf (namesOf path) = .ok place)
    (below : place ≠ []) (here : (tree world).node? place = some (.file bytes)) :
    Stores (tree world) (tree left) place (bytes ++ text.toUTF8) := by
  induction passes with
  | nothing =>
    intro p
    by_cases same : p = place <;> simp [same, here]
  | @more text left before piece ih =>
    have again : (tree left).placeOf (namesOf path) = .ok place :=
      placeOf_of_directories (ih.directories (by simp [here])) leads
    rw [tree_append]
    have stores := ih.trans (stores_append again below ih.file piece)
    rw [ByteArray.append_assoc] at stores
    exact stores

/-- A journal that passes on what it holds back stores it at the end of its file. -/
theorem released_flushed {keep : Option Date} (other : ∀ d, keep = some d → ¬ j.holds d) (anchored : Anchored j (tree world)) :
    Released keep j (tree world) (tree (flushed j world)) := by
  rcases anchored with none | ⟨held, e, place, bytes, live, date, _, leads, here⟩
  · have same : flushed j world = world := by
      unfold flushed
      rw [none]
    rw [same]
    exact .nothing fun _ _ => heldOn_none none
  · have onPath : j.path? = some (fileOf j.directory e) := by
      unfold path?
      rw [date]
      rfl
    have stores := stores_of_passes (passes_flushed live onPath world) leads (place_ne_nil leads) here
    exact .passed (fun same => other e same (holds_iff.mpr ⟨by simp [live], date⟩)) live date leads here stores

theorem tree_read (shows : (Clock.wallSeconds : StateM ω Value).run world = (wall, read)) : tree read = tree world := by
  have same := tree_wallSeconds world
  rw [shows] at same
  exact same

/-- An export adds the lines of its batch to the file of the day, up to the first sample that has none. What was held back
for the file of another day is passed on to that one first. -/
theorem exists_export (world : ω) (anchored : Anchored j (tree world))
    (shows : (Clock.wallSeconds : StateM ω Value).run world = (wall, read)) (nonempty : batch ≠ [])
    (dated : dateOf wall = .ok d) (leads : (tree world).placeOf (namesOfDay j.directory d) = .ok place)
    (free : (tree world).node? place ≠ some .directory) :
    ∃ passed rest last between, outcome (Journal.append batch : JournalM (StateM ω) Unit) j world =
        (check batch, ⟨j.directory, .live rest, some d⟩, last) ∧
      passed ++ rest = heldOn d j ++ linesOf batch ∧ (check batch = .ok () → rest = "") ∧
      Released (some d) j (tree world) between ∧
      Stores between (tree last) place (bytesAt (tree world) place ++ passed.toUTF8) := by
  have below := place_ne_nil leads
  rw [← tree_read shows] at anchored leads free ⊢
  by_cases holds : j.holds d
  · obtain ⟨held, today⟩ := holds_iff.mp holds
    obtain none | ⟨held, e, _, bytes, live, date, _, leads', here⟩ := anchored
    · exact absurd none held
    obtain rfl := Option.some.inj (date.symm.trans today)
    obtain rfl := Except.ok.inj (leads.symm.trans leads')
    obtain ⟨passed, rest, last, whole, complete, passes, done⟩ := exists_append_of_live shows nonempty dated live date
    have stores := stores_of_passes passes leads below here
    rw [← bytesAt_eq here] at stores
    refine ⟨passed, rest, last, tree read, ?_, ?_, complete, ?_, stores⟩
    · rw [done, date]
    · rw [whole, heldOn_live live date]
    · refine .nothing fun f other => heldOn_of_date_ne ?_
      rw [date]
      exact other
  · have released : Released (some d) j (tree read) (tree (flushed j read)) :=
      released_flushed (by rintro _ ⟨⟩; exact holds) anchored
    have same := released.node_of_kept (year_of_dateOf dated) leads
    have again := placeOf_of_directories released.directories leads
    obtain ⟨opened, opens⟩ := openEnd_of_free again (same ▸ free)
    obtain ⟨left, run, rfl⟩ := openEnd_ok (fileOf j.directory d) (flushed j read) opens
    obtain ⟨unblocked, opening⟩ := stores_openEnd again below opens
    obtain ⟨passed, rest, last, whole, complete, passes, done⟩ := exists_append_of_other shows nonempty dated holds run
    have reached : (tree left).placeOf (namesOfDay j.directory d) = .ok place :=
      placeOf_of_directories (opening.directories unblocked) again
    have stores := opening.trans (stores_of_passes passes reached below opening.file)
    have bytes : bytesAt (tree (flushed j read)) place = bytesAt (tree read) place := by
      unfold bytesAt
      rw [same]
    have none : heldOn d j = "" := by
      by_cases date : j.date = some d
      · refine heldOn_none ?_
        by_contra held
        exact holds (holds_iff.mpr ⟨held, date⟩)
      · exact heldOn_of_date_ne date
    rw [bytes] at stores
    exact ⟨passed, rest, last, _, done, by rw [whole, none, String.empty_append], complete, released, stores⟩

end

/-! ### Exports and shutdowns -/

/-- What is done to a journal. An append is labelled with what the wall clock shows. -/
inductive Act
  | append (wall : Value) (batch : List Sample)
  | shutdown

namespace Act

/-- The samples that an act exports on a day. -/
def samplesOn (d : Date) : Act → List Sample
  | append wall batch =>
    match dateOf wall with
    | .ok today => if today = d then batch else []
    | .error _ => []
  | shutdown => []

/-- What an act answers. An export fails if the clock shows no date, or on the first sample that has no line. -/
def answer : Act → Except Fault Unit
  | append wall batch =>
    if batch = [] then .ok ()
    else do
      let _ ← dateOf wall
      check batch
  | shutdown => .ok ()

end Act

/-- The samples that are exported on a day, in the order of the exports. -/
def samplesOn (d : Date) (acts : List Act) : List Sample := acts.flatMap (Act.samplesOn d)

/-- What is written for a day: the lines of every export, up to the first of its samples that has none. -/
def writtenOn (d : Date) : List Act → String
  | [] => ""
  | act :: acts => linesOf (act.samplesOn d) ++ writtenOn d acts

/-- Whether the last export on a day was whole, so that all its samples had lines. -/
def EndsWhole (d : Date) (acts : List Act) : Prop :=
  ∃ earlier act later, acts = earlier ++ act :: later ∧ act.samplesOn d ≠ [] ∧ check (act.samplesOn d) = .ok () ∧
    samplesOn d later = []

/-- Every file that is needed can be opened. -/
def Openable (directory : String) (tree : FileTree) (acts : List Act) : Prop :=
  ∀ d, samplesOn d acts ≠ [] → ∃ opened, tree.openEnd (namesOfDay directory d) = .ok opened

section
variable {wall : Value} {batch : List Sample} {acts : List Act} {act : Act} {d : Date} {directory : String}
  {tree : FileTree}

theorem samplesOn_append (d : Date) (acts : List Act) (act : Act) :
    samplesOn d (acts ++ [act]) = samplesOn d acts ++ act.samplesOn d := by
  simp [samplesOn]

theorem samplesOn_today (dated : dateOf wall = .ok d) (day : Date) :
    (Act.append wall batch).samplesOn day = if d = day then batch else [] := by
  simp [Act.samplesOn, dated]

theorem writtenOn_append (d : Date) (acts : List Act) (act : Act) :
    writtenOn d (acts ++ [act]) = writtenOn d acts ++ linesOf (act.samplesOn d) := by
  induction acts with
  | nil => simp [writtenOn]
  | cons first acts ih => rw [List.cons_append, writtenOn, writtenOn, ih, String.append_assoc]

/-- Exports of which every sample has a line write the lines of all samples. -/
theorem writtenOn_eq (complete : check (samplesOn d acts) = .ok ()) : writtenOn d acts = linesOf (samplesOn d acts) := by
  induction acts with
  | nil => rfl
  | cons act acts ih =>
    obtain ⟨own, others⟩ : check (act.samplesOn d) = .ok () ∧ check (samplesOn d acts) = .ok () :=
      check_append_eq_ok complete
    have whole := linesOf_append own (samplesOn d acts)
    rw [writtenOn, ih others, ← whole]
    rfl

theorem writtenOn_of_unexported (none : samplesOn d acts = []) : writtenOn d acts = "" := by
  have complete : check (samplesOn d acts) = .ok () := by
    rw [none]
    rfl
  rw [writtenOn_eq complete, none]
  rfl

theorem endsWhole_append_iff {acts : List Act} {act : Act} : EndsWhole d (acts ++ [act]) ↔
    act.samplesOn d ≠ [] ∧ check (act.samplesOn d) = .ok () ∨ act.samplesOn d = [] ∧ EndsWhole d acts := by
  constructor
  · rintro ⟨earlier, last, later, split, own, whole, none⟩
    rcases append_singleton_eq_iff.mp split with ⟨rfl, rfl, _⟩ | ⟨inner, rfl, rfl⟩
    · exact .inl ⟨own, whole⟩
    · rw [samplesOn_append, List.append_eq_nil_iff] at none
      exact .inr ⟨none.2, earlier, last, inner, rfl, own, whole, none.1⟩
  · rintro (⟨own, whole⟩ | ⟨idle, earlier, last, later, rfl, own, whole, none⟩)
    · exact ⟨acts, act, [], rfl, own, whole, rfl⟩
    · refine ⟨earlier, last, later ++ [act], by simp, own, whole, ?_⟩
      rw [samplesOn_append, none, idle, List.append_nil]

/-- The last export of a day is whole if all are. -/
theorem endsWhole_of_check (exported : samplesOn d acts ≠ []) (complete : check (samplesOn d acts) = .ok ()) :
    EndsWhole d acts := by
  induction acts using List.reverseRecOn with
  | nil => exact absurd rfl exported
  | append_singleton acts act ih =>
    rw [samplesOn_append] at exported complete
    obtain ⟨sooner, own⟩ := check_append_eq_ok complete
    rw [endsWhole_append_iff]
    by_cases idle : act.samplesOn d = []
    · rw [idle, List.append_nil] at exported
      exact .inr ⟨idle, ih exported sooner⟩
    · exact .inl ⟨idle, own⟩

theorem year_of_samplesOn (exported : samplesOn d acts ≠ []) : 1 ≤ d.year := by
  obtain ⟨sample, member⟩ := List.exists_mem_of_ne_nil _ exported
  obtain ⟨act, _, own⟩ := List.mem_flatMap.mp member
  cases act with
  | shutdown => cases own
  | append wall batch =>
    cases dated : dateOf wall with
    | error e => simp [Act.samplesOn, dated] at own
    | ok today =>
      rw [samplesOn_today dated] at own
      split at own
      · next same => exact same ▸ year_of_dateOf dated
      · cases own

theorem openable_of_append {more : List Act} (openable : Openable directory tree (acts ++ more)) :
    Openable directory tree acts := by
  intro d exported
  refine openable d ?_
  rw [samplesOn, List.flatMap_append]
  exact List.append_ne_nil_of_left_ne_nil exported _

end

/-! ### Files that hold what was written -/

/-- Whether the acts on a journal need the file of a day: something is exported on it, or the journal has it open at
first. -/
def Needs (start : Journal) (acts : List Act) (d : Date) : Prop :=
  samplesOn d acts ≠ [] ∨ ∃ held, start.handle = .live held ∧ start.date = some d

/-- A journal after some acts, and the files: those of the days have what was written for them behind what they had in a
tree, up to what is held back, and everything else is as in the tree. Nothing is held back for a day whose last export was
whole. -/
structure Faithful (start : Journal) (tree : FileTree) (acts : List Act) (j : Journal) (t : FileTree) : Prop where
  sited : j.directory = start.directory
  handle : j.handle = .none ∨ ∃ held d, j.handle = .live held ∧ j.date = some d ∧ Needs start acts d
  filed : ∀ d place, Needs start acts d → tree.placeOf (namesOfDay start.directory d) = .ok place →
    ∃ passed, passed ++ heldOn d j = heldOn d start ++ writtenOn d acts ∧
      t.node? place = some (.file (bytesAt tree place ++ passed.toUTF8))
  others : ∀ place, (∀ d, Needs start acts d → tree.placeOf (namesOfDay start.directory d) ≠ .ok place) →
    t.node? place = tree.node? place
  settled : ∀ d, EndsWhole d acts → heldOn d j = ""

section
variable {start : Journal} {tree : FileTree} {acts : List Act} {j : Journal} {t u : FileTree} {d : Date}
  {place : List String} {keep : Option Date}

theorem year_of_needs (anchored : Anchored start tree) (needs : Needs start acts d) : 1 ≤ d.year := by
  rcases needs with exported | ⟨held, live, date⟩
  · exact year_of_samplesOn exported
  · rcases anchored with none | ⟨_, e, _, _, _, date', positive, _⟩
    · rw [none] at live
      cases live
    · rw [date] at date'
      cases date'
      exact positive

theorem heldOn_of_not_needs (unneeded : ¬ Needs start acts d) : heldOn d start = "" := by
  cases handle : start.handle with
  | none => exact heldOn_none handle
  | closed => simp [heldOn, handle]
  | live held => exact heldOn_of_date_ne fun date => unneeded (.inr ⟨held, handle, date⟩)

/-- The file of a day that is needed has a place, and no directory is there. -/
theorem free_of_needs (anchored : Anchored start tree) (openable : Openable start.directory tree acts)
    (needs : Needs start acts d) :
    ∃ place, tree.placeOf (namesOfDay start.directory d) = .ok place ∧ tree.node? place ≠ some .directory := by
  rcases needs with exported | ⟨held, live, date⟩
  · obtain ⟨opened, opens⟩ := openable d exported
    exact free_of_openEnd opens
  · rcases anchored with none | ⟨_, e, place, bytes, _, date', _, leads, here⟩
    · rw [none] at live
      cases live
    · rw [date] at date'
      cases date'
      exact ⟨place, leads, by simp [here]⟩

theorem faithful_start (anchored : Anchored start tree) : Faithful start tree [] start tree := by
  refine ⟨rfl, ?_, ?_, fun _ _ => rfl, ?_⟩
  · rcases anchored with none | ⟨held, d, _, _, live, date, _⟩
    · exact .inl none
    · exact .inr ⟨held, d, live, date, .inr ⟨held, live, date⟩⟩
  · intro d place needs leads
    rcases needs with exported | ⟨held, live, date⟩
    · exact absurd rfl exported
    · rcases anchored with none | ⟨_, e, _, bytes, _, date', _, leads', here⟩
      · rw [none] at live
        cases live
      · rw [date] at date'
        cases date'
        obtain rfl := Except.ok.inj (leads.symm.trans leads')
        exact ⟨"", by simp [writtenOn], by simp [bytesAt_eq here, here]⟩
  · rintro d ⟨earlier, act, later, split, _⟩
    simp at split

namespace Faithful

/-- The place of a day whose file is not needed is not that of a day whose file is. -/
theorem node_of_unneeded (faithful : Faithful start tree acts j t) (anchored : Anchored start tree)
    (unneeded : ¬ Needs start acts d) (leads : tree.placeOf (namesOfDay start.directory d) = .ok place) :
    t.node? place = tree.node? place := by
  refine faithful.others place fun other needs same => unneeded ?_
  rwa [eq_of_places (year_of_needs anchored needs) leads same]

/-- The file of a day is as at first if nothing is written for that day. -/
theorem node_of_quiet (faithful : Faithful start tree acts j t) (anchored : Anchored start tree)
    (unexported : samplesOn d acts = []) (empty : heldOn d start = "")
    (leads : tree.placeOf (namesOfDay start.directory d) = .ok place) : t.node? place = tree.node? place := by
  by_cases needs : Needs start acts d
  · obtain ⟨passed, whole, here⟩ := faithful.filed d place needs leads
    rw [empty, writtenOn_of_unexported unexported, String.append_empty, String.append_eq_empty_iff] at whole
    obtain ⟨held, live, date⟩ := needs.resolve_left (not_not.mpr unexported)
    rcases anchored with none | ⟨_, e, _, bytes, _, date', _, leads', known⟩
    · rw [none] at live
      cases live
    · rw [date] at date'
      cases date'
      obtain rfl := Except.ok.inj (leads.symm.trans leads')
      rw [here, known, bytesAt_eq known, whole.1]
      simp
  · exact faithful.node_of_unneeded anchored needs leads

/-- What is new or different is the file of a day for which something is written. -/
theorem exists_of_changed (faithful : Faithful start tree acts j t) (anchored : Anchored start tree)
    (changed : t.node? place ≠ tree.node? place) :
    ∃ d, (samplesOn d acts ≠ [] ∨ heldOn d start ≠ "") ∧ tree.placeOf (namesOfDay start.directory d) = .ok place := by
  by_contra none
  refine changed (faithful.others place fun d _ leads => ?_)
  have quiet : samplesOn d acts = [] ∧ heldOn d start = "" := by
    by_contra written
    exact none ⟨d, not_and_or.mp written, leads⟩
  exact changed (faithful.node_of_quiet anchored quiet.1 quiet.2 leads)

theorem directories (faithful : Faithful start tree acts j t) (anchored : Anchored start tree)
    (openable : Openable start.directory tree acts) : Directories tree t := by
  intro p known
  rw [faithful.others p, known]
  intro d needs same
  obtain ⟨place, leads, free⟩ := free_of_needs anchored openable needs
  obtain rfl := Except.ok.inj (leads.symm.trans same)
  exact free known

/-- The file of a day can be opened as long as it could at first. -/
theorem free (faithful : Faithful start tree acts j t) (anchored : Anchored start tree)
    (leads : tree.placeOf (namesOfDay start.directory d) = .ok place) (free : tree.node? place ≠ some .directory) :
    t.node? place ≠ some .directory := by
  by_cases needs : Needs start acts d
  · obtain ⟨passed, _, here⟩ := faithful.filed d place needs leads
    simp [here]
  · rwa [faithful.node_of_unneeded anchored needs leads]

/-- Nothing is held back for a day whose file is not needed. -/
theorem heldOn_of_unneeded (faithful : Faithful start tree acts j t) (unneeded : ¬ Needs start acts d) :
    heldOn d j = "" := by
  rcases faithful.handle with none | ⟨held, e, live, date, needs⟩
  · exact heldOn_none none
  · refine heldOn_of_date_ne fun same => unneeded ?_
    rw [date] at same
    cases same
    exact needs

/-- What the file of a day has, needed or not. -/
theorem bytes (faithful : Faithful start tree acts j t) (anchored : Anchored start tree)
    (leads : tree.placeOf (namesOfDay start.directory d) = .ok place) :
    ∃ passed, passed ++ heldOn d j = heldOn d start ++ writtenOn d acts ∧
      bytesAt t place = bytesAt tree place ++ passed.toUTF8 := by
  by_cases needs : Needs start acts d
  · obtain ⟨passed, whole, here⟩ := faithful.filed d place needs leads
    exact ⟨passed, whole, bytesAt_eq here⟩
  · obtain ⟨unexported, _⟩ := not_or.mp needs
    refine ⟨"", ?_, ?_⟩
    · rw [faithful.heldOn_of_unneeded needs, heldOn_of_not_needs needs, writtenOn_of_unexported (not_not.mp unexported)]
    · simp [bytesAt, faithful.node_of_unneeded anchored needs leads]

theorem anchored (faithful : Faithful start tree acts j t) (begun : Anchored start tree)
    (openable : Openable start.directory tree acts) : Anchored j t := by
  rcases faithful.handle with none | ⟨held, d, live, date, needs⟩
  · exact .inl none
  · obtain ⟨place, leads, _⟩ := free_of_needs begun openable needs
    obtain ⟨passed, _, here⟩ := faithful.filed d place needs leads
    refine .inr ⟨held, d, place, _, live, date, year_of_needs begun needs, ?_, here⟩
    rw [faithful.sited]
    exact placeOf_of_directories (faithful.directories begun openable) leads

/-- A file from which the journal turns has all that was written for its day. -/
theorem filed_of_released (faithful : Faithful start tree acts j t) (anchored : Anchored start tree)
    (openable : Openable start.directory tree acts) (released : Released keep j t u) (other : keep ≠ some d)
    (needs : Needs start acts d) (leads : tree.placeOf (namesOfDay start.directory d) = .ok place) :
    u.node? place = some (.file (bytesAt tree place ++ (heldOn d start ++ writtenOn d acts).toUTF8)) := by
  obtain ⟨passed, whole, here⟩ := faithful.filed d place needs leads
  cases released with
  | nothing none =>
    rw [none d other, String.append_empty] at whole
    rw [here, whole]
  | @passed held e place' bytes u _ live date leads' here' stores =>
    rw [faithful.sited] at leads'
    have reached := placeOf_of_directories (faithful.directories anchored openable) leads
    by_cases same : e = d
    · subst same
      obtain rfl := Except.ok.inj (reached.symm.trans leads')
      obtain rfl : _ = bytes := FileNode.file.inj (Option.some.inj (here.symm.trans here'))
      rw [stores.file, ← whole, heldOn_live live date, ByteArray.append_assoc]
      rfl
    · have apart : place ≠ place' := by
        rintro rfl
        exact same (eq_of_places (year_of_needs anchored needs) leads' reached)
      have none : heldOn d j = "" := heldOn_of_date_ne (by simp [date, same])
      rw [none, String.append_empty] at whole
      rw [stores.elsewhere apart, here, whole]

theorem others_of_released (faithful : Faithful start tree acts j t) (anchored : Anchored start tree)
    (openable : Openable start.directory tree acts) (released : Released keep j t u)
    (away : ∀ d, Needs start acts d → tree.placeOf (namesOfDay start.directory d) ≠ .ok place) :
    u.node? place = tree.node? place := by
  rw [← faithful.others place away]
  cases released with
  | nothing => rfl
  | @passed held e place' bytes u _ live date leads' here' stores =>
    refine stores.elsewhere ?_
    rintro rfl
    obtain none | ⟨_, d, _, date', needs⟩ := faithful.handle
    · rw [none] at live
      cases live
    · rw [date] at date'
      cases date'
      obtain ⟨place', leads, _⟩ := free_of_needs anchored openable needs
      rw [faithful.sited] at leads'
      have reached := placeOf_of_directories (faithful.directories anchored openable) leads
      obtain rfl := Except.ok.inj (reached.symm.trans leads')
      exact away e needs leads

/-- An act that exports nothing and leaves the journal and the files. -/
theorem idle {act : Act} (faithful : Faithful start tree acts j t) (quiet : ∀ d, act.samplesOn d = []) :
    Faithful start tree (acts ++ [act]) j t := by
  have samples (d : Date) : samplesOn d (acts ++ [act]) = samplesOn d acts := by
    rw [samplesOn_append, quiet, List.append_nil]
  have written (d : Date) : writtenOn d (acts ++ [act]) = writtenOn d acts := by
    rw [writtenOn_append, quiet]
    exact String.append_empty
  have needs (d : Date) : Needs start (acts ++ [act]) d ↔ Needs start acts d := by
    unfold Needs
    rw [samples]
  obtain ⟨sited, handle, filed, others, settled⟩ := faithful
  refine ⟨sited, ?_, ?_, ?_, fun d whole => settled d ?_⟩
  · simpa only [needs] using handle
  · simpa only [needs, written] using filed
  · simpa only [needs] using others
  · simpa [endsWhole_append_iff, quiet] using whole

/-- A journal that drops its handle passes on all that it holds back. -/
theorem closed (faithful : Faithful start tree acts j t) (anchored : Anchored start tree)
    (openable : Openable start.directory tree acts) (released : Released none j t u) :
    Faithful start tree acts { j with handle := .none } u := by
  have none (d : Date) : heldOn d { j with handle := .none } = "" := rfl
  refine ⟨faithful.sited, .inl rfl, fun d place needs leads => ?_, fun place away => ?_, fun d _ => none d⟩
  · refine ⟨heldOn d start ++ writtenOn d acts, ?_, ?_⟩
    · rw [none, String.append_empty]
    · exact faithful.filed_of_released anchored openable released nofun needs leads
  · exact faithful.others_of_released anchored openable released away

/-- An export on a day, whatever the date was before. -/
theorem exported {between : FileTree} {wall : Value} {batch : List Sample} {passed rest : String}
    (faithful : Faithful start tree acts j t) (anchored : Anchored start tree)
    (openable : Openable start.directory tree acts) (nonempty : batch ≠ []) (dated : dateOf wall = .ok d)
    (leads : tree.placeOf (namesOfDay start.directory d) = .ok place)
    (whole : passed ++ rest = heldOn d j ++ linesOf batch) (complete : check batch = .ok () → rest = "")
    (released : Released (some d) j t between)
    (stores : Stores between u place (bytesAt t place ++ passed.toUTF8)) :
    Faithful start tree (acts ++ [.append wall batch]) ⟨start.directory, .live rest, some d⟩ u := by
  have samples (day : Date) : samplesOn day (acts ++ [.append wall batch]) =
      samplesOn day acts ++ if d = day then batch else [] := by
    rw [samplesOn_append, samplesOn_today dated]
  have own : samplesOn d (acts ++ [.append wall batch]) ≠ [] := by simp [samples, nonempty]
  have needed {day : Date} (other : d ≠ day) (needs : Needs start (acts ++ [.append wall batch]) day) :
      Needs start acts day := by
    unfold Needs at needs
    rwa [samples, if_neg other, List.append_nil] at needs
  have held : heldOn d ⟨start.directory, .live rest, some d⟩ = rest := heldOn_live rfl rfl
  have none {day : Date} (other : d ≠ day) : heldOn day ⟨start.directory, .live rest, some d⟩ = "" :=
    heldOn_of_date_ne (by simpa using other)
  refine ⟨rfl, .inr ⟨rest, d, rfl, rfl, .inl own⟩, fun day p needs here => ?_, fun p away => ?_, fun day ends => ?_⟩
  · by_cases today : d = day
    · subst today
      obtain rfl := Except.ok.inj (leads.symm.trans here)
      obtain ⟨before, text, bytes⟩ := faithful.bytes anchored leads
      refine ⟨before ++ passed, ?_, ?_⟩
      · rw [held, String.append_assoc, whole, ← String.append_assoc, text, String.append_assoc, writtenOn_append,
          samplesOn_today dated, if_pos rfl]
      · rw [stores.file, bytes, ByteArray.append_assoc]
        rfl
    · have apart : p ≠ place := fun same => today (by
        subst same
        exact (eq_of_places (year_of_dateOf dated) here leads).symm)
      have filed := faithful.filed_of_released anchored openable released (by simpa using today) (needed today needs) here
      refine ⟨_, ?_, (stores.elsewhere apart).trans filed⟩
      rw [none today, String.append_empty, writtenOn_append, samplesOn_today dated, if_neg today]
      exact congrArg _ String.append_empty.symm
  · have apart : p ≠ place := fun same => away d (.inl own) (same ▸ leads)
    rw [stores.elsewhere apart]
    refine faithful.others_of_released anchored openable released fun day needs => away day ?_
    unfold Needs at needs ⊢
    rw [samples]
    exact needs.imp_left (List.append_ne_nil_of_left_ne_nil · _)
  · by_cases today : d = day
    · subst today
      rw [endsWhole_append_iff, samplesOn_today dated, if_pos rfl] at ends
      rcases ends with ⟨_, whole⟩ | ⟨empty, _⟩
      · rw [held, complete whole]
      · exact absurd empty nonempty
    · exact none today

end Faithful

end

section
variable {ω : Type} [Clock (StateM ω)] [Files (StateM ω)] [Storage ω] {start j : Journal} {files : FileTree}
  {acts : List Act} {world read : ω} {wall : Value} {batch : List Sample}

/-- An export keeps the files faithful, and answers as its samples have lines and the clock shows a date. -/
theorem faithful_append (faithful : Faithful start files acts j (tree world)) (anchored : Anchored start files)
    (openable : Openable start.directory files (acts ++ [.append wall batch]))
    (shows : (Clock.wallSeconds : StateM ω Value).run world = (wall, read)) : ∃ j' left,
    outcome (Journal.append batch : JournalM (StateM ω) Unit) j world = ((Act.append wall batch).answer, j', left) ∧
      Faithful start files (acts ++ [.append wall batch]) j' (tree left) := by
  have sooner := openable_of_append openable
  unfold Act.answer
  dsimp only
  by_cases empty : batch = []
  · subst empty
    refine ⟨j, world, rfl, faithful.idle fun d => ?_⟩
    cases dated : dateOf wall <;> simp [Act.samplesOn, dated]
  · rw [if_neg empty]
    cases dated : dateOf wall with
    | error e =>
      refine ⟨j, read, outcome_append_undated shows empty dated, ?_⟩
      rw [tree_read shows]
      exact faithful.idle fun d => by simp [Act.samplesOn, dated]
    | ok d =>
      obtain ⟨place, leads, free⟩ : ∃ place, files.placeOf (namesOfDay start.directory d) = .ok place ∧
          files.node? place ≠ some .directory := by
        obtain ⟨opened, opens⟩ := openable d (by simp [samplesOn_append, samplesOn_today dated, empty])
        exact free_of_openEnd opens
      have reached : (tree world).placeOf (namesOfDay j.directory d) = .ok place := by
        rw [faithful.sited]
        exact placeOf_of_directories (faithful.directories anchored sooner) leads
      obtain ⟨passed, rest, left, between, done, whole, complete, released, stores⟩ :=
        exists_export world (faithful.anchored anchored sooner) shows empty dated reached (faithful.free anchored leads free)
      refine ⟨_, left, done, ?_⟩
      rw [faithful.sited]
      exact faithful.exported anchored sooner empty dated leads whole complete released stores

/-- A journal that is closed has passed on all that was written. -/
theorem faithful_close (world : ω) (faithful : Faithful start files acts j (tree world)) (anchored : Anchored start files)
    (openable : Openable start.directory files acts) :
    Faithful start files (acts ++ [.shutdown]) { j with handle := .none } (tree (flushed j world)) := by
  have released : Released none j (tree world) (tree (flushed j world)) :=
    released_flushed nofun (faithful.anchored anchored openable)
  exact (faithful.closed anchored openable released).idle fun _ => rfl

end

end CpuLoad.FaithfulFiles
