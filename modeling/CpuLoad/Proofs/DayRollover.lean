import CpuLoad.Proofs.CivilDays
import CpuLoad.Proofs.DailyFiles
import CpuLoad.Proofs.FixedWidth
import CpuLoad.Proofs.WholeDoubles

/-!
Which file an export goes to, by the second at which it is made. From 1970 to the end of the year 9999 the name of a file
has a year of four digits, a month of two and a day of two, so the names are in the order of the dates (`fileName_lt`) and
with it in that of the days. Two exports go to one file exactly if their seconds fall on one day of universal time.
-/
namespace CpuLoad.DayRollover
open CpuLoad.Calendar CpuLoad.CivilDays CpuLoad.DailyFiles CpuLoad.DailyNames CpuLoad.DecimalDigit CpuLoad.FaithfulFiles
  CpuLoad.FilePlaces CpuLoad.FixedWidth CpuLoad.HeldLines CpuLoad.Journal CpuLoad.WholeDoubles

/-! ### Names -/

/-- The name of a file in the parts that it has. -/
theorem toList_fileName {d : Date} (real : (dated d).isDate) (long : 1000 ≤ d.year.toNat) :
    (fileName d).toList = "cpu-load-".toList ++ (lastDigits 10 4 d.year.toNat ++
      ('-' :: (lastDigits 10 2 d.month ++ ('-' :: (lastDigits 10 2 d.day ++ ".jsonl".toList))))) := by
  obtain ⟨⟨_, years⟩, ⟨_, months⟩, _, days⟩ := (isDate_iff _).mp real
  have year : (padded 1 d.year.toNat).toList = lastDigits 10 4 d.year.toNat :=
    toList_padded_one long (Nat.lt_succ_of_le years)
  have month : (padded 2 d.month).toList = lastDigits 10 2 d.month :=
    toList_padded (lt_of_le_of_lt months (by decide))
  have day : (padded 2 d.day).toList = lastDigits 10 2 d.day :=
    toList_padded (lt_of_le_of_lt (le_trans days (daysOfMonth_le _ _)) (by decide))
  simp [fileName, toList_text, year, month, day]

/-- The names of files are in the order of their dates. -/
theorem fileName_lt {d e : Date} (real : (dated d).isDate) (real' : (dated e).isDate) (long : 1000 ≤ d.year.toNat)
    (long' : 1000 ≤ e.year.toNat) (before : Before d e) : fileName d < fileName e := by
  obtain ⟨⟨_, years⟩, ⟨_, months⟩, _, days⟩ := (isDate_iff _).mp real'
  rw [String.lt_iff, toList_fileName real long, toList_fileName real' long']
  apply List.append_left_lt
  have same (width m n : Nat) : (lastDigits 10 width m).length = (lastDigits 10 width n).length := by simp
  rcases before with sooner | ⟨year, sooner | ⟨month, sooner⟩⟩
  · exact append_lt_append (same ..) (lastDigits_lt (by omega) (Nat.lt_succ_of_le years)) _ _
  · rw [year]
    refine List.append_left_lt (List.cons_lt_cons_iff.mpr (.inr ⟨rfl, ?_⟩))
    exact append_lt_append (same ..) (lastDigits_lt sooner (lt_of_le_of_lt months (by decide))) _ _
  · rw [year, month]
    refine List.append_left_lt (List.cons_lt_cons_iff.mpr (.inr ⟨rfl, ?_⟩))
    refine List.append_left_lt (List.cons_lt_cons_iff.mpr (.inr ⟨rfl, ?_⟩))
    have short : e.day < 10 ^ 2 := lt_of_le_of_lt (le_trans days (daysOfMonth_le _ _)) (by decide)
    exact append_lt_append (same ..) (lastDigits_lt sooner short) _ _

/-! ### Seconds -/

/-- The seconds from 1970 on to the end of the year 9999. -/
def seconds : Nat := 253402300800

theorem day_lt {a : Nat} (bound : a < seconds) : a / 86400 < 2932897 := by
  unfold seconds at bound
  omega

theorem ofSecond_natCast (a : Nat) : ofSecond a = ofDay (a / 86400 : Nat) := by
  unfold ofSecond dayOfSecond
  exact congrArg ofDay (by omega)

theorem dateOf_of_year {wall : Value} {second : Int} {d : Date} (shows : secondOf wall = .ok second)
    (date : ofSecond second = d) (least : 1 ≤ d.year) (most : d.year ≤ 9999) : dateOf wall = .ok d := by
  have counted : isCountedYear d.year = true := by
    unfold isCountedYear
    simp only [Bool.and_eq_true, decide_eq_true_eq]
    omega
  have inside : ¬ (d.year < years.1 ∨ years.2 < d.year) := by
    unfold years
    dsimp only
    omega
  unfold dateOf
  rw [shows]
  simp [bind, Except.bind, date, counted, inside]
  rfl

variable {a b : Nat} {wall wall' : Value}

theorem ofSecond_spec (bound : a < seconds) : (dated (ofSecond a)).isDate ∧
    (dated (ofSecond a)).dayNumber = a / 86400 + 719162 ∧ 1970 ≤ (ofSecond a).year := by
  rw [ofSecond_natCast]
  exact ofDay_spec (day_lt bound)

theorem dateOf_of_second (bound : a < seconds) (shows : wall.rational? = some (a : Rat)) :
    dateOf wall = .ok (ofSecond a) := by
  have small : a < 2 ^ 53 := lt_trans bound (by decide)
  obtain ⟨real, _, recent⟩ := ofSecond_spec bound
  obtain ⟨⟨_, last⟩, _⟩ := (isDate_iff _).mp real
  generalize date : ofSecond a = d at *
  have most : d.year.toNat ≤ 9999 := last
  exact dateOf_of_year (secondOf_of_whole small shows) date (by omega) (by omega)

theorem ofSecond_eq_iff (bound : a < seconds) (bound' : b < seconds) :
    ofSecond a = ofSecond b ↔ a / 86400 = b / 86400 := by
  constructor
  · intro same
    obtain ⟨_, number, _⟩ := ofSecond_spec bound
    obtain ⟨_, number', _⟩ := ofSecond_spec bound'
    rw [same] at number
    omega
  · intro same
    rw [ofSecond_natCast, ofSecond_natCast, same]

/-- The file of an earlier day has the lesser name. -/
theorem fileName_ofSecond_lt (bound : a < seconds) (bound' : b < seconds) (earlier : a / 86400 < b / 86400) :
    fileName (ofSecond a) < fileName (ofSecond b) := by
  obtain ⟨real, number, recent⟩ := ofSecond_spec bound
  obtain ⟨real', number', recent'⟩ := ofSecond_spec bound'
  generalize ofSecond a = d at *
  generalize ofSecond b = e at *
  exact fileName_lt real real' (by omega) (by omega) (before_of_lt real real' (by omega))

/-- The three numbers in the name of a file, and the date that they are. -/
theorem fileName_ofSecond (bound : a < seconds) : ∃ year month day,
    fileName (ofSecond a) = "cpu-load-" ++ padded 4 year ++ "-" ++ padded 2 month ++ "-" ++ padded 2 day ++ ".jsonl" ∧
      (⟨year, month, day, none⟩ : Timestamp).isDate ∧
      (⟨year, month, day, none⟩ : Timestamp).dayNumber = a / 86400 + 719162 := by
  obtain ⟨real, number, recent⟩ := ofSecond_spec bound
  generalize ofSecond a = d at *
  obtain ⟨⟨_, last⟩, _⟩ := (isDate_iff _).mp real
  have long : 1000 ≤ d.year.toNat := by omega
  have short : d.year.toNat < 10 ^ 4 := Nat.lt_succ_of_le last
  refine ⟨d.year.toNat, d.month, d.day, ?_, real, number⟩
  have year : padded 1 d.year.toNat = padded 4 d.year.toNat :=
    String.toList_inj.mp ((toList_padded_one long short).trans (toList_padded short).symm)
  rw [fileName, Date.text, year]
  simp [String.append_assoc]

/-! ### Exports -/

/-- An export behind some exports and shutdowns that puts the lines of its batch at the end of one file, up to what is held
back, and leaves everything else. If a sample of another day had no line, then what is held back goes to the file of that
day. -/
def Appends (directory : String) (disk : Disk) (acts : List Act) (wall : Value) (batch : List Sample)
    (place : List String) : Prop :=
  let before := after directory disk acts
  let left := (perform (.append wall batch) before).2
  (perform (.append wall batch) before).1 = check batch ∧
    ∃ d passed, dateOf wall = .ok d ∧
      passed ++ heldOn d left.journal = heldOn d before.journal ++ linesOf batch ∧
      (check (samplesOn d acts) = .ok () → check batch = .ok () → passed = linesOf batch) ∧
      left.disk.tree.node? place = some (.file (bytesAt before.disk.tree place ++ passed.toUTF8)) ∧
      ∀ p, p ≠ place → left.disk.tree.node? p = before.disk.tree.node? p ∨
        ∃ e, check (samplesOn e acts) ≠ .ok () ∧ before.disk.tree.placeOf (namesOfDay directory e) = .ok p ∧
          left.disk.tree.node? p = some (.file (bytesAt before.disk.tree p ++ (heldOn e before.journal).toUTF8))

variable {directory : String} {disk : Disk} {acts : List Act} {batch : List Sample} {d : Date}

theorem last_of_place {t : FileTree} {place : List String} (leads : t.placeOf (namesOfDay directory d) = .ok place) :
    place.getLast? = some (fileName d) := by
  obtain ⟨above, _, rfl⟩ := place_of_day leads
  exact List.getLast?_concat

/-- Where a journal passes on what it holds back. -/
theorem node_of_released {between : FileTree} (openable : Openable directory disk.tree acts)
    (released : Released (some d) (after directory disk acts).journal (after directory disk acts).disk.tree between)
    (p : List String) : between.node? p = (after directory disk acts).disk.tree.node? p ∨
      ∃ e, check (samplesOn e acts) ≠ .ok () ∧
        (after directory disk acts).disk.tree.placeOf (namesOfDay directory e) = .ok p ∧
        between.node? p = some (.file (bytesAt (after directory disk acts).disk.tree p ++
          (heldOn e (after directory disk acts).journal).toUTF8)) := by
  have sited : (after directory disk acts).journal.directory = directory := (faithful_after disk openable).sited
  cases released with
  | nothing => exact .inl rfl
  | @passed held e place bytes _ _ live date leads here stores =>
    rw [sited] at leads
    by_cases other : p = place
    · subst other
      have same : heldOn e (after directory disk acts).journal = held := heldOn_live live date
      by_cases complete : check (samplesOn e acts) = .ok ()
      · have none : held = "" := same.symm.trans (heldOn_after disk openable complete)
        exact .inl (by simp [stores.file, none, here])
      · exact .inr ⟨e, complete, leads, by rw [stores.file, bytesAt_eq here, same]⟩
    · exact .inl (stores.elsewhere other)

/-- What an export does to the files of a journal that may have another day's file open. -/
theorem exists_perform {scene : Scene} {place : List String} (anchored : Anchored scene.journal scene.disk.tree)
    (nonempty : batch ≠ []) (dated : dateOf wall = .ok d)
    (leads : scene.disk.tree.placeOf (namesOfDay scene.journal.directory d) = .ok place)
    (free : scene.disk.tree.node? place ≠ some .directory) :
    ∃ passed rest between left, perform (.append wall batch) scene =
        (check batch, ⟨⟨scene.journal.directory, .live rest, some d⟩, left⟩) ∧
      passed ++ rest = heldOn d scene.journal ++ linesOf batch ∧ (check batch = .ok () → rest = "") ∧
      Released (some d) scene.journal scene.disk.tree between ∧
      Stores between left.tree place (bytesAt scene.disk.tree place ++ passed.toUTF8) := by
  obtain ⟨passed, rest, left, between, done, others⟩ :=
    exists_export ({ scene.disk with wall } : Disk) anchored (run_wallSeconds _) nonempty dated leads free
  exact ⟨passed, rest, between, left, perform_of_outcome done, others⟩

theorem exists_appends (dated : dateOf wall = .ok d) (nonempty : batch ≠ [])
    (openable : Openable directory disk.tree (acts ++ [.append wall batch])) :
    ∃ place, disk.tree.placeOf (namesOfDay directory d) = .ok place ∧ Appends directory disk acts wall batch place := by
  have own : samplesOn d (acts ++ [.append wall batch]) ≠ [] := by
    simp [samplesOn_append, samplesOn_today dated, nonempty]
  obtain ⟨opened, opens⟩ := openable d own
  obtain ⟨place, leads, free⟩ := free_of_openEnd opens
  have sooner := openable_of_append openable
  have faithful := faithful_after disk sooner
  have sited : (after directory disk acts).journal.directory = directory := faithful.sited
  have reached : (after directory disk acts).disk.tree.placeOf
      (namesOfDay (after directory disk acts).journal.directory d) = .ok place := by
    rw [sited]
    exact placeOf_of_directories (faithful.directories anchored_fresh sooner) leads
  obtain ⟨passed, rest, between, left, done, whole, complete, released, stores⟩ :=
    exists_perform (faithful.anchored anchored_fresh sooner) nonempty dated reached
      (faithful.free anchored_fresh leads free)
  refine ⟨place, leads, ?_⟩
  unfold Appends
  dsimp only
  rw [done]
  refine ⟨rfl, d, passed, dated, ?_, fun lines own => ?_, stores.file, fun p apart => ?_⟩
  · have left : heldOn d ⟨(after directory disk acts).journal.directory, .live rest, some d⟩ = rest := heldOn_live rfl rfl
    rw [left, whole]
  · rw [complete own, String.append_empty, heldOn_after disk sooner lines, String.empty_append] at whole
    exact whole
  · rw [stores.elsewhere apart]
    exact node_of_released sooner released p

/-- Two exports, of a journal at two times or of two journals over one directory, each behind any exports and shutdowns
and over files that can be opened: they append to one file exactly if their seconds fall on one day. The file is the one
that the date of the second names, which is a date that there is, and the names are in the order of the days. -/
theorem files_change_with_the_day (directory : String) (disk : Disk) {wall wall' : Value} {a b : Nat} (bound : a < seconds)
    (bound' : b < seconds) (shows : wall.rational? = some (a : Rat)) (shows' : wall'.rational? = some (b : Rat))
    {acts acts' : List Act} {batch batch' : List Sample} (nonempty : batch ≠ []) (nonempty' : batch' ≠ [])
    (openable : Openable directory disk.tree (acts ++ [.append wall batch]))
    (openable' : Openable directory disk.tree (acts' ++ [.append wall' batch'])) :
    (∃ place place', Appends directory disk acts wall batch place ∧ Appends directory disk acts' wall' batch' place' ∧
      (place = place' ↔ a / 86400 = b / 86400) ∧
      place.getLast? = some (fileName (ofSecond a)) ∧ place'.getLast? = some (fileName (ofSecond b))) ∧
    (a / 86400 < b / 86400 → fileName (ofSecond a) < fileName (ofSecond b)) ∧
    ∃ year month day,
      fileName (ofSecond a) = "cpu-load-" ++ padded 4 year ++ "-" ++ padded 2 month ++ "-" ++ padded 2 day ++ ".jsonl" ∧
        (⟨year, month, day, none⟩ : Timestamp).isDate ∧
        (⟨year, month, day, none⟩ : Timestamp).dayNumber = a / 86400 + 719162 := by
  refine ⟨?_, fileName_ofSecond_lt bound bound', fileName_ofSecond bound⟩
  have today := dateOf_of_second bound shows
  have today' := dateOf_of_second bound' shows'
  obtain ⟨place, leads, appends⟩ := exists_appends today nonempty openable
  obtain ⟨place', leads', appends'⟩ := exists_appends today' nonempty' openable'
  refine ⟨place, place', appends, appends', ?_, last_of_place leads, last_of_place leads'⟩
  rw [← ofSecond_eq_iff bound bound']
  constructor
  · intro same
    rw [same] at leads
    exact eq_of_places (year_of_dateOf today') leads leads'
  · intro same
    rw [same] at leads
    exact Except.ok.inj (leads.symm.trans leads')

theorem files_change_with_the_day_there_and_back :
    ∃ place place', Appends "out" shelf (thereAndBack.take 1) (.int 1700086400) [default] place ∧
      Appends "out" shelf (thereAndBack.take 3) (.int 1700000001) [default, default] place' ∧ place ≠ place' := by
  have all := openable_thereAndBack
  have second : Openable "out" shelf.tree (thereAndBack.take 1 ++ [.append (.int 1700086400) [default]]) :=
    @openable_of_append _ _ _ (thereAndBack.drop 2) all
  have last : Openable "out" shelf.tree (thereAndBack.take 3 ++ [.append (.int 1700000001) [default, default]]) := all
  obtain ⟨⟨place, place', appends, appends', same, _⟩, _⟩ :=
    files_change_with_the_day "out" shelf (a := 1700086400) (b := 1700000001) (by decide) (by decide) rfl rfl
      (by simp) (by simp) second last
  exact ⟨place, place', appends, appends', fun one => absurd (same.mp one) (by decide)⟩

end CpuLoad.DayRollover
