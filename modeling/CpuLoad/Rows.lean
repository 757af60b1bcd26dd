/-!
Rows under keys, in the order in which their keys came first. A row that is entered under a known key takes the place of
the one that is there (`lookup_enter`).
-/
namespace CpuLoad.Rows
variable {κ β : Type} [BEq κ]

/-- A value entered under a key, in place of the one it has or else at the end. -/
def enter (key : κ) (value : β) : List (κ × β) → List (κ × β)
  | [] => [(key, value)]
  | (k, v) :: rows => if k == key then (k, value) :: rows else (k, v) :: enter key value rows

theorem lookup_enter [LawfulBEq κ] (key other : κ) (value : β) (rows : List (κ × β)) :
    (enter key value rows).lookup other = if other == key then some value else rows.lookup other := by
  induction rows with
  | nil => grind [enter]
  | cons row rows ih =>
    obtain ⟨k, v⟩ := row
    grind [enter]

theorem mem_keys_enter [LawfulBEq κ] {key other : κ} {value : β} {rows : List (κ × β)} :
    other ∈ (enter key value rows).map Prod.fst ↔ other = key ∨ other ∈ rows.map Prod.fst := by
  induction rows with
  | nil => simp [enter]
  | cons row rows ih =>
    obtain ⟨k, v⟩ := row
    grind [enter]

/-- Entering a row leaves no key twice. -/
theorem nodup_keys_enter [LawfulBEq κ] {key : κ} {value : β} {rows : List (κ × β)} (once : (rows.map Prod.fst).Nodup) :
    ((enter key value rows).map Prod.fst).Nodup := by
  induction rows with
  | nil => exact List.pairwise_singleton ..
  | cons row rows ih =>
    obtain ⟨k, v⟩ := row
    obtain ⟨new, rest⟩ := List.nodup_cons.mp once
    by_cases own : k == key
    · rw [enter, if_pos own]
      exact once
    · rw [enter, if_neg own]
      refine List.nodup_cons.mpr ⟨fun member => ?_, ih rest⟩
      rcases mem_keys_enter.mp member with same | old
      · exact own (beq_iff_eq.mpr same)
      · exact new old

end CpuLoad.Rows
