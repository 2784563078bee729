/-
The error screen is a whole screen.

Its seven keys go to different cells, so all of them are there (`errorScreen_perm`), and
together they cover the four rows and four columns without a gap and without an
overlap, whatever the heading, the detail and the catalog are (`errorScreen_covers`).
-/
import KeyLayout.KeyGrid.ErrorScreen
import KeyLayout.Proofs.KeyGrid.Calls

namespace KeyLayout

/-- Whether a placed key covers a cell. -/
def Placement.covers (p : Placement) (cell : Cell) : Bool :=
  p.row ≤ cell.row && cell.row < p.row + p.rowSpan && p.col ≤ cell.col &&
    cell.col < p.col + p.colSpan

namespace KeyGrid

variable (heading detail : String) (showOutputPanel : Bool) (catalog : Catalog)

/-- The calls that fill the error screen. -/
def errorCalls : List Call :=
  (errorKeys heading detail catalog).map fun (key, cell) => .place key cell

theorem errorScreen_eq :
    errorScreen heading detail showOutputPanel catalog =
      (ofTracks 4 4 showOutputPanel).after (errorCalls heading detail catalog) := by
  rw [errorScreen, after, errorCalls, List.foldl_map]
  rfl

theorem errorScreen_reflects :
    Reflects (ofTracks 4 4 showOutputPanel) (errorCalls heading detail catalog)
      (errorScreen heading detail showOutputPanel catalog) := by
  rw [errorScreen_eq]
  exact (Fresh.ofTracks 4 4 showOutputPanel).reflects.after _

/-- The keys of the error screen where they stand. -/
theorem errorScreen_perm :
    (errorScreen heading detail showOutputPanel catalog).placements.Perm
      ((errorKeys heading detail catalog).map fun (key, cell) => .of key cell) := by
  have hnodup : ((errorCalls heading detail catalog).map (·.placement.anchor)).Nodup := by
    show [(⟨0, 1⟩ : Cell), ⟨1, 0⟩, ⟨3, 3⟩, ⟨0, 0⟩, ⟨0, 3⟩, ⟨3, 0⟩, ⟨3, 1⟩].Nodup
    decide
  exact (errorScreen_reflects heading detail showOutputPanel catalog).placements_perm hnodup

theorem errorScreen_rowTracks :
    (errorScreen heading detail showOutputPanel catalog).rowTracks =
      List.replicate 4 (.star 1.0) :=
  (errorScreen_reflects heading detail showOutputPanel catalog).rowTracks

theorem errorScreen_colTracks :
    (errorScreen heading detail showOutputPanel catalog).colTracks =
      List.replicate 4 (.star 1.0) :=
  (errorScreen_reflects heading detail showOutputPanel catalog).colTracks

theorem errorScreen_outputRow :
    (errorScreen heading detail showOutputPanel catalog).outputRow =
      if showOutputPanel then ⟨true, .star 1.0⟩ else ⟨false, .pixel 0.0⟩ :=
  (errorScreen_reflects heading detail showOutputPanel catalog).outputRow

theorem rows_errorScreen : (errorScreen heading detail showOutputPanel catalog).rows = 4 := by
  rw [rows, errorScreen_rowTracks, List.length_replicate]

theorem cols_errorScreen : (errorScreen heading detail showOutputPanel catalog).cols = 4 := by
  rw [cols, errorScreen_colTracks, List.length_replicate]

theorem errorScreen_length :
    (errorScreen heading detail showOutputPanel catalog).placements.length = 7 :=
  (errorScreen_perm heading detail showOutputPanel catalog).length_eq

/-- The heading, the detail and the key that leads back are where they belong. -/
theorem errorScreen_at? :
    (errorScreen heading detail showOutputPanel catalog).at? ⟨0, 1⟩ =
      some (.of (.inert (.plain heading) 1 2) ⟨0, 1⟩) ∧
    (errorScreen heading detail showOutputPanel catalog).at? ⟨1, 0⟩ =
      some (.of (.inert (.plain detail) 2 4) ⟨1, 0⟩) ∧
    (errorScreen heading detail showOutputPanel catalog).at? ⟨3, 3⟩ =
      some (.of (backKey catalog) ⟨3, 3⟩) := by
  have h := (errorScreen_reflects heading detail showOutputPanel catalog).at?_eq
  exact ⟨h _, h _, h _⟩

/-- Every cell of the error screen is covered by one key, and no key goes beyond it. -/
theorem errorScreen_covers (cell : Cell) :
    (errorScreen heading detail showOutputPanel catalog).placements.countP (·.covers cell) =
      if 0 ≤ cell.row ∧ cell.row < 4 ∧ 0 ≤ cell.col ∧ cell.col < 4 then 1 else 0 := by
  rw [(errorScreen_perm heading detail showOutputPanel catalog).countP_eq]
  obtain ⟨row, col⟩ := cell
  split
  · -- on the screen there are sixteen cells, and each of them can be looked up
    rename_i h
    dsimp only at h
    have hrow : row = 0 ∨ row = 1 ∨ row = 2 ∨ row = 3 := by omega
    have hcol : col = 0 ∨ col = 1 ∨ col = 2 ∨ col = 3 := by omega
    rcases hrow with rfl | rfl | rfl | rfl <;> rcases hcol with rfl | rfl | rfl | rfl <;> rfl
  · -- no key goes beyond the screen
    rename_i h
    rw [List.countP_eq_zero]
    intro p hp hcovers
    dsimp only at h
    simp only [Placement.covers, Bool.and_eq_true, decide_eq_true_eq] at hcovers
    simp only [errorKeys, List.map_cons, List.map_nil, List.mem_cons, List.not_mem_nil,
      or_false] at hp
    rcases hp with rfl | rfl | rfl | rfl | rfl | rfl | rfl <;>
      simp only [Placement.of, Key.inert, backKey] at hcovers <;> omega

end KeyGrid

end KeyLayout
