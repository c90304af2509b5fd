import Sqlite4a.SQLiteStmt

/-!
# The cursor of a run

A run without step errors is over the rows `rs` that the query has when the run starts.  `AtRow v₀ rs h v` says that
`v` is where `h` calls of `sqlite3_step` lead from a statement `v₀` that no run is active on; `h = rs.length + 1` is
the state after `SQLITE_DONE`.
-/

namespace Sqlite4a

variable {Db : Type*}

/-! ### Single steps -/

namespace Vdbe

theorem rowOrDone_lt {rs : List Row} {k : Nat} (v : Vdbe Db) (hk : k < rs.length) :
    v.rowOrDone rs k =
      (.row, { v with phase := .active (some rs) (k + 1) none, pResultSet := some rs[k] }) := by
  simp only [rowOrDone, List.getElem?_eq_getElem hk]

theorem rowOrDone_le {rs : List Row} {k : Nat} (v : Vdbe Db) (hk : rs.length ≤ k) :
    v.rowOrDone rs k = (.done, { v with phase := .halted none, pResultSet := none }) := by
  simp only [rowOrDone, List.getElem?_eq_none hk]

theorem step_of_active {v : Vdbe Db} {t : Tick Db} {rs : List Row} {k : Nat} {rc : Option Failure}
    (hv : v.phase = .active (some rs) k rc) (ht : t.fail = none) : v.step t = v.rowOrDone rs k := by
  simp only [step, autoReset, exec, snapshot, pos, hv, ht, Option.getD_some]

/-- A step of a statement that no run is active on starts a run. -/
theorem step_of_idle {v : Vdbe Db} {t : Tick Db} (hv : v.busy = false) (ht : t.fail = none) :
    v.step t = v.rowOrDone (v.query v.aVar t.db) 0 := by
  cases hp : v.phase with
  | fresh => simp only [step, autoReset, exec, snapshot, pos, hp, ht, Option.getD_none]
  | active rows k rc => simp [busy, hp] at hv
  | halted rc =>
    simp only [step, autoReset, exec, snapshot, pos, hp, ht, reset, Option.getD_none, rowOrDone]

theorem rowOrDone_frame (rows : List Row) (k : Nat) (v : Vdbe Db) :
    (v.rowOrDone rows k).2.query = v.query ∧ (v.rowOrDone rows k).2.colName = v.colName ∧
      (v.rowOrDone rows k).2.aVar = v.aVar := by
  unfold rowOrDone
  split <;> exact ⟨rfl, rfl, rfl⟩

theorem autoReset_frame (v : Vdbe Db) :
    v.autoReset.query = v.query ∧ v.autoReset.colName = v.colName ∧ v.autoReset.aVar = v.aVar := by
  unfold autoReset
  split <;> exact ⟨rfl, rfl, rfl⟩

/-- A step never changes what the statement is, nor its parameters. -/
theorem step_frame (t : Tick Db) (v : Vdbe Db) :
    (v.step t).2.query = v.query ∧ (v.step t).2.colName = v.colName ∧ (v.step t).2.aVar = v.aVar := by
  have ha := v.autoReset_frame
  rw [← ha.1, ← ha.2.1, ← ha.2.2]
  unfold step exec
  split
  · exact ⟨rfl, rfl, rfl⟩
  · exact rowOrDone_frame _ _ _

end Vdbe

/-! ### A whole run -/

structure AtRow (v₀ : Vdbe Db) (rs : List Row) (h : Nat) (v : Vdbe Db) : Prop where
  query : v.query = v₀.query
  colName : v.colName = v₀.colName
  aVar : v.aVar = v₀.aVar
  start : h = 0 → v.busy = false
  running : 0 < h → h ≤ rs.length → v.phase = .active (some rs) h none
  ended : rs.length < h → v.phase = .halted none
  row : 0 < h → v.pResultSet = rs[h - 1]?

theorem AtRow.zero {v : Vdbe Db} (rs : List Row) (hv : v.busy = false) : AtRow v rs 0 v where
  query := rfl
  colName := rfl
  aVar := rfl
  start _ := hv
  running h := absurd h (Nat.lt_irrefl 0)
  ended h := absurd h (Nat.not_lt_zero _)
  row h := absurd h (Nat.lt_irrefl 0)

/-- One step of a run: a row while there is one, then `SQLITE_DONE`. -/
theorem AtRow.step {v₀ v : Vdbe Db} {rs : List Row} {h : Nat} {t : Tick Db} (hat : AtRow v₀ rs h v)
    (hle : h ≤ rs.length) (ht : t.fail = none) (hrs : h = 0 → v₀.query v₀.aVar t.db = rs) :
    (v.step t).1 = (if h < rs.length then .row else .done) ∧ AtRow v₀ rs (h + 1) (v.step t).2 := by
  have hstep : v.step t = v.rowOrDone rs h := by
    rcases Nat.eq_zero_or_pos h with h0 | hpos
    · subst h0
      rw [Vdbe.step_of_idle (hat.start rfl) ht, hat.query, hat.aVar, hrs rfl]
    · exact Vdbe.step_of_active (hat.running hpos hle) ht
  by_cases hlt : h < rs.length
  · rw [hstep, Vdbe.rowOrDone_lt v hlt, if_pos hlt]
    refine ⟨rfl, ?_⟩
    exact {
      query := hat.query
      colName := hat.colName
      aVar := hat.aVar
      start := fun h0 => absurd h0 (Nat.succ_ne_zero h)
      running := fun _ _ => rfl
      ended := fun hend => absurd hlt (by omega)
      row := fun _ => (List.getElem?_eq_getElem hlt).symm }
  · have hge : rs.length ≤ h := by omega
    rw [hstep, Vdbe.rowOrDone_le v hge, if_neg hlt]
    refine ⟨rfl, ?_⟩
    exact {
      query := hat.query
      colName := hat.colName
      aVar := hat.aVar
      start := fun h0 => absurd h0 (Nat.succ_ne_zero h)
      running := fun _ hle' => absurd hle' (by omega)
      ended := fun _ => rfl
      row := fun _ => (List.getElem?_eq_none hge).symm }

/-- Nothing is left to come after `SQLITE_DONE`. -/
theorem AtRow.stay {v₀ v : Vdbe Db} {rs : List Row} {h : Nat} (hat : AtRow v₀ rs h v) (hlt : rs.length < h) :
    AtRow v₀ rs (h + 1) v where
  query := hat.query
  colName := hat.colName
  aVar := hat.aVar
  start h0 := absurd h0 (Nat.succ_ne_zero h)
  running _ hle := absurd hle (by omega)
  ended _ := hat.ended hlt
  row _ := by
    rw [hat.row (by omega), List.getElem?_eq_none (by omega), List.getElem?_eq_none (by omega)]

/-! ### `select()` -/

/-- When `select()` returns an iterator, its flags are clear and no run is active on the statement. -/
theorem select_ok {v v' : Vdbe Db} {it : RowIterator} (hsel : select v = (.ok it, v')) :
    it = {} ∧ v'.busy = false ∧ v'.query = v.query ∧ v'.colName = v.colName ∧ v'.aVar = v.aVar := by
  unfold select nativeBusy at hsel
  by_cases hb : v.busy
  · simp only [hb, if_true, Int.zero_lt_one, nativeReset] at hsel
    split at hsel
    · rename_i heq
      obtain ⟨-, rfl⟩ := Prod.mk.inj heq
      obtain ⟨hit, rfl⟩ := Prod.mk.inj hsel
      exact ⟨(Except.ok.inj hit).symm, rfl, rfl, rfl, rfl⟩
    · cases (Prod.mk.inj hsel).1
  · simp only [hb, Bool.false_eq_true, if_false, Int.lt_irrefl] at hsel
    obtain ⟨hit, rfl⟩ := Prod.mk.inj hsel
    exact ⟨(Except.ok.inj hit).symm, by simpa using hb, rfl, rfl, rfl⟩

end Sqlite4a
