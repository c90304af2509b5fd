import Sqlite4a.Binary64
import Sqlite4a.RowIterator
import Sqlite4a.SQLiteDb

/-!
# `execForNumber`

`nativeExecForDouble` prepares, steps once, reads the first column as a `double` and finalizes.  Of the three classes
of what `sqlite3_step` returns it knows only `SQLITE_ROW`: a step that fails reads like one that found no row, with the
answer 0 (`neverHides_iff`).  The finalization is right in every case.  An integer goes through binary64, so
`longValue()` gives back exactly those that binary64 can carry (`longValue_iff_exact`).
-/

namespace Sqlite4a

open Ledger (Event)

variable {Db : Type*} (casts : Casts)

/-- The Java `double` becomes the `Number`. -/
def execForNumber (c : Nat) (sql : String) (o : PrepareOutcome Db) (t : Tick Db) (h : Heap) :
    Except JavaException Double × Heap := nativeExecForDouble casts c sql o t h

/-! ### Failures -/

/-- What the one `sqlite3_step` returns; the null pointer gives `SQLITE_MISUSE`. -/
def stepCode (o : PrepareOutcome Db) (t : Tick Db) : Int :=
  match o with
  | .stmt v => (v.step t).1.code
  | _ => SQLITE_MISUSE

/-- The first column of the first row, as `getColumnDouble(0)` would read it, or 0. -/
def firstNumber (o : PrepareOutcome Db) (t : Tick Db) : Double :=
  match o with
  | .stmt v =>
    match (v.query v.aVar t.db).head? with
    | some row => (rowView casts v (some row)).getColumnDouble 0
    | none => 0
  | _ => 0

/-- The statements that `sqlite3_finalize` has been called for. -/
def finalized (log : List (Event Res)) : List Nat :=
  log.filterMap fun
    | .release (.stmt p) => some p
    | _ => none

/-- The statement that the call prepares. -/
def preparedStmt (o : PrepareOutcome Db) (h : Heap) : List Nat :=
  match o with
  | .stmt _ => [h.stmts.length]
  | _ => []

/-- An exception is thrown for every failure and for nothing else, the answer is the number asked for otherwise, and
what has been prepared is finalized. -/
structure NeverHides (c : Nat) (sql : String) (o : PrepareOutcome Db) (t : Tick Db) (h : Heap) : Prop where
  raises : (∃ message, (execForNumber casts c sql o t h).1 = .error (.sqlite message)) ↔
    (∃ f, o = .failed f) ∨ stepCode o t ≠ SQLITE_ROW ∧ stepCode o t ≠ SQLITE_DONE
  answer : stepCode o t = SQLITE_ROW ∨ stepCode o t = SQLITE_DONE →
    (execForNumber casts c sql o t h).1 = .ok (firstNumber casts o t)
  finalizes : finalized (execForNumber casts c sql o t h).2.log = finalized h.log ++ preparedStmt o h

theorem finalized_append (log es : List (Event Res)) : finalized (log ++ es) = finalized log ++ finalized es :=
  List.filterMap_append

theorem finalized_emit (es : List (Event Res)) (h : Heap) :
    finalized (h.emit es).log = finalized h.log ++ finalized es :=
  finalized_append h.log es

theorem finalized_newStmt (c : Nat) (x : Conn) (h : Heap) : finalized (h.newStmt c x).log = finalized h.log :=
  (finalized_append h.log _).trans (List.append_nil _)

theorem finalized_closeZombie (c : Nat) (h : Heap) : finalized (h.closeZombie c).log = finalized h.log := by
  unfold Heap.closeZombie
  split
  · split
    · -- only references and the connection itself are released
      rw [finalized_emit, finalized_append]
      simp [finalized, List.filterMap_map]
    · rfl
  · rfl

theorem finalized_sqlite3Finalize {p c : Nat} {x : Conn} {h : Heap} (hp : h.stmts[p]? = some c)
    (hx : h.conns[c]? = some x) : finalized (h.sqlite3Finalize p).log = finalized h.log ++ [p] := by
  have hval : h.sqlite3Finalize p = (h.dropStmt p c x).closeZombie c := by
    simp only [Heap.sqlite3Finalize, hp, hx]
  rw [hval, finalized_closeZombie]
  exact finalized_append _ _

/-- In every case the statements finalized are those prepared. -/
theorem execForNumber_finalizes {c : Nat} {h : Heap} (hc : c < h.conns.length) (sql : String) (o : PrepareOutcome Db)
    (t : Tick Db) :
    finalized (execForNumber casts c sql o t h).2.log = finalized h.log ++ preparedStmt o h := by
  cases o with
  | failed f => exact (List.append_nil _).symm
  | empty => exact (List.append_nil _).symm
  | stmt v =>
    have hx : h.conns[c]? = some h.conns[c] := List.getElem?_eq_getElem hc
    have hval : (execForNumber casts c sql (.stmt v) t h).2 =
        ((h.newStmt c h.conns[c]).emit [.use (.stmt h.stmts.length)]).sqlite3Finalize h.stmts.length := by
      simp only [execForNumber, nativeExecForDouble, nativePrepare, hx]
    have hconn : (h.newStmt c h.conns[c]).conns[c]? =
        some { h.conns[c] with pVdbe := h.stmts.length :: h.conns[c].pVdbe } := List.getElem?_set_self hc
    have hstmt : (h.newStmt c h.conns[c]).stmts[h.stmts.length]? = some c := List.getElem?_concat_length
    generalize hnew : (h.newStmt c h.conns[c]).emit [.use (.stmt h.stmts.length)] = h' at hval
    have hlog : finalized h'.log = finalized h.log := by
      rw [← hnew, finalized_emit, finalized_newStmt]
      exact List.append_nil _
    rw [hval, finalized_sqlite3Finalize (by rw [← hnew]; exact hstmt) (by rw [← hnew]; exact hconn), hlog]
    rfl

theorem execForNumber_stmt (c : Nat) (sql : String) (v : Vdbe Db) (t : Tick Db) (h : Heap) :
    (execForNumber casts c sql (.stmt v) t h).1 = .ok (stepForDouble casts (.stmt v) t) := by
  unfold execForNumber nativeExecForDouble nativePrepare
  cases h.conns[c]? <;> rfl

/-- The one step of a new statement. -/
theorem step_fresh {v : Vdbe Db} (hv : v.phase = .fresh) (t : Tick Db) :
    (∃ f, t.fail = some f ∧ (v.step t).1 = .error f) ∨
      (∃ row, t.fail = none ∧ (v.query v.aVar t.db).head? = some row ∧ (v.step t).1 = .row ∧
        (v.step t).2.colName = v.colName ∧ (v.step t).2.pResultSet = some row) ∨
      t.fail = none ∧ (v.query v.aVar t.db).head? = none ∧ (v.step t).1 = .done := by
  have hauto : v.autoReset = v := by simp only [Vdbe.autoReset, hv]
  have hexec : v.step t = v.exec t := by rw [Vdbe.step, hauto]
  rw [hexec]
  cases hf : t.fail with
  | some f => exact .inl ⟨f, rfl, by simp only [Vdbe.exec, hf]⟩
  | none =>
    have hrun : v.exec t = v.rowOrDone (v.query v.aVar t.db) 0 := by
      simp only [Vdbe.exec, hf, Vdbe.snapshot, Vdbe.pos, hv, Option.getD_none]
    rw [hrun]
    cases hq : v.query v.aVar t.db with
    | nil => exact .inr (.inr ⟨rfl, rfl, rfl⟩)
    | cons row rows => exact .inr (.inl ⟨row, rfl, rfl, rfl, rfl, rfl⟩)

theorem stepCode_fresh {v : Vdbe Db} (hv : v.phase = .fresh) (t : Tick Db) :
    stepCode (.stmt v) t = SQLITE_ROW ∨ stepCode (.stmt v) t = SQLITE_DONE ↔ t.fail = none := by
  have hcode : stepCode (.stmt v) t = (v.step t).1.code := rfl
  rw [hcode]
  rcases step_fresh hv t with ⟨f, hf, hstep⟩ | ⟨_, hf, _, hstep, _⟩ | ⟨hf, _, hstep⟩
  · rw [hstep, hf]
    exact iff_of_false (fun h => h.elim f.isError.2.1 f.isError.2.2) (by simp)
  · rw [hstep, hf]
    exact iff_of_true (.inl rfl) rfl
  · rw [hstep, hf]
    exact iff_of_true (.inr rfl) rfl

/-- Without a failure the answer is the one asked for. -/
theorem stepForDouble_fresh {v : Vdbe Db} (hv : v.phase = .fresh) {t : Tick Db} (ht : t.fail = none) :
    stepForDouble casts (.stmt v) t = firstNumber casts (.stmt v) t := by
  rcases step_fresh hv t with ⟨f, hf, _⟩ | ⟨row, _, hq, hstep, hcol, hrow⟩ | ⟨_, hq, hstep⟩
  · rw [ht] at hf
    cases hf
  · simp only [stepForDouble, firstNumber, hq]
    rw [if_pos (by rw [hstep]; rfl)]
    simp only [rowView, readRow, nativeGetColumnDouble, Vdbe.columnDouble, Vdbe.columnMem, hcol, hrow]
  · simp only [stepForDouble, firstNumber, hq]
    rw [if_neg (by rw [hstep]; decide)]

/-- The law holds where the preparation fails, and where there is a statement whose step does not fail. -/
theorem neverHides_iff {c : Nat} {h : Heap} (hc : c < h.conns.length) (sql : String) {o : PrepareOutcome Db}
    (hfresh : ∀ v, o = .stmt v → v.phase = .fresh) (t : Tick Db) :
    NeverHides casts c sql o t h ↔ (∃ f, o = .failed f) ∨ (∃ v, o = .stmt v) ∧ t.fail = none := by
  have hfin := execForNumber_finalizes casts hc sql o t
  have hmisuse : SQLITE_MISUSE ≠ SQLITE_ROW ∧ SQLITE_MISUSE ≠ SQLITE_DONE := ⟨by decide, by decide⟩
  cases o with
  | failed f =>
    have hcode : ¬ (stepCode (.failed f) t = SQLITE_ROW ∨ stepCode (.failed f) t = SQLITE_DONE) :=
      not_or.2 hmisuse
    exact iff_of_true ⟨iff_of_true ⟨_, rfl⟩ (.inl ⟨f, rfl⟩), fun h => absurd h hcode, hfin⟩ (.inl ⟨f, rfl⟩)
  | empty =>
    -- the null statement is not told from one without a row
    refine iff_of_false (fun hnh => ?_) (by simp)
    obtain ⟨message, hm⟩ := hnh.raises.2 (.inr hmisuse)
    cases hm
  | stmt v =>
    have hok := execForNumber_stmt casts c sql v t h
    have hreturns : ¬ ∃ message, (execForNumber casts c sql (.stmt v) t h).1 = .error (.sqlite message) := by
      rw [hok]
      rintro ⟨message, hm⟩
      cases hm
    have hcode := stepCode_fresh (hfresh v rfl) t
    constructor
    · intro hnh
      refine .inr ⟨⟨v, rfl⟩, hcode.1 ?_⟩
      by_contra hother
      exact hreturns (hnh.raises.2 (.inr (not_or.1 hother)))
    · rintro (⟨f, hf⟩ | ⟨-, ht⟩)
      · cases hf
      · refine ⟨iff_of_false hreturns ?_, fun _ => ?_, hfin⟩
        · rintro (⟨f, hf⟩ | hother)
          · cases hf
          · exact not_or.2 hother (hcode.2 ht)
        · rw [hok, stepForDouble_fresh casts (hfresh v rfl) ht]

/-- `SELECT n`. -/
def selectInteger (n : Int64) : PrepareOutcome Unit := .stmt (.prepared (fun _ _ => [[.integer n]]) [[110]] 0)

theorem neverHides_iff_selectSeven :
    NeverHides Casts.ofIntegers 0 "SELECT 7" (selectInteger 7) ⟨(), none, none, none⟩ (Heap.newConn {}) :=
  (neverHides_iff Casts.ofIntegers (h := Heap.newConn {}) (by decide) "SELECT 7"
    (fun v hv => by cases hv; rfl) ⟨(), none, none, none⟩).2 (.inr ⟨⟨_, rfl⟩, rfl⟩)

/-- `SELECT a FROM t` over the rows of `t`. -/
def selectColumn : PrepareOutcome (List Row) := .stmt (.prepared (fun _ t => t) [[97]] 0)

/-- On a locked database the answer is 0. -/
theorem not_neverHides_busy :
    (execForNumber Casts.ofIntegers 0 "SELECT a FROM t" selectColumn ⟨[[.integer 7]], some .busy, none, none⟩
        (Heap.newConn {})).1 = .ok 0 ∧
      ¬ NeverHides Casts.ofIntegers 0 "SELECT a FROM t" selectColumn ⟨[[.integer 7]], some .busy, none, none⟩
        (Heap.newConn {}) := by
  have hzero : (execForNumber Casts.ofIntegers 0 "SELECT a FROM t" selectColumn
      ⟨[[.integer 7]], some .busy, none, none⟩ (Heap.newConn {})).1 = .ok 0 := rfl
  refine ⟨hzero, fun hnh => ?_⟩
  obtain ⟨message, hm⟩ := hnh.raises.2 (.inr ⟨by decide, by decide⟩)
  rw [hzero] at hm
  cases hm

/-! ### Integers -/

/-- The conversion of an integer to a `double` is that of binary64. -/
def Casts.binary64 : Casts := { casts with intReal := Binary64.ofInt64 }

/-- `longValue()` of the `Double` that `execForNumber` returns. -/
def longValue (reply : Except JavaException Double) : Except JavaException Int64 := reply.map Binary64.toInt64

/-- An integer in the first column of the first row is returned exactly where it has at most 53 significant bits, or is
the greatest one. -/
theorem longValue_iff_exact (c : Nat) (sql : String) {v : Vdbe Db} {t : Tick Db} (h : Heap) {n : Int64}
    (hrow : (v.step t).1 = .row) (hn : (v.step t).2.columnMem 0 = .integer n) :
    longValue (execForNumber casts.binary64 c sql (.stmt v) t h).1 = .ok n ↔
      Binary64.Exact n.toInt.natAbs ∨ n = Int64.maxValue := by
  have hdouble : stepForDouble casts.binary64 (.stmt v) t = Binary64.ofInt64 n := by
    simp only [stepForDouble]
    rw [if_pos (by rw [hrow]; rfl), Vdbe.columnDouble, hn]
    rfl
  rw [execForNumber_stmt, hdouble, ← Binary64.toInt64_ofInt64_eq_iff]
  simp [longValue, Except.map]

theorem longValue_iff_exact_userVersion :
    longValue (execForNumber Casts.ofIntegers.binary64 0 "PRAGMA user_version;" (selectInteger 123)
      ⟨(), none, none, none⟩ (Heap.newConn {})).1 = .ok 123 :=
  (longValue_iff_exact Casts.ofIntegers 0 "PRAGMA user_version;" (Heap.newConn {}) rfl rfl).2
    (.inl ⟨123, 0, by decide, by decide⟩)

/-- 2^53 + 1 comes back as 2^53. -/
theorem not_longValue_odd :
    longValue (execForNumber Casts.ofIntegers.binary64 0 "SELECT 9007199254740993" (selectInteger 9007199254740993)
      ⟨(), none, none, none⟩ (Heap.newConn {})).1 ≠ .ok 9007199254740993 := by
  have hback : Binary64.toInt64 (Binary64.ofInt64 9007199254740993) = 9007199254740992 := by
    rw [Binary64.toInt64_ofInt64]
    decide
  have hreply : longValue (execForNumber Casts.ofIntegers.binary64 0 "SELECT 9007199254740993"
      (selectInteger 9007199254740993) ⟨(), none, none, none⟩ (Heap.newConn {})).1 =
      .ok (Binary64.toInt64 (Binary64.ofInt64 9007199254740993)) := rfl
  rw [hreply, hback]
  decide

end Sqlite4a
