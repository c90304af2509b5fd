import Sqlite4a.World

/-!
# A failed `insert()` or `execute()`

`nativeInsert` and `nativeExecute` finalize the statement when the step has not returned `SQLITE_DONE`, and the
`SQLiteStmt` goes on holding the pointer.  So after a failure no call on the object is legal any more, the `close()`
that its owner owes included.
-/

namespace Sqlite4a

open Ledger (Event Sound)

variable {Db : Type*}

/-- The `SQLiteStmt` number `k` holds the statement `p` of the connection `c`, which has not been finalized. -/
structure LiveStmt (w : World Db) (k p c : Nat) (v : Vdbe Db) : Prop where
  obj : w.stmtObjs[k]? = some ⟨some p, false⟩
  stmt : w.heap.stmts[p]? = some c
  conn : c < w.heap.conns.length
  vdbe : w.vdbes[p]? = some v
  stmtLive : ¬ w.heap.Released (.stmt p)
  connLive : ¬ w.heap.Released (.conn c)

/-- The calls of a later use of the statement, up to its `close()`. -/
def laterUse (k : Nat) (later : List (StmtCall Db)) : List (Op Db) := (later ++ [StmtCall.close]).map (Op.stmt k)

/-- What a failing call has to leave: one exception, a live statement with its parameters, and a `SQLiteStmt` that may
be used further and closed once. -/
structure LeavesUsable (w : World Db) (k p : Nat) (op : Op Db) : Prop where
  thrown : ∃ m, (call w op).thrown = [.sqlite m]
  live : ¬ (call w op).heap.Released (.stmt p)
  aVar : (call w op).vdbes[p]?.map Vdbe.aVar = w.vdbes[p]?.map Vdbe.aVar
  later : ∀ later : List (StmtCall Db), (∀ s ∈ later, s ≠ .close) →
    Sound (Runs.run call (call w op) (laterUse k later)).heap.log ∧
      (Runs.run call (call w op) (laterUse k later)).heap.log.count (.release (.stmt p)) = 1

theorem Heap.released_sqlite3Finalize {h : Heap} {p c : Nat} (hp : h.stmts[p]? = some c) (hc : c < h.conns.length) :
    (h.sqlite3Finalize p).Released (.stmt p) := by
  have hx : h.conns[c]? = some h.conns[c] := List.getElem?_eq_getElem hc
  unfold sqlite3Finalize
  simp only [hp, hx]
  refine released_closeZombie_of c (released_emit.2 (.inr ?_))
  exact List.mem_singleton_self _

/-- A step that does not return `SQLITE_DONE` is one exception and the end of the statement. -/
theorem stepToCompletion_failed (read : Registers → Int) (regs : Registers) {t : Tick Db} {v : Vdbe Db}
    (hfail : (v.step t).1 ≠ .done) :
    (stepToCompletion read t regs v).1 = .error (throwSqliteException (v.step t).1.errmsg none) ∧
      (stepToCompletion read t regs v).2.2 = none := by
  have hcode : (v.step t).1.code ≠ SQLITE_DONE := fun he => hfail (StepResult.code_eq_done.1 he)
  unfold stepToCompletion
  simp only [hcode, ne_eq, not_false_eq_true, if_true, and_self]

theorem World.complete_failed {w : World Db} (read : Registers → Int) (regs : Registers) {p c : Nat} {v : Vdbe Db}
    {t : Tick Db} (hp : w.heap.stmts[p]? = some c) (hc : c < w.heap.conns.length) (hfail : (v.step t).1 ≠ .done) :
    (w.complete p c (stepToCompletion read t regs v)).thrown = [throwSqliteException (v.step t).1.errmsg none] ∧
      (w.complete p c (stepToCompletion read t regs v)).heap.Released (.stmt p) := by
  obtain ⟨herr, hnone⟩ := stepToCompletion_failed read regs hfail
  unfold complete
  rw [hnone, herr]
  exact ⟨rfl, Heap.released_emit.2 (.inl (Heap.released_sqlite3Finalize hp hc))⟩

/-- A call on a live statement reaches native code with its pointer. -/
theorem call_liveStmt {w : World Db} {k p c : Nat} {v : Vdbe Db} (hl : LiveStmt w k p c v) (s : StmtCall Db)
    (hs : s.native = true) :
    call w (.stmt k s) = (w.enter [.stmt p, .conn c]).stmtCall k p c v s := by
  have hneeds : (Op.stmt k s).needs w = [.stmt p, .conn c] := by
    simp only [Op.needs, hl.obj, hs, if_true, World.stmtNeeds, hl.stmt]
  have hclean : Clean w (.stmt k s) := by
    intro r hr
    rw [hneeds] at hr
    rcases List.mem_cons.1 hr with rfl | hr
    · exact hl.stmtLive
    · obtain rfl := List.mem_singleton.1 hr
      exact hl.connLive
  have hobj : (w.enter [.stmt p, .conn c]).stmtObjs[k]? = some ⟨some p, false⟩ := hl.obj
  have hstmt : (w.enter [.stmt p, .conn c]).heap.stmts[p]? = some c := hl.stmt
  have hvdbe : (w.enter [.stmt p, .conn c]).vdbes[p]? = some v := hl.vdbe
  rw [call_of_clean hclean, hneeds]
  exact World.perform_stmt hobj hstmt hvdbe s

theorem failed_call {w : World Db} {k p c : Nat} {v : Vdbe Db} (hl : LiveStmt w k p c v) {t : Tick Db}
    (hfail : (v.step t).1 ≠ .done) {s : StmtCall Db} (hs : s = .insert t ∨ s = .execute t) :
    (∃ m, (call w (.stmt k s)).thrown = [.sqlite m]) ∧ (call w (.stmt k s)).heap.Released (.stmt p) := by
  have hstmt : (w.enter [.stmt p, .conn c]).heap.stmts[p]? = some c := hl.stmt
  have hconn : c < (w.enter [.stmt p, .conn c]).heap.conns.length := hl.conn
  rcases hs with rfl | rfl
  · rw [call_liveStmt hl _ rfl]
    obtain ⟨hthrown, hrel⟩ := World.complete_failed (fun regs => regs.lastInsertRowid.toInt) (w.regs c) hstmt hconn
      hfail
    exact ⟨⟨_, hthrown⟩, hrel⟩
  · rw [call_liveStmt hl _ rfl]
    obtain ⟨hthrown, hrel⟩ := World.complete_failed (fun regs => regs.changes) (w.regs c) hstmt hconn hfail
    exact ⟨⟨_, hthrown⟩, hrel⟩

/-- Once the statement has been finalized behind the object, closing the object is a second finalization. -/
theorem not_sound_close_of_released {w : World Db} {k p c : Nat} {o : StmtObj} (ho : w.stmtObjs[k]? = some o)
    (hptr : o.mStmtPtr = some p) (hp : w.heap.stmts[p]? = some c) (hrel : w.heap.Released (.stmt p))
    (later : List (StmtCall Db)) : ¬ Sound (Runs.run call w (laterUse k later)).heap.log := by
  induction later generalizing w o with
  | nil =>
    refine not_sound_of_not_clean fun hclean => hclean (.stmt p) ?_ hrel
    simp only [Op.needs, ho, StmtCall.native, if_true, World.stmtNeeds, hptr, hp, List.mem_cons, true_or]
  | cons s later ih =>
    obtain ⟨o', ho', hptr', -⟩ := stmtObj_call (.stmt k s) ho
    exact ih ho' (hptr'.trans hptr) ((grows_call w _).stmt hp) ((grows_call w _).released hrel)

/-- No failing `insert()` or `execute()` leaves its statement usable: it throws, but whatever is done with the object
until its `close()`, the ledger is not sound. -/
theorem failed_step_not_usable {w : World Db} {k p c : Nat} {v : Vdbe Db} (hl : LiveStmt w k p c v) {t : Tick Db}
    (hfail : (v.step t).1 ≠ .done) {s : StmtCall Db} (hs : s = .insert t ∨ s = .execute t) :
    ¬ LeavesUsable w k p (.stmt k s) ∧ (∃ m, (call w (.stmt k s)).thrown = [.sqlite m]) ∧
      ∀ later : List (StmtCall Db), ¬ Sound (Runs.run call (call w (.stmt k s)) (laterUse k later)).heap.log := by
  obtain ⟨hthrown, hrel⟩ := failed_call hl hfail hs
  refine ⟨fun h => h.live hrel, hthrown, fun later => ?_⟩
  obtain ⟨o, ho, hptr, -⟩ := stmtObj_call (.stmt k s) hl.obj
  exact not_sound_close_of_released ho hptr ((grows_call w _).stmt hl.stmt) hrel later

/-! ### A locked database -/

/-- A database with one prepared `INSERT`. -/
def oneInsert : World Unit :=
  Runs.run call { casts := .ofIntegers }
    [.open 6 (.opened false none), .db 0 (.prepare "INSERT INTO t VALUES (1)" (.stmt (.prepared (fun _ _ => []) [] 0)))]

theorem oneInsert_live : LiveStmt oneInsert 0 0 0 (.prepared (fun _ _ => []) [] 0) where
  obj := rfl
  stmt := rfl
  conn := by decide
  vdbe := rfl
  stmtLive := by decide
  connLive := by decide

theorem failed_step_not_usable_busy :
    ¬ LeavesUsable oneInsert 0 0 (.stmt 0 (.execute ⟨(), some .busy, none, none⟩)) ∧
      (∃ m, (call oneInsert (.stmt 0 (.execute ⟨(), some .busy, none, none⟩))).thrown = [.sqlite m]) ∧
      ∀ later, ¬ Sound (Runs.run call (call oneInsert (.stmt 0 (.execute ⟨(), some .busy, none, none⟩)))
        (laterUse 0 later)).heap.log :=
  failed_step_not_usable oneInsert_live (t := ⟨(), some .busy, none, none⟩) (by decide) (.inr rfl)

/-- An `insert()` that finds the database locked finalizes its statement. -/
theorem not_leavesUsable_busy : ¬ LeavesUsable oneInsert 0 0 (.stmt 0 (.insert ⟨(), some .busy, none, none⟩)) :=
  fun h => h.live (by decide)

end Sqlite4a
