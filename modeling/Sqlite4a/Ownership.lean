import Sqlite4a.FailedStep

/-!
# Who closes what

Every object may be closed any number of times, and no object is used after its own `close()`.  That is not enough:
the pointer of a statement is shared by its `SQLiteStmt` and all its iterators, and a `SQLiteDb` remembers nothing of
its `close()`.  The runs that keep the ledger sound are those in which nothing reaches a statement after any of the
objects that share it was closed, and no database is closed twice (`ownership_iff_notReused`).
-/

namespace Sqlite4a

open Ledger (Event Sound)

variable {Db : Type*}

/-- Nothing is released twice, and nothing released is passed to SQLite again. -/
structure OwnedOnce (log : List (Event Res)) : Prop where
  once : ∀ r, log.count (.release r) ≤ 1
  live : Sound log

def StmtObj.pointer (o : StmtObj) : Option Nat × Bool := (o.mStmtPtr, o.closed)

def IterObj.pointer (o : IterObj) : Option Nat × Bool := (o.mStmtPtr, o.closed)

namespace World

/-- The pointers of all statement objects and iterators, with whether they have been closed. -/
def pointers (w : World Db) : List (Option Nat × Bool) :=
  w.stmtObjs.map StmtObj.pointer ++ w.iterObjs.map IterObj.pointer

/-- An object that holds this pointer has been closed. -/
def SharedClosed (w : World Db) (p : Nat) : Prop := (some p, true) ∈ w.pointers

instance (w : World Db) (p : Nat) : Decidable (w.SharedClosed p) :=
  inferInstanceAs (Decidable ((some p, true) ∈ w.pointers))

end World

/-- Calls as the contract of `Closeable` allows them: no `insert()` or `execute()` fails, and nothing but `close()` is
called on an object that has been closed. -/
def InScope (w : World Db) : Op Db → Prop
  | .open _ _ => True
  | .db _ .close => True
  | .db d (.prepare _ _) => ¬ w.heap.Released (.db d)
  | .db _ _ => False
  | .stmt _ .close => True
  | .stmt k (.insert t) => (∀ o, w.stmtObjs[k]? = some o → o.closed = false) ∧
      (call w (.stmt k (.insert t))).thrown = []
  | .stmt k (.execute t) =>
    (∀ o, w.stmtObjs[k]? = some o → o.closed = false) ∧ (call w (.stmt k (.execute t))).thrown = []
  | .stmt k _ => ∀ o, w.stmtObjs[k]? = some o → o.closed = false
  | .iter _ .close => True
  | .iter i _ => ∀ o, w.iterObjs[i]? = some o → o.closed = false
  | .traceEvent _ => False

/-- A call that reaches native code with a statement comes before all `close()` calls on objects that share it, and a
database is closed once. -/
def NotReused (w : World Db) : Op Db → Prop
  | .db d .close => ¬ w.heap.Released (.db d)
  | .stmt k call => call.native = true → ∀ o p, w.stmtObjs[k]? = some o → o.mStmtPtr = some p → ¬ w.SharedClosed p
  | .iter i call => ∀ o p, w.iterObjs[i]? = some o → call.native o.it = true → o.mStmtPtr = some p → ¬ w.SharedClosed p
  | _ => True

/-- The invariant: exactly the statements of closed objects have been finalized. -/
structure Owning (w : World Db) : Prop where
  wf : w.heap.Wf
  vdbes : w.vdbes.length = w.heap.stmts.length
  known : ∀ p b, (some p, b) ∈ w.pointers → p < w.heap.stmts.length
  closed : ∀ p, w.heap.Released (.stmt p) ↔ w.SharedClosed p

theorem owning_start (casts : Casts) : Owning (World.start casts : World Db) where
  wf := Heap.wf_empty
  vdbes := rfl
  known _ _ h := absurd h List.not_mem_nil
  closed _ := iff_of_false List.not_mem_nil List.not_mem_nil

/-! ### Pointers -/

/-- Closing the object at `k` leaves all closed pointers in the list, -/
private theorem closed_of_close {α : Type*} {l : List α} {f : α → Option Nat × Bool} {k q : Nat} {o a : α}
    (ho : l[k]? = some o) (ha : f a = ((f o).1, true)) (hx : (some q, true) ∈ l.map f) :
    (some q, true) ∈ (l.set k a).map f := by
  obtain ⟨y, hy, he⟩ := List.mem_map.1 hx
  obtain ⟨j, hj⟩ := List.mem_iff_getElem?.1 hy
  by_cases hkj : k = j
  · subst hkj
    rw [ho] at hj
    cases hj
    refine List.mem_map.2 ⟨a, List.mem_iff_getElem?.2 ⟨k, List.getElem?_set_self (lt_of_getElem? ho)⟩, ?_⟩
    rw [ha, he]
  · refine List.mem_map.2 ⟨y, List.mem_iff_getElem?.2 ⟨j, ?_⟩, he⟩
    rw [List.getElem?_set_ne hkj, hj]

/-- and adds no other than its own. -/
private theorem of_mem_close {α β : Type*} {l : List α} {k : Nat} {f : α → β} {x : β} {a : α}
    (hx : x ∈ (l.set k a).map f) : x ∈ l.map f ∨ x = f a := by
  obtain ⟨y, hy, rfl⟩ := List.mem_map.1 hx
  rcases List.mem_or_eq_of_mem_set hy with hy | rfl
  · exact .inl (List.mem_map_of_mem hy)
  · exact .inr rfl

private theorem mem_close {α β : Type*} {l : List α} {k : Nat} {f : α → β} {o : α} (a : α) (ho : l[k]? = some o) :
    f a ∈ (l.set k a).map f :=
  List.mem_map.2 ⟨a, List.mem_iff_getElem?.2 ⟨k, List.getElem?_set_self (lt_of_getElem? ho)⟩, rfl⟩

/-- Replacing an object by one with the same pointer changes no pointer. -/
private theorem map_set_same {α β : Type*} {l : List α} {k : Nat} {f : α → β} {o a : α} (ho : l[k]? = some o)
    (ha : f a = f o) : (l.set k a).map f = l.map f := by
  rw [List.map_set, ha]
  refine List.ext_getElem? fun j => ?_
  by_cases hkj : k = j
  · subst hkj
    rw [List.getElem?_set_self (by simpa using (lt_of_getElem? ho)), List.getElem?_map, ho]
    rfl
  · rw [List.getElem?_set_ne hkj]

theorem World.mem_pointers_newStmt {w : World Db} {ptr : Option Nat} {x : Option Nat × Bool} :
    x ∈ (w.stmtObjs ++ [StmtObj.mk ptr false]).map StmtObj.pointer ++ w.iterObjs.map IterObj.pointer ↔
      x ∈ w.pointers ∨ x = (ptr, false) := by
  simp only [pointers, List.map_append, List.mem_append, List.map_cons, List.map_nil, List.mem_singleton,
    StmtObj.pointer]
  tauto

theorem World.mem_pointers_newIter (w : World Db) (ptr : Option Nat) (it : RowIterator) {x : Option Nat × Bool} :
    x ∈ w.stmtObjs.map StmtObj.pointer ++ (w.iterObjs ++ [IterObj.mk ptr it false]).map IterObj.pointer ↔
      x ∈ w.pointers ∨ x = (ptr, false) := by
  simp only [pointers, List.map_append, List.mem_append, List.map_cons, List.map_nil, List.mem_singleton,
    IterObj.pointer, or_assoc]

/-- `close()` changes no pointer but that of its own object, which is then marked as closed. -/
theorem World.pointers_closeStmt {w : World Db} {k : Nat} {ptr : Option Nat} {b : Bool}
    (hobj : w.stmtObjs[k]? = some ⟨ptr, b⟩) :
    (∀ q, (some q, true) ∈ w.pointers →
      (some q, true) ∈ (w.stmtObjs.set k ⟨ptr, true⟩).map StmtObj.pointer ++ w.iterObjs.map IterObj.pointer) ∧
    ∀ q b', (some q, b') ∈ (w.stmtObjs.set k ⟨ptr, true⟩).map StmtObj.pointer ++ w.iterObjs.map IterObj.pointer →
      (some q, b') ∈ w.pointers ∨ (some q, b') = (ptr, true) := by
  constructor
  · intro q hm
    rcases List.mem_append.1 hm with hm | hm
    · exact List.mem_append_left _ (closed_of_close hobj rfl hm)
    · exact List.mem_append_right _ hm
  · intro q b' hm
    rcases List.mem_append.1 hm with hm | hm
    · exact (of_mem_close hm).imp_left (List.mem_append_left _)
    · exact .inl (List.mem_append_right _ hm)

theorem World.pointers_closeIter {w : World Db} {i : Nat} {o : IterObj} (hobj : w.iterObjs[i]? = some o) :
    (∀ q, (some q, true) ∈ w.pointers → (some q, true) ∈ w.stmtObjs.map StmtObj.pointer ++
      (w.iterObjs.set i { o with closed := true }).map IterObj.pointer) ∧
    ∀ q b, (some q, b) ∈ w.stmtObjs.map StmtObj.pointer ++
      (w.iterObjs.set i { o with closed := true }).map IterObj.pointer →
      (some q, b) ∈ w.pointers ∨ (some q, b) = (o.mStmtPtr, true) := by
  constructor
  · intro q hm
    rcases List.mem_append.1 hm with hm | hm
    · exact List.mem_append_left _ hm
    · exact List.mem_append_right _ (closed_of_close hobj rfl hm)
  · intro q b hm
    rcases List.mem_append.1 hm with hm | hm
    · exact .inl (List.mem_append_left _ hm)
    · exact (of_mem_close hm).imp_left (List.mem_append_right _)

/-- A step and a `next()` change the flags of an iterator only. -/
theorem World.pointers_setIter {w : World Db} {i : Nat} {o : IterObj} (hobj : w.iterObjs[i]? = some o)
    (it : RowIterator) : w.stmtObjs.map StmtObj.pointer ++
      (w.iterObjs.set i { o with it := it }).map IterObj.pointer = w.pointers := by
  have hsame := map_set_same (f := IterObj.pointer) (a := { o with it := it }) hobj rfl
  exact congrArg (w.stmtObjs.map StmtObj.pointer ++ ·) hsame

theorem Owning.step {w w' : World Db} (ho : Owning w) (hwf : w'.heap.Wf)
    (hvdbes : w'.vdbes.length = w'.heap.stmts.length) (hgrows : Heap.Grows w.heap w'.heap)
    (hold : ∀ p, (some p, true) ∈ w.pointers → (some p, true) ∈ w'.pointers)
    (hnew : ∀ p b, (some p, b) ∈ w'.pointers → (some p, b) ∈ w.pointers ∨
      p < w'.heap.stmts.length ∧ (b = true → w'.heap.Released (.stmt p)))
    (hrel : ∀ p, w'.heap.Released (.stmt p) → w.heap.Released (.stmt p) ∨ (some p, true) ∈ w'.pointers) :
        Owning w' where
  wf := hwf
  vdbes := hvdbes
  known p b hm := by
    rcases hnew p b hm with hm | ⟨hlt, _⟩
    · exact Nat.lt_of_lt_of_le (ho.known p b hm) hgrows.stmts.length_le
    · exact hlt
  closed p := by
    constructor
    · intro hr
      rcases hrel p hr with hr | hm
      · exact hold p ((ho.closed p).1 hr)
      · exact hm
    · intro hm
      rcases hnew p true hm with hm | ⟨_, himp⟩
      · exact hgrows.released ((ho.closed p).2 hm)
      · exact himp rfl

/-- Calls that leave the heap alone, apart from the ledger of uses, and close nothing. -/
theorem Owning.quiet {w w' : World Db} (ho : Owning w) {rs : List Res} (hwf : w'.heap.Wf)
    (hheap : w'.heap = w.heap.emit (rs.map .use)) (hvdbes : w'.vdbes.length = w.vdbes.length)
    (hold : ∀ p, (some p, true) ∈ w.pointers → (some p, true) ∈ w'.pointers)
    (hnew : ∀ p b, (some p, b) ∈ w'.pointers → (some p, b) ∈ w.pointers ∨ b = false ∧ p < w.heap.stmts.length) :
    Owning w' := by
  have hgrows : Heap.Grows w.heap w'.heap := by
    rw [hheap]
    exact Heap.grows_emit _ _
  have hstmts : w'.heap.stmts = w.heap.stmts := by rw [hheap]; rfl
  refine ho.step hwf (by rw [hvdbes, hstmts, ho.vdbes]) hgrows hold ?_ ?_
  · intro p b hm
    rcases hnew p b hm with hm | ⟨rfl, hlt⟩
    · exact .inl hm
    · exact .inr ⟨by rw [hstmts]; exact hlt, fun hf => nomatch hf⟩
  · intro p hr
    rw [hheap] at hr
    exact .inl (Heap.released_uses.1 hr)

/-! ### One call -/

theorem clean_of_notReused {w : World Db} {op : Op Db} (ho : Owning w) (hd : InScope w op) (hok : NotReused w op) :
    Clean w op := by
  intro r hr
  cases op with
  | «open» flags o => cases hr
  | db d call =>
    have hlive : ¬ w.heap.Released (.db d) := by
      cases call with
      | close => exact hok
      | prepare sql oc => exact hd
      | _ => exact hd.elim
    exact World.needs_db_live ho.wf hlive call r hr
  | stmt k call =>
    obtain ⟨o, p, hobj, hn, hptr, hr⟩ := mem_needs_stmt hr
    exact World.stmtNeeds_live ho.wf (fun hm => hok hn o p hobj hptr ((ho.closed p).1 hm)) r hr
  | iter i call =>
    obtain ⟨o, p, hobj, hn, hptr, hr⟩ := mem_needs_iter hr
    exact World.stmtNeeds_live ho.wf (fun hm => hok o p hobj hn hptr ((ho.closed p).1 hm)) r hr
  | traceEvent c => exact hd.elim

/-- In scope no call fails on the last statement of a closed connection, since none fails. -/
theorem not_failsOnLast {w : World Db} {op : Op Db} (hd : InScope w op) (hclean : Clean w op) :
    ¬ FailsOnLast w op := by
  rintro ⟨k, t, o, p, c, x, v, hop, hobj, hptr, hp, hx, hv, -, -, hne⟩
  have hlive : ∀ s : StmtCall Db, s.native = true → op = .stmt k s → o.closed = false → LiveStmt w k p c v := by
    intro s hs he hclosed
    have hneeds : op.needs w = [.stmt p, .conn c] := by
      rw [he]
      simp only [Op.needs, hobj, hs, if_true, World.stmtNeeds, hptr, hp]
    refine ⟨?_, hp, lt_of_getElem? hx, hv, hclean _ (by simp [hneeds]), hclean _ (by simp [hneeds])⟩
    rw [hobj, ← hptr, ← hclosed]
  rcases hop with rfl | rfl
  · obtain ⟨⟨m, hm⟩, -⟩ := failed_call (hlive _ rfl rfl (hd.1 o hobj)) hne (.inl rfl)
    rw [hd.2] at hm
    cases hm
  · obtain ⟨⟨m, hm⟩, -⟩ := failed_call (hlive _ rfl rfl (hd.1 o hobj)) hne (.inr rfl)
    rw [hd.2] at hm
    cases hm

/-- The heap at the start of a call that is handed nothing released. -/
theorem Owning.enter {w : World Db} (ho : Owning w) (op : Op Db) (hop : ∀ c, op ≠ .traceEvent c) (hclean : Clean w op) :
    (w.enter (op.needs w)).heap.Wf :=
  ho.wf.uses fun r hr => ⟨needs_has ho.wf hop r hr, hclean r hr⟩

theorem Owning.open {w : World Db} (ho : Owning w) (flags : Nat) (o : OpenOutcome)
    (hwf : (call w (.open flags o)).heap.Wf) : Owning (call w (.open flags o)) := by
  have hclean : Clean w (.open flags o) := fun _ hr => absurd hr List.not_mem_nil
  obtain ⟨hstmts, hrel⟩ := Heap.nativeOpen_stmts (ho.enter (.open flags o) (by simp) hclean) flags o
  have hgrows := grows_call w (.open flags o)
  rw [call_of_clean hclean] at hwf hgrows ⊢
  refine ho.step hwf ?_ hgrows (fun p hm => hm) (fun p b hm => .inl hm) ?_
  · show w.vdbes.length = (nativeOpen flags o (w.enter []).heap).2.stmts.length
    rw [show (nativeOpen flags o (w.enter []).heap).2.stmts = w.heap.stmts from hstmts, ho.vdbes]
  · exact fun p hr => .inl (World.released_enter.1 (hrel p hr))

theorem Owning.db {w : World Db} (ho : Owning w) {d : Nat} {dc : DbCall Db} (hd : InScope w (.db d dc))
    (hclean : Clean w (.db d dc)) (hwf : (call w (.db d dc)).heap.Wf) : Owning (call w (.db d dc)) := by
  have hgrows := grows_call w (.db d dc)
  have henter := ho.enter (.db d dc) (by simp) hclean
  rw [call_of_clean hclean] at hwf hgrows ⊢
  cases hx : w.heap.dbs[d]? with
  | none =>
    rw [World.perform_db_none (w := w.enter _) hx] at hwf ⊢
    exact ho.quiet hwf rfl rfl (fun p hm => hm) (fun p b hm => .inl hm)
  | some x =>
    have hlive : ¬ (w.enter (Op.needs w (.db d dc))).heap.Released (.db d) := by
      rw [World.released_enter]
      exact hclean _ (by simp [Op.needs, hx])
    have hold : ∀ p, (w.enter (Op.needs w (.db d dc))).heap.Released (.stmt p) → w.heap.Released (.stmt p) :=
      fun p hm => World.released_enter.1 hm
    rw [World.perform_db (w := w.enter _) hx] at hwf hgrows ⊢
    cases dc with
    | close =>
      obtain ⟨-, -, hstmts, -, -, hrel⟩ := Heap.nativeClose_spec henter hx hlive
      refine ho.step hwf ?_ hgrows (fun p hm => hm) (fun p b hm => .inl hm) fun p hr => .inl (hold p (hrel p hr))
      exact ho.vdbes.trans (congrArg List.length hstmts).symm
    | prepare sql oc =>
      cases oc with
      | failed f =>
        exact ho.step hwf ho.vdbes hgrows (fun p hm => hm) (fun p b hm => .inl hm) fun p hr => .inl (hold p hr)
      | empty =>
        refine ho.step hwf ?_ hgrows (fun p hm => World.mem_pointers_newStmt.2 (.inl hm)) (fun p b hm => ?_)
          fun p hr => .inl (hold p hr)
        · show (w.vdbes ++ []).length = w.heap.stmts.length
          rw [List.append_nil, ho.vdbes]
        · -- the new object has the null pointer
          rcases World.mem_pointers_newStmt.1 hm with hm | he
          · exact .inl hm
          · cases he
      | stmt v =>
        obtain ⟨y, hy, -⟩ := henter.openConn hx hlive
        rw [World.dbCall_prepare d hy] at hwf hgrows ⊢
        refine ho.step hwf ?_ hgrows (fun p hm => World.mem_pointers_newStmt.2 (.inl hm)) (fun p b hm => ?_)
          fun p hr => .inl (hold p (Heap.released_newStmt.1 hr))
        · show (w.vdbes ++ [v]).length = (w.heap.stmts ++ [x.handle]).length
          rw [List.length_append, List.length_append, ho.vdbes]
          rfl
        · rcases World.mem_pointers_newStmt.1 hm with hm | he
          · exact .inl hm
          · cases he
            refine .inr ⟨?_, fun hf => absurd hf Bool.false_ne_true⟩
            show w.heap.stmts.length < (w.heap.stmts ++ [x.handle]).length
            rw [List.length_append, List.length_singleton]
            exact Nat.lt_succ_self _
    | _ => exact hd.elim

/-- The pointer of a live object leads to a statement. -/
theorem Owning.stmt_of_pointer {w : World Db} (ho : Owning w) {p : Nat} {b : Bool} (hm : (some p, b) ∈ w.pointers) :
    ∃ c v, w.heap.stmts[p]? = some c ∧ w.vdbes[p]? = some v := by
  have hlt := ho.known p b hm
  exact ⟨_, _, List.getElem?_eq_getElem hlt, List.getElem?_eq_getElem (by rw [ho.vdbes]; exact hlt)⟩

/-- The `close()` of an object with the pointer `p`, the other objects being as they were. -/
theorem Owning.finalize {w w' : World Db} (ho : Owning w) {p c : Nat} {rs : List Res} (hwf : w'.heap.Wf)
    (henter : (w.enter rs).heap.Wf) (hp : w.heap.stmts[p]? = some c) (hlive : ¬ w.heap.Released (.stmt p))
    (hheap : w'.heap = (w.enter rs).heap.sqlite3Finalize p) (hvdbes : w'.vdbes = w.vdbes)
    (hgrows : Heap.Grows w.heap w'.heap) (hclosed : (some p, true) ∈ w'.pointers)
    (hold : ∀ q, (some q, true) ∈ w.pointers → (some q, true) ∈ w'.pointers)
    (hnew : ∀ q b, (some q, b) ∈ w'.pointers → (some q, b) ∈ w.pointers ∨ (some q, b) = (some p, true)) :
    Owning w' := by
  have hlive' : ¬ (w.enter rs).heap.Released (.stmt p) := fun hm => hlive (World.released_enter.1 hm)
  obtain ⟨-, hdr⟩ := Heap.sqlite3Finalize_spec henter (show (w.enter rs).heap.stmts[p]? = some c from hp) hlive'
  have hstmts : w'.heap.stmts = w.heap.stmts := by
    rw [hheap, hdr.stmts]
    rfl
  refine ho.step hwf (by rw [hvdbes, hstmts, ho.vdbes]) hgrows hold ?_ ?_
  · intro q b hm
    rcases hnew q b hm with hm | he
    · exact .inl hm
    · cases he
      refine .inr ⟨by rw [hstmts]; exact lt_of_getElem? hp, fun _ => ?_⟩
      rw [hheap]
      exact hdr.released
  · intro q hr
    rw [hheap] at hr
    rcases hdr.only _ hr with hr | he | he | ⟨_, _, he, _⟩
    · exact .inl (World.released_enter.1 hr)
    · cases he
      exact .inr hclosed
    · cases he
    · cases he

/-- The end of an `insert()` or `execute()` that has not thrown. -/
theorem World.complete_ok {w : World Db} (read : Registers → Int) (regs : Registers) {p c : Nat} {v : Vdbe Db}
    {t : Tick Db} (hdone : (v.step t).1 = .done) :
    (w.complete p c (stepToCompletion read t regs v)).heap = w.heap ∧
      (w.complete p c (stepToCompletion read t regs v)).vdbes.length = w.vdbes.length ∧
      (w.complete p c (stepToCompletion read t regs v)).pointers = w.pointers := by
  have hcode : (v.step t).1.code = SQLITE_DONE := StepResult.code_eq_done.2 hdone
  unfold complete stepToCompletion
  simp only [hcode, ne_eq, not_true_eq_false, if_false]
  exact ⟨trivial, List.length_set .., rfl⟩

/-- A call on an object that has the null pointer. -/
theorem Owning.nullStmt {w : World Db} (ho : Owning w) {rs : List Res} (henter : (w.enter rs).heap.Wf) {k : Nat}
    {b : Bool} (hobj : w.stmtObjs[k]? = some ⟨none, b⟩) (sc : StmtCall Db) :
    Owning ((w.enter rs).nullStmtCall k sc) := by
  cases sc with
  | bind index arg =>
    unfold World.nullStmtCall
    dsimp only
    split <;> exact ho.quiet henter rfl rfl (fun p hm => hm) (fun p b hm => .inl hm)
  | select =>
    refine ho.quiet henter rfl rfl (fun p hm => (World.mem_pointers_newIter w none {}).2 (.inl hm)) (fun p b hm => ?_)
    rcases (World.mem_pointers_newIter w none {}).1 hm with hm | he
    · exact .inl hm
    · cases he
  | close =>
    obtain ⟨hclose, hclosed⟩ := World.pointers_closeStmt hobj
    refine ho.quiet henter rfl rfl hclose (fun p b hm => ?_)
    rcases hclosed p b hm with hm | he
    · exact .inl hm
    · cases he
  | _ => exact ho.quiet henter rfl rfl (fun p hm => hm) (fun p b hm => .inl hm)

/-- In scope an `insert()` or `execute()` comes to its end. -/
theorem step_done_of_inScope {w : World Db} {k p c : Nat} {b : Bool} {v : Vdbe Db} {sc : StmtCall Db} {t : Tick Db}
    (hw : w.heap.Wf) (hobj : w.stmtObjs[k]? = some ⟨some p, b⟩) (hp : w.heap.stmts[p]? = some c)
    (hv : w.vdbes[p]? = some v) (hd : InScope w (.stmt k sc)) (hclean : Clean w (.stmt k sc))
    (hsc : sc = .insert t ∨ sc = .execute t) : (v.step t).1 = .done := by
  by_contra hne
  have hn : sc.native = true := by rcases hsc with rfl | rfl <;> rfl
  have hscope : b = false ∧ (call w (.stmt k sc)).thrown = [] := by
    rcases hsc with rfl | rfl <;> exact ⟨hd.1 _ hobj, hd.2⟩
  have hneeds : Op.needs w (.stmt k sc) = [.stmt p, .conn c] := by
    simp only [Op.needs, hobj, hn, if_true, World.stmtNeeds, hp]
  obtain ⟨x, hx, -⟩ := hw.core.stmt p c hp
  have hlive : LiveStmt w k p c v := ⟨by rw [hobj, hscope.1], hp, lt_of_getElem? hx, hv, hclean _ (by simp [hneeds]),
    hclean _ (by simp [hneeds])⟩
  obtain ⟨⟨m, hm⟩, -⟩ := failed_call hlive hne hsc
  rw [hscope.2] at hm
  cases hm

theorem Owning.stmt {w : World Db} (ho : Owning w) {k : Nat} {sc : StmtCall Db} (hd : InScope w (.stmt k sc))
    (hclean : Clean w (.stmt k sc)) (hwf : (call w (.stmt k sc)).heap.Wf) : Owning (call w (.stmt k sc)) := by
  have hgrows := grows_call w (.stmt k sc)
  have henter := ho.enter (.stmt k sc) (by simp) hclean
  rw [call_of_clean hclean] at hwf hgrows ⊢
  cases hobj : w.stmtObjs[k]? with
  | none =>
    rw [World.perform_stmt_none (w := w.enter _) hobj]
    exact ho.quiet henter rfl rfl (fun p hm => hm) (fun p b hm => .inl hm)
  | some o =>
    rcases o with ⟨ptr, closed⟩
    cases ptr with
    | none =>
      rw [World.perform_stmt_null (w := w.enter _) hobj]
      exact ho.nullStmt henter hobj sc
    | some p =>
      obtain ⟨c, v, hp, hv⟩ := ho.stmt_of_pointer (p := p) (b := closed)
        (List.mem_append_left _ (List.mem_map.2 ⟨_, List.mem_of_getElem? hobj, rfl⟩))
      rw [World.perform_stmt (w := w.enter _) hobj hp hv] at hwf hgrows ⊢
      cases sc with
      | bind index arg => exact ho.quiet hwf rfl (List.length_set ..) (fun p hm => hm) (fun p b hm => .inl hm)
      | clearBindings => exact ho.quiet hwf rfl (List.length_set ..) (fun p hm => hm) (fun p b hm => .inl hm)
      | insert t =>
        have hdone := step_done_of_inScope ho.wf hobj hp hv hd hclean (.inl rfl)
        obtain ⟨hheap, hlen, hpt⟩ := World.complete_ok (w := w.enter (Op.needs w (.stmt k (.insert t)))) (p := p)
            (c := c)
          (fun regs => regs.lastInsertRowid.toInt) (w.regs c) hdone
        exact ho.quiet hwf hheap hlen (fun q hm => hpt.symm ▸ hm) (fun q b hm => .inl (hpt ▸ hm))
      | execute t =>
        have hdone := step_done_of_inScope ho.wf hobj hp hv hd hclean (.inr rfl)
        obtain ⟨hheap, hlen, hpt⟩ := World.complete_ok (w := w.enter (Op.needs w (.stmt k (.execute t)))) (p := p)
            (c := c)
          (fun regs => regs.changes) (w.regs c) hdone
        exact ho.quiet hwf hheap hlen (fun q hm => hpt.symm ▸ hm) (fun q b hm => .inl (hpt ▸ hm))
      | select =>
        unfold World.stmtCall at hwf ⊢
        dsimp only at hwf ⊢
        split
        · rename_i it v' heq
          refine ho.quiet henter rfl (List.length_set ..)
              (fun q hm => (World.mem_pointers_newIter w (some p) it).2 (.inl hm))
            (fun q b hm => ?_)
          rcases (World.mem_pointers_newIter w (some p) it).1 hm with hm | he
          · exact .inl hm
          · -- the iterator shares the pointer of its statement
            cases he
            exact .inr ⟨rfl, lt_of_getElem? hp⟩
        · exact ho.quiet henter rfl (List.length_set ..) (fun p hm => hm) (fun p b hm => .inl hm)
      | close =>
        obtain ⟨hclose, hclosed⟩ := World.pointers_closeStmt hobj
        have hns : ¬ w.heap.Released (.stmt p) :=
          hclean _ (by simp [Op.needs, hobj, StmtCall.native, World.stmtNeeds, hp])
        refine ho.finalize hwf henter hp hns rfl rfl hgrows ?_ hclose hclosed
        exact List.mem_append_left _ (mem_close ⟨some p, true⟩ hobj)

theorem Owning.iter {w : World Db} (ho : Owning w) {i : Nat} {ic : IterCall Db} (hclean : Clean w (.iter i ic))
    (hwf : (call w (.iter i ic)).heap.Wf) : Owning (call w (.iter i ic)) := by
  have hgrows := grows_call w (.iter i ic)
  have henter := ho.enter (.iter i ic) (by simp) hclean
  rw [call_of_clean hclean] at hwf hgrows ⊢
  cases hobj : w.iterObjs[i]? with
  | none =>
    rw [World.perform_iter_none (w := w.enter _) hobj]
    exact ho.quiet henter rfl rfl (fun p hm => hm) (fun p b hm => .inl hm)
  | some o =>
    obtain ⟨hclose, hclosed⟩ := World.pointers_closeIter hobj
    cases hptr : o.mStmtPtr with
    | none =>
      rw [World.perform_iter_null (w := w.enter _) hobj hptr]
      cases ic with
      | close =>
        refine ho.quiet henter rfl rfl hclose (fun p b hm => ?_)
        rcases hclosed p b hm with hm | he
        · exact .inl hm
        · rw [hptr] at he
          cases he
      | _ => exact ho.quiet henter rfl rfl (fun p hm => hm) (fun p b hm => .inl hm)
    | some p =>
      have hmem : (some p, o.closed) ∈ w.pointers :=
        List.mem_append_right _ (List.mem_map.2 ⟨o, List.mem_of_getElem? hobj, by rw [← hptr]; rfl⟩)
      obtain ⟨c, v, hp, hv⟩ := ho.stmt_of_pointer hmem
      rw [World.perform_iter (w := w.enter _) hobj hptr hv] at hwf hgrows ⊢
      cases ic with
      | hasNext t =>
        have hsame : ((w.enter (Op.needs w (.iter i (.hasNext t)))).iterCall i p o v (.hasNext t)).pointers =
            w.pointers :=
          World.pointers_setIter hobj _
        exact ho.quiet henter rfl (List.length_set ..) (fun q hm => hsame.symm ▸ hm) (fun q b hm => .inl (hsame ▸ hm))
      | next =>
        have hsame : ((w.enter (Op.needs w (.iter i .next))).iterCall i p o v .next).pointers = w.pointers :=
          World.pointers_setIter hobj _
        exact ho.quiet henter rfl rfl (fun q hm => hsame.symm ▸ hm) (fun q b hm => .inl (hsame ▸ hm))
      | getColumn => exact ho.quiet henter rfl rfl (fun q hm => hm) (fun q b hm => .inl hm)
      | close =>
        have hns : ¬ w.heap.Released (.stmt p) :=
          hclean _ (by simp [Op.needs, hobj, IterCall.native, hptr, World.stmtNeeds, hp])
        have hpointer : IterObj.pointer { o with closed := true } = (some p, true) := by
          simp only [IterObj.pointer, hptr]
        refine ho.finalize hwf henter hp hns rfl rfl hgrows ?_ hclose (by rw [← hptr]; exact hclosed)
        exact List.mem_append_right _ (hpointer ▸ mem_close { o with closed := true } hobj)

/-- One call in scope that reuses nothing. -/
theorem owning_call {w : World Db} {op : Op Db} (ho : Owning w) (hd : InScope w op) (hok : NotReused w op) :
    Owning (call w op) := by
  have hclean := clean_of_notReused ho hd hok
  have hop : ∀ c, op ≠ .traceEvent c := by
    rintro c rfl
    exact hd
  have hwf := wf_call ho.wf (needs_has ho.wf hop) hclean (not_failsOnLast hd hclean)
  cases op with
  | «open» flags o => exact ho.open flags o hwf
  | db d dc => exact ho.db hd hclean hwf
  | stmt k sc => exact ho.stmt hd hclean hwf
  | iter i ic => exact ho.iter hclean hwf
  | traceEvent c => exact hd.elim

/-- A call that reuses a statement or closes a database again is handed something released. -/
theorem not_clean_of_reused {w : World Db} {op : Op Db} (ho : Owning w) (hok : ¬ NotReused w op) : ¬ Clean w op := by
  cases op with
  | «open» flags o => exact absurd trivial hok
  | db d dc =>
    cases dc with
    | close =>
      have hrel : w.heap.Released (.db d) := not_not.1 hok
      have hlt : d < w.heap.dbs.length := ho.wf.core.known _ hrel
      exact fun hclean => hclean (.db d) (by simp [Op.needs, List.getElem?_eq_getElem hlt]) hrel
    | _ => exact absurd trivial hok
  | stmt k sc =>
    simp only [NotReused, not_forall, not_not] at hok
    obtain ⟨hn, o, p, hobj, hptr, hsc⟩ := hok
    have hp := ho.known p true hsc
    refine fun hclean => hclean (.stmt p) ?_ ((ho.closed p).2 hsc)
    simp [Op.needs, hobj, hn, World.stmtNeeds, hptr, List.getElem?_eq_getElem hp]
  | iter i ic =>
    simp only [NotReused, not_forall, not_not] at hok
    obtain ⟨o, p, hobj, hn, hptr, hsc⟩ := hok
    have hp := ho.known p true hsc
    refine fun hclean => hclean (.stmt p) ?_ ((ho.closed p).2 hsc)
    simp [Op.needs, hobj, hn, World.stmtNeeds, hptr, List.getElem?_eq_getElem hp]
  | traceEvent c => exact absurd trivial hok

theorem Owning.ownedOnce {w : World Db} (ho : Owning w) : OwnedOnce w.heap.log where
  once := ho.wf.core.sound.count_release_le_one
  live := ho.wf.core.sound

/-- Over calls in scope nothing is released twice or used after its release exactly when no statement is used or
closed after the `close()` of an object that shares it, and no database is closed twice. -/
theorem ownership_iff_notReused (casts : Casts) (ops : List (Op Db))
    (hscope : Runs.Guarded call InScope (World.start casts) ops) :
    Runs.Always call (fun w => OwnedOnce w.heap.log) (World.start casts) ops ↔
      Runs.Guarded call NotReused (World.start casts) ops :=
  Runs.always_iff_guarded (I := Owning) (fun _ _ ho hd hok => owning_call ho hd hok) (fun _ ho => ho.ownedOnce)
    (fun _ _ ho _ hok h => not_sound_of_not_clean (not_clean_of_reused ho hok) h.live) (owning_start casts) hscope

/-- An iterator closed, and then its statement. -/
def closeBoth : List (Op Unit) :=
  [.open 6 (.opened false none), .db 0 (.prepare "SELECT 1" (.stmt (.prepared (fun _ _ => [[.integer 1]]) [[49]] 0))),
    .stmt 0 .select, .iter 0 .close, .stmt 0 .close]

theorem ownership_closeOnce :
    Runs.Guarded call InScope (World.start .ofIntegers) (closeBoth.take 4) ∧
      Runs.Always call (fun w => OwnedOnce w.heap.log) (World.start .ofIntegers) (closeBoth.take 4) := by
  have hscope : Runs.Guarded call InScope (World.start .ofIntegers) (closeBoth.take 4) := by
    refine ⟨trivial, ?_, fun o ho => ?_, trivial, trivial⟩
    · show ¬ Heap.Released _ _
      decide
    · cases ho
      rfl
  refine ⟨hscope, (ownership_iff_notReused .ofIntegers _ hscope).2 ⟨trivial, trivial, ?_, ?_, trivial⟩⟩
  · intro _ o p ho hp
    cases ho
    cases hp
    decide
  · intro o p ho _ hp
    cases ho
    cases hp
    decide

/-- Closing both finalizes the statement twice. -/
theorem not_ownedOnce_closeBoth :
    ¬ Runs.Always call (fun w => OwnedOnce w.heap.log) (World.start .ofIntegers) closeBoth := by
  intro h
  exact absurd h.last.live (by decide)

end Sqlite4a
