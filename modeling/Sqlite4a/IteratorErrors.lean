import Sqlite4a.Runs
import Sqlite4a.Cursor

/-!
# Step errors under a `RowIterator`

A session is an iterator with its statement and the answers given so far, newest first.  `Honest` says what the
answers may be: a failed step makes `hasNext()` throw, `false` means that `SQLITE_DONE` was reached and is final, and
no row is handed out twice.  `nativeStep` passes the result code on without looking at it and `hasNext()` compares it
with two codes only, so a failed step reads as the end of the rows: the sessions that stay honest are those in which
no step fails before `SQLITE_DONE` (`honest_iff_stepsSucceed`).
-/

namespace Sqlite4a

variable {Db : Type*}

inductive Ask (Db : Type*)
  | hasNext (t : Tick Db)
  | next

/-- What the caller got, with the result of the step that the call made, or the number of the row it handed out. -/
inductive Answer
  | hasNext (stepped : Option StepResult) (reply : Except JavaException Bool)
  | next (reply : Except JavaException Unit) (row : Nat)

structure Session (Db : Type*) where
  it : RowIterator
  stmt : Vdbe Db
  past : List Answer

/-- A session of a new iterator. -/
def Session.start (v : Vdbe Db) : Session Db := ⟨{}, v, []⟩

def ask (s : Session Db) : Ask Db → Session Db
  | .hasNext t =>
    let (reply, it, v) := s.it.hasNext t s.stmt
    let stepped := if s.it.mDone then none else some (s.stmt.step t).1
    ⟨it, v, .hasNext stepped reply :: s.past⟩
  | .next => ⟨s.it.next.2, s.stmt, .next s.it.next.1 (s.stmt.pos - 1) :: s.past⟩

/-- `hasNext()` has answered `false`. -/
def SaidEnd (past : List Answer) : Prop := ∃ stepped, .hasNext stepped (.ok false) ∈ past

/-- A step has returned `SQLITE_DONE`. -/
def SawDone (past : List Answer) : Prop := ∃ reply, .hasNext (some .done) reply ∈ past

/-- What an answer may be after the earlier ones. -/
def Answer.honestAfter (earlier : List Answer) : Answer → Prop
  | .hasNext stepped reply =>
    (∀ f, stepped = some (.error f) → ∃ m, reply = .error (.sqlite m)) ∧
      (reply = .ok false → stepped = some .done ∨ SawDone earlier) ∧
      (SaidEnd earlier → stepped = none ∧ reply = .ok false)
  | .next reply row => reply = .ok () → .next (.ok ()) row ∉ earlier

def Honest : List Answer → Prop
  | [] => True
  | a :: earlier => a.honestAfter earlier ∧ Honest earlier

/-- The step of this call, if it makes one, does not fail. -/
def StepSucceeds (s : Session Db) : Ask Db → Prop
  | .hasNext t => s.it.mDone = true ∨ t.fail = none
  | .next => True

/-! ### Steps that succeed -/

/-- A step that does not fail returns the next row or ends the run. -/
theorem Vdbe.step_cases {v : Vdbe Db} {t : Tick Db} (ht : t.fail = none) :
    ((v.step t).1 = .row ∧ (v.step t).2.pos = v.pos + 1) ∨ (v.step t).1 = .done := by
  have hpos : v.autoReset.pos = v.pos := by
    cases hp : v.phase <;> simp [autoReset, pos, reset, hp]
  unfold step exec
  rw [ht]
  dsimp only
  rw [hpos]
  rcases Nat.lt_or_ge v.pos (v.autoReset.snapshot.getD (v.autoReset.query v.autoReset.aVar t.db)).length with h | h
  · rw [rowOrDone_lt _ h]
    exact .inl ⟨rfl, rfl⟩
  · rw [rowOrDone_le _ h]
    exact .inr rfl

/-- The invariant of a session in which no step has failed. -/
structure Session.Sound (s : Session Db) : Prop where
  honest : Honest s.past
  handedOut : ∀ row, .next (.ok ()) row ∈ s.past → s.it.mDone = false →
    row < if s.it.mHasNext then s.stmt.pos - 1 else s.stmt.pos
  pending : s.it.mHasNext = true → s.it.mDone = false ∧ 0 < s.stmt.pos
  done : s.it.mDone = true → SawDone s.past
  saidEnd : SaidEnd s.past → s.it.mDone = true

theorem sound_start (v : Vdbe Db) : (Session.start v).Sound where
  honest := trivial
  handedOut _ h := absurd h List.not_mem_nil
  pending h := absurd h Bool.false_ne_true
  done h := absurd h Bool.false_ne_true
  saidEnd h := absurd h.choose_spec List.not_mem_nil

theorem saidEnd_cons {a : Answer} {past : List Answer} (h : SaidEnd (a :: past)) :
    (∃ stepped, a = .hasNext stepped (.ok false)) ∨ SaidEnd past := by
  obtain ⟨stepped, hm⟩ := h
  rcases List.mem_cons.1 hm with rfl | hm
  · exact .inl ⟨stepped, rfl⟩
  · exact .inr ⟨stepped, hm⟩

theorem sawDone_cons {a : Answer} {past : List Answer} (h : SawDone past) : SawDone (a :: past) :=
  h.imp fun _ hm => List.mem_cons_of_mem a hm

/-- What `hasNext()` does when it steps the statement. -/
theorem ask_hasNext_step {s : Session Db} {t : Tick Db} (hd : s.it.mDone = false) :
    ask s (.hasNext t) =
      ⟨⟨(s.stmt.step t).1 == .row, (s.stmt.step t).1 == .done⟩, (s.stmt.step t).2,
        .hasNext (some (s.stmt.step t).1) (.ok ((s.stmt.step t).1 == .row)) :: s.past⟩ := by
  have hrow : ((s.stmt.step t).1.code == SQLITE_ROW) = ((s.stmt.step t).1 == .row) := by
    rw [Bool.eq_iff_iff, beq_iff_eq, beq_iff_eq]; exact StepResult.code_eq_row
  have hdone : ((s.stmt.step t).1.code == SQLITE_DONE) = ((s.stmt.step t).1 == .done) := by
    rw [Bool.eq_iff_iff, beq_iff_eq, beq_iff_eq]; exact StepResult.code_eq_done
  simp only [ask, RowIterator.hasNext, hd, Bool.false_eq_true, if_false, nativeStep, hrow, hdone]
  cases (s.stmt.step t).1 <;> rfl

/-- After the end `hasNext()` answers `false` and does not step. -/
theorem ask_hasNext_done {s : Session Db} {t : Tick Db} (hd : s.it.mDone = true) :
    ask s (.hasNext t) = ⟨s.it, s.stmt, .hasNext none (.ok false) :: s.past⟩ := by
  simp only [ask, RowIterator.hasNext, hd, if_true, Bool.not_true, Bool.false_and]

/-- Where an answer is not the end, the end is what an earlier answer said. -/
theorem mDone_of_saidEnd {s : Session Db} {a : Answer} (hs : s.Sound) (ha : ∀ stepped, a ≠ .hasNext stepped (.ok false))
    (h : SaidEnd (a :: s.past)) : s.it.mDone = true := by
  rcases saidEnd_cons h with ⟨stepped, he⟩ | h
  · exact absurd he (ha stepped)
  · exact hs.saidEnd h

/-- `hasNext()` after the end. -/
theorem Session.Sound.afterEnd {s : Session Db} (hs : s.Sound) (hd : s.it.mDone = true) :
    Session.Sound ⟨s.it, s.stmt, .hasNext none (.ok false) :: s.past⟩ where
  honest := by
    refine ⟨⟨?_, fun _ => .inr (hs.done hd), fun _ => ⟨rfl, rfl⟩⟩, hs.honest⟩
    intro f hf
    cases hf
  handedOut row hm hd' := absurd (hd.symm.trans hd').symm Bool.false_ne_true
  pending hp := by
    have hnd := (hs.pending hp).1
    exact absurd (hd.symm.trans hnd).symm Bool.false_ne_true
  done _ := sawDone_cons (hs.done hd)
  saidEnd _ := hd

/-- `hasNext()` with a step that returns the next row. -/
theorem Session.Sound.atRow {s : Session Db} (hs : s.Sound) (hd : s.it.mDone = false) {v : Vdbe Db}
    (hpos : v.pos = s.stmt.pos + 1) : Session.Sound ⟨⟨true, false⟩, v, .hasNext (some .row) (.ok true) :: s.past⟩ where
  honest := by
    have hnot : ¬ SaidEnd s.past := fun h => Bool.false_ne_true (hd.symm.trans (hs.saidEnd h))
    refine ⟨⟨?_, ?_, fun h => absurd h hnot⟩, hs.honest⟩
    · intro f hf
      cases hf
    · intro h
      cases h
  handedOut row hm _ := by
    have hold : .next (.ok ()) row ∈ s.past := by simpa using hm
    have hlt := hs.handedOut row hold hd
    show row < v.pos - 1
    -- the rows handed out before lie below the one the statement was at
    split at hlt <;> omega
  pending _ := ⟨rfl, by show 0 < v.pos; omega⟩
  done h := absurd h Bool.false_ne_true
  saidEnd h := by
    have hend := mDone_of_saidEnd hs (fun _ he => by cases he) h
    exact absurd (hd.symm.trans hend) Bool.false_ne_true

/-- `hasNext()` with a step that returns `SQLITE_DONE`. -/
theorem Session.Sound.atDone {s : Session Db} (hs : s.Sound) (hd : s.it.mDone = false) (v : Vdbe Db) :
    Session.Sound ⟨⟨false, true⟩, v, .hasNext (some .done) (.ok false) :: s.past⟩ where
  honest := by
    have hnot : ¬ SaidEnd s.past := fun h => Bool.false_ne_true (hd.symm.trans (hs.saidEnd h))
    refine ⟨⟨?_, fun _ => .inl rfl, fun h => absurd h hnot⟩, hs.honest⟩
    intro f hf
    cases hf
  handedOut _ _ hd' := absurd hd'.symm Bool.false_ne_true
  pending h := absurd h Bool.false_ne_true
  done _ := ⟨_, List.mem_cons_self⟩
  saidEnd _ := rfl

/-- `next()` after a `hasNext()` that has found a row: it lies above the rows handed out before. -/
theorem Session.Sound.nextRow {s : Session Db} (hs : s.Sound) (hp : s.it.mHasNext = true) :
    Session.Sound ⟨{ s.it with mHasNext := false }, s.stmt, .next (.ok ()) (s.stmt.pos - 1) :: s.past⟩ := by
  obtain ⟨hd, hpos⟩ := hs.pending hp
  have hbelow : ∀ row, .next (.ok ()) row ∈ s.past → row < s.stmt.pos - 1 := by
    intro row hm
    have hlt := hs.handedOut row hm hd
    rwa [hp, if_pos rfl] at hlt
  constructor
  · exact ⟨fun _ hm => Nat.lt_irrefl _ (hbelow _ hm), hs.honest⟩
  · intro row hm _
    show row < s.stmt.pos
    rcases List.mem_cons.1 hm with he | hm
    · cases he
      omega
    · have hlt := hbelow row hm
      omega
  · intro h
    cases h
  · intro h
    exact sawDone_cons (hs.done h)
  · exact mDone_of_saidEnd hs fun _ he => by cases he

/-- `next()` without a row throws. -/
theorem Session.Sound.nextNone {s : Session Db} (hs : s.Sound) (hp : s.it.mHasNext = false) (row : Nat) :
    Session.Sound ⟨s.it, s.stmt, .next (.error .noSuchElement) row :: s.past⟩ := by
  constructor
  · refine ⟨fun h => ?_, hs.honest⟩
    cases h
  · intro row hm hd
    have hold : .next (.ok ()) row ∈ s.past := by simpa using hm
    exact hs.handedOut row hold hd
  · intro h
    exact absurd (hp.symm.trans h) Bool.false_ne_true
  · intro h
    exact sawDone_cons (hs.done h)
  · exact mDone_of_saidEnd hs fun _ he => by cases he

theorem sound_ask {s : Session Db} (a : Ask Db) (hs : s.Sound) (hok : StepSucceeds s a) : (ask s a).Sound := by
  cases a with
  | hasNext t =>
    cases hd : s.it.mDone with
    | true =>
      rw [ask_hasNext_done hd]
      exact hs.afterEnd hd
    | false =>
      have ht : t.fail = none := hok.resolve_left (by simp [hd])
      rw [ask_hasNext_step hd]
      rcases s.stmt.step_cases ht with ⟨hrow, hpos⟩ | hdone
      · rw [hrow]
        exact hs.atRow hd hpos
      · rw [hdone]
        exact hs.atDone hd _
  | next =>
    cases hp : s.it.mHasNext with
    | true =>
      have hnext : s.it.next = (.ok (), { s.it with mHasNext := false }) := by
        simp only [RowIterator.next, hp, if_true]
      simp only [ask, hnext]
      exact hs.nextRow hp
    | false =>
      have hnext : s.it.next = (.error .noSuchElement, s.it) := by
        simp only [RowIterator.next, hp, Bool.false_eq_true, if_false]
      simp only [ask, hnext]
      exact hs.nextNone hp _

/-! ### Steps that fail -/

/-- A failed step makes `hasNext()` answer `false`. -/
theorem step_fail {v : Vdbe Db} {t : Tick Db} {f : Failure} (ht : t.fail = some f) : (v.step t).1 = .error f := by
  simp only [Vdbe.step, Vdbe.exec, ht]

theorem not_honest_of_fail {s : Session Db} (a : Ask Db) (hok : ¬ StepSucceeds s a) : ¬ Honest (ask s a).past := by
  cases a with
  | hasNext t =>
    simp only [StepSucceeds, not_or, Bool.not_eq_true] at hok
    obtain ⟨hd, ht⟩ := hok
    obtain ⟨f, hf⟩ := Option.ne_none_iff_exists'.1 ht
    rw [ask_hasNext_step hd, step_fail hf]
    intro h
    obtain ⟨m, hm⟩ := h.1.1 f rfl
    cases hm
  | next => exact absurd trivial hok

/-- The answers of a `RowIterator` stay honest exactly in the sessions in which no step that is made fails. -/
theorem honest_iff_stepsSucceed (v : Vdbe Db) (asks : List (Ask Db)) :
    Runs.Always ask (fun s => Honest s.past) (Session.start v) asks ↔
      Runs.Guarded ask StepSucceeds (Session.start v) asks :=
  Runs.always_iff_guarded (I := Session.Sound) (D := fun _ _ => True)
    (fun _ a hs _ hok => sound_ask a hs hok) (fun _ hs => hs.honest)
    (fun _ a _ _ hok => not_honest_of_fail a hok) (sound_start v) Runs.guarded_true

/-- On a locked database the rows of a query end before the first one. -/
theorem not_honest_busy :
    ¬ Runs.Always ask (fun s => Honest s.past)
      (Session.start (Vdbe.prepared (fun _ _ => [[.integer 1]]) [[49]] 0 : Vdbe Unit))
      [.hasNext ⟨(), some .busy, none, none⟩] := by
  intro ⟨_, h⟩
  obtain ⟨m, hm⟩ := h.1.1 .busy rfl
  cases hm

end Sqlite4a
