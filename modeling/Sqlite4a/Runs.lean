import Mathlib.Tactic.Common

/-!
# Runs of a deterministic machine

A machine is a step function `σ → α → σ`.  `Always P` says that `P` holds of every state of a run, the first one
included, and `Guarded ok` that every step of the run meets `ok` in the state it is taken from.  The two are tied
together by an invariant: `always_of_guarded` is the direction that only needs the invariant to be kept, and
`guarded_of_always` the one in which a step that does not meet `ok` breaks `P` at once.
-/

namespace Runs

variable {σ α : Type*} (step : σ → α → σ)

/-- The state after the inputs `as`, taken in order. -/
def run (s : σ) (as : List α) : σ := as.foldl step s

/-- `P` holds of every state of the run from `s` on the inputs. -/
def Always (P : σ → Prop) : σ → List α → Prop
  | s, [] => P s
  | s, a :: as => P s ∧ Always P (step s a) as

/-- Every step of the run from `s` meets `ok` in the state it is taken from. -/
def Guarded (ok : σ → α → Prop) : σ → List α → Prop
  | _, [] => True
  | s, a :: as => ok s a ∧ Guarded ok (step s a) as

variable {step}

@[simp] theorem run_cons (s : σ) (a : α) (as : List α) : run step s (a :: as) = run step (step s a) as := rfl

@[simp] theorem always_nil {P : σ → Prop} {s : σ} : Always step P s [] ↔ P s := Iff.rfl

@[simp] theorem always_cons {P : σ → Prop} {s : σ} {a : α} {as : List α} :
    Always step P s (a :: as) ↔ P s ∧ Always step P (step s a) as := Iff.rfl

@[simp] theorem guarded_nil {ok : σ → α → Prop} {s : σ} : Guarded step ok s [] := trivial

@[simp] theorem guarded_cons {ok : σ → α → Prop} {s : σ} {a : α} {as : List α} :
    Guarded step ok s (a :: as) ↔ ok s a ∧ Guarded step ok (step s a) as := Iff.rfl

theorem Always.head {P : σ → Prop} {s : σ} {as : List α} (h : Always step P s as) : P s := by
  cases as with
  | nil => exact h
  | cons a as => exact h.1

theorem Always.last {P : σ → Prop} {s : σ} {as : List α} (h : Always step P s as) : P (run step s as) := by
  induction as generalizing s with
  | nil => exact h
  | cons a as ih => exact ih h.2

theorem Guarded.and {ok ok' : σ → α → Prop} {s : σ} {as : List α}
    (h : Guarded step ok s as) (h' : Guarded step ok' s as) :
    Guarded step (fun s a => ok s a ∧ ok' s a) s as := by
  induction as generalizing s with
  | nil => trivial
  | cons a as ih => exact ⟨⟨h.1, h'.1⟩, ih h.2 h'.2⟩

/-- A condition on the inputs alone guards the runs over inputs that meet it. -/
theorem guarded_iff_forall_mem (step : σ → α → σ) {good : α → Prop} {as : List α} {s : σ} :
    Guarded step (fun _ a => good a) s as ↔ ∀ a ∈ as, good a := by
  induction as generalizing s with
  | nil => simp
  | cons a as ih => rw [guarded_cons, ih, List.forall_mem_cons]

theorem guarded_true {s : σ} {as : List α} : Guarded step (fun _ _ => True) s as :=
  (guarded_iff_forall_mem step).2 fun _ _ => trivial

/-- An invariant kept by every step that meets `ok` holds at the end of every run whose steps do. -/
theorem invariant_run {I : σ → Prop} {ok : σ → α → Prop} (hstep : ∀ s a, I s → ok s a → I (step s a))
    {s : σ} {as : List α} (hI : I s) (h : Guarded step ok s as) : I (run step s as) := by
  induction as generalizing s with
  | nil => exact hI
  | cons a as ih => exact ih (hstep s a hI h.1) h.2

/-- In every run whose steps all meet `ok`, what the invariant implies holds of every state reached. -/
theorem always_of_guarded {I P : σ → Prop} {ok : σ → α → Prop} (hstep : ∀ s a, I s → ok s a → I (step s a))
    (hP : ∀ s, I s → P s) {s : σ} {as : List α} (hI : I s) (h : Guarded step ok s as) : Always step P s as := by
  induction as generalizing s with
  | nil => exact hP s hI
  | cons a as ih => exact ⟨hP s hI, ih (hstep s a hI h.1) h.2⟩

/-- If a step that does not meet `ok` leaves a state without `P`, then `P` only holds throughout the runs whose steps
all meet `ok`.  `D` is the domain the runs are taken from. -/
theorem guarded_of_always {I P : σ → Prop} {ok D : σ → α → Prop}
    (hstep : ∀ s a, I s → D s a → ok s a → I (step s a)) (hbad : ∀ s a, I s → D s a → ¬ ok s a → ¬ P (step s a))
    {s : σ} {as : List α} (hI : I s) (hdom : Guarded step D s as) (h : Always step P s as) : Guarded step ok s as := by
  induction as generalizing s with
  | nil => trivial
  | cons a as ih =>
    have hok : ok s a := by
      by_contra hn
      exact hbad s a hI hdom.1 hn h.2.head
    exact ⟨hok, ih (hstep s a hI hdom.1 hok) hdom.2 h.2⟩

/-- The runs on which `P` holds throughout are exactly those whose steps all meet `ok`. -/
theorem always_iff_guarded {I P : σ → Prop} {ok D : σ → α → Prop}
    (hstep : ∀ s a, I s → D s a → ok s a → I (step s a)) (hP : ∀ s, I s → P s)
    (hbad : ∀ s a, I s → D s a → ¬ ok s a → ¬ P (step s a)) {s : σ} {as : List α} (hI : I s)
    (hdom : Guarded step D s as) : Always step P s as ↔ Guarded step ok s as := by
  constructor
  · exact guarded_of_always hstep hbad hI hdom
  · intro h
    have hboth : Guarded step (fun s a => D s a ∧ ok s a) s as := hdom.and h
    exact always_of_guarded (fun s a hI ha => hstep s a hI ha.1 ha.2) hP hI hboth

end Runs
