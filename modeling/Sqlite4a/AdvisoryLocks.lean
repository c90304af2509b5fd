import Mathlib.Data.Fintype.Basic
import Mathlib.Logic.Function.Basic
import Mathlib.Tactic.Common

/-!
# Advisory locks

Owners hold read locks and write locks on places.  A write lock excludes every lock of another owner on the place, a
read lock every write lock.  An owner runs one program at a time, which asks for locks one after the other and goes on
with the answer; the requests of the other owners come between.

What holds of the program of one owner for any answers (`Safe`) holds in every interleaving (`step_sound`), and a lock
that is only taken behind a gate cannot be taken anew while another owner holds the gate (`gate_closed`).
-/

namespace AdvisoryLocks

inductive Kind
  | unlck
  | rdlck
  | wrlck
  deriving DecidableEq

/-- A lock for which another owner's lock on the same place leaves no room. -/
def Kind.conflicts : Kind → Kind → Bool
  | .rdlck, .wrlck => true
  | .wrlck, .rdlck => true
  | .wrlck, .wrlck => true
  | _, _ => false

/-- The second lock is not weaker than the first. -/
def Kind.weaker : Kind → Kind → Bool
  | .unlck, _ => true
  | .rdlck, .rdlck => true
  | _, .wrlck => true
  | _, _ => false

section

variable {ι ρ σ κ : Type}

/-- What one owner holds. -/
abbrev Held (ρ : Type) := ρ → Kind

/-- A request for one kind of lock on some places; the old locks of the owner there are replaced. -/
structure Request (ρ : Type) where
  kind : Kind
  places : ρ → Bool

def Held.set (h : Held ρ) (r : Request ρ) : Held ρ := fun x => if r.places x then r.kind else h x

/-- The owner has as much already. -/
def Held.Covers (h : Held ρ) (r : Request ρ) : Prop := ∀ x, r.places x = true → r.kind.weaker (h x) = true

/-- A program that asks for locks and ends in a state. -/
inductive Prog (ρ σ : Type)
  | done (s : σ)
  | call (r : Request ρ) (next : Bool → Prog ρ σ)

/-- An owner: its memory, and the call it is in with the request it waits for and the rest of its program. -/
structure Owner (ρ σ κ : Type) where
  mem : σ
  call : Option (κ × Request ρ × (Bool → Prog ρ σ))

structure System (ι ρ σ κ : Type) where
  locks : ι → Held ρ
  owners : ι → Owner ρ σ κ

/-- No other owner holds a lock that conflicts. -/
def System.Grants (s : System ι ρ σ κ) (i : ι) (r : Request ρ) : Prop :=
  ∀ j, j ≠ i → ∀ x, r.places x = true → r.kind.conflicts (s.locks j x) = false

instance [Fintype ι] [DecidableEq ι] [Fintype ρ] (s : System ι ρ σ κ) (i : ι) (r : Request ρ) :
    Decidable (s.Grants i r) :=
  inferInstanceAs (Decidable (∀ _, _))

instance [Fintype ρ] (h : Held ρ) (r : Request ρ) : Decidable (h.Covers r) := inferInstanceAs (Decidable (∀ _, _))

/-- The owner after its program up to the next request. -/
def Owner.settle (c : κ) (mem : σ) : Prog ρ σ → Owner ρ σ κ
  | .done s => ⟨s, none⟩
  | .call r next => ⟨mem, some (c, r, next)⟩

/-- An owner starts a program, makes its next request, or dies.  A request may be refused where nothing conflicts, but
not for locks that the owner has. -/
inductive Action (ι κ : Type)
  | start (i : ι) (c : κ)
  | request (i : ι) (refuse : Bool)
  | exit (i : ι)

/-- The programs of the owners. -/
structure Code (ρ σ κ : Type) where
  prog : κ → σ → Prog ρ σ
  allowed : κ → σ → Bool
  fresh : σ

def System.put [DecidableEq ι] (s : System ι ρ σ κ) (i : ι) (h : Held ρ) (o : Owner ρ σ κ) : System ι ρ σ κ :=
  ⟨Function.update s.locks i h, Function.update s.owners i o⟩

def Code.step [Fintype ι] [DecidableEq ι] [Fintype ρ] (code : Code ρ σ κ) (s : System ι ρ σ κ) :
    Action ι κ → Option (System ι ρ σ κ)
  | .start i c =>
    if (s.owners i).call.isNone ∧ code.allowed c (s.owners i).mem then
      some (s.put i (s.locks i) (.settle c (s.owners i).mem (code.prog c (s.owners i).mem)))
    else none
  | .request i refuse =>
    match (s.owners i).call with
    | some (c, r, next) =>
      if s.Grants i r ∧ (refuse = false ∨ (s.locks i).Covers r) then
        some (s.put i ((s.locks i).set r) (.settle c (s.owners i).mem (next true)))
      else some (s.put i (s.locks i) (.settle c (s.owners i).mem (next false)))
    | none => none
  | .exit i => some (s.put i (fun _ => .unlck) ⟨code.fresh, none⟩)

/-- Owners that have not started. -/
def Code.start (code : Code ρ σ κ) : System ι ρ σ κ := ⟨fun _ _ => .unlck, fun _ => ⟨code.fresh, none⟩⟩

/-! ### One owner -/

/-- The program asks as `ask` says and ends as `post` says, whatever the answers; where it waits for an answer, the
locks are as `during` says. -/
inductive Safe (ask : Held ρ → Request ρ → Prop) (during : Held ρ → Prop) (post : Held ρ → σ → Prop) :
    Held ρ → Prog ρ σ → Prop
  | done {h s} (hpost : post h s) : Safe ask during post h (.done s)
  | call {h r next} (hask : ask h r) (hduring : during h) (granted : Safe ask during post (h.set r) (next true))
    (refused : ¬ h.Covers r → Safe ask during post h (next false)) : Safe ask during post h (.call r next)

/-- What is shown of each owner on its own: `inv` holds between its programs. -/
structure Rules (ρ σ κ : Type) where
  ask : Held ρ → Request ρ → Prop
  during : κ → σ → Held ρ → Prop
  inv : Held ρ → σ → Prop

def Rules.Holds (rules : Rules ρ σ κ) (h : Held ρ) (o : Owner ρ σ κ) : Prop :=
  match o.call with
  | none => rules.inv h o.mem
  | some (c, r, next) => Safe rules.ask (rules.during c o.mem) rules.inv h (.call r next)

structure Rules.Kept (rules : Rules ρ σ κ) (code : Code ρ σ κ) : Prop where
  fresh : rules.inv (fun _ => .unlck) code.fresh
  prog : ∀ {c m h}, code.allowed c m = true → rules.inv h m → Safe rules.ask (rules.during c m) rules.inv h
      (code.prog c m)

/-! ### All owners -/

/-- No two owners hold locks that conflict, and each one is where its program may be. -/
structure Rules.Sound (rules : Rules ρ σ κ) (s : System ι ρ σ κ) : Prop where
  apart : ∀ i j, i ≠ j → ∀ x, (s.locks i x).conflicts (s.locks j x) = false
  owner : ∀ i, rules.Holds (s.locks i) (s.owners i)

/-- What the owner has already is never refused. -/
theorem Safe.covered {ask : Held ρ → Request ρ → Prop} {during : Held ρ → Prop} {post : Held ρ → σ → Prop} {h : Held ρ}
    {r : Request ρ} {next : Bool → Prog ρ σ} (hask : ask h r) (hduring : during h) (hr : h.Covers r)
    (granted : Safe ask during post (h.set r) (next true)) : Safe ask during post h (.call r next) :=
  .call hask hduring granted fun hc => absurd hr hc

theorem Held.covers_unlck (h : Held ρ) (places : ρ → Bool) : h.Covers ⟨.unlck, places⟩ := fun _ _ => rfl

theorem Kind.conflicts_comm (a b : Kind) : a.conflicts b = b.conflicts a := by cases a <;> cases b <;> rfl

theorem Kind.conflicts_unlck (a : Kind) : Kind.unlck.conflicts a = false := by cases a <;> rfl

theorem Kind.rdlck_weaker {a : Kind} (h : a ≠ .unlck) : Kind.rdlck.weaker a = true := by
  cases a with
  | unlck => exact absurd rfl h
  | rdlck => rfl
  | wrlck => rfl

theorem Kind.unlck_of_wrlck {a b : Kind} (ha : a = .wrlck) (h : a.conflicts b = false) : b = .unlck := by
  subst ha
  cases b with
  | unlck => rfl
  | rdlck => cases h
  | wrlck => cases h

theorem Kind.weaker_conflicts {a b c : Kind} (h : a.weaker b = true) (hc : b.conflicts c = false) :
    a.conflicts c = false := by
  revert h hc
  cases a <;> cases b <;> cases c <;> decide

theorem Rules.Holds.idle {rules : Rules ρ σ κ} {h : Held ρ} {o : Owner ρ σ κ} (ho : rules.Holds h o)
    (hcall : o.call = none) : rules.inv h o.mem := by
  rwa [Rules.Holds, hcall] at ho

theorem Rules.Holds.during {rules : Rules ρ σ κ} {h : Held ρ} {o : Owner ρ σ κ} (ho : rules.Holds h o) {c : κ}
    {r : Request ρ} {next : Bool → Prog ρ σ} (hcall : o.call = some (c, r, next)) : rules.during c o.mem h := by
  rw [Rules.Holds, hcall] at ho
  cases ho with
  | call _ hduring => exact hduring

theorem Rules.Holds.settle {rules : Rules ρ σ κ} {h : Held ρ} {c : κ} {mem : σ} {p : Prog ρ σ}
    (hp : Safe rules.ask (rules.during c mem) rules.inv h p) : rules.Holds h (.settle c mem p) := by
  cases p with
  | done s =>
    cases hp with
    | done hpost => exact hpost
  | call r next => exact hp

variable {rules : Rules ρ σ κ} {code : Code ρ σ κ} {s s' : System ι ρ σ κ}

theorem Rules.Kept.start (h : rules.Kept code) : rules.Sound (code.start : System ι ρ σ κ) :=
  ⟨fun _ _ _ _ => rfl, fun _ => h.fresh⟩

/-- What the owner has already is not refused. -/
theorem Rules.Sound.grants (h : rules.Sound s) {i : ι} {r : Request ρ} (hr : (s.locks i).Covers r) : s.Grants i r :=
  fun j hj x hx => Kind.weaker_conflicts (hr x hx) (h.apart i j (Ne.symm hj) x)

variable [DecidableEq ι]

@[simp] theorem System.put_locks (i : ι) (h : Held ρ) (o : Owner ρ σ κ) : (s.put i h o).locks i = h :=
    Function.update_self ..

@[simp] theorem System.put_owners (i : ι) (h : Held ρ) (o : Owner ρ σ κ) : (s.put i h o).owners i = o :=
    Function.update_self ..

theorem System.put_locks_of_ne {i j : ι} (hj : j ≠ i) (h : Held ρ) (o : Owner ρ σ κ) :
    (s.put i h o).locks j = s.locks j :=
  Function.update_of_ne hj ..

theorem System.put_owners_of_ne {i j : ι} (hj : j ≠ i) (h : Held ρ) (o : Owner ρ σ κ) :
    (s.put i h o).owners j = s.owners j :=
  Function.update_of_ne hj ..

/-- One owner moves. -/
theorem Rules.Sound.put (h : rules.Sound s) {i : ι} {l : Held ρ} {o : Owner ρ σ κ}
    (hl : ∀ j, j ≠ i → ∀ x, (l x).conflicts (s.locks j x) = false) (ho : rules.Holds l o) :
        rules.Sound (s.put i l o) := by
  refine ⟨fun j k hjk x => ?_, fun j => ?_⟩
  · by_cases hj : j = i
    · subst hj
      rw [System.put_locks, System.put_locks_of_ne (Ne.symm hjk)]
      exact hl k (Ne.symm hjk) x
    · by_cases hk : k = i
      · subst hk
        rw [System.put_locks, System.put_locks_of_ne hj, Kind.conflicts_comm]
        exact hl j hj x
      · rw [System.put_locks_of_ne hj, System.put_locks_of_ne hk]
        exact h.apart j k hjk x
  · by_cases hj : j = i
    · subst hj
      rw [System.put_locks, System.put_owners]
      exact ho
    · rw [System.put_locks_of_ne hj, System.put_owners_of_ne hj]
      exact h.owner j

variable [Fintype ι] [Fintype ρ]

/-- What an action does to the owner who acts. -/
inductive Moves (rules : Rules ρ σ κ) (s : System ι ρ σ κ) (i : ι) : Held ρ → Prop
  | same : Moves rules s i (s.locks i)
  | granted {r : Request ρ} (hask : rules.ask (s.locks i) r) (hgrants : s.Grants i r) :
      Moves rules s i ((s.locks i).set r)
  | gone : Moves rules s i fun _ => .unlck

/-- One action keeps the rules of all owners. -/
theorem step_sound (hcode : rules.Kept code) (h : rules.Sound s) {a : Action ι κ} (hstep : code.step s a = some s') :
    rules.Sound s' ∧ ∃ i l o, s' = s.put i l o ∧ Moves rules s i l := by
  have hsame : ∀ i j, j ≠ i → ∀ x, (s.locks i x).conflicts (s.locks j x) = false :=
    fun i j hj => h.apart i j (Ne.symm hj)
  cases a with
  | start i c =>
    rw [Code.step, Option.ite_none_right_eq_some, Option.some.injEq] at hstep
    obtain ⟨⟨hidle, hallowed⟩, rfl⟩ := hstep
    have howner := (h.owner i).idle (Option.isNone_iff_eq_none.1 hidle)
    exact ⟨h.put (hsame i) (Rules.Holds.settle (hcode.prog hallowed howner)), i, _, _, rfl, .same⟩
  | request i refuse =>
    rw [Code.step] at hstep
    split at hstep
    · next c r next hcall =>
      have howner := h.owner i
      rw [Rules.Holds, hcall] at howner
      cases howner with
      | call hask hduring granted refused =>
        split at hstep
        · next hgrants =>
          cases hstep
          refine ⟨h.put (fun j hj x => ?_) (Rules.Holds.settle granted), i, _, _, rfl, .granted hask hgrants.1⟩
          by_cases hx : r.places x = true
          · rw [Held.set, if_pos hx]
            exact hgrants.1 j hj x hx
          · rw [Held.set, if_neg hx]
            exact hsame i j hj x
        · next hrefused =>
          cases hstep
          have hcovers : ¬ (s.locks i).Covers r := fun hr => hrefused ⟨h.grants hr, .inr hr⟩
          exact ⟨h.put (hsame i) (Rules.Holds.settle (refused hcovers)), i, _, _, rfl, .same⟩
    · cases hstep
  | exit i =>
    cases hstep
    exact ⟨h.put (fun j _ x => Kind.conflicts_unlck _) hcode.fresh, i, _, _, rfl, .gone⟩

/-- In every run the rules of all owners are kept. -/
theorem run_sound (hcode : rules.Kept code) {as : List (Action ι κ)} (h : rules.Sound s)
    (hrun : as.foldlM code.step s = some s') : rules.Sound s' := by
  induction as generalizing s with
  | nil =>
    cases hrun
    exact h
  | cons a as ih =>
    rw [List.foldlM_cons] at hrun
    obtain ⟨s₁, hstep, hrest⟩ := Option.bind_eq_some_iff.1 hrun
    exact ih (step_sound hcode h hstep).1 hrest

/-- No owner asks for a lock on `room` without a lock on `gate`, unless it has one on `room`. -/
def Rules.Gated (rules : Rules ρ σ κ) (gate room : ρ) : Prop :=
  ∀ h r, rules.ask h r → r.places room = true → r.kind ≠ .unlck → h gate ≠ .unlck ∨ h room ≠ .unlck

/-- While one owner holds the write lock on the gate, no other one gets into the room. -/
theorem gate_closed {gate room : ρ} (hgated : rules.Gated gate room) (hcode : rules.Kept code) (h : rules.Sound s)
    {a : Action ι κ} (hstep : code.step s a = some s') {i j : ι} (hi : s.locks i gate = .wrlck) (hj : j ≠ i)
    (hroom : s'.locks j room ≠ .unlck) : s.locks j room ≠ .unlck := by
  obtain ⟨-, k, l, o, rfl, hmoves⟩ := step_sound hcode h hstep
  by_cases hk : j = k
  · subst hk
    rw [System.put_locks] at hroom
    cases hmoves with
    | same => exact hroom
    | @granted r hask hgrants =>
      rw [Held.set] at hroom
      split at hroom
      · next hplaces =>
        refine (hgated _ _ hask hplaces hroom).resolve_left fun hgate => hgate ?_
        exact Kind.unlck_of_wrlck hi (h.apart i j (Ne.symm hj) gate)
      · exact hroom
    | gone => exact absurd rfl hroom
  · rwa [System.put_locks_of_ne hk] at hroom

/-- The gate is closed as long as the write lock on it is held. -/
theorem gate_closed_run {gate room : ρ} (hgated : rules.Gated gate room) (hcode : rules.Kept code) (h : rules.Sound s)
    {as : List (Action ι κ)} (hrun : as.foldlM code.step s = some s') {i j : ι} (hj : j ≠ i)
    (hgate : ∀ k t, (as.take k).foldlM code.step s = some t → t.locks i gate = .wrlck)
    (hroom : s.locks j room = .unlck) : s'.locks j room = .unlck := by
  induction as generalizing s with
  | nil =>
    cases hrun
    exact hroom
  | cons a as ih =>
    rw [List.foldlM_cons] at hrun
    obtain ⟨s₁, hstep, hrest⟩ := Option.bind_eq_some_iff.1 hrun
    refine ih (step_sound hcode h hstep).1 hrest (fun k t ht => hgate (k + 1) t ?_) ?_
    · rw [List.take_succ_cons, List.foldlM_cons, hstep]
      exact ht
    · by_contra hne
      exact gate_closed hgated hcode h hstep (hgate 0 s rfl) hj hne hroom

end

end AdvisoryLocks
