import Mathlib.Data.Finset.Card
import Mathlib.Data.Fintype.Basic
import Sqlite4a.AdvisoryLocks
import Sqlite4a.Value

/-!
# Locks of the database file

`unixLock` and `unixUnlock` build the five levels of a lock on a database file out of advisory locks on three ranges of
its bytes.  Advisory locks belong to the process: two handles of one process do not exclude each other, and closing any
descriptor of the file drops the locks of all.  So the handles of a process share a `unixInodeInfo`, which counts their
locks and keeps descriptors open that were closed too early.

Processes may have any number of handles; the calls of one process on the file are serialized by its mutex, and the
system calls of different processes come in any order.
-/

namespace Sqlite4a

open AdvisoryLocks

/-! ### The code -/

inductive FileLock
  | no
  | shared
  | reserved
  | pending
  | exclusive
  deriving DecidableEq

def FileLock.toNat : FileLock → Nat
  | .no => 0
  | .shared => 1
  | .reserved => 2
  | .pending => 3
  | .exclusive => 4

instance : LE FileLock := ⟨fun a b => a.toNat ≤ b.toNat⟩
instance : LT FileLock := ⟨fun a b => a.toNat < b.toNat⟩
instance (a b : FileLock) : Decidable (a ≤ b) := inferInstanceAs (Decidable (a.toNat ≤ b.toNat))
instance (a b : FileLock) : Decidable (a < b) := inferInstanceAs (Decidable (a.toNat < b.toNat))

/-- `PENDING_BYTE`, `RESERVED_BYTE` and the range from `SHARED_FIRST` on. -/
inductive LockByte
  | pending
  | reserved
  | shared
  deriving DecidableEq

instance : Fintype LockByte := ⟨{.pending, .reserved, .shared}, fun x => by cases x <;> decide⟩

def SQLITE_IOERR_RDLOCK : Int := 2314

/-- `pUnused` is the number of descriptors that wait to be closed. -/
structure UnixInodeInfo where
  nShared : Nat
  eFileLock : FileLock
  nRef : Nat
  nLock : Nat
  pUnused : Nat

/-- A process: its `unixInodeInfo`, the `eFileLock` of each `unixFile` that is open, and what its latest call
returned. -/
structure UnixProcess (Fd : Type) where
  pInode : UnixInodeInfo
  files : Fd → Option FileLock
  rc : Int

/-- Locks and unlocks bytes; `fcntl` with `F_SETLK`. -/
abbrev FcntlProg (Fd : Type) := Prog LockByte (UnixProcess Fd)

variable {Fd : Type} [DecidableEq Fd]

def UnixProcess.eFileLock (m : UnixProcess Fd) (f : Fd) : FileLock := (m.files f).getD .no

def UnixProcess.setFile (m : UnixProcess Fd) (f : Fd) (eFileLock : FileLock) : UnixProcess Fd :=
  { m with files := Function.update m.files f (some eFileLock) }

def UnixProcess.ret (m : UnixProcess Fd) (rc : Int) : UnixProcess Fd := { m with rc := rc }

def onBytes (bytes : List LockByte) (x : LockByte) : Bool := bytes.contains x

/-- Both levels at once. -/
def UnixProcess.setLevel (m : UnixProcess Fd) (f : Fd) (eFileLock : FileLock) : UnixProcess Fd :=
  { m.setFile f eFileLock with pInode := { m.pInode with eFileLock := eFileLock } }

/-- `unixLock` for `RESERVED_LOCK` and `EXCLUSIVE_LOCK`, with the lock on the pending byte that the latter needs. -/
def unixLockWrite (m : UnixProcess Fd) (f : Fd) (eFileLock : FileLock) : FcntlProg Fd :=
  let failed := if eFileLock = .exclusive then (m.setLevel f .pending).ret SQLITE_BUSY else m.ret SQLITE_BUSY
  if eFileLock = .exclusive ∧ 1 < m.pInode.nShared then .done failed
  else
    .call ⟨.wrlck, onBytes [if eFileLock = .reserved then .reserved else .shared]⟩ fun ok =>
      .done (if ok then (m.setLevel f eFileLock).ret SQLITE_OK else failed)

def unixLock (m : UnixProcess Fd) (f : Fd) (eFileLock : FileLock) : FcntlProg Fd :=
  if eFileLock ≤ m.eFileLock f then .done (m.ret SQLITE_OK)
  else if m.eFileLock f ≠ m.pInode.eFileLock ∧ (.pending ≤ m.pInode.eFileLock ∨ .shared < eFileLock) then
    .done (m.ret SQLITE_BUSY)
  else if eFileLock = .shared ∧ (m.pInode.eFileLock = .shared ∨ m.pInode.eFileLock = .reserved) then
    .done (({ m.setFile f .shared with
      pInode := { m.pInode with nShared := m.pInode.nShared + 1, nLock := m.pInode.nLock + 1 } }).ret SQLITE_OK)
  else if eFileLock = .shared then
    .call ⟨.rdlck, onBytes [.pending]⟩ fun ok =>
      if ok then
        .call ⟨.rdlck, onBytes [.shared]⟩ fun ok => .call ⟨.unlck, onBytes [.pending]⟩ fun _ =>
          .done (if ok then ({ m.setLevel f .shared with
              pInode := { m.pInode with nLock := m.pInode.nLock + 1, nShared := 1, eFileLock := .shared } }).ret
                  SQLITE_OK
            else m.ret SQLITE_BUSY)
      else .done (m.ret SQLITE_BUSY)
  else if eFileLock = .exclusive ∧ m.eFileLock f < .pending then
    .call ⟨.wrlck, onBytes [.pending]⟩ fun ok => if ok then unixLockWrite m f eFileLock else .done (m.ret SQLITE_BUSY)
  else unixLockWrite m f eFileLock

/-- Closing a descriptor drops the locks of the process. -/
def closeFd (p : FcntlProg Fd) : FcntlProg Fd := .call ⟨.unlck, fun _ => true⟩ fun _ => p

/-- `closePendingFds` for `n` descriptors. -/
def closePendingFds : Nat → FcntlProg Fd → FcntlProg Fd
  | 0, p => p
  | n + 1, p => closeFd (closePendingFds n p)

/-- The end of `posixUnlock`, where `nLock` goes down. -/
def posixUnlockCount (m : UnixProcess Fd) (f : Fd) : FcntlProg Fd :=
  let pInode := { m.pInode with nLock := m.pInode.nLock - 1 }
  if pInode.nLock = 0 then
    closePendingFds pInode.pUnused (.done (({ m.setFile f .no with pInode := { pInode with pUnused := 0 } }).ret
        SQLITE_OK))
  else .done (({ m.setFile f .no with pInode := pInode }).ret SQLITE_OK)

/-- `posixUnlock` after the level of the process has gone down to `SHARED_LOCK`. -/
def posixUnlockShared (m : UnixProcess Fd) (f : Fd) (eFileLock : FileLock) : FcntlProg Fd :=
  if eFileLock = .no then
    let m := { m with pInode := { m.pInode with nShared := m.pInode.nShared - 1 } }
    if m.pInode.nShared = 0 then
      .call ⟨.unlck, fun _ => true⟩ fun _ => posixUnlockCount { m with pInode := { m.pInode with eFileLock := .no } } f
    else posixUnlockCount m f
  else .done ((m.setFile f eFileLock).ret SQLITE_OK)

def posixUnlock (m : UnixProcess Fd) (f : Fd) (eFileLock : FileLock) : FcntlProg Fd :=
  let lower := .call ⟨.unlck, onBytes [.pending, .reserved]⟩ fun _ =>
    posixUnlockShared { m with pInode := { m.pInode with eFileLock := .shared } } f eFileLock
  if m.eFileLock f ≤ eFileLock then .done (m.ret SQLITE_OK)
  else if .shared < m.eFileLock f then
    if eFileLock = .shared then
      .call ⟨.rdlck, onBytes [.shared]⟩ fun ok => if ok then lower else .done (m.ret SQLITE_IOERR_RDLOCK)
    else lower
  else posixUnlockShared m f eFileLock

def UnixInodeInfo.fresh : UnixInodeInfo := ⟨0, .no, 0, 0, 0⟩

/-- `findInodeInfo`; `findReusableFd` may give back a descriptor that waits to be closed. -/
def unixOpen (m : UnixProcess Fd) (f : Fd) (reuse : Bool) : FcntlProg Fd :=
  let m := m.setFile f .no
  .done (({ m with pInode := { m.pInode with
    nRef := m.pInode.nRef + 1, pUnused := if reuse then m.pInode.pUnused - 1 else m.pInode.pUnused } }).ret SQLITE_OK)

/-- `unixClose` after it has unlocked: `setPendingFd`, `releaseInodeInfo` and `closeUnixFile`. -/
def unixClose (m : UnixProcess Fd) (f : Fd) : FcntlProg Fd :=
  let pUnused := if m.pInode.nLock = 0 then m.pInode.pUnused else m.pInode.pUnused + 1
  let pInode : UnixInodeInfo := { m.pInode with nRef := m.pInode.nRef - 1, pUnused := pUnused }
  let m' := { m with files := Function.update m.files f none }
  let close := fun p : FcntlProg Fd => if m.pInode.nLock = 0 then closeFd p else p
  if pInode.nRef = 0 then
    closePendingFds pUnused (close (.done (({ m' with pInode := UnixInodeInfo.fresh }).ret SQLITE_OK)))
  else close (.done (({ m' with pInode := pInode }).ret SQLITE_OK))

/-- The calls on a file. -/
inductive FileCall (Fd : Type)
  | openFile (f : Fd) (reuse : Bool)
  | lock (f : Fd) (eFileLock : FileLock)
  | unlock (f : Fd) (eFileLock : FileLock)
  | close (f : Fd)

/-- What the callers keep to: the assertions of `unixLock` and `posixUnlock`. -/
def FileCall.allowed (m : UnixProcess Fd) : FileCall Fd → Bool
  | .openFile f _ => (m.files f).isNone
  | .lock f l =>
    (m.files f).isSome && (m.eFileLock f ≠ .no || l = .shared) && l ≠ .pending
  | .unlock f l => (m.files f).isSome && l ≤ .shared
  | .close f => m.files f = some .no

def unixCode : Code LockByte (UnixProcess Fd) (FileCall Fd) where
  prog c m :=
    match c with
    | .openFile f reuse => unixOpen m f reuse
    | .lock f l => unixLock m f l
    | .unlock f l => posixUnlock m f l
    | .close f => unixClose m f
  allowed c m := c.allowed m
  fresh := ⟨UnixInodeInfo.fresh, fun _ => none, SQLITE_OK⟩

/-! ### The locks of one process -/

/-- What a process holds at each level. -/
def FileLock.Holds : FileLock → Held LockByte → Prop
  | .no, h => ∀ x, h x = .unlck
  | .shared, h => h .pending = .unlck ∧ h .reserved = .unlck ∧ h .shared = .rdlck
  | .reserved, h => h .pending = .unlck ∧ h .reserved = .wrlck ∧ h .shared = .rdlck
  | .pending, h => h .pending = .wrlck ∧ h .shared = .rdlck
  | .exclusive, h => h .pending = .wrlck ∧ h .shared = .wrlck

/-- What a handle at this level relies on. -/
def FileLock.Needs : FileLock → Held LockByte → Prop
  | .no, _ => True
  | .shared, h => h .shared ≠ .unlck
  | .reserved, h => h .reserved = .wrlck ∧ h .shared ≠ .unlck
  | .pending, h => h .pending = .wrlck ∧ h .shared ≠ .unlck
  | .exclusive, h => h .pending = .wrlck ∧ h .shared = .wrlck

variable {h : Held LockByte} {l : FileLock}

theorem FileLock.Holds.needs (hl : l.Holds h) : l.Needs h := by
  cases l with
  | no => trivial
  | shared => simp [FileLock.Needs, hl.2.2]
  | reserved => simp [FileLock.Needs, hl.2.1, hl.2.2]
  | pending => simp [FileLock.Needs, hl.1, hl.2]
  | exclusive => exact hl

theorem FileLock.Holds.rdlck (hl : l.Holds h) (hno : l ≠ .no) (hex : l ≠ .exclusive) : h .shared = .rdlck := by
  cases l with
  | no => exact absurd rfl hno
  | shared => exact hl.2.2
  | reserved => exact hl.2.2
  | pending => exact hl.2
  | exclusive => exact absurd rfl hex

theorem FileLock.Needs.shared (hl : l.Needs h) (hne : l ≠ .no) : h .shared ≠ .unlck := by
  cases l with
  | no => exact absurd rfl hne
  | shared => exact hl
  | reserved => exact hl.2
  | pending => exact hl.2
  | exclusive => simp [hl.2]

theorem FileLock.eq_shared (hl : l ≤ .shared) (hne : l ≠ .no) : l = .shared := by
  cases l with
  | no => exact absurd rfl hne
  | shared => rfl
  | reserved => exact absurd hl (by decide)
  | pending => exact absurd hl (by decide)
  | exclusive => exact absurd hl (by decide)

theorem FileLock.eq_pending (hge : .pending ≤ l) (hlt : l < .exclusive) : l = .pending := by
  cases l with
  | no => exact absurd hge (by decide)
  | shared => exact absurd hge (by decide)
  | reserved => exact absurd hge (by decide)
  | pending => rfl
  | exclusive => exact absurd hlt (by decide)

theorem FileLock.shared_le (hne : l ≠ .no) : .shared ≤ l := by
  cases l with
  | no => exact absurd rfl hne
  | shared => decide
  | reserved => decide
  | pending => decide
  | exclusive => decide

section

variable {Fd : Type}

theorem isSome_of_locked {m : UnixProcess Fd} {f : Fd} (hf : m.eFileLock f ≠ .no) : (m.files f).isSome := by
  cases hs : m.files f with
  | none => simp [UnixProcess.eFileLock, hs] at hf
  | some l => rfl

variable [Fintype Fd]

/-- The handles that have a lock. -/
def UnixProcess.lockedFds (m : UnixProcess Fd) : Finset Fd := Finset.univ.filter fun f => m.eFileLock f ≠ .no

def UnixProcess.openFds (m : UnixProcess Fd) : Finset Fd := Finset.univ.filter fun f => (m.files f).isSome

/-- The handles of a process and its `unixInodeInfo` between two calls. -/
structure UnixProcess.Ok (h : Held LockByte) (m : UnixProcess Fd) : Prop where
  held : m.pInode.eFileLock.Holds h
  nShared : m.pInode.nShared = m.lockedFds.card
  nLock : m.pInode.nLock = m.pInode.nShared
  nRef : m.pInode.nRef = m.openFds.card
  noLock : m.pInode.eFileLock = .no ↔ m.pInode.nShared = 0
  /-- One handle is at the level of the process, where that is above `SHARED_LOCK`. -/
  top : .shared < m.pInode.eFileLock →
    ∃ f, m.eFileLock f = m.pInode.eFileLock ∧ ∀ g, g ≠ f → m.eFileLock g ≤ .shared
  low : m.pInode.eFileLock ≤ .shared → ∀ f, m.eFileLock f ≤ .shared
  alone : m.pInode.eFileLock = .exclusive → m.pInode.nShared = 1
  rc : m.rc = SQLITE_OK ∨ m.rc = SQLITE_BUSY

variable {m m' : UnixProcess Fd} {f g : Fd}

theorem mem_lockedFds : f ∈ m.lockedFds ↔ m.eFileLock f ≠ .no := by simp [UnixProcess.lockedFds]

theorem mem_openFds : f ∈ m.openFds ↔ (m.files f).isSome := by simp [UnixProcess.openFds]

theorem UnixProcess.Ok.ret (hm : m.Ok h) {rc : Int} (hrc : rc = SQLITE_OK ∨ rc = SQLITE_BUSY) : (m.ret rc).Ok h :=
  { hm with rc := hrc }

theorem lockedFds_congr (hfiles : ∀ g, m'.eFileLock g = m.eFileLock g) : m'.lockedFds = m.lockedFds := by
  simp [UnixProcess.lockedFds, hfiles]

/-- Handles may come and go as long as the locks are the same. -/
theorem UnixProcess.Ok.sameLocks (hm : m.Ok h) (hfiles : ∀ g, m'.eFileLock g = m.eFileLock g)
    (hshared : m'.pInode.nShared = m.pInode.nShared) (hlock : m'.pInode.nLock = m.pInode.nLock)
    (hlevel : m'.pInode.eFileLock = m.pInode.eFileLock) (href : m'.pInode.nRef = m'.openFds.card)
    (hrc : m'.rc = SQLITE_OK ∨ m'.rc = SQLITE_BUSY) : m'.Ok h where
  held := hlevel ▸ hm.held
  nShared := by rw [hshared, lockedFds_congr hfiles, hm.nShared]
  nLock := by rw [hlock, hshared, hm.nLock]
  nRef := href
  noLock := by rw [hlevel, hshared, hm.noLock]
  top := by simpa only [hlevel, hfiles] using hm.top
  low := by simpa only [hlevel, hfiles] using hm.low
  alone := by simpa only [hlevel, hshared] using hm.alone
  rc := hrc

theorem UnixProcess.Ok.not_no (hm : m.Ok h) (hf : m.eFileLock f ≠ .no) :
    m.pInode.nShared ≠ 0 ∧ m.pInode.eFileLock ≠ .no := by
  have hpos : m.pInode.nShared ≠ 0 := by
    rw [hm.nShared]
    exact Finset.card_ne_zero_of_mem (mem_lockedFds.2 hf)
  exact ⟨hpos, fun hno => hpos (hm.noLock.1 hno)⟩

theorem UnixProcess.Ok.none_locked (hm : m.Ok h) (hno : m.pInode.nShared = 0) (g : Fd) : m.eFileLock g = .no := by
  by_contra hne
  exact (hm.not_no hne).1 hno

theorem UnixProcess.Ok.only (hm : m.Ok h) (hone : m.pInode.nShared ≤ 1) (hf : m.eFileLock f ≠ .no) (hg : g ≠ f) :
    m.eFileLock g = .no := by
  by_contra hne
  rw [hm.nShared] at hone
  exact hg (Finset.card_le_one.1 hone g (mem_lockedFds.2 hne) f (mem_lockedFds.2 hf))

/-- A handle above `SHARED_LOCK` is the only one. -/
theorem UnixProcess.Ok.others (hm : m.Ok h) (hf : .shared < m.eFileLock f) :
    m.eFileLock f = m.pInode.eFileLock ∧ ∀ g, g ≠ f → m.eFileLock g ≤ .shared := by
  by_cases htop : .shared < m.pInode.eFileLock
  · obtain ⟨f', hf', hothers⟩ := hm.top htop
    by_cases hff : f = f'
    · subst hff
      exact ⟨hf', hothers⟩
    · exact absurd hf (Nat.not_lt_of_le (hothers f hff))
  · exact absurd hf (Nat.not_lt_of_le (hm.low (Nat.le_of_not_lt htop) f))

/-- The process holds what its handles need. -/
theorem UnixProcess.Ok.needs (hm : m.Ok h) (f : Fd) : (m.eFileLock f).Needs h := by
  by_cases htop : .shared < m.eFileLock f
  · rw [(hm.others htop).1]
    exact hm.held.needs
  · by_cases hno : m.eFileLock f = .no
    · rw [hno]
      trivial
    · rw [FileLock.eq_shared (Nat.le_of_not_lt htop) hno]
      exact hm.held.needs.shared (hm.not_no hno).2

/-- A process that still has locks has another handle open. -/
theorem UnixProcess.Ok.two_open (hm : m.Ok h) (hf : m.files f = some .no) (hlock : m.pInode.nLock ≠ 0) :
    m.pInode.nRef - 1 ≠ 0 := by
  have hno : m.eFileLock f = .no := by rw [UnixProcess.eFileLock, hf]; rfl
  obtain ⟨g, hg⟩ : m.lockedFds.Nonempty := by
    rw [← Finset.card_ne_zero, ← hm.nShared, ← hm.nLock]
    exact hlock
  have hlocked := mem_lockedFds.1 hg
  have hne : g ≠ f := by
    rintro rfl
    exact hlocked hno
  have htwo : 1 < m.openFds.card :=
    Finset.one_lt_card.2 ⟨g, mem_openFds.2 (isSome_of_locked hlocked), f, mem_openFds.2 (by rw [hf]; rfl), hne⟩
  rw [hm.nRef]
  omega

/-- A process without locks. -/
theorem UnixProcess.ok_unlocked (hno : ∀ g, m.eFileLock g = .no) (hlevel : m.pInode.eFileLock = .no)
    (hn : m.pInode.nShared = 0) (hlock : m.pInode.nLock = 0) (href : m.pInode.nRef = m.openFds.card)
    (hrc : m.rc = SQLITE_OK ∨ m.rc = SQLITE_BUSY) : m.Ok fun _ => .unlck where
  held := by
    rw [hlevel]
    exact fun _ => rfl
  nShared := by
    rw [hn, eq_comm, Finset.card_eq_zero]
    exact Finset.filter_eq_empty_iff.2 fun g _ hg => hg (hno g)
  nLock := hlock.trans hn.symm
  nRef := href
  noLock := iff_of_true hlevel hn
  top htop := by
    rw [hlevel] at htop
    exact absurd htop (by decide)
  low _ g := by
    rw [hno g]
    decide
  alone hex := by
    rw [hlevel] at hex
    cases hex
  rc := hrc

end

/-! ### The ends of the calls -/

section

variable {Fd : Type} [DecidableEq Fd] {h : Held LockByte} {m : UnixProcess Fd} {f g : Fd} {l : FileLock}

@[simp] theorem setFile_self (m : UnixProcess Fd) (f : Fd) (l : FileLock) : (m.setFile f l).eFileLock f = l := by
  simp [UnixProcess.setFile, UnixProcess.eFileLock]

theorem setFile_of_ne (m : UnixProcess Fd) (l : FileLock) (hg : g ≠ f) :
    (m.setFile f l).eFileLock g = m.eFileLock g := by
  simp [UnixProcess.setFile, UnixProcess.eFileLock, Function.update_of_ne hg]

/-- Handles that are at `SHARED_LOCK` at most stay there, if `f` goes there. -/
theorem setFile_le_shared (hl : l ≤ .shared) (hothers : ∀ g, g ≠ f → m.eFileLock g ≤ .shared) (g : Fd) :
    (m.setFile f l).eFileLock g ≤ .shared := by
  by_cases hg : g = f
  · rw [hg, setFile_self]
    exact hl
  · rw [setFile_of_ne m l hg]
    exact hothers g hg

theorem posixUnlockShared_setFile (m : UnixProcess Fd) (f : Fd) (l : FileLock) :
    posixUnlockShared (m.setFile f l) f .no = posixUnlockShared m f .no := by
  simp [posixUnlockShared, posixUnlockCount, UnixProcess.setFile]

variable [Fintype Fd]

theorem lockedFds_insert (hf : m.eFileLock f = .no) (hl : l ≠ .no) :
    (m.setFile f l).lockedFds.card = m.lockedFds.card + 1 := by
  have hinsert : (m.setFile f l).lockedFds = insert f m.lockedFds := by
    ext g
    by_cases hg : g = f
    · subst hg
      simp [mem_lockedFds, hl]
    · simp [mem_lockedFds, setFile_of_ne m l hg, hg]
  rw [hinsert, Finset.card_insert_of_notMem (by simp [mem_lockedFds, hf])]

theorem lockedFds_erase (hf : m.eFileLock f ≠ .no) : (m.setFile f .no).lockedFds.card = m.lockedFds.card - 1 := by
  have herase : (m.setFile f .no).lockedFds = m.lockedFds.erase f := by
    ext g
    by_cases hg : g = f
    · subst hg
      simp [mem_lockedFds]
    · simp [mem_lockedFds, setFile_of_ne m .no hg, hg]
  rw [herase, Finset.card_erase_of_mem (mem_lockedFds.2 hf)]

theorem lockedFds_keep (hf : m.eFileLock f ≠ .no) (hl : l ≠ .no) : (m.setFile f l).lockedFds = m.lockedFds := by
  ext g
  by_cases hg : g = f
  · subst hg
    simp [mem_lockedFds, hf, hl]
  · simp [mem_lockedFds, setFile_of_ne m l hg]

theorem openFds_setFile (hf : (m.files f).isSome) (l : FileLock) : (m.setFile f l).openFds = m.openFds := by
  ext g
  by_cases hg : g = f
  · subst hg
    simp [mem_openFds, UnixProcess.setFile, hf]
  · simp [mem_openFds, UnixProcess.setFile, Function.update_of_ne hg]

theorem openFds_insert (hf : m.files f = none) (l : FileLock) : (m.setFile f l).openFds.card = m.openFds.card + 1 := by
  have hinsert : (m.setFile f l).openFds = insert f m.openFds := by
    ext g
    by_cases hg : g = f
    · subst hg
      simp [mem_openFds, UnixProcess.setFile]
    · simp [mem_openFds, UnixProcess.setFile, hg]
  rw [hinsert, Finset.card_insert_of_notMem (by simp [mem_openFds, hf])]

/-- The handle is gone. -/
def UnixProcess.dropFile (m : UnixProcess Fd) (f : Fd) : UnixProcess Fd :=
  { m with files := Function.update m.files f none }

theorem openFds_dropFile (hf : (m.files f).isSome) : (m.dropFile f).openFds.card = m.openFds.card - 1 := by
  have herase : (m.dropFile f).openFds = m.openFds.erase f := by
    ext g
    by_cases hg : g = f
    · subst hg
      simp [mem_openFds, UnixProcess.dropFile]
    · simp [mem_openFds, UnixProcess.dropFile, hg]
  rw [herase, Finset.card_erase_of_mem (mem_openFds.2 hf)]

/-- The handle at the level of the process stays there when another one goes to `SHARED_LOCK` or `NO_LOCK`. -/
theorem UnixProcess.Ok.top_setFile (hm : m.Ok h) (hf : m.eFileLock f ≤ .shared) (hl : l ≤ .shared)
    (htop : .shared < m.pInode.eFileLock) :
    ∃ f', (m.setFile f l).eFileLock f' = m.pInode.eFileLock ∧
      ∀ g, g ≠ f' → (m.setFile f l).eFileLock g ≤ .shared := by
  obtain ⟨f', hf', hothers⟩ := hm.top htop
  have hne : f' ≠ f := by
    rintro rfl
    exact absurd htop (Nat.not_lt_of_le (hf' ▸ hf))
  refine ⟨f', (setFile_of_ne m l hne).trans hf', fun g hg => ?_⟩
  by_cases hgf : g = f
  · rw [hgf, setFile_self]
    exact hl
  · rw [setFile_of_ne m l hgf]
    exact hothers g hg

/-- One more handle of a process that reads the file. -/
theorem UnixProcess.Ok.share (hm : m.Ok h) (hopen : (m.files f).isSome) (hf : m.eFileLock f = .no)
    (hl : m.pInode.eFileLock = .shared ∨ m.pInode.eFileLock = .reserved) :
    (({ m.setFile f .shared with
      pInode := { m.pInode with nShared := m.pInode.nShared + 1, nLock := m.pInode.nLock + 1 } }).ret SQLITE_OK).Ok h
          where
  held := hm.held
  nShared := by
    show m.pInode.nShared + 1 = (m.setFile f .shared).lockedFds.card
    rw [lockedFds_insert hf (by decide), hm.nShared]
  nLock := congrArg (· + 1) hm.nLock
  nRef := hm.nRef.trans (congrArg Finset.card (openFds_setFile hopen .shared).symm)
  noLock := by
    refine iff_of_false (fun hno => ?_) (Nat.succ_ne_zero _)
    have hno' : m.pInode.eFileLock = .no := hno
    rcases hl with hl | hl <;> rw [hl] at hno' <;> cases hno'
  top htop := hm.top_setFile (by rw [hf]; decide) (by decide) htop
  low hlow := setFile_le_shared (Nat.le_refl _) fun g _ => hm.low hlow g
  alone hex := by
    have hex' : m.pInode.eFileLock = .exclusive := hex
    rcases hl with hl | hl <;> rw [hl] at hex' <;> cases hex'
  rc := .inl rfl

/-- The only handle of a process, or the one at its level, goes to another level. -/
theorem UnixProcess.Ok.setLevel (hm : m.Ok h) (hopen : (m.files f).isSome)
    (hothers : ∀ g, g ≠ f → m.eFileLock g ≤ .shared) {h' : Held LockByte} (hheld : l.Holds h') (hl : l ≠ .no)
    {nShared : Nat}
    (hn : nShared = (m.setFile f l).lockedFds.card) (halone : l = .exclusive → nShared = 1) {rc : Int}
    (hrc : rc = SQLITE_OK ∨ rc = SQLITE_BUSY) :
    (({ m.setLevel f l with
      pInode := { m.pInode with nLock := nShared, nShared := nShared, eFileLock := l } }).ret rc).Ok h' where
  held := hheld
  nShared := hn
  nLock := rfl
  nRef := hm.nRef.trans (congrArg Finset.card (openFds_setFile hopen l).symm)
  noLock := by
    refine iff_of_false hl fun hz => ?_
    have hmem : f ∈ (m.setFile f l).lockedFds := mem_lockedFds.2 (by rw [setFile_self]; exact hl)
    have hz' : nShared = 0 := hz
    exact Finset.card_ne_zero_of_mem hmem (hn ▸ hz')
  top _ := by
    refine ⟨f, setFile_self m f l, fun g hg => ?_⟩
    exact Nat.le_trans (Nat.le_of_eq (congrArg FileLock.toNat (setFile_of_ne m l hg))) (hothers g hg)
  low hlow := setFile_le_shared hlow hothers
  alone := halone
  rc := hrc

/-- The same when the handle has a lock already. -/
theorem UnixProcess.Ok.move (hm : m.Ok h) (hothers : ∀ g, g ≠ f → m.eFileLock g ≤ .shared) (hf : m.eFileLock f ≠ .no)
    {h' : Held LockByte} (hheld : l.Holds h') (hl : l ≠ .no) (halone : l = .exclusive → m.pInode.nShared = 1) {rc : Int}
    (hrc : rc = SQLITE_OK ∨ rc = SQLITE_BUSY) : ((m.setLevel f l).ret rc).Ok h' := by
  have hn : m.pInode.nShared = (m.setFile f l).lockedFds.card := by rw [lockedFds_keep hf hl, hm.nShared]
  have hset := hm.setLevel (isSome_of_locked hf) hothers hheld hl hn halone hrc
  have hlock := hm.nLock
  exact { hset with nLock := hlock }

/-- A handle gives up its lock, and others keep theirs. -/
theorem UnixProcess.Ok.leave (hm : m.Ok h) (hf : m.eFileLock f = .shared) (hmore : m.pInode.nShared - 1 ≠ 0) :
    (({ m.setFile f .no with
      pInode := { m.pInode with nShared := m.pInode.nShared - 1, nLock := m.pInode.nLock - 1 } }).ret SQLITE_OK).Ok h
          where
  held := hm.held
  nShared := by
    show m.pInode.nShared - 1 = (m.setFile f .no).lockedFds.card
    rw [lockedFds_erase (by rw [hf]; decide), hm.nShared]
  nLock := congrArg (· - 1) hm.nLock
  nRef := hm.nRef.trans (congrArg Finset.card (openFds_setFile (isSome_of_locked (by rw [hf]; decide)) .no).symm)
  noLock := iff_of_false (hm.not_no (f := f) (by rw [hf]; decide)).2 hmore
  top htop := hm.top_setFile (by rw [hf]; decide) (by decide) htop
  low hlow := setFile_le_shared (by decide) fun g _ => hm.low hlow g
  alone hex := by
    have hone := hm.alone hex
    omega
  rc := .inl rfl

end

end Sqlite4a
