import Sqlite4a.UnixLock

/-!
# Exclusion between handles

Whatever the processes do and however their system calls interleave, two handles of the database file are never at
levels that exclude each other (`locks_exclude`), and as long as one of them has `PENDING_LOCK` no process gets to the
file anew (`pending_blocks`).  It is enough to follow the calls of one process, for any answers of the system.
-/

namespace Sqlite4a

open AdvisoryLocks

/-! ### What a process asks for -/

/-- The call takes the lock of the handle down. -/
def FileCall.lowers {Fd : Type} [DecidableEq Fd] : FileCall Fd → Fd → Bool
  | .unlock f _, g => f = g
  | _, _ => false

section

variable {Fd : Type} [DecidableEq Fd] [Fintype Fd]

/-- The range from `SHARED_FIRST` on is only locked behind the pending byte, and during a call the process has what the
handles need whose locks do not go down. -/
def unixRules : Rules LockByte (UnixProcess Fd) (FileCall Fd) where
  ask h r := r.places .shared = true → r.kind ≠ .unlck → h .pending ≠ .unlck ∨ h .shared ≠ .unlck
  during c m h := (∃ h₀, m.Ok h₀) ∧ ∀ g, c.lowers g = false → (m.eFileLock g).Needs h
  inv h m := m.Ok h

/-- What is left of the call `c` of a process that was `m` is safe. -/
abbrev SafeCall (c : FileCall Fd) (m : UnixProcess Fd) : Held LockByte → FcntlProg Fd → Prop :=
  let rules : Rules LockByte (UnixProcess Fd) (FileCall Fd) := unixRules
  Safe rules.ask (rules.during c m) rules.inv

variable {c : FileCall Fd} {h h₀ : Held LockByte} {m m₀ : UnixProcess Fd} {f g : Fd} {l : FileLock} {p : FcntlProg Fd}

theorem SafeCall.unlck {places : LockByte → Bool} {next : Bool → FcntlProg Fd} (hduring : unixRules.during c m h)
    (granted : SafeCall c m (h.set ⟨.unlck, places⟩) (next true)) : SafeCall c m h (.call ⟨.unlck, places⟩ next) :=
  Safe.covered (fun _ hne => absurd rfl hne) hduring (h.covers_unlck places) granted

/-- Closing descriptors does no harm to a process without locks. -/
theorem SafeCall.closeFd (hduring : unixRules.during c m fun _ => .unlck) (hp : SafeCall c m (fun _ => .unlck) p) :
    SafeCall c m (fun _ => .unlck) (closeFd p) :=
  .unlck hduring hp

theorem SafeCall.closePendingFds (hduring : unixRules.during c m fun _ => .unlck)
    (hp : SafeCall c m (fun _ => .unlck) p) (n : Nat) : SafeCall c m (fun _ => .unlck) (closePendingFds n p) := by
  induction n with
  | zero => exact hp
  | succ n ih => exact ih.closeFd hduring

/-- The end of `posixUnlock` for `NO_LOCK`, from the state in which the handle is at `SHARED_LOCK`; the last handle of a
process may leave whatever the process holds. -/
theorem SafeCall.posixUnlockShared (hok : m₀.Ok h₀) {h' : Held LockByte} (hm : m.Ok h') (hf : m.eFileLock f = .shared)
    (hheld : m.pInode.nShared - 1 ≠ 0 → h = h') (hsame : ∀ g, g ≠ f → m₀.eFileLock g = m.eFileLock g)
    (hc : ∀ g, c.lowers g = false → g ≠ f) : SafeCall c m₀ h (posixUnlockShared m f .no) := by
  have hne : m.eFileLock f ≠ .no := by rw [hf]; decide
  rw [Sqlite4a.posixUnlockShared, if_pos rfl]
  by_cases hlast : m.pInode.nShared - 1 = 0
  · -- the last lock of the process
    have hothers : ∀ g, g ≠ f → m.eFileLock g = .no := fun g hg => hm.only (by omega) hne hg
    have hduring : ∀ h', unixRules.during c m₀ h' := by
      refine fun h' => ⟨⟨h₀, hok⟩, fun g hg => ?_⟩
      rw [hsame g (hc g hg), hothers g (hc g hg)]
      trivial
    have hlock : m.pInode.nLock - 1 = 0 := by rw [hm.nLock]; exact hlast
    simp only [hlast, if_true, posixUnlockCount, hlock]
    refine .unlck (hduring h) (.closePendingFds (hduring _) (Safe.done ?_) _)
    refine UnixProcess.ok_unlocked (fun g => ?_) rfl rfl rfl
      (hm.nRef.trans (congrArg Finset.card (openFds_setFile (isSome_of_locked hne) .no).symm)) (.inl rfl)
    show (m.setFile f .no).eFileLock g = .no
    by_cases hg : g = f
    · rw [hg, setFile_self]
    · rw [setFile_of_ne m .no hg, hothers g hg]
  · have hlock : m.pInode.nLock - 1 ≠ 0 := by rw [hm.nLock]; exact hlast
    simp only [hlast, if_false, posixUnlockCount, hlock]
    rw [hheld hlast]
    exact Safe.done (hm.leave hf hlast)

/-- What is held after `posixUnlock` has taken a process down to `SHARED_LOCK`. -/
def lowered (h : Held LockByte) : Held LockByte :=
  (h.set ⟨.rdlck, onBytes [.shared]⟩).set ⟨.unlck, onBytes [.pending, .reserved]⟩

theorem SafeCall.posixUnlock (hm : m.Ok h) (hl : l ≤ .shared) : SafeCall (.unlock f l) m h (posixUnlock m f l) := by
  have hc : ∀ g, (FileCall.unlock f l).lowers g = false → g ≠ f := by
    rintro g hg rfl
    simp [FileCall.lowers] at hg
  rw [Sqlite4a.posixUnlock]
  by_cases hle : m.eFileLock f ≤ l
  · rw [if_pos hle]
    exact Safe.done (hm.ret (.inl rfl))
  · rw [if_neg hle]
    by_cases htop : FileLock.shared < m.eFileLock f
    · rw [if_pos htop]
      obtain ⟨heq, hothers⟩ := hm.others htop
      have hf : m.eFileLock f ≠ .no := fun hno => by rw [hno] at htop; exact absurd htop (by decide)
      have hlow : FileLock.shared.Holds (lowered h) := ⟨rfl, rfl, rfl⟩
      have hok : ((m.setLevel f .shared).ret m.rc).Ok (lowered h) :=
        hm.move hothers hf hlow (by decide) (fun he => by cases he) hm.rc
      have hneeds : ∀ h', h' .shared ≠ .unlck → unixRules.during (.unlock f l) m h' := by
        refine fun h' hs => ⟨⟨h, hm⟩, fun g hg => ?_⟩
        by_cases hno : m.eFileLock g = .no
        · rw [hno]
          trivial
        · rw [FileLock.eq_shared (hothers g (hc g hg)) hno]
          exact hs
      have hread : h .shared ≠ .unlck := (hm.needs f).shared hf
      by_cases hls : l = .shared
      · subst hls
        rw [if_pos rfl]
        refine Safe.covered (fun _ _ => .inr hread) (hneeds h hread) (fun x hx => ?_)
          (SafeCall.unlck (hneeds _ (show Kind.rdlck ≠ .unlck by decide)) (Safe.done ?_))
        · cases x with
          | shared => exact Kind.rdlck_weaker hread
          | pending => cases hx
          | reserved => cases hx
        · exact hm.move hothers hf hlow (by decide) (fun he => by cases he) (.inl rfl)
      · have hno : l = .no := by
          by_contra hne
          exact hls (FileLock.eq_shared hl hne)
        subst hno
        rw [if_neg (by decide)]
        refine SafeCall.unlck (hneeds h hread) ?_
        rw [← posixUnlockShared_setFile _ f .shared]
        refine SafeCall.posixUnlockShared hm hok (setFile_self m f .shared) (fun hmore => ?_)
          (fun g hg => (setFile_of_ne m .shared hg).symm) hc
        have hex : m.eFileLock f ≠ .exclusive := by
          intro hex
          have hone := hm.alone (heq ▸ hex)
          have hmore' : m.pInode.nShared - 1 ≠ 0 := hmore
          omega
        have hrd : h .shared = .rdlck := FileLock.Holds.rdlck (heq ▸ hm.held) hf hex
        funext x
        cases x with
        | shared => exact hrd
        | pending => rfl
        | reserved => rfl
    · have hno : l = .no := by
        by_contra hne
        exact hle (FileLock.eq_shared hl hne ▸ Nat.le_of_not_lt htop)
      subst hno
      rw [if_neg htop]
      have hf : m.eFileLock f = .shared :=
        FileLock.eq_shared (Nat.le_of_not_lt htop) fun hno => hle (Nat.le_of_eq (congrArg FileLock.toNat hno))
      exact SafeCall.posixUnlockShared hm hm hf (fun _ => rfl) (fun _ _ => rfl) hc

/-- With a write lock on the pending byte. -/
def gateShut (h : Held LockByte) : Held LockByte := h.set ⟨.wrlck, onBytes [.pending]⟩

theorem needs_gateShut (hl : l.Needs h) : l.Needs (gateShut h) := by
  cases l with
  | no => trivial
  | shared => exact hl
  | reserved => exact hl
  | pending => exact ⟨rfl, hl.2⟩
  | exclusive => exact ⟨rfl, hl.2⟩

/-- `unixLock` for `EXCLUSIVE_LOCK` when the pending byte is locked. -/
theorem SafeCall.unixLockExclusive (hok : m.Ok h₀) (hf : m.eFileLock f ≠ .no)
    (hothers : ∀ g, g ≠ f → m.eFileLock g ≤ .shared) (hpending : FileLock.pending.Holds h)
    (hneeds : ∀ g, (m.eFileLock g).Needs h) : SafeCall (.lock f .exclusive) m h (unixLockWrite m f .exclusive) := by
  have hfailed : ((m.setLevel f .pending).ret SQLITE_BUSY).Ok h :=
    hok.move hothers hf hpending (by decide) (fun he => by cases he) (.inr rfl)
  rw [unixLockWrite, if_pos rfl]
  by_cases hmore : 1 < m.pInode.nShared
  · rw [if_pos ⟨rfl, hmore⟩]
    exact Safe.done hfailed
  · have hone : m.pInode.nShared = 1 := by
      have hpos := (hok.not_no hf).1
      omega
    rw [if_neg fun h => hmore h.2]
    refine Safe.call (fun _ _ => .inl ?_) ⟨⟨h₀, hok⟩, fun g _ => hneeds g⟩ (Safe.done ?_) fun _ => Safe.done hfailed
    · rw [hpending.1]
      decide
    · refine hok.move hothers hf ?_ (by decide) (fun _ => hone) (.inl rfl)
      exact ⟨hpending.1, rfl⟩

theorem SafeCall.unixLock (hm : m.Ok h) (hopen : (m.files f).isSome) (hallowed : m.eFileLock f ≠ .no ∨ l = .shared)
    (hl : l ≠ .pending) : SafeCall (.lock f l) m h (unixLock m f l) := by
  have hduring : ∀ h', (∀ g, (m.eFileLock g).Needs h') → unixRules.during (.lock f l) m h' :=
    fun h' hneeds => ⟨⟨h, hm⟩, fun g _ => hneeds g⟩
  rw [Sqlite4a.unixLock]
  by_cases hle : l ≤ m.eFileLock f
  · rw [if_pos hle]
    exact Safe.done (hm.ret (.inl rfl))
  rw [if_neg hle]
  by_cases hbusy : m.eFileLock f ≠ m.pInode.eFileLock ∧ (.pending ≤ m.pInode.eFileLock ∨ .shared < l)
  · rw [if_pos hbusy]
    exact Safe.done (hm.ret (.inr rfl))
  rw [if_neg hbusy]
  have hbelow : l = .shared → m.eFileLock f = .no := by
    rintro rfl
    by_contra hne
    exact hle (FileLock.shared_le hne)
  by_cases hshare : l = .shared ∧ (m.pInode.eFileLock = .shared ∨ m.pInode.eFileLock = .reserved)
  · rw [if_pos hshare]
    exact Safe.done (hm.share hopen (hbelow hshare.1) hshare.2)
  rw [if_neg hshare]
  by_cases hls : l = .shared
  · -- the first lock of the process
    have hno : m.eFileLock f = .no := hbelow hls
    subst hls
    rw [if_pos rfl]
    have hnone : m.pInode.eFileLock = .no := by
      cases hp : m.pInode.eFileLock with
      | no => rfl
      | shared => exact absurd ⟨rfl, .inl hp⟩ hshare
      | reserved => exact absurd ⟨rfl, .inr hp⟩ hshare
      | pending => exact absurd ⟨by rw [hno, hp]; decide, .inl (by rw [hp]; decide)⟩ hbusy
      | exclusive => exact absurd ⟨by rw [hno, hp]; decide, .inl (by rw [hp]; decide)⟩ hbusy
    have hzero : m.pInode.nShared = 0 := hm.noLock.1 hnone
    have hfree : ∀ h', unixRules.during (.lock f .shared) m h' := by
      refine fun h' => hduring h' fun g => ?_
      rw [hm.none_locked hzero g]
      trivial
    have hunlck := hm.held
    rw [hnone] at hunlck
    refine Safe.call (fun hx => by cases hx) (hfree h) ?_ fun _ => Safe.done (hm.ret (.inr rfl))
    refine Safe.call (fun _ _ => .inl (show Kind.rdlck ≠ .unlck by decide)) (hfree _)
      (SafeCall.unlck (hfree _) (Safe.done ?_)) fun _ => SafeCall.unlck (hfree _) (Safe.done ?_)
    · have hn : 1 = (m.setFile f .shared).lockedFds.card := by
        rw [lockedFds_insert hno (by decide), ← hm.nShared, hzero]
      have hheld : FileLock.shared.Holds
          (((h.set ⟨.rdlck, onBytes [.pending]⟩).set ⟨.rdlck, onBytes [.shared]⟩).set ⟨.unlck, onBytes [.pending]⟩) :=
        ⟨rfl, hunlck .reserved, rfl⟩
      have hset := hm.setLevel hopen (fun g _ => hm.low (hnone ▸ by decide) g) hheld (by decide) hn
        (fun he => by cases he) (.inl rfl)
      exact { hset with nLock := congrArg (· + 1) (hm.nLock.trans hzero) }
    · refine { hm.ret (.inr rfl) with held := ?_ }
      show m.pInode.eFileLock.Holds _
      rw [hnone]
      intro x
      cases x with
      | pending => rfl
      | reserved => exact hunlck .reserved
      | shared => exact hunlck .shared
  rw [if_neg hls]
  have hf : m.eFileLock f ≠ .no := hallowed.resolve_right hls
  have hlt : FileLock.shared < l := by
    cases l with
    | no => exact absurd (Nat.zero_le _) hle
    | shared => exact absurd rfl hls
    | reserved => decide
    | pending => decide
    | exclusive => decide
  have hlevel : m.eFileLock f = m.pInode.eFileLock := by
    by_contra hne
    exact hbusy ⟨hne, .inr hlt⟩
  have hothers : ∀ g, g ≠ f → m.eFileLock g ≤ .shared := by
    by_cases htop : FileLock.shared < m.eFileLock f
    · exact (hm.others htop).2
    · exact fun g _ => hm.low (hlevel ▸ Nat.le_of_not_lt htop) g
  have hheld := hm.held
  rw [← hlevel] at hheld
  by_cases hgate : l = .exclusive ∧ m.eFileLock f < .pending
  · rw [if_pos hgate]
    obtain ⟨rfl, hlow⟩ := hgate
    have hrd : h .shared = .rdlck := hheld.rdlck hf fun hex => by
      rw [hex] at hlow
      exact absurd hlow (by decide)
    refine Safe.call (fun hx => by cases hx) (hduring h fun g => hm.needs g) ?_ fun _ => Safe.done (hm.ret (.inr rfl))
    exact SafeCall.unixLockExclusive hm hf hothers ⟨rfl, hrd⟩ fun g => needs_gateShut (hm.needs g)
  rw [if_neg hgate]
  cases l with
  | no => exact absurd (Nat.zero_le _) hle
  | shared => exact absurd rfl hls
  | pending => exact absurd rfl hl
  | reserved =>
    have hshared : m.eFileLock f = .shared := FileLock.eq_shared (Nat.le_of_lt_succ (Nat.lt_of_not_le hle)) hf
    rw [hshared] at hheld
    rw [unixLockWrite, if_neg fun h => by cases h.1]
    refine Safe.call (fun hx => by cases hx) (hduring h fun g => hm.needs g) (Safe.done ?_) fun _ =>
      Safe.done (hm.ret (.inr rfl))
    refine hm.move hothers hf ?_ (by decide) (fun he => by cases he) (.inl rfl)
    exact ⟨hheld.1, rfl, hheld.2.2⟩
  | exclusive =>
    have hpend : m.eFileLock f = .pending :=
      FileLock.eq_pending (Nat.le_of_not_lt fun hlow => hgate ⟨rfl, hlow⟩) (Nat.lt_of_not_le hle)
    rw [hpend] at hheld
    exact SafeCall.unixLockExclusive hm hf hothers hheld fun g => hm.needs g

theorem SafeCall.unixOpen (hm : m.Ok h) (hf : m.files f = none) (reuse : Bool) :
    SafeCall c m h (unixOpen m f reuse) := by
  refine Safe.done (hm.sameLocks (fun g => ?_) rfl rfl rfl ?_ (.inl rfl))
  · show (m.setFile f .no).eFileLock g = m.eFileLock g
    by_cases hg : g = f
    · rw [hg, setFile_self, UnixProcess.eFileLock, hf]
      rfl
    · exact setFile_of_ne m .no hg
  · exact (congrArg (· + 1) hm.nRef).trans (openFds_insert hf .no).symm

theorem SafeCall.unixClose (hm : m.Ok h) (hf : m.files f = some .no) : SafeCall (.close f) m h (unixClose m f) := by
  have hfiles : ∀ g, (m.dropFile f).eFileLock g = m.eFileLock g := by
    intro g
    by_cases hg : g = f
    · simp [UnixProcess.dropFile, UnixProcess.eFileLock, hg, hf]
    · simp [UnixProcess.dropFile, UnixProcess.eFileLock, Function.update_of_ne hg]
  have href : (m.dropFile f).openFds.card = m.pInode.nRef - 1 := by
    rw [openFds_dropFile (by rw [hf]; rfl), hm.nRef]
  rw [Sqlite4a.unixClose]
  by_cases hlock : m.pInode.nLock = 0
  · have hzero : m.pInode.nShared = 0 := hm.nLock.symm.trans hlock
    have hnone : m.pInode.eFileLock = .no := hm.noLock.2 hzero
    have hheld := hm.held
    rw [hnone] at hheld
    have hunlck : h = fun _ => .unlck := funext hheld
    have hduring : unixRules.during (.close f) m fun _ => .unlck := by
      refine ⟨⟨h, hm⟩, fun g _ => ?_⟩
      rw [hm.none_locked hzero g]
      trivial
    have hno : ∀ g, (m.dropFile f).eFileLock g = .no := fun g => (hfiles g).trans (hm.none_locked hzero g)
    simp only [hlock, if_true]
    rw [hunlck]
    by_cases hlast : m.pInode.nRef - 1 = 0
    · rw [if_pos hlast]
      refine .closePendingFds hduring (.closeFd hduring (Safe.done ?_)) _
      exact UnixProcess.ok_unlocked hno rfl rfl rfl (href.trans hlast).symm (.inl rfl)
    · rw [if_neg hlast]
      exact .closeFd hduring (Safe.done (UnixProcess.ok_unlocked hno hnone hzero rfl href.symm (.inl rfl)))
  · simp only [hlock, if_false, hm.two_open hf hlock]
    exact Safe.done (hm.sameLocks hfiles rfl rfl rfl href.symm (.inl rfl))

/-- Every call of every process is safe. -/
theorem unixRules_kept : (unixRules : Rules LockByte (UnixProcess Fd) (FileCall Fd)).Kept unixCode where
  fresh := UnixProcess.ok_unlocked (fun _ => rfl) rfl rfl rfl
      (by simp [unixCode, UnixInodeInfo.fresh, UnixProcess.openFds])
    (.inl rfl)
  prog := by
    intro c m h hallowed hm
    cases c with
    | openFile f reuse =>
      exact SafeCall.unixOpen hm (by simpa [unixCode, FileCall.allowed] using hallowed) reuse
    | lock f l =>
      have hall : ((m.files f).isSome ∧ (m.eFileLock f ≠ .no ∨ l = .shared)) ∧ l ≠ .pending := by
        simpa [unixCode, FileCall.allowed] using hallowed
      exact SafeCall.unixLock hm hall.1.1 hall.1.2 hall.2
    | unlock f l =>
      have hall : (m.files f).isSome ∧ l ≤ .shared := by simpa [unixCode, FileCall.allowed] using hallowed
      exact SafeCall.posixUnlock hm hall.2
    | close f => exact SafeCall.unixClose hm (by simpa [unixCode, FileCall.allowed] using hallowed)

end

/-! ### Levels that exclude each other -/

/-- Two handles may be at these levels at the same time. -/
def FileLock.compatible : FileLock → FileLock → Bool
  | .no, _ => true
  | _, .no => true
  | .exclusive, _ => false
  | _, .exclusive => false
  | .shared, _ => true
  | _, .shared => true
  | .reserved, .reserved => false
  | .pending, .pending => false
  | .reserved, .pending => true
  | .pending, .reserved => true

variable {a b : FileLock}

theorem FileLock.compatible_of (ha : a = .exclusive → b = .no) (hb : b = .exclusive → a = .no)
    (hsame : a = b → a ≤ .shared) : a.compatible b = true := by
  cases a with
  | no => rfl
  | shared =>
    cases b with
    | exclusive => exact absurd (hb rfl) (by decide)
    | _ => rfl
  | reserved =>
    cases b with
    | exclusive => exact absurd (hb rfl) (by decide)
    | reserved => exact absurd (hsame rfl) (by decide)
    | _ => rfl
  | pending =>
    cases b with
    | exclusive => exact absurd (hb rfl) (by decide)
    | pending => exact absurd (hsame rfl) (by decide)
    | _ => rfl
  | exclusive =>
    rw [ha rfl]
    rfl

/-- Handles of two processes. -/
theorem compatible_of_apart {h h' : Held LockByte} (ha : a.Needs h) (hb : b.Needs h')
    (hapart : ∀ x, (h x).conflicts (h' x) = false) : a.compatible b = true := by
  refine FileLock.compatible_of ?_ ?_ ?_
  · rintro rfl
    by_contra hne
    exact hb.shared hne (Kind.unlck_of_wrlck ha.2 (hapart .shared))
  · rintro rfl
    by_contra hne
    refine ha.shared hne (Kind.unlck_of_wrlck hb.2 ?_)
    rw [Kind.conflicts_comm]
    exact hapart .shared
  · rintro rfl
    by_contra hlt
    -- both have a write lock on the same byte
    have hboth : ∃ x, h x = .wrlck ∧ h' x = .wrlck := by
      cases a with
      | no => exact absurd (by decide) hlt
      | shared => exact absurd (by decide) hlt
      | reserved => exact ⟨.reserved, ha.1, hb.1⟩
      | pending => exact ⟨.pending, ha.1, hb.1⟩
      | exclusive => exact ⟨.pending, ha.1, hb.1⟩
    obtain ⟨x, hx, hx'⟩ := hboth
    have hconflict := hapart x
    rw [hx, hx'] at hconflict
    cases hconflict

/-- Two handles of one process. -/
theorem UnixProcess.Ok.compatible {Fd : Type} [Fintype Fd] {h : Held LockByte} {m : UnixProcess Fd} {f g : Fd}
    (hm : m.Ok h) (hfg : f ≠ g) :
    (m.eFileLock f).compatible (m.eFileLock g) = true := by
  have hexclusive : ∀ {f g : Fd}, f ≠ g → m.eFileLock f = .exclusive → m.eFileLock g = .no := by
    intro f g hfg hex
    have htop := (hm.others (f := f) (by rw [hex]; decide)).1
    exact hm.only (Nat.le_of_eq (hm.alone (htop ▸ hex))) (by rw [hex]; decide) hfg.symm
  refine FileLock.compatible_of (hexclusive hfg) (hexclusive hfg.symm) fun hsame => ?_
  by_contra hlt
  have hlt' : FileLock.shared < m.eFileLock f := Nat.lt_of_not_le hlt
  exact hlt (hsame ▸ (hm.others hlt').2 g hfg.symm)

/-! ### All processes -/

section

variable {ι Fd : Type} [DecidableEq Fd]

/-- The level of a handle, unless it is just going down. -/
def level (s : System ι LockByte (UnixProcess Fd) (FileCall Fd)) (i : ι) (f : Fd) : Option FileLock :=
  match (s.owners i).call with
  | some (c, _) => if c.lowers f then none else some ((s.owners i).mem.eFileLock f)
  | none => some ((s.owners i).mem.eFileLock f)

variable [Fintype Fd] {s s' : System ι LockByte (UnixProcess Fd) (FileCall Fd)} {i j : ι} {f g : Fd}

/-- A process whose handles are in order, and what is known of its locks. -/
theorem process_ok (hs : unixRules.Sound s) (i : ι) :
    (∃ h₀, (s.owners i).mem.Ok h₀) ∧
      ∀ f a, level s i f = some a → (s.owners i).mem.eFileLock f = a ∧ a.Needs (s.locks i) := by
  cases hcall : (s.owners i).call with
  | none =>
    have hok : (s.owners i).mem.Ok (s.locks i) := (hs.owner i).idle hcall
    refine ⟨⟨_, hok⟩, fun f a ha => ?_⟩
    rw [level, hcall] at ha
    cases ha
    exact ⟨rfl, hok.needs f⟩
  | some call =>
    obtain ⟨c, r, next⟩ := call
    obtain ⟨hok, hneeds⟩ := (hs.owner i).during hcall
    refine ⟨hok, fun f a ha => ?_⟩
    simp only [level, hcall] at ha
    by_cases hlow : c.lowers f = true
    · rw [if_pos hlow] at ha
      cases ha
    · rw [if_neg hlow] at ha
      cases ha
      exact ⟨rfl, hneeds f (by simpa using hlow)⟩

variable [DecidableEq ι] [Fintype ι] {as bs : List (Action ι (FileCall Fd))}

theorem sound_of_run (hrun : as.foldlM unixCode.step unixCode.start = some s) : unixRules.Sound s :=
  run_sound unixRules_kept unixRules_kept.start hrun

/-- In every interleaving of the system calls of any number of processes, two handles are never at levels that exclude
each other: `EXCLUSIVE_LOCK` is alone, and no two handles have `RESERVED_LOCK`, or `PENDING_LOCK`. -/
theorem locks_exclude (hrun : as.foldlM unixCode.step unixCode.start = some s) (hne : (i, f) ≠ (j, g))
    (ha : level s i f = some a)
    (hb : level s j g = some b) : a.compatible b = true := by
  have hs := sound_of_run hrun
  obtain ⟨⟨h₀, hok⟩, hneeds⟩ := process_ok hs i
  by_cases hij : i = j
  · subst hij
    have hfg : f ≠ g := fun h => hne (by rw [h])
    rw [← (hneeds f a ha).1, ← (hneeds g b hb).1]
    exact hok.compatible hfg
  · exact compatible_of_apart (hneeds f a ha).2 ((process_ok hs j).2 g b hb).2 (hs.apart i j hij)

/-- One process wants to write while another one reads. -/
def readerAndWriter : List (Action (Fin 2) (FileCall (Fin 2))) :=
  [.start 0 (.openFile 0 false), .start 1 (.openFile 0 false),
    .start 0 (.lock 0 .shared), .request 0 false, .request 0 false, .request 0 false,
    .start 1 (.lock 0 .shared), .request 1 false, .request 1 false, .request 1 false,
    .start 0 (.lock 0 .reserved), .request 0 false,
    .start 0 (.lock 0 .exclusive), .request 0 false, .request 0 false]

theorem locks_exclude_readerAndWriter :
    ∃ s ∈ readerAndWriter.foldlM unixCode.step unixCode.start,
      level s 0 0 = some .pending ∧ level s 1 0 = some .shared ∧ FileLock.compatible .pending .shared = true := by
  obtain ⟨s, hrun⟩ : ∃ s, readerAndWriter.foldlM unixCode.step unixCode.start = some s :=
    Option.isSome_iff_exists.1 rfl
  have hlevels : level s 0 0 = some .pending ∧ level s 1 0 = some .shared := by
    cases hrun
    exact ⟨rfl, rfl⟩
  exact ⟨s, hrun, hlevels.1, hlevels.2, locks_exclude hrun (by decide) hlevels.1 hlevels.2⟩

/-- As long as a handle has `PENDING_LOCK` at least, no handle of a process that has no lock gets one. -/
theorem pending_blocks (hrun : as.foldlM unixCode.step unixCode.start = some s)
    (hrest : bs.foldlM unixCode.step s = some s') (hj : j ≠ i)
    (hpending : ∀ k t, (bs.take k).foldlM unixCode.step s = some t → ∃ a, level t i f = some a ∧ .pending ≤ a)
    (hidle : (s.owners j).call = none) (hno : ∀ g, level s j g = some .no) (ha : level s' j g = some a) : a = .no := by
  have hs := sound_of_run hrun
  have hgated : (unixRules : Rules LockByte (UnixProcess Fd) (FileCall Fd)).Gated .pending .shared :=
    fun _ _ hask hplaces hkind => hask hplaces hkind
  -- the process starts outside of the range that readers lock
  have hout : s.locks j .shared = .unlck := by
    have hok : (s.owners j).mem.Ok (s.locks j) := (hs.owner j).idle hidle
    have hzero : (s.owners j).mem.pInode.nShared = 0 := by
      rw [hok.nShared, Finset.card_eq_zero]
      exact Finset.filter_eq_empty_iff.2 fun g _ hg => hg ((process_ok hs j).2 g .no (hno g)).1
    have hheld := hok.held
    rw [hok.noLock.2 hzero] at hheld
    exact hheld .shared
  have hgate : ∀ k t, (bs.take k).foldlM unixCode.step s = some t → t.locks i .pending = .wrlck := by
    intro k t ht
    obtain ⟨a, ha, hle⟩ := hpending k t ht
    have hneeds := ((process_ok (run_sound unixRules_kept hs ht) i).2 f a ha).2
    cases a with
    | pending => exact hneeds.1
    | exclusive => exact hneeds.1
    | no => exact absurd hle (by decide)
    | shared => exact absurd hle (by decide)
    | reserved => exact absurd hle (by decide)
  have hclosed := gate_closed_run hgated unixRules_kept hs hrest hj hgate hout
  by_contra hne
  exact ((process_ok (run_sound unixRules_kept hs hrest) j).2 g a ha).2.shared hne hclosed

/-- The writer has `EXCLUSIVE_LOCK`. -/
def writer : List (Action (Fin 2) (FileCall (Fin 2))) :=
  [.start 0 (.openFile 0 false), .start 1 (.openFile 0 false),
    .start 0 (.lock 0 .shared), .request 0 false, .request 0 false, .request 0 false,
    .start 0 (.lock 0 .exclusive), .request 0 false, .request 0 false]

theorem pending_blocks_writer :
    ∃ s ∈ writer.foldlM unixCode.step unixCode.start,
      ∃ s' ∈ [.start 1 (.lock 0 .shared), .request 1 false].foldlM unixCode.step s,
        level s' 0 0 = some .exclusive ∧ ∀ a, level s' 1 0 = some a → a = .no := by
  obtain ⟨s, hrun⟩ : ∃ s, writer.foldlM unixCode.step unixCode.start = some s := Option.isSome_iff_exists.1 rfl
  obtain ⟨s', hrest⟩ : ∃ s', [.start 1 (.lock 0 .shared), .request 1 false].foldlM unixCode.step s = some s' := by
    cases hrun
    exact Option.isSome_iff_exists.1 rfl
  have hpending : ∀ k t, ([.start 1 (.lock 0 .shared), .request 1 false].take k).foldlM unixCode.step s = some t →
      ∃ a, level t 0 0 = some a ∧ .pending ≤ a := by
    intro k t ht
    cases hrun
    rcases k with _ | _ | k
    · cases ht
      exact ⟨.exclusive, rfl, by decide⟩
    · cases ht
      exact ⟨.exclusive, rfl, by decide⟩
    · rw [List.take_of_length_le (Nat.le_add_left 2 k)] at ht
      cases ht
      exact ⟨.exclusive, rfl, by decide⟩
  have hidle : (s.owners 1).call = none ∧ ∀ g, level s 1 g = some .no := by
    cases hrun
    exact ⟨rfl, by decide⟩
  have hlevel : level s' 0 0 = some .exclusive := by
    cases hrun
    cases hrest
    rfl
  exact ⟨s, hrun, s', hrest, hlevel, fun a ha => pending_blocks hrun hrest (by decide) hpending hidle.1 hidle.2 ha⟩

/-- What the system refuses shows in `unixLock` only: `posixUnlock` asks for locks that the process has. -/
theorem never_ioerr (hrun : as.foldlM unixCode.step unixCode.start = some s) (i : ι) :
    (s.owners i).mem.rc = SQLITE_OK ∨ (s.owners i).mem.rc = SQLITE_BUSY := by
  obtain ⟨⟨h₀, hok⟩, -⟩ := process_ok (sound_of_run hrun) i
  exact hok.rc

theorem never_ioerr_readerAndWriter :
    ∃ s ∈ readerAndWriter.foldlM unixCode.step unixCode.start,
      (s.owners 0).mem.rc = SQLITE_OK ∨ (s.owners 0).mem.rc = SQLITE_BUSY := by
  obtain ⟨s, hrun⟩ : ∃ s, readerAndWriter.foldlM unixCode.step unixCode.start = some s :=
    Option.isSome_iff_exists.1 rfl
  exact ⟨s, hrun, never_ioerr hrun 0⟩

end

end Sqlite4a
