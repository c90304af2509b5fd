import Mathlib.Logic.Function.Basic
import Mathlib.Tactic.Common

/-!
# The pager

The rollback journal, the sub-journal and the page cache of one database file.  A write transaction saves the content of
a page in the journal before it changes the page in the cache, and pages go to the database file only when the journal
has been synced.  A savepoint is the position in both journals at the time it was opened.

The pager works on files in the order of its system calls; `trace` collects what the disk has held.  Journal mode is
`DELETE` and `synchronous` is `EXTRA`: the deletion of the journal syncs the directory.  Offsets in the journals count
headers and records.
-/

namespace Sqlite4a

/-! ### Files -/

/-- What is found in the journal file: `torn` is what a power failure leaves where something was being written. -/
inductive JournalItem (α : Type)
  | header (magic : Bool) (nRec dbOrigSize : Nat)
  | page (pgno : Nat) (data : α)
  | torn

/-- The database file and the journal file, with what has reached the surface of the disk: the file has at least
`dbPagesMin` pages there. -/
structure Disk (α : Type) where
  db : Nat → α
  dbSynced : Nat → Bool
  dbPages : Nat
  dbPagesMin : Nat
  journal : List (JournalItem α × Bool)

inductive Syscall (α : Type)
  | writeDb (pgno : Nat) (data : α)
  | syncDb
  | truncateDb (nPage : Nat)
  | writeJournal (off : Nat) (item : JournalItem α)
  | syncJournal
  | deleteJournal

/-- The content of a page.  A new page is zeroed; page 1 has the change counter of the database. -/
class PageContent (α : Type) extends Inhabited α where
  changeCounter : α → UInt32
  putChangeCounter : UInt32 → α → α
  put_put : ∀ c d x, putChangeCounter c (putChangeCounter d x) = putChangeCounter c x

def SQLITE_VERSION_NUMBER : UInt32 := 3018000

def sqlite3Get4byte (p : Nat → UInt8) (off : Nat) : UInt32 :=
  (p off).toUInt32 <<< 24 ||| (p (off + 1)).toUInt32 <<< 16 ||| (p (off + 2)).toUInt32 <<< 8 ||| (p (off + 3)).toUInt32

def put32bits (p : Nat → UInt8) (off : Nat) (v : UInt32) : Nat → UInt8 := fun i =>
  if off ≤ i ∧ i < off + 4 then (v >>> (24 - 8 * UInt32.ofNat (i - off))).toUInt8 else p i

/-- The bytes of a page: the counter is at offset 24, and again at offset 92 with the version of the library. -/
instance : PageContent (Nat → UInt8) where
  changeCounter data := sqlite3Get4byte data 24
  putChangeCounter c data := put32bits (put32bits (put32bits data 24 c) 92 c) 96 SQLITE_VERSION_NUMBER
  put_put c d x := by
    funext i
    by_cases h₁ : 96 ≤ i ∧ i < 96 + 4
    · simp only [put32bits, if_pos h₁]
    · by_cases h₂ : 92 ≤ i ∧ i < 92 + 4
      · simp only [put32bits, if_neg h₁, if_pos h₂]
      · by_cases h₃ : 24 ≤ i ∧ i < 24 + 4
        · simp only [put32bits, if_neg h₁, if_neg h₂, if_pos h₃]
        · simp only [put32bits, if_neg h₁, if_neg h₂, if_neg h₃]

variable {α : Type} [PageContent α]

def Disk.exec (d : Disk α) : Syscall α → Disk α
  | .writeDb pgno data =>
    { d with
      db := Function.update d.db pgno data
      dbSynced := Function.update d.dbSynced pgno false
      dbPages := max d.dbPages pgno }
  | .syncDb => { d with dbSynced := fun _ => true, dbPagesMin := d.dbPages }
  | .truncateDb nPage =>
    { d with
      db := fun p => if nPage < p then default else d.db p
      dbSynced := fun p => if nPage < p then false else d.dbSynced p
      dbPages := nPage
      dbPagesMin := min d.dbPagesMin nPage }
  | .writeJournal off item =>
    { d with
      journal :=
        if off < d.journal.length then d.journal.set off (item, false) else d.journal ++ [(item, false)] }
  | .syncJournal => { d with journal := d.journal.map fun i => (i.1, true) }
  | .deleteJournal => { d with journal := [] }

/-! ### The pager -/

inductive PagerState
  | opened
  | reader
  | writerLocked
  | writerCachemod
  | writerDbmod
  | writerFinished
  deriving DecidableEq

/-- A page in the cache. -/
structure PgHdr (α : Type) where
  data : α
  dirty : Bool
  needSync : Bool
  writeable : Bool

structure PagerSavepoint where
  nOrig : Nat
  iOffset : Nat
  iHdrOffset : Nat
  iSubRec : Nat
  pInSavepoint : Nat → Bool

/-- `sjfd` holds the `nSubRec` records of the sub-journal; `isOpenJfd` is `isOpen(jfd)`; of the sixteen bytes of
`dbFileVers` there are the first four. -/
structure Pager (α : Type) where
  eState : PagerState
  changeCountDone : Bool
  dbFileVers : UInt32
  dbSize : Nat
  dbOrigSize : Nat
  dbFileSize : Nat
  cache : Nat → Option (PgHdr α)
  isOpenJfd : Bool
  nRec : Nat
  journalHdr : Nat
  journalOff : Nat
  pInJournal : Nat → Bool
  aSavepoint : List PagerSavepoint
  sjfd : List (Nat × α)

structure PagerSys (α : Type) where
  pager : Pager α
  disk : Disk α
  trace : List (Disk α)

def PagerSys.call (s : PagerSys α) (c : Syscall α) : PagerSys α :=
  { s with disk := s.disk.exec c, trace := s.trace ++ [s.disk.exec c] }

def JOURNAL_HDR_SZ : Nat := 1
def JOURNAL_PG_SZ : Nat := 1

def sqlite3BitvecSet (b : Nat → Bool) (i : Nat) : Nat → Bool := Function.update b i true

/-! ### The journals -/

/-- A savepoint needs the page in the sub-journal. -/
def subjRequiresPage (aSavepoint : List PagerSavepoint) (pgno : Nat) : Bool :=
  aSavepoint.any fun p => decide (pgno ≤ p.nOrig) && !p.pInSavepoint pgno

def addToSavepointBitvecs (aSavepoint : List PagerSavepoint) (pgno : Nat) : List PagerSavepoint :=
  aSavepoint.map fun p => if pgno ≤ p.nOrig then { p with pInSavepoint := sqlite3BitvecSet p.pInSavepoint pgno } else p

def subjournalPage (pager : Pager α) (pgno : Nat) (data : α) : Pager α :=
  { pager with
    sjfd := pager.sjfd ++ [(pgno, data)], aSavepoint := addToSavepointBitvecs pager.aSavepoint pgno }

def subjournalPageIfRequired (pager : Pager α) (pgno : Nat) (data : α) : Pager α :=
  if subjRequiresPage pager.aSavepoint pgno then subjournalPage pager pgno data else pager

def writeJournalHdr (s : PagerSys α) : PagerSys α :=
  let off := s.pager.journalOff
  let s := s.call (.writeJournal off (.header false 0 s.pager.dbOrigSize))
  { s with pager := { s.pager with
      aSavepoint := s.pager.aSavepoint.map fun p => if p.iHdrOffset = 0 then { p with iHdrOffset := off } else p
      journalHdr := off
      journalOff := off + JOURNAL_HDR_SZ } }

def pagerOpenJournal (s : PagerSys α) : PagerSys α :=
  let s := { s with pager := { s.pager with
    pInJournal := fun _ => false, isOpenJfd := true, nRec := 0, journalOff := 0, journalHdr := 0 } }
  let s := writeJournalHdr s
  { s with pager := { s.pager with eState := .writerCachemod } }

def pagerAddPageToRollbackJournal (s : PagerSys α) (pgno : Nat) (pPg : PgHdr α) : PagerSys α :=
  let s := s.call (.writeJournal s.pager.journalOff (.page pgno pPg.data))
  { s with pager := { s.pager with
      cache := Function.update s.pager.cache pgno (some { pPg with needSync := true })
      journalOff := s.pager.journalOff + JOURNAL_PG_SZ
      nRec := s.pager.nRec + 1
      pInJournal := sqlite3BitvecSet s.pager.pInJournal pgno
      aSavepoint := addToSavepointBitvecs s.pager.aSavepoint pgno } }

/-- `sqlite3PcacheClearSyncFlags`. -/
def clearSyncFlags (cache : Nat → Option (PgHdr α)) : Nat → Option (PgHdr α) :=
  fun p => (cache p).map fun pPg => { pPg with needSync := false }

def syncJournal (s : PagerSys α) (newHdr : Bool) : PagerSys α :=
  let s := s.call .syncJournal
  let s := s.call (.writeJournal s.pager.journalHdr (.header true s.pager.nRec s.pager.dbOrigSize))
  let s := s.call .syncJournal
  let s := { s with pager := { s.pager with journalHdr := s.pager.journalOff } }
  let s := if newHdr then writeJournalHdr { s with pager := { s.pager with nRec := 0 } } else s
  { s with pager := { s.pager with cache := clearSyncFlags s.pager.cache, eState := .writerDbmod } }

/-! ### Pages -/

/-- `dbFileVers` becomes a copy of the counter, if this is page 1. -/
def setDbFileVers (s : PagerSys α) (isPage1 : Bool) (data : α) : PagerSys α :=
  { s with pager := { s.pager with
    dbFileVers := if isPage1 then PageContent.changeCounter data else s.pager.dbFileVers } }

/-- `sqlite3PagerGet` of a page. -/
def sqlite3PagerGet (s : PagerSys α) (pgno : Nat) : PgHdr α :=
  match s.pager.cache pgno with
  | some pPg => pPg
  | none => ⟨if pgno ≤ s.pager.dbSize then s.disk.db pgno else default, false, false, false⟩

def setPage (s : PagerSys α) (pgno : Nat) (pPg : PgHdr α) : PagerSys α :=
  { s with pager := { s.pager with cache := Function.update s.pager.cache pgno (some pPg) } }

/-- After `sqlite3PagerGet` the page is in the cache; `readDbPage` reads it if it was not there. -/
def fetchPage (s : PagerSys α) (pgno : Nat) : PagerSys α :=
  let pPg := sqlite3PagerGet s pgno
  let isRead := (s.pager.cache pgno).isNone && pgno ≤ s.pager.dbSize
  setPage (setDbFileVers s (isRead && pgno = 1) pPg.data) pgno pPg

/-- `pager_write`: the page is journaled if necessary, and may be changed. -/
def pagerWrite (s : PagerSys α) (pgno : Nat) : PagerSys α :=
  let s := if s.pager.eState = .writerLocked then pagerOpenJournal s else s
  let pPg := { sqlite3PagerGet s pgno with dirty := true }
  let s := setPage s pgno pPg
  let s :=
    if s.pager.pInJournal pgno then s
    else if pgno ≤ s.pager.dbOrigSize then pagerAddPageToRollbackJournal s pgno pPg
    else if s.pager.eState ≠ .writerDbmod then setPage s pgno { pPg with needSync := true }
    else s
  let s := setPage s pgno { sqlite3PagerGet s pgno with writeable := true }
  let s := { s with pager := subjournalPageIfRequired s.pager pgno pPg.data }
  { s with pager := { s.pager with dbSize := max s.pager.dbSize pgno } }

def sqlite3PagerWrite (s : PagerSys α) (pgno : Nat) : PagerSys α :=
  let pPg := sqlite3PagerGet s pgno
  if pPg.writeable ∧ pgno ≤ s.pager.dbSize then { s with pager := subjournalPageIfRequired s.pager pgno pPg.data }
  else pagerWrite s pgno

/-- A page is written by the layer above: `sqlite3PagerGet`, `sqlite3PagerWrite` and the change. -/
def writePage (s : PagerSys α) (pgno : Nat) (data : α) : PagerSys α :=
  let s := fetchPage s pgno
  let s := sqlite3PagerWrite s pgno
  setPage s pgno { sqlite3PagerGet s pgno with data := data }

/-- `pager_write_changecounter`. -/
def pagerWriteChangecounter (s : PagerSys α) (pPg : PgHdr α) : PgHdr α :=
  { pPg with data := PageContent.putChangeCounter (s.pager.dbFileVers + 1) pPg.data }

/-- `pager_incr_changecounter`. -/
def pagerIncrChangecounter (s : PagerSys α) : PagerSys α :=
  if !s.pager.changeCountDone ∧ 0 < s.pager.dbSize then
    let s := fetchPage s 1
    let s := sqlite3PagerWrite s 1
    let s := setPage s 1 (pagerWriteChangecounter s (sqlite3PagerGet s 1))
    { s with pager := { s.pager with changeCountDone := true } }
  else s

/-- The database file is written, and may grow. -/
def writeDbPage (s : PagerSys α) (pgno : Nat) (data : α) : PagerSys α :=
  let s := s.call (.writeDb pgno data)
  { s with pager := { s.pager with dbFileSize := max s.pager.dbFileSize pgno } }

/-- `pager_write_pagelist` for one page. -/
def pagerWritePage (s : PagerSys α) (pgno : Nat) (pPg : PgHdr α) : PagerSys α :=
  if pgno ≤ s.pager.dbSize then
    let pPg := if pgno = 1 then pagerWriteChangecounter s pPg else pPg
    let s := setPage s pgno pPg
    let s := writeDbPage s pgno pPg.data
    setDbFileVers s (pgno = 1) pPg.data
  else s

/-- `sqlite3PcacheMakeClean`. -/
def makeClean (pPg : PgHdr α) : PgHdr α := { pPg with dirty := false, needSync := false, writeable := false }

/-- `pagerStress`: a dirty page is spilled. -/
def pagerStress (s : PagerSys α) (pgno : Nat) (pPg : PgHdr α) : PagerSys α :=
  let s := if pPg.needSync ∨ s.pager.eState = .writerCachemod then syncJournal s true else s
  let s := pagerWritePage s pgno pPg
  setPage s pgno (makeClean (sqlite3PagerGet s pgno))

/-- `eState >= PAGER_WRITER_DBMOD || eState == PAGER_OPEN`. -/
def PagerState.writesDb : PagerState → Bool
  | .opened => true
  | .writerDbmod => true
  | .writerFinished => true
  | _ => false

def pagerTruncate (s : PagerSys α) (nPage : Nat) : PagerSys α :=
  if s.pager.eState.writesDb then
    let s :=
      if nPage < s.disk.dbPages then s.call (.truncateDb nPage)
      else if s.disk.dbPages < nPage then s.call (.writeDb nPage default)
      else s
    { s with pager := { s.pager with dbFileSize := nPage } }
  else s

/-! ### Playback -/

/-- A page of a savepoint that is neither in the cache nor may be written: `sqlite3PagerGet` without content. -/
def getNoContent (s : PagerSys α) (pgno : Nat) : PagerSys α :=
  let s := { s with pager := { s.pager with
    pInJournal := if pgno ≤ s.pager.dbOrigSize then sqlite3BitvecSet s.pager.pInJournal pgno else s.pager.pInJournal
    aSavepoint := addToSavepointBitvecs s.pager.aSavepoint pgno } }
  setPage s pgno ⟨default, true, false, false⟩

/-- The page in the cache, if it is there, gets the content of the record. -/
def setData (s : PagerSys α) (pgno : Nat) (data : α) : PagerSys α :=
  match s.pager.cache pgno with
  | none => s
  | some pPg => setPage (setDbFileVers s (pgno = 1) data) pgno { pPg with data := data }

/-- `pager_playback_one_page` for a record that has been read; `off` is the offset after it. -/
def pagerPlaybackOnePage (s : PagerSys α) (off pgno : Nat) (data : α) (pDone : Option (Nat → Bool))
    (isMainJrnl : Bool) :
    PagerSys α × Option (Nat → Bool) :=
  if s.pager.dbSize < pgno ∨ (pDone.any fun b => b pgno) then (s, pDone)
  else
    let pPg := s.pager.cache pgno
    let isSynced := if isMainJrnl then decide (off ≤ s.pager.journalHdr) else pPg.all fun p => !p.needSync
    let s :=
      if s.pager.eState.writesDb ∧ isSynced then writeDbPage s pgno data
      else if !isMainJrnl ∧ pPg.isNone then getNoContent s pgno
      else s
    (setData s pgno data, pDone.map fun b => sqlite3BitvecSet b pgno)

/-- `n` records of the main journal from `journalOff` on; `false` if one of them cannot be used. -/
def playRecords : Nat → PagerSys α → Option (Nat → Bool) → PagerSys α × Option (Nat → Bool) × Bool
  | 0, s, pDone => (s, pDone, true)
  | n + 1, s, pDone =>
    match s.disk.journal[s.pager.journalOff]? with
    | some (.page (pgno + 1) data, _) =>
      let s := { s with pager := { s.pager with journalOff := s.pager.journalOff + JOURNAL_PG_SZ } }
      let r := pagerPlaybackOnePage s s.pager.journalOff (pgno + 1) data pDone true
      playRecords n r.1 r.2
    | _ => (s, pDone, false)

/-- The `nRec` and the `dbOrigSize` of the header at `journalOff`. -/
def readJournalHdr (s : PagerSys α) (isHot : Bool) (szJ : Nat) : Option (PagerSys α × Nat × Nat) :=
  let off := s.pager.journalOff
  if szJ < off + JOURNAL_HDR_SZ then none
  else
    match s.disk.journal[off]? with
    | some (.header magic nRec dbSize, _) =>
      if (isHot ∨ off ≠ s.pager.journalHdr) ∧ ¬ magic then none
      else some ({ s with pager := { s.pager with journalOff := off + JOURNAL_HDR_SZ } }, nRec, dbSize)
    | _ => none

/-- The number of records after a header that has just been read. -/
def recordCount (s : PagerSys α) (isHot : Bool) (szJ nRec : Nat) : Nat :=
  if nRec = 0 ∧ !isHot ∧ s.pager.journalHdr + JOURNAL_HDR_SZ = s.pager.journalOff then
    (szJ - s.pager.journalOff) / JOURNAL_PG_SZ
  else nRec

/-- The loop of `pager_playback`, of at most `fuel` headers. -/
def pagerPlaybackLoop (isHot : Bool) (szJ : Nat) : Nat → PagerSys α → PagerSys α
  | 0, s => s
  | fuel + 1, s =>
    match readJournalHdr s isHot szJ with
    | none => s
    | some (s, nRec, mxPg) =>
      let nRec := recordCount s isHot szJ nRec
      let s :=
        if s.pager.journalOff = JOURNAL_HDR_SZ then
          let s := pagerTruncate s mxPg
          { s with pager := { s.pager with dbSize := mxPg } }
        else s
      let r := playRecords nRec s none
      if r.2.2 then pagerPlaybackLoop isHot szJ fuel r.1 else r.1

/-- `pager_end_transaction`. -/
def pagerEndTransaction (s : PagerSys α) (bCommit : Bool) : PagerSys α :=
  let s := { s with pager := { s.pager with aSavepoint := [], sjfd := [] } }
  let s := if s.pager.isOpenJfd then s.call .deleteJournal else s
  let s := { s with pager := { s.pager with
    isOpenJfd := false
    pInJournal := fun _ => false
    nRec := 0
    cache := fun p => if p ≤ s.pager.dbSize then (s.pager.cache p).map makeClean else none } }
  let s := if bCommit ∧ s.pager.dbSize < s.pager.dbFileSize then pagerTruncate s s.pager.dbSize else s
  { s with pager := { s.pager with changeCountDone := false, eState := .reader } }

def pagerPlayback (s : PagerSys α) (isHot : Bool) : PagerSys α :=
  let szJ := s.disk.journal.length
  let s := { s with pager := { s.pager with journalOff := 0 } }
  let s := pagerPlaybackLoop isHot szJ (szJ + 1) s
  let s := { s with pager := { s.pager with changeCountDone := false } }
  let s := if s.pager.eState.writesDb then s.call .syncDb else s
  pagerEndTransaction s false

/-- The headers that follow the first part of `pagerPlaybackSavepoint`. -/
def savepointLoop (szJ : Nat) : Nat → PagerSys α → Option (Nat → Bool) → PagerSys α × Option (Nat → Bool)
  | 0, s, pDone => (s, pDone)
  | fuel + 1, s, pDone =>
    if s.pager.journalOff < szJ then
      match readJournalHdr s false szJ with
      | none => (s, pDone)
      | some (s, nRec, _) =>
        let nJRec := recordCount s false szJ nRec
        let r := playRecords (min nJRec (szJ - s.pager.journalOff)) s pDone
        if r.2.2 then savepointLoop szJ fuel r.1 r.2.1 else (r.1, r.2.1)
    else (s, pDone)

/-- The records of the sub-journal. -/
def playSubRecords : List (Nat × α) → PagerSys α → Option (Nat → Bool) → PagerSys α
  | [], s, _ => s
  | r :: records, s, pDone =>
    let r := pagerPlaybackOnePage s 0 r.1 r.2 pDone false
    playSubRecords records r.1 r.2

def pagerPlaybackSavepoint (s : PagerSys α) (pSavepoint : Option PagerSavepoint) : PagerSys α :=
  let szJ := s.pager.journalOff
  match pSavepoint with
  | none =>
    let s := { s with pager := { s.pager with
      dbSize := s.pager.dbOrigSize, changeCountDone := false, journalOff := 0 } }
    let s := (savepointLoop szJ (szJ + 1) s none).1
    { s with pager := { s.pager with journalOff := szJ } }
  | some p =>
    let s := { s with pager := { s.pager with
      dbSize := p.nOrig, changeCountDone := false, journalOff := p.iOffset } }
    let iHdrOff := if p.iHdrOffset ≠ 0 then p.iHdrOffset else szJ
    let r := playRecords (iHdrOff - p.iOffset) s (some fun _ => false)
    let r := savepointLoop szJ (szJ + 1) r.1 r.2.1
    let s := playSubRecords (r.1.pager.sjfd.drop p.iSubRec) r.1 r.2
    { s with pager := { s.pager with journalOff := szJ } }

/-! ### Transactions and savepoints -/

def sqlite3PagerBegin (s : PagerSys α) : PagerSys α :=
  { s with pager := { s.pager with
    eState := .writerLocked
    dbFileSize := s.pager.dbSize
    dbOrigSize := s.pager.dbSize
    journalOff := 0 } }

def sqlite3PagerOpenSavepoint (s : PagerSys α) (nSavepoint : Nat) : PagerSys α :=
  let new : PagerSavepoint := {
    nOrig := s.pager.dbSize
    iOffset := if s.pager.isOpenJfd ∧ 0 < s.pager.journalOff then s.pager.journalOff else JOURNAL_HDR_SZ
    iHdrOffset := 0
    iSubRec := s.pager.sjfd.length
    pInSavepoint := fun _ => false }
  { s with pager := { s.pager with
    aSavepoint := s.pager.aSavepoint ++ List.replicate (nSavepoint - s.pager.aSavepoint.length) new } }

/-- `sqlite3PagerSavepoint(SAVEPOINT_RELEASE, iSavepoint)`. -/
def releaseSavepoint (s : PagerSys α) (iSavepoint : Nat) : PagerSys α :=
  if iSavepoint < s.pager.aSavepoint.length then
    { s with pager := { s.pager with
      aSavepoint := s.pager.aSavepoint.take iSavepoint
      sjfd := if iSavepoint = 0 then [] else s.pager.sjfd } }
  else s

/-- `sqlite3PagerSavepoint(SAVEPOINT_ROLLBACK, nNew - 1)`; `nNew` is zero for the whole transaction. -/
def rollbackSavepoint (s : PagerSys α) (nNew : Nat) : PagerSys α :=
  if nNew ≤ s.pager.aSavepoint.length then
    let s := { s with pager := { s.pager with aSavepoint := s.pager.aSavepoint.take nNew } }
    if s.pager.isOpenJfd then pagerPlaybackSavepoint s s.pager.aSavepoint.getLast? else s
  else s

/-- `sqlite3PagerRollback`. -/
def sqlite3PagerRollback (s : PagerSys α) : PagerSys α :=
  if s.pager.eState = .reader then s
  else if !s.pager.isOpenJfd ∨ s.pager.eState = .writerLocked then pagerEndTransaction s false
  else pagerPlayback s false

/-- `pager_write_pagelist` for the dirty pages of the image, in the order of their numbers. -/
def pagerWritePagelist (s : PagerSys α) : List Nat → PagerSys α
  | [] => s
  | p :: ps =>
    match s.pager.cache p with
    | some pPg => pagerWritePagelist (if pPg.dirty then pagerWritePage s p pPg else s) ps
    | none => pagerWritePagelist s ps

/-- `sqlite3PagerTruncateImage(nPage)` and `sqlite3PagerCommitPhaseOne`. -/
def sqlite3PagerCommitPhaseOne (s : PagerSys α) (nPage : Nat) : PagerSys α :=
  if s.pager.eState = .writerLocked then s
  else
    let s := { s with pager := { s.pager with dbSize := nPage } }
    let s := pagerIncrChangecounter s
    let s := syncJournal s false
    let s := pagerWritePagelist s (List.range (nPage + 1))
    let s := { s with pager := { s.pager with cache := fun p => (s.pager.cache p).map makeClean } }
    let s := if s.pager.dbFileSize < nPage then pagerTruncate s nPage else s
    let s := s.call .syncDb
    { s with pager := { s.pager with eState := .writerFinished } }

def sqlite3PagerCommitPhaseTwo (s : PagerSys α) : PagerSys α := pagerEndTransaction s true

/-! ### Runs -/

/-- What the layer above asks for, what the cache does on its own, and the ends of a transaction. -/
inductive PagerAction (α : Type)
  | begin
  | get (pgno : Nat)
  | recycle (pgno : Nat)
  | write (pgno : Nat) (data : α)
  | stress (pgno : Nat)
  | openSavepoint (nSavepoint : Nat)
  | release (iSavepoint : Nat)
  | rollbackTo (nNew : Nat)
  | commitPhaseOne (nPage : Nat)
  | commitPhaseTwo
  | rollback

/-- A transaction that may still write: `PAGER_WRITER_LOCKED`, `PAGER_WRITER_CACHEMOD` or `PAGER_WRITER_DBMOD`. -/
def PagerState.writes : PagerState → Bool
  | .writerLocked => true
  | .writerCachemod => true
  | .writerDbmod => true
  | _ => false

/-- One action, where the pager may be asked for it; the trace starts anew.  Page 1 is not spilled: the b-tree has a
reference to it as long as there is a transaction. -/
def pagerStep (s : PagerSys α) (a : PagerAction α) : Option (PagerSys α) :=
  let s := { s with trace := [] }
  match a with
  | .begin => if s.pager.eState = .reader then some (sqlite3PagerBegin s) else none
  | .get pgno =>
    if 1 ≤ pgno ∧ pgno ≤ s.pager.dbSize ∧ s.pager.eState ≠ .opened then some (fetchPage s pgno) else none
  | .recycle pgno =>
    match s.pager.cache pgno with
    | some pPg =>
      if pPg.dirty then none
      else some { s with pager := { s.pager with cache := Function.update s.pager.cache pgno none } }
    | none => none
  | .write pgno data =>
    if s.pager.eState.writes ∧ 1 ≤ pgno ∧ pgno ≤ s.pager.dbSize + 1 then some (writePage s pgno data) else none
  | .stress pgno =>
    match s.pager.cache pgno with
    | some pPg => if s.pager.eState.writes ∧ pPg.dirty ∧ pgno ≠ 1 then some (pagerStress s pgno pPg) else none
    | none => none
  | .openSavepoint nSavepoint =>
    if s.pager.eState.writes ∧ s.pager.aSavepoint.length < nSavepoint then some (sqlite3PagerOpenSavepoint s nSavepoint)
    else none
  | .release iSavepoint => if s.pager.eState.writes then some (releaseSavepoint s iSavepoint) else none
  | .rollbackTo nNew => if s.pager.eState.writes then some (rollbackSavepoint s nNew) else none
  | .commitPhaseOne nPage =>
    if s.pager.eState.writes ∧ nPage ≤ s.pager.dbSize ∧ (s.pager.eState = .writerLocked → nPage = s.pager.dbSize) then
      some (sqlite3PagerCommitPhaseOne s nPage)
    else none
  | .commitPhaseTwo =>
    if s.pager.eState = .writerLocked ∨ s.pager.eState = .writerFinished then some (sqlite3PagerCommitPhaseTwo s)
    else none
  | .rollback => if s.pager.eState ≠ .opened then some (sqlite3PagerRollback s) else none

/-! ### Power failures -/

/-- What a power failure may leave: what has been synced is there, what has not may be anything.  A valid journal header
is found only where one was being written, with the same size and at most as many records. -/
structure Disk.Crash (d d' : Disk α) : Prop where
  db : ∀ p, d.dbSynced p = true → d'.db p = d.db p
  dbSynced : ∀ p, d'.dbSynced p = true
  dbPages : d.dbPagesMin ≤ d'.dbPages
  dbPagesMin : d'.dbPagesMin = d'.dbPages
  journal : ∀ (i : Nat) item, d.journal[i]? = some (item, true) → d'.journal[i]? = some (item, true)
  journalSynced : ∀ i ∈ d'.journal, i.2 = true
  header : ∀ (i n N : Nat) b, d'.journal[i]? = some (.header true n N, b) →
    ∃ m b', d.journal[i]? = some (.header true m N, b') ∧ n ≤ m

/-- The pager that finds a hot journal: `sqlite3PagerSharedLock` up to `pager_playback`. -/
def hotPager (d : Disk α) : PagerSys α where
  pager := {
    eState := .opened
    changeCountDone := false
    dbFileVers := 0
    dbSize := d.dbPages
    dbOrigSize := 0
    dbFileSize := 0
    cache := fun _ => none
    isOpenJfd := true
    nRec := 0
    journalHdr := d.journal.length
    journalOff := 0
    pInJournal := fun _ => false
    aSavepoint := []
    sjfd := [] }
  disk := d
  trace := []

/-- A journal is hot unless the database is empty or the journal starts with a zero byte. -/
def hasHotJournal (d : Disk α) : Bool :=
  match d.journal with
  | [] => false
  | (item, _) :: _ =>
    d.dbPages ≠ 0 && match item with
      | .header magic _ _ => magic
      | _ => true

/-- What the next connection does: a hot journal is rolled back. -/
def recovery (d : Disk α) : PagerSys α := if hasHotJournal d then pagerPlayback (hotPager d) true else hotPager d

/-- Power failures, the first at `d` and each of the others while the journal was being rolled back. -/
inductive Disk.Crashes (d : Disk α) : Disk α → Prop
  | first {d'} (h : d.Crash d') : Crashes d d'
  | again {d₁ d₂ d₃} (h : Crashes d d₁) (hmem : d₂ ∈ (recovery d₁).trace) (hcrash : d₂.Crash d₃) : Crashes d d₃

end Sqlite4a
