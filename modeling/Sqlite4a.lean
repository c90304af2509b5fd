import Sqlite4a.Runs
import Sqlite4a.Ledger
import Sqlite4a.Mutf8
import Sqlite4a.SlotSort
import Sqlite4a.Binary64
import Sqlite4a.Lexing
import Sqlite4a.Radix
import Sqlite4a.UndoLog
import Sqlite4a.AdvisoryLocks
import Sqlite4a.Tokenize
import Sqlite4a.Value
import Sqlite4a.ExpandSql
import Sqlite4a.Vdbe
import Sqlite4a.RowIterator
import Sqlite4a.SQLiteStmt
import Sqlite4a.Cursor
import Sqlite4a.IteratorLaw
import Sqlite4a.IteratorErrors
import Sqlite4a.Binding
import Sqlite4a.Select
import Sqlite4a.Recovery
import Sqlite4a.Counters
import Sqlite4a.ConcurrentInserts
import Sqlite4a.Heap
import Sqlite4a.SQLiteDb
import Sqlite4a.ExecForNumber
import Sqlite4a.World
import Sqlite4a.FailedStep
import Sqlite4a.Ownership
import Sqlite4a.Trace
import Sqlite4a.Resources
import Sqlite4a.Callbacks
import Sqlite4a.ThrowingCallback
import Sqlite4a.TraceEvents
import Sqlite4a.Func
import Sqlite4a.Text
import Sqlite4a.Collation
import Sqlite4a.Varint
import Sqlite4a.Record
import Sqlite4a.Column
import Sqlite4a.Pager
import Sqlite4a.HotJournal
import Sqlite4a.PagerTransaction
import Sqlite4a.PagerSavepoints
import Sqlite4a.PagerWrite
import Sqlite4a.PagerRollback
import Sqlite4a.PagerEnd
import Sqlite4a.PagerCommit
import Sqlite4a.PagerStore
import Sqlite4a.UnixLock
import Sqlite4a.LockExclusion
