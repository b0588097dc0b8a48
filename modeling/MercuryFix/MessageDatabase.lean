import MercuryFix.KeyedTables
import Mathlib.Logic.Function.Basic
import Mathlib.Tactic.NormNum

/-!
# The message database

The tables `RECV_MESSAGES` and `SENT_MESSAGES` have the sequence number as
their primary key.  SQLite keeps it as a signed number of 64 bits, so that the
numbers from `2 ^ 63` on are the smallest ones to `MAX`.
-/

namespace MercuryFix

open KeyedTable

/-- A `uint64_t` as the column of type INTEGER holds it. -/
def signedSeqnum (seqnum : UInt64) : Int :=
  if seqnum.toNat < 2 ^ 63 then seqnum.toNat else (seqnum.toNat : Int) - 2 ^ 64

variable {Row : Type*}

def storeMsg (table : List (UInt64 × Row)) (seqnum : Nat) (row : Row) :
    List (UInt64 × Row) :=
  insertOrReplace table (UInt64.ofNat seqnum) row

def latestSeqnum (table : List (UInt64 × Row)) : Nat :=
  match maxKey signedSeqnum table with
  | none => 0
  | some seqnum => seqnum.toNat

theorem latestSeqnum_lt (table : List (UInt64 × Row)) : latestSeqnum table < 2 ^ 64 := by
  unfold latestSeqnum
  split
  · norm_num
  · exact UInt64.toNat_lt _

theorem signedSeqnum_succ {seqnum : UInt64} {number : Nat}
    (same : seqnum.toNat = number) (below : number ≠ 2 ^ 63 - 1) :
    signedSeqnum (UInt64.ofNat ((number + 1) % 2 ^ 64)) = signedSeqnum seqnum + 1 := by
  have bound := seqnum.toNat_lt
  have next : (UInt64.ofNat ((number + 1) % 2 ^ 64)).toNat = (number + 1) % 2 ^ 64 := by
    simp
  rw [signedSeqnum, signedSeqnum, next, same]
  split <;> split <;> omega

/-- The number behind the latest one is above all numbers of the table, with
the one exception where the sign changes. -/
theorem signedSeqnum_lt_next {table : List (UInt64 × Row)} {number : Nat}
    (latest : latestSeqnum table = number) (below : number ≠ 2 ^ 63 - 1) :
    ∀ entry ∈ table, signedSeqnum entry.1 <
      signedSeqnum (UInt64.ofNat ((number + 1) % 2 ^ 64)) := by
  intro entry member
  cases found : maxKey signedSeqnum table with
  | none =>
    rw [eq_nil_of_maxKey found] at member
    cases member
  | some top =>
    rw [latestSeqnum, found] at latest
    rw [signedSeqnum_succ latest below]
    have bound := rank_le_of_maxKey found member
    omega

theorem latestSeqnum_storeMsg {table : List (UInt64 × Row)} {number : Nat}
    (latest : latestSeqnum table = number) (below : number ≠ 2 ^ 63 - 1)
    (row : Row) :
    latestSeqnum (storeMsg table ((number + 1) % 2 ^ 64) row) = (number + 1) % 2 ^ 64 := by
  rw [latestSeqnum, storeMsg, maxKey_insertOrReplace (signedSeqnum_lt_next latest below)]
  simp

theorem seqnum_fresh {table : List (UInt64 × Row)} {number : Nat}
    (latest : latestSeqnum table = number) (below : number ≠ 2 ^ 63 - 1) :
    ∀ entry ∈ table, entry.1 ≠ UInt64.ofNat ((number + 1) % 2 ^ 64) := by
  intro entry member same
  have above := signedSeqnum_lt_next latest below entry member
  rw [same] at above
  exact lt_irrefl _ above

/-- A `MsgDB` with one of its tables.  `path` is `db_path_`, `handle` is the
file behind `db_` while it is open, and `files` is what the files hold. -/
structure MsgDB (Path Row : Type*) where
  path : Option Path
  handle : Option Path
  files : Path → List (UInt64 × Row)

namespace MsgDB

variable {Path : Type*}

def setDbPath (db : MsgDB Path Row) (path : Path) : MsgDB Path Row := { db with path := some path }

def openPath (db : MsgDB Path Row) : Option (MsgDB Path Row) :=
  match db.handle, db.path with
  | some _, _ => some db
  | none, some path => some { db with handle := some path }
  | none, none => none

theorem openPath_handle {db next : MsgDB Path Row}
    (opens : db.openPath = some next) : next.handle.isSome = true := by
  unfold openPath at opens
  split at opens
  · cases opens
    rename_i handle
    rw [handle]
    rfl
  · cases opens
    rfl
  · cases opens

theorem openPath_closed {db next : MsgDB Path Row} {path : Path}
    (closed : db.handle = none) (set : db.path = some path) (opens : db.openPath = some next) :
    next = { db with handle := some path } := by
  simp only [openPath, closed, set, Option.some.injEq] at opens
  rw [← opens, set]

variable [DecidableEq Path]

/-- `close`.  The private databases that SQLite opens for some special paths
vanish with their handle. -/
def close (temporary : Path → Bool) (db : MsgDB Path Row) : MsgDB Path Row :=
  match db.handle with
  | some path =>
    if temporary path then
      { db with handle := none, files := Function.update db.files path [] }
    else { db with handle := none }
  | none => db

/-- The store functions do nothing without a handle. -/
def store (db : MsgDB Path Row) (seqnum : Nat) (row : Row) : MsgDB Path Row :=
  match db.handle with
  | some path =>
    { db with
      files := Function.update db.files path (storeMsg (db.files path) seqnum row) }
  | none => db

def latest (db : MsgDB Path Row) : Option Nat :=
  db.handle.map fun path => latestSeqnum (db.files path)

@[simp]
theorem close_handle (temporary : Path → Bool) (db : MsgDB Path Row) :
    (db.close temporary).handle = none := by
  unfold close
  split
  · split <;> rfl
  · assumption

@[simp]
theorem store_handle (db : MsgDB Path Row) (seqnum : Nat) (row : Row) :
    (db.store seqnum row).handle = db.handle := by
  unfold store
  split <;> rfl

theorem close_kept {temporary : Path → Bool} {db : MsgDB Path Row} {path : Path}
    (handle : db.handle = some path) (kept : temporary path = false) :
    db.close temporary = { db with handle := none } := by
  simp only [close, handle, kept, Bool.false_eq_true, ↓reduceIte]

end MsgDB

end MercuryFix
