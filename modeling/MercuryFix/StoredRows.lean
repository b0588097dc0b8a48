import MercuryFix.PreparedStatements
import MercuryFix.SentMessages

/-!
# The rows of the message store

`store_sent_msg` and `store_recv_msg` bind their values one by one to statements
that live as long as the database is open.  `store_recv_msg` binds its two
timestamps to the statement for sent messages, so that those columns of a received
message stay NULL.  They do no harm there: `store_sent_msg` binds all eight
parameters anew.
-/

namespace MercuryFix

open PreparedStatement KeyedTable

inductive InsertStatement
  | recvMsg
  | sentMsg
  deriving DecidableEq

def InsertStatement.parameters : InsertStatement → Nat
  | recvMsg => 4
  | sentMsg => 8

/-- `sqlite3_bind_int64` of a `uint64_t`. -/
def bindInt64 (statement : InsertStatement) (parameter value : Nat) :
    Binding InsertStatement :=
  ⟨statement, parameter, some (.integer (signedSeqnum (UInt64.ofNat value)))⟩

/-- `sqlite3_bind_int64` of the seconds or microseconds of a clock. -/
def bindTime (statement : InsertStatement) (parameter : Nat) (value : Int) :
    Binding InsertStatement :=
  ⟨statement, parameter, some (.integer value)⟩

/-- `sqlite3_bind_text` with the length -1. -/
def bindText (statement : InsertStatement) (parameter : Nat)
    (text : List UInt8) : Binding InsertStatement :=
  ⟨statement, parameter, some (.text (ByteBlock.cString text))⟩

/-- `sqlite3_bind_blob`, with the length as an `int`.  A negative one is none. -/
def bindBlob (statement : InsertStatement) (parameter : Nat) (msg : List UInt8)
    (len : Nat) : Binding InsertStatement :=
  ⟨statement, parameter,
    if 0 ≤ wrapInt len then some (.blob (msg.take (wrapInt len).toNat))
    else none⟩

structure RecvRecord where
  seqnum : Nat
  len : Nat
  msg : List UInt8
  deriving DecidableEq

/-- A call of one of the two functions, with as many bytes behind `msg` as its
length says. -/
inductive StoreArgs
  | recv (record : RecvRecord) (sized : record.msg.length = record.len)
  | sent (record : SentRecord) (sized : record.partialMsg.length = record.len)

/-- A call, with what `gettimeofday` gives it and with which of its calls of SQLite
succeed. -/
structure StoreCall where
  args : StoreArgs
  tval : Timeval
  succeeds : Nat → Bool

def recvBindings (record : RecvRecord) (tval : Timeval) :
    List (Binding InsertStatement) :=
  [bindInt64 .recvMsg 1 record.seqnum, bindTime .sentMsg 2 tval.sec,
    bindTime .sentMsg 3 tval.usec, bindBlob .recvMsg 4 record.msg record.len]

def sentBindings (record : SentRecord) (tval : Timeval) :
    List (Binding InsertStatement) :=
  [bindInt64 .sentMsg 1 record.seqnum, bindTime .sentMsg 2 tval.sec,
    bindTime .sentMsg 3 tval.usec, bindInt64 .sentMsg 4 record.ttlSec,
    bindInt64 .sentMsg 5 record.ttlUsec, bindText .sentMsg 6 record.msgType,
    bindInt64 .sentMsg 7 record.len,
    bindBlob .sentMsg 8 record.partialMsg record.len]

def storeRecvMsg (record : RecvRecord) (tval : Timeval) (succeeds : Nat → Bool)
    (session : Session InsertStatement) : Session InsertStatement × Bool :=
  session.store succeeds .recvMsg InsertStatement.recvMsg.parameters (recvBindings record tval)

def storeSentMsg (record : SentRecord) (tval : Timeval) (succeeds : Nat → Bool)
    (session : Session InsertStatement) : Session InsertStatement × Bool :=
  session.store succeeds .sentMsg InsertStatement.sentMsg.parameters (sentBindings record tval)

namespace StoreCall

def statement (call : StoreCall) : InsertStatement :=
  match call.args with
  | .recv _ _ => .recvMsg
  | .sent _ _ => .sentMsg

def seqnum (call : StoreCall) : UInt64 :=
  match call.args with
  | .recv record _ => UInt64.ofNat record.seqnum
  | .sent record _ => UInt64.ofNat record.seqnum

def bindings (call : StoreCall) : List (Binding InsertStatement) :=
  match call.args with
  | .recv record _ => recvBindings record call.tval
  | .sent record _ => sentBindings record call.tval

def perform (call : StoreCall) (session : Session InsertStatement) :
    Session InsertStatement × Bool :=
  match call.args with
  | .recv record _ => storeRecvMsg record call.tval call.succeeds session
  | .sent record _ => storeSentMsg record call.tval call.succeeds session

theorem perform_eq (call : StoreCall) (session : Session InsertStatement) : call.perform session =
      session.store call.succeeds call.statement call.statement.parameters call.bindings := by
  obtain ⟨_ | _, tval, succeeds⟩ := call <;> rfl

def written (call : StoreCall) : Columns :=
  let seqnum := .integer (signedSeqnum call.seqnum)
  match call.args with
  | .recv record _ =>
    [seqnum, .null, .null, .blob (record.msg.take (record.len % 2 ^ 32))]
  | .sent record _ =>
    [seqnum, .integer call.tval.sec, .integer call.tval.usec,
      .integer (signedSeqnum (UInt64.ofNat record.ttlSec)),
      .integer (signedSeqnum (UInt64.ofNat record.ttlUsec)),
      .text (ByteBlock.cString record.msgType),
      .integer (signedSeqnum (UInt64.ofNat record.len)),
      .blob (record.partialMsg.take (record.len % 2 ^ 32))]

def Stores (call : StoreCall) : Prop := Stored call.succeeds call.bindings

instance (call : StoreCall) : Decidable call.Stores := inferInstanceAs (Decidable (Stored _ _))

end StoreCall

section Step

theorem wrapInt_of_nonneg {len : Nat} (bindable : 0 ≤ wrapInt len) :
    (wrapInt len).toNat = len % 2 ^ 32 := by
  rw [wrapInt, Int.bmod_def] at bindable ⊢
  split at bindable <;> omega

theorem bindBlob_value {statement : InsertStatement} {parameter len : Nat} {msg : List UInt8}
    (bindable : (bindBlob statement parameter msg len).value.isSome) :
    (bindBlob statement parameter msg len).value = some (.blob (msg.take (len % 2 ^ 32))) := by
  unfold bindBlob at bindable ⊢
  by_cases negative : 0 ≤ wrapInt len
  · simp only [if_pos negative, wrapInt_of_nonneg negative]
  · simp [negative] at bindable

@[simp]
theorem bindBlob_statement (statement : InsertStatement) (parameter : Nat)
    (msg : List UInt8) (len : Nat) :
    (bindBlob statement parameter msg len).statement = statement :=
  rfl

@[simp]
theorem bindBlob_parameter (statement : InsertStatement) (parameter : Nat)
    (msg : List UInt8) (len : Nat) :
    (bindBlob statement parameter msg len).parameter = parameter :=
  rfl

def Unbound (session : Session InsertStatement) : Prop := session.bindings .recvMsg = fun _ => .null

variable {call : StoreCall} {session : Session InsertStatement}

theorem Unbound.perform (unbound : Unbound session) (call : StoreCall) :
    Unbound (call.perform session).1 := by
  rw [call.perform_eq]
  obtain ⟨⟨record, sized⟩ | ⟨record, sized⟩, tval, succeeds⟩ := call
  · exact Session.bindings_store
  · have elsewhere : ∀ binding ∈ sentBindings record tval,
        InsertStatement.recvMsg ≠ binding.statement := by
      simp [sentBindings, bindInt64, bindTime, bindText]
    have distinct : InsertStatement.recvMsg ≠ .sentMsg := by decide
    exact (Session.bindings_store_of_ne distinct elsewhere).trans unbound

theorem bound_perform (unbound : Unbound session) (stores : call.Stores) :
    (session.bindEach call.bindings).bindings call.statement 1 =
        .integer (signedSeqnum call.seqnum) ∧
      (session.bindEach call.bindings).row call.statement
          call.statement.parameters = call.written := by
  obtain ⟨⟨record, sized⟩ | ⟨record, sized⟩, tval, succeeds⟩ := call
  · obtain ⟨⟨-, -, -, -, -, -, bindable, -⟩, -⟩ := stores
    have blob := bindBlob_value bindable
    have nothing : ∀ parameter, session.bindings .recvMsg parameter = .null := congrFun unbound
    simp [StoreCall.statement, StoreCall.bindings, StoreCall.seqnum, StoreCall.written,
      InsertStatement.parameters, Session.row, Session.bindEach, Session.bind, recvBindings,
      bindInt64, bindTime, blob, nothing, List.range_succ]
  · obtain ⟨⟨-, -, -, -, -, -, -, -, -, -, -, -, -, -, bindable, -⟩, -⟩ := stores
    have blob := bindBlob_value bindable
    simp [StoreCall.statement, StoreCall.bindings, StoreCall.seqnum, StoreCall.written,
      InsertStatement.parameters, Session.row, Session.bindEach, Session.bind, sentBindings,
      bindInt64, bindTime, bindText, blob, List.range_succ]

theorem tables_perform (unbound : Unbound session) (stores : call.Stores) :
    (call.perform session).1.tables call.statement =
      insertOrReplace (session.tables call.statement) (signedSeqnum call.seqnum) call.written := by
  obtain ⟨bound, columns⟩ := bound_perform unbound stores
  rw [call.perform_eq, Session.tables_store stores bound, columns]

theorem tables_perform_of_ne {other : InsertStatement} (distinct : other ≠ call.statement) :
    (call.perform session).1.tables other = session.tables other := by
  rw [call.perform_eq, Session.tables_store_of_ne distinct]

theorem tables_perform_of_failed (failed : ¬ call.Stores) :
    (call.perform session).1.tables = session.tables := by
  rw [call.perform_eq, Session.tables_store_of_failed failed]

theorem signedSeqnum_injective : Function.Injective signedSeqnum := by
  intro first second same
  have firstBound := first.toNat_lt
  have secondBound := second.toNat_lt
  unfold signedSeqnum at same
  apply UInt64.toNat_inj.mp
  split at same <;> split at same <;> omega

theorem tables_perform_storeMsg {table : List (UInt64 × Columns)} (unbound : Unbound session)
    (stores : call.Stores)
    (same : session.tables call.statement =
      table.map fun entry => (signedSeqnum entry.1, entry.2)) :
    (call.perform session).1.tables call.statement =
      (storeMsg table call.seqnum.toNat call.written).map
        fun entry => (signedSeqnum entry.1, entry.2) := by
  rw [tables_perform unbound stores, same, storeMsg, UInt64.ofNat_toNat,
    map_insertOrReplace signedSeqnum_injective]

end Step

section Run

def lastStored (calls : List StoreCall) (statement : InsertStatement)
    (seqnum : UInt64) : Option StoreCall :=
  (calls.filter fun call => decide (call.Stores ∧ call.statement = statement ∧
    call.seqnum = seqnum)).getLast?

/-- The rows hold these values of the calls that last wrote them. -/
def RowsHold (values : StoreCall → Columns)
    (tables : InsertStatement → List (Int × Columns)) (calls : List StoreCall)
    (session : Session InsertStatement) : Prop :=
  ∀ statement seqnum columns,
    (signedSeqnum seqnum, columns) ∈ session.tables statement ↔
      match lastStored calls statement seqnum with
      | some call => columns = values call
      | none => (signedSeqnum seqnum, columns) ∈ tables statement

variable {tables : InsertStatement → List (Int × Columns)}
  {calls : List StoreCall} {session : Session InsertStatement}

theorem lastStored_append (calls : List StoreCall) (call : StoreCall)
    (statement : InsertStatement) (seqnum : UInt64) :
    lastStored (calls ++ [call]) statement seqnum =
      if call.Stores ∧ call.statement = statement ∧ call.seqnum = seqnum then
        some call
      else lastStored calls statement seqnum := by
  rw [lastStored, List.filter_append, List.filter_singleton]
  split <;> rename_i writes
  · rw [decide_eq_true writes, cond_true, List.getLast?_concat]
  · rw [decide_eq_false writes, cond_false, List.append_nil, lastStored]

theorem RowsHold.perform (holds : RowsHold StoreCall.written tables calls session)
    (unbound : Unbound session) (call : StoreCall) :
    RowsHold StoreCall.written tables (calls ++ [call]) (call.perform session).1 := by
  intro statement seqnum columns
  rw [lastStored_append]
  by_cases stores : call.Stores
  case neg =>
    rw [if_neg fun writes => stores writes.1, tables_perform_of_failed stores]
    exact holds statement seqnum columns
  by_cases executed : call.statement = statement
  case neg =>
    rw [if_neg fun writes => executed writes.2.1, tables_perform_of_ne (Ne.symm executed)]
    exact holds statement seqnum columns
  subst executed
  rw [tables_perform unbound stores, mem_insertOrReplace]
  by_cases same : call.seqnum = seqnum
  · subst same
    simp [stores]
  · have distinct : signedSeqnum seqnum ≠ signedSeqnum call.seqnum :=
      fun equal => same (signedSeqnum_injective equal).symm
    rw [if_neg fun writes => same writes.2.2]
    simp only [ne_eq, distinct, not_false_eq_true, true_and, Prod.mk.injEq, false_and, or_false]
    exact holds _ seqnum columns

theorem RowsHold.congr {values others : StoreCall → Columns}
    (holds : RowsHold values tables calls session)
    (agree : ∀ call ∈ calls, call.Stores → values call = others call) :
    RowsHold others tables calls session := by
  intro statement seqnum columns
  rw [holds statement seqnum columns]
  cases last : lastStored calls statement seqnum with
  | none => rfl
  | some call =>
    have member := List.mem_of_getLast? last
    rw [List.mem_filter, decide_eq_true_eq] at member
    simp only
    rw [agree call member.1 member.2.1]

end Run

end MercuryFix
