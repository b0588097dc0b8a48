import MercuryFix.FixMessageFormat
import MercuryFix.MessageDatabase
import MercuryFix.SplitterThread
import MercuryFix.TransitionSystems

/-!
# The threads of the popper

One thread calls `init`, `start` and `stop`, the sucker receives data and
publishes it on foxtrot, and the splitter takes it from there.  Every access to
a flag that two threads use is a step of its own; `started_` belongs to the
calling thread.  Foxtrot is the list of the entries that the splitter has not
taken yet.

`received`, `effects` and `stopped` are not in the source: they record what
`recvfrom` has returned, what the splitter has done, and that a `stop` has
returned since the pause flag was last cleared.
-/

namespace MercuryFix

open ByteBlock

inductive PopperCaller
  | idle
  | resuming
  | awaitingOpen
  | awaitingRunning
  | pausing
  | awaitingClosed
  | awaitingParked
  deriving DecidableEq

/-- Where the splitter stands.  It opens the database a first time and then
behind every pause. -/
inductive SplitterPlace
  | absent
  | beginning
  | awaitingStart
  | opening (again : Bool)
  | announcing (again : Bool)
  | numbering
  | looping
  | closing
  | clearing
  | awaitingResume
  | looking
  | splitting (left : Nat)
  deriving DecidableEq

/-- Where the sucker stands.  It parks at the top of its loop or, `inside`,
between two calls of `recvfrom`. -/
inductive SuckerPlace
  | absent
  | awaitingStart
  | announcing
  | looping
  | clearing (inside : Bool)
  | awaitingResume (inside : Bool)
  | reannouncing (inside : Bool)
  | acquiring
  | receiving
  | checking
  | committing (entry : FoxtrotEntry)
  | leaving
  | ended

structure Popper (Path Pusher : Type*) where
  initialised : Bool
  pauseThreads : Bool
  dbIsOpen : Bool
  suckerIsRunning : Bool
  started : Bool
  pusher : Option Pusher
  splitterPusher : Option Pusher
  beginString : BeginString
  sourceFd : Int
  db : MsgDB Path (List UInt8)
  parser : Splitter
  foxtrot : List FoxtrotEntry
  caller : PopperCaller
  splitter : SplitterPlace
  sucker : SuckerPlace
  received : List FoxtrotEntry
  effects : List Effect
  stopped : Bool

structure PopperSettings (Path Pusher : Type*) where
  localCache : Option Path
  fixVer : Option (List UInt8)
  pusher : Option Pusher
  sourceFd : Int

/-- What the ring and the socket answer the sucker.  `closed` stands for the end
of the connection and for the errors that end the thread. -/
inductive SuckerInput
  | proceed
  | full
  | received (entry : FoxtrotEntry)
  | retry
  | closed

inductive PopperAction (Path Pusher : Type*)
  | init
  | start (settings : PopperSettings Path Pusher)
  | stop
  | control
  | splitter
  | sucker (input : SuckerInput)

def Effect.callsPusher : Effect → Bool
  | .sendResendRequestMessage _ | .sendSessionLevelRejectMessage _ _
  | .resend _ _ => true
  | _ => false

/-- The database behind some effects of the splitter. -/
def MsgDB.receive {Path : Type*} [DecidableEq Path]
    (db : MsgDB Path (List UInt8)) : List Effect → MsgDB Path (List UInt8)
  | [] => db
  | .storeRecvMsg seqnum _ msg :: rest => (db.store seqnum msg).receive rest
  | _ :: rest => db.receive rest

namespace Popper

variable {Path Pusher : Type*}

def constructed (files : Path → List (UInt64 × List UInt8)) :
    Popper Path Pusher where
  initialised := false
  pauseThreads := true
  dbIsOpen := false
  suckerIsRunning := false
  started := false
  pusher := none
  splitterPusher := none
  beginString := .empty
  sourceFd := -1
  db := ⟨none, none, files⟩
  parser := .initial 0
  foxtrot := []
  caller := .idle
  splitter := .absent
  sucker := .absent
  received := []
  effects := []
  stopped := false

def stop (state : Popper Path Pusher) : Popper Path Pusher :=
  if state.started then { state with caller := .pausing }
  else { state with stopped := true }

/-- `init`, whose allocations succeed.  Only the first call creates the
threads. -/
def init (state : Popper Path Pusher) : Popper Path Pusher :=
  if state.initialised then state.stop
  else
    { state.stop with
      initialised := true
      splitterPusher := state.pusher
      splitter := .beginning
      sucker := .awaitingStart }

/-- The part of `start` that looks at its arguments, and whether it gets to
the pause flag. -/
def configure (soh : UInt8) (state : Popper Path Pusher)
    (settings : PopperSettings Path Pusher) : Popper Path Pusher × Bool :=
  let beginString :=
    match settings.fixVer with
    | some version =>
      if 32 ≤ version.length then none
      else some (BeginString.ofVersion soh version)
    | none => some state.beginString
  match beginString with
  | none => (state, false)
  | some beginString =>
    let state := { state with beginString := beginString }
    if state.beginString.text = [] then (state, false)
    else
      let state :=
        if 0 ≤ settings.sourceFd then
          { state with sourceFd := settings.sourceFd }
        else state
      if state.sourceFd < 0 then (state, false)
      else
        match settings.localCache with
        | some path => ({ state with db := state.db.setDbPath path }, true)
        | none => (state, true)

/-- `start` up to its first access to a shared flag. -/
def start (soh : UInt8) (state : Popper Path Pusher)
    (settings : PopperSettings Path Pusher) : Popper Path Pusher :=
  let state :=
    match settings.pusher with
    | some pusher => { state with pusher := some pusher }
    | none => state
  if state.started then state
  else
    let configured := state.configure soh settings
    if configured.2 then { configured.1 with caller := .resuming }
    else configured.1

/-- A step of the calling thread inside `start` or `stop`. -/
def controlStep (state : Popper Path Pusher) : Option (Popper Path Pusher) :=
  match state.caller with
  | .idle => none
  | .resuming =>
    some { state with
      pauseThreads := false
      stopped := false
      caller := .awaitingOpen }
  | .awaitingOpen =>
    some { state with
      caller := if state.dbIsOpen then .awaitingRunning else .awaitingOpen }
  | .awaitingRunning =>
    if state.suckerIsRunning then
      some { state with started := true, caller := .idle }
    else some state
  | .pausing =>
    some { state with pauseThreads := true, caller := .awaitingClosed }
  | .awaitingClosed =>
    some { state with
      caller := if state.dbIsOpen then .awaitingClosed else .awaitingParked }
  | .awaitingParked =>
    if state.suckerIsRunning then some state
    else
      some { state with started := false, stopped := true, caller := .idle }

/-- The arguments of the splitter with the current begin string. -/
def args (base : SplitterArgs) (state : Popper Path Pusher) : SplitterArgs :=
  { base with
    beginString := state.beginString.text
    terminated := state.beginString.terminated
    fits := state.beginString.fits }

variable [DecidableEq Path]

/-- The splitter takes one entry of a batch.  A call through a pusher that is
NULL does not return. -/
def splitNext (base : SplitterArgs) (state : Popper Path Pusher)
    (left : Nat) : Option (Popper Path Pusher) :=
  match state.foxtrot with
  | [] => none
  | entry :: rest =>
    let split := splitEntry (state.args base) state.parser entry
    if state.splitterPusher.isNone && split.2.any Effect.callsPusher then
      none
    else
      some { state with
        parser := split.1
        foxtrot := rest
        db := state.db.receive split.2
        effects := state.effects ++ split.2
        splitter := .splitting left }

/-- A step of `splitter_thread_func`.  An `abort` is modelled as none. -/
def splitterStep (base : SplitterArgs) (temporary : Path → Bool)
    (state : Popper Path Pusher) : Option (Popper Path Pusher) :=
  match state.splitter with
  | .absent => none
  | .beginning =>
    some { state with dbIsOpen := false, splitter := .awaitingStart }
  | .awaitingStart =>
    some { state with
      splitter := if state.pauseThreads then .awaitingStart else .opening false }
  | .opening again =>
    state.db.openPath.map fun db =>
      { state with db := db, splitter := .announcing again }
  | .announcing again =>
    some { state with
      dbIsOpen := true
      splitter := if again then .looking else .numbering }
  | .numbering =>
    state.db.latest.map fun latest =>
      { state with
        parser := .initial (UInt64.ofNat latest)
        splitter := .looping }
  | .looping =>
    some { state with
      splitter := if state.pauseThreads then .closing else .looking }
  | .closing =>
    some { state with db := state.db.close temporary, splitter := .clearing }
  | .clearing =>
    some { state with dbIsOpen := false, splitter := .awaitingResume }
  | .awaitingResume =>
    some { state with
      splitter := if state.pauseThreads then .awaitingResume else .opening true }
  | .looking =>
    some { state with
      splitter :=
        if state.foxtrot = [] then .looping
        else .splitting state.foxtrot.length }
  | .splitting 0 => some { state with splitter := .looping }
  | .splitting (left + 1) => state.splitNext base left

/-- A step of `sucker_thread_func`. -/
def suckerStep (state : Popper Path Pusher) (input : SuckerInput) :
    Option (Popper Path Pusher) :=
  match state.sucker, input with
  | .awaitingStart, .proceed =>
    some { state with
      sucker := if state.pauseThreads then .awaitingStart else .announcing }
  | .announcing, .proceed =>
    some { state with suckerIsRunning := true, sucker := .looping }
  | .looping, .proceed =>
    some { state with
      sucker := if state.pauseThreads then .clearing false else .acquiring }
  | .clearing inside, .proceed =>
    some { state with
      suckerIsRunning := false
      sucker := .awaitingResume inside }
  | .awaitingResume inside, .proceed =>
    some { state with
      sucker :=
        if state.pauseThreads then .awaitingResume inside
        else .reannouncing inside }
  | .reannouncing inside, .proceed =>
    some { state with
      suckerIsRunning := true
      sucker := if inside then .receiving else .acquiring }
  | .acquiring, .full => some { state with sucker := .looping }
  | .acquiring, .proceed => some { state with sucker := .receiving }
  | .receiving, .received entry =>
    some { state with
      received := state.received ++ [entry]
      sucker := .committing entry }
  | .receiving, .retry => some { state with sucker := .checking }
  | .receiving, .closed => some { state with sucker := .leaving }
  | .checking, .proceed =>
    some { state with
      sucker := if state.pauseThreads then .clearing true else .receiving }
  | .committing entry, .proceed =>
    some { state with
      foxtrot := state.foxtrot ++ [entry]
      sucker := .looping }
  | .leaving, .proceed =>
    some { state with
      foxtrot := state.foxtrot ++ [⟨[], Nat.zero_le _⟩]
      sucker := .ended }
  | _, _ => none

def step (base : SplitterArgs) (temporary : Path → Bool) (state : Popper Path Pusher) :
    PopperAction Path Pusher → Option (Popper Path Pusher)
  | .init => if state.caller = .idle then some state.init else none
  | .start settings =>
    if state.caller = .idle then some (state.start base.soh settings)
    else none
  | .stop => if state.caller = .idle then some state.stop else none
  | .control => state.controlStep
  | .splitter => state.splitterStep base temporary
  | .sucker input => state.suckerStep input

end Popper

end MercuryFix
