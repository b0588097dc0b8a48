import MercuryFix.PauseHandshake
import MercuryFix.PusherControl
import MercuryFix.ResendNumbers

/-!
# The pause of the pusher

The pusher thread answers the calling thread through `db_is_open_`.  `init` sets
that flag before the thread has run, and then a `start` can take it for the
answer of the thread, or a `stop` can return at once.  Where no call does so,
the thread is parked between the return of a `stop` and the next `start`.
-/

namespace MercuryFix

open TransitionSystem

open PauseHandshake (Agree)

/-- What the calling thread has asked of the pusher thread.  Behind `init` it
waits for the first pause without looking. -/
def PusherCaller.controller (started dbIsOpen : Bool) :
    PusherCaller → PauseHandshake.Controller
  | pausing _ => .started
  | awaitingClosed _ => .stopping
  | awaitingOpen => .starting
  | idle | resuming | loading .. | reading .. | resending .. | restoring _ =>
    if started then .started else if dbIsOpen then .stopping else .stopped

theorem PusherCaller.controller_lowered (caller : PusherCaller) (started dbIsOpen : Bool) :
    caller.controller started false = caller.controller started dbIsOpen ∨
      caller.controller started dbIsOpen = .stopping ∧
        caller.controller started false = .stopped := by
  cases caller <;> cases started <;> cases dbIsOpen <;> simp [controller]

theorem PusherCaller.eq_awaitingOpen {caller : PusherCaller} {started dbIsOpen : Bool}
    (starting : caller.controller started dbIsOpen = .starting) :
    caller = .awaitingOpen := by
  cases caller <;> cases started <;> cases dbIsOpen <;> first | rfl | cases starting

namespace PusherPlace

def worker : PusherPlace → PauseHandshake.Worker
  | absent | waiting => .parked
  | loading | opening | flagging => .resuming
  | entering | top | pushing => .active
  | storing | closing | clearing => .pausing
  | unregistering _ | closingLast | clearingLast => .leaving
  | ended => .gone

def holdsDatabase : PusherPlace → Bool
  | entering | top | storing | closing | flagging | pushing | unregistering _
  | closingLast => true
  | absent | clearing | waiting | loading | opening | clearingLast | ended =>
    false

def hasLeft : PusherPlace → Bool
  | unregistering _ | closingLast | clearingLast | ended => true
  | _ => false

theorem eq_of_rests {place : PusherPlace} (rests : place.worker = .parked ∨ place.worker = .gone) :
    place = .absent ∨ place = .waiting ∨ place = .ended := by
  cases place <;> simp [worker] at rests ⊢

end PusherPlace

namespace Pusher

variable {Path : Type*} {state next : Pusher Path} {soh : UInt8}

theorem configure_unchanged (soh : UInt8) (state : Pusher Path) (settings : PusherSettings Path) :
    ∃ fixStart fixVer sinkFd path,
      (path = state.db.path ∨ path = settings.localCache ∧ path.isSome) ∧
      (state.configure soh settings).1 = { state with
          fixStart := fixStart
          fixVer := fixVer
          sinkFd := sinkFd
          db := { state.db with path := path } } := by
  unfold configure
  dsimp only
  repeat' split
  all_goals
    first
    | exact ⟨_, _, _, _, .inl rfl, rfl⟩
    | exact ⟨_, _, _, _, .inr ⟨Eq.symm ‹_›, rfl⟩, rfl⟩

theorem start_cases (soh : UInt8) (state : Pusher Path) (settings : PusherSettings Path) :
    ∃ fixStart fixVer sinkFd path caller,
      (path = state.db.path ∨ path = settings.localCache ∧ path.isSome) ∧
      (state.started = true → path = state.db.path) ∧
      (caller = state.caller ∨ caller = .resuming ∧ state.started = false) ∧
      state.start soh settings = { state with
          fixStart := fixStart
          fixVer := fixVer
          sinkFd := sinkFd
          db := { state.db with path := path }
          caller := caller } := by
  unfold Pusher.start
  extract_lets configured
  obtain ⟨fixStart, fixVer, sinkFd, path, chosen, configuredEq⟩ :=
    configure_unchanged soh state settings
  change configured.1 = _ at configuredEq
  clear_value configured
  obtain ⟨first, reaches⟩ := configured
  subst configuredEq
  split
  · exact ⟨state.fixStart, state.fixVer, state.sinkFd, state.db.path,
      state.caller, .inl rfl, fun _ => rfl, .inl rfl, rfl⟩
  · rename_i notStarted
    have quiet := Bool.eq_false_of_not_eq_true notStarted
    split
    · exact ⟨fixStart, fixVer, sinkFd, path, _, chosen,
        fun started => absurd started notStarted, .inr ⟨rfl, quiet⟩, rfl⟩
    · exact ⟨fixStart, fixVer, sinkFd, path, _, chosen,
        fun started => absurd started notStarted, .inl rfl, rfl⟩

section Calls

/-- What the place of the pusher thread says in every interleaving. -/
structure Placed (state : Pusher Path) : Prop where
  fresh : state.initialised = false ↔ state.thread = .absent
  handle : state.db.handle.isSome = state.thread.holdsDatabase
  failed : state.error = state.thread.hasLeft

theorem Placed.constructed (files : Path → List (UInt64 × SentRecord)) :
    Placed (constructed files) where
  fresh := ⟨fun _ => rfl, fun _ => rfl⟩
  handle := rfl
  failed := rfl

theorem Placed.of_same (placed : Placed state) (initialised : next.initialised = state.initialised)
    (thread : next.thread = state.thread) (handle : next.db.handle = state.db.handle)
    (error : next.error = state.error) : Placed next where
  fresh := by
    rw [initialised, thread]
    exact placed.fresh
  handle := by
    rw [handle, thread]
    exact placed.handle
  failed := by
    rw [error, thread]
    exact placed.failed

theorem Placed.moved (placed : Placed state) {place later : PusherPlace}
    (standing : state.thread = place) (created : place ≠ .absent)
    (initialised : next.initialised = state.initialised)
    (going : next.thread = later) (stays : later ≠ .absent)
    (handle : next.db.handle.isSome = later.holdsDatabase)
    (failed : next.error = later.hasLeft) : Placed next where
  fresh := by
    have present : ¬ state.initialised = false := fun first =>
      created (standing ▸ placed.fresh.mp first)
    rw [initialised, going]
    exact ⟨fun first => absurd first present, fun absent => absurd absent stays⟩
  handle := going ▸ handle
  failed := going ▸ failed

theorem stopReturns_unchanged (state : Pusher Path) (after : AfterStop) :
    ∃ caller, state.stopReturns after = { state with stopped := true, caller := caller } := by
  cases after <;> exact ⟨_, rfl⟩

theorem stop_unchanged (state : Pusher Path) (after : AfterStop) :
    ∃ stopped caller, state.stop after = { state with stopped := stopped, caller := caller } := by
  unfold Pusher.stop
  split
  · exact ⟨_, _, rfl⟩
  · cases after <;> exact ⟨_, _, rfl⟩

theorem Placed.stop (placed : Placed state) (after : AfterStop) : Placed (state.stop after) := by
  obtain ⟨stopped, caller, same⟩ := stop_unchanged state after
  rw [same]
  exact placed.of_same rfl rfl rfl rfl

theorem Placed.start (placed : Placed state) (settings : PusherSettings Path) :
    Placed (state.start soh settings) := by
  obtain ⟨fixStart, fixVer, sinkFd, path, caller, -, -, -, same⟩ := start_cases soh state settings
  rw [same]
  exact placed.of_same rfl rfl rfl rfl

variable {localCache : Option Path}

theorem init_cases (steps : state.init localCache = some next) :
    (state.initialised = true ∧ next = state.stop .returns) ∨
    state.initialised = false ∧ (localCache = none ∧ next = { state with pauseThread := true } ∨
        ∃ path db latest, localCache = some path ∧ (state.db.setDbPath path).openPath = some db ∧
          db.latest = some latest ∧
          next = { state with
            initialised := true
            pauseThread := true
            dbIsOpen := true
            msgSeqNumber := latest
            db := db
            thread := .entering
            stopped := false }) := by
  unfold Pusher.init at steps
  split at steps
  · rename_i again
    cases steps
    exact .inl ⟨again, rfl⟩
  · rename_i first
    refine .inr ⟨Bool.eq_false_of_not_eq_true first, ?_⟩
    split at steps
    · cases steps
      exact .inl ⟨rfl, rfl⟩
    · rename_i path
      obtain ⟨db, opened, rest⟩ := Option.bind_eq_some_iff.mp steps
      obtain ⟨latest, asked, rfl⟩ := Option.map_eq_some_iff.mp rest
      exact .inr ⟨path, db, latest, rfl, opened, asked, rfl⟩

theorem Placed.init (placed : Placed state) (steps : state.init localCache = some next) :
    Placed next := by
  rcases init_cases steps with ⟨-, rfl⟩ |
    ⟨first, ⟨-, rfl⟩ | ⟨path, db, latest, -, opened, -, rfl⟩⟩
  · exact placed.stop .returns
  · exact placed.of_same rfl rfl rfl rfl
  · have absent := placed.fresh.mp first
    refine ⟨⟨nofun, nofun⟩, MsgDB.openPath_handle opened, ?_⟩
    have failed := placed.failed
    rw [absent] at failed
    exact failed

def view (state : Pusher Path) : PauseHandshake.State where
  pause := state.pauseThread
  running := state.dbIsOpen
  controller := state.caller.controller state.started state.dbIsOpen
  worker := state.thread.worker

/-- The step does not take the flag that `init` sets for an answer of the pusher
thread: a `start` clears the pause flag, and a `stop` returns at once, only while
`db_is_open_` is 0. -/
def Acknowledged (state : Pusher Path) : PusherAction Path → Prop
  | .init _ => state.initialised = true → state.started = false → state.dbIsOpen = false
  | .stop | .resend .. => state.started = false → state.dbIsOpen = false
  | .control _ => state.caller = .resuming → state.dbIsOpen = false
  | _ => True

instance decidableAcknowledged (state : Pusher Path) :
    ∀ action, Decidable (Acknowledged state action)
  | .init _ => inferInstanceAs (Decidable (_ → _ → _))
  | .stop | .resend .. | .control _ => inferInstanceAs (Decidable (_ → _))
  | .start _ | .thread _ | .push _ => .isTrue trivial

/-- What holds as long as the answers are those of the thread. -/
structure InStep (state : Pusher Path) : Prop where
  placed : Placed state
  agree : Agree state.view
  resuming : state.caller = .resuming → state.started = false
  atRest : state.stopped = true → state.view.controller = .stopped

theorem InStep.constructed (files : Path → List (UInt64 × SentRecord)) :
    InStep (constructed files) where
  placed := .constructed files
  agree := ⟨rfl, rfl, rfl⟩
  resuming := nofun
  atRest := nofun

theorem InStep.stop (inStep : InStep state) (after : AfterStop) (idle : state.caller = .idle)
    (acknowledged : state.started = false → state.dbIsOpen = false) :
    InStep (state.stop after) := by
  have placed := inStep.placed.stop after
  have agree := inStep.agree
  have atRest := inStep.atRest
  unfold Pusher.stop at placed ⊢
  simp only [view, idle, PusherCaller.controller] at agree atRest
  split at placed
  · rename_i started
    rw [if_pos started]
    simp only [started, ↓reduceIte] at agree atRest
    exact ⟨placed, agree, nofun, fun stopped => by cases atRest stopped⟩
  · rename_i running
    have notStarted := Bool.eq_false_of_not_eq_true running
    have closed := acknowledged notStarted
    rw [if_neg running]
    simp only [notStarted, closed, Bool.false_eq_true, ↓reduceIte] at agree
    cases after with
    | returns | reads start stop =>
      refine ⟨placed, ?_, nofun, fun _ => ?_⟩ <;>
        simp only [view, stopReturns, PusherCaller.controller, notStarted,
          closed, Bool.false_eq_true, ↓reduceIte]
      exact agree

theorem InStep.start (inStep : InStep state) (idle : state.caller = .idle)
    (settings : PusherSettings Path) : InStep (state.start soh settings) := by
  have placed : Placed (state.start soh settings) := inStep.placed.start settings
  obtain ⟨fixStart, fixVer, sinkFd, path, caller, -, -, moved, same⟩ :=
    start_cases soh state settings
  rw [same] at placed ⊢
  rcases moved with rfl | ⟨rfl, notStarted⟩
  · exact ⟨placed, inStep.agree, inStep.resuming, inStep.atRest⟩
  · have agree := inStep.agree
    have atRest := inStep.atRest
    rw [view, idle] at agree
    rw [view, idle] at atRest
    exact ⟨placed, agree, fun _ => notStarted, atRest⟩

theorem InStep.init (inStep : InStep state) (idle : state.caller = .idle)
    (acknowledged : state.initialised = true → state.started = false → state.dbIsOpen = false)
    (steps : state.init localCache = some next) : InStep next := by
  have placed := inStep.placed.init steps
  rcases init_cases steps with ⟨again, rfl⟩ | ⟨first, others⟩
  · exact inStep.stop .returns idle (acknowledged again)
  · have absent := inStep.placed.fresh.mp first
    have running : state.dbIsOpen = state.thread.worker.isRunning := inStep.agree.running
    have closed : state.dbIsOpen = false := by
      rw [running, absent]
      rfl
    have notStarted : state.started = false := by
      have allowed := inStep.agree.allowed
      rw [view, idle, absent] at allowed
      cases started : state.started with
      | false => rfl
      | true =>
        rw [started] at allowed
        cases allowed
    rcases others with ⟨-, rfl⟩ | ⟨path, db, latest, -, -, -, rfl⟩
    · refine ⟨placed, ⟨?_, running, inStep.agree.allowed⟩, inStep.resuming, inStep.atRest⟩
      simp only [view, idle, PusherCaller.controller, notStarted, closed,
        Bool.false_eq_true, ↓reduceIte]
      rfl
    · refine ⟨placed, ?_, fun resuming => ?_, nofun⟩
      · simp only [view, idle, PusherCaller.controller, notStarted, Bool.false_eq_true, ↓reduceIte]
        exact ⟨rfl, rfl, rfl⟩
      · exact absurd (idle.symm.trans resuming) nofun

theorem InStep.same_view (inStep : InStep state) (placed : Placed next)
    (same : next.view = state.view) (stopped : next.stopped = state.stopped)
    (other : next.caller ≠ .resuming) : InStep next where
  placed := placed
  agree := same ▸ inStep.agree
  resuming := fun resuming => absurd resuming other
  atRest := by
    rw [same, stopped]
    exact inStep.atRest

variable {caller : PusherCaller}

theorem InStep.agrees (inStep : InStep state) (standing : state.caller = caller) :
    Agree ⟨state.pauseThread, state.dbIsOpen,
      caller.controller state.started state.dbIsOpen, state.thread.worker⟩ :=
  standing ▸ inStep.agree

theorem InStep.not_stopped (inStep : InStep state) (standing : state.caller = caller)
    (running : caller.controller state.started state.dbIsOpen ≠ .stopped) :
    state.stopped ≠ true :=
  fun stopped => running (standing ▸ inStep.atRest stopped)

theorem agree_lowered {pause started dbIsOpen : Bool} {worker : PauseHandshake.Worker}
    (agree : Agree ⟨pause, false, caller.controller started dbIsOpen, worker⟩) :
    Agree ⟨pause, false, caller.controller started false, worker⟩ := by
  rcases caller.controller_lowered started dbIsOpen with
    same | ⟨stopping, stopped⟩
  · rw [same]
    exact agree
  · rw [stopped]
    exact agree.step (.paused stopping rfl)

theorem agree_raised {pause started dbIsOpen : Bool}
    (agree : Agree ⟨pause, dbIsOpen, caller.controller started dbIsOpen, .resuming⟩) :
    Agree ⟨pause, true, caller.controller started true, .active⟩ := by
  have starting : caller.controller started dbIsOpen = .starting := by
    have allowed := agree.allowed
    cases asked : caller.controller started dbIsOpen <;>
      rw [asked] at allowed <;> first | rfl | cases allowed
  cases PusherCaller.eq_awaitingOpen starting
  exact agree.step (.raise rfl)

theorem InStep.parked (inStep : InStep state) (stopped : state.stopped = true) :
    state.thread = .absent ∨ state.thread = .waiting ∨ state.thread = .ended :=
  PusherPlace.eq_of_rests (inStep.agree.at_rest (inStep.atRest stopped))

theorem InStep.closed (inStep : InStep state) (stopped : state.stopped = true) :
    state.db.handle = none := by
  rw [← Option.not_isSome_iff_eq_none, inStep.placed.handle]
  rcases inStep.parked stopped with standing | standing | standing <;> rw [standing] <;> exact nofun

end Calls

variable [DecidableEq Path] {iovMax : Nat} {temporary : Path → Bool}

@[simp]
theorem storeSent_handle (db : MsgDB Path SentRecord) (records : List SentRecord) :
    (storeSent db records).handle = db.handle := by
  unfold storeSent
  induction records generalizing db with
  | nil => rfl
  | cons record records induction =>
    rw [List.foldl_cons, induction, MsgDB.store_handle]

section Moves

/-- What a step of the pusher thread does. -/
inductive ThreadMove (soh : UInt8) (iovMax : Nat) (temporary : Path → Bool)
    (state : Pusher Path) : PusherThreadAction → Pusher Path → Prop
  | enters (standing : state.thread = .entering) :
      ThreadMove soh iovMax temporary state .go { state with
        outgoing := { state.outgoing with msgSeqNumber := state.msgSeqNumber }
        thread := .top }
  | notices (standing : state.thread = .top) (pauses : state.pauseThread = true) :
      ThreadMove soh iovMax temporary state .go { state with thread := .storing }
  | goesOn (standing : state.thread = .top) (runs : state.pauseThread = false) :
      ThreadMove soh iovMax temporary state .go { state with thread := .pushing }
  | stores (standing : state.thread = .storing) :
      ThreadMove soh iovMax temporary state .go { state with
        msgSeqNumber := state.outgoing.msgSeqNumber
        thread := .closing }
  | closes (standing : state.thread = .closing) :
      ThreadMove soh iovMax temporary state .go { state with
        db := state.db.close temporary
        thread := .clearing }
  | failsToClose (standing : state.thread = .closing) :
      ThreadMove soh iovMax temporary state .closeFails
        { state with thread := .top }
  | parks (standing : state.thread = .clearing) :
      ThreadMove soh iovMax temporary state .go { state with
        dbIsOpen := false
        thread := .waiting }
  | waits (standing : state.thread = .waiting)
      (pauses : state.pauseThread = true) :
      ThreadMove soh iovMax temporary state .go state
  | wakes (standing : state.thread = .waiting)
      (runs : state.pauseThread = false) :
      ThreadMove soh iovMax temporary state .go { state with thread := .loading }
  | loads (standing : state.thread = .loading) :
      ThreadMove soh iovMax temporary state .go { state with
        outgoing := { state.outgoing with msgSeqNumber := state.msgSeqNumber }
        thread := .opening }
  | opens {db : MsgDB Path SentRecord} (standing : state.thread = .opening)
      (opened : state.db.openPath = some db) :
      ThreadMove soh iovMax temporary state .go { state with
        db := db
        thread := .flagging }
  | raises (standing : state.thread = .flagging) :
      ThreadMove soh iovMax temporary state .go { state with
        dbIsOpen := true
        thread := .pushing }
  | works {action : OutgoingAction} {outgoing : Outgoing} {place : PusherPlace}
      (standing : state.thread = .pushing)
      (drains : state.outgoing.threadStep (state.args soh) iovMax action
        state.outgoing.round = some outgoing)
      (stays : place = .top ∨ place = .pushing) :
      ThreadMove soh iovMax temporary state (.work action) { state with
        outgoing := outgoing
        db := storeSent state.db
          (outgoing.stored.drop state.outgoing.stored.length)
        thread := place }
  | fails {count : Nat} {sink : List UInt8}
      (standing : state.thread = .pushing) :
      ThreadMove soh iovMax temporary state (.writeFails count) { state with
        error := true
        outgoing := { state.outgoing with sink := sink }
        thread := .unregistering .alfa }
  | unregisters {queue : Queue} {outgoing : Outgoing} {place : PusherPlace}
      (standing : state.thread = .unregistering queue)
      (leaves : state.outgoing.onRing queue (.process 0 .unregister) =
        some outgoing)
      (next : place = .closingLast ∨ place = .unregistering queue.following) :
      ThreadMove soh iovMax temporary state .go { state with
        outgoing := outgoing
        thread := place }
  | closesLast (standing : state.thread = .closingLast) :
      ThreadMove soh iovMax temporary state .go { state with
        db := state.db.close temporary
        thread := .clearingLast }
  | ends (standing : state.thread = .clearingLast) :
      ThreadMove soh iovMax temporary state .go { state with
        dbIsOpen := false
        thread := .ended }

theorem work_moves {action : OutgoingAction} (standing : state.thread = .pushing)
    (steps : state.work soh iovMax action = some next) :
    ThreadMove soh iovMax temporary state (.work action) next := by
  obtain ⟨outgoing, drains, rfl⟩ := Option.map_eq_some_iff.mp steps
  refine .works standing drains ?_
  split
  · exact .inl rfl
  · exact .inr rfl

theorem writeFails_moves {count : Nat} (standing : state.thread = .pushing)
    (steps : state.writeFails soh iovMax count = some next) :
    ThreadMove soh iovMax temporary state (.writeFails count) next := by
  unfold writeFails at steps
  dsimp only at steps
  split at steps
  · split at steps <;> cases steps
    exact .fails standing
  · cases steps

theorem threadStep_moves {action : PusherThreadAction}
    (steps : state.threadStep soh iovMax temporary action = some next) :
    ThreadMove soh iovMax temporary state action next := by
  unfold threadStep at steps
  split at steps
  case h_1 standing => cases steps; exact .enters standing
  case h_2 standing =>
    by_cases pauses : state.pauseThread = true
    · rw [if_pos pauses] at steps
      cases steps
      exact .notices standing pauses
    · rw [if_neg pauses] at steps
      cases steps
      exact .goesOn standing (Bool.eq_false_of_not_eq_true pauses)
  case h_3 standing => cases steps; exact .stores standing
  case h_4 standing => cases steps; exact .closes standing
  case h_5 standing => cases steps; exact .failsToClose standing
  case h_6 standing => cases steps; exact .parks standing
  case h_7 standing =>
    by_cases pauses : state.pauseThread = true
    · rw [if_pos pauses, ← standing] at steps
      cases steps
      exact .waits standing pauses
    · rw [if_neg pauses] at steps
      cases steps
      exact .wakes standing (Bool.eq_false_of_not_eq_true pauses)
  case h_8 standing => cases steps; exact .loads standing
  case h_9 standing =>
    obtain ⟨db, opened, rfl⟩ := Option.map_eq_some_iff.mp steps
    exact .opens standing opened
  case h_10 standing => cases steps; exact .raises standing
  case h_11 action standing => exact work_moves standing steps
  case h_12 count standing => exact writeFails_moves standing steps
  case h_13 queue standing =>
    obtain ⟨outgoing, leaves, rfl⟩ := Option.map_eq_some_iff.mp steps
    refine .unregisters standing leaves ?_
    split
    · exact .inl rfl
    · exact .inr rfl
  case h_14 standing => cases steps; exact .closesLast standing
  case h_15 standing => cases steps; exact .ends standing
  case h_16 => cases steps

end Moves

section Placed

theorem Placed.threadStep (placed : Placed state) {action : PusherThreadAction}
    (steps : state.threadStep soh iovMax temporary action = some next) :
    Placed next := by
  have handleAt {place : PusherPlace} (standing : state.thread = place) :
      state.db.handle.isSome = place.holdsDatabase := standing ▸ placed.handle
  have failedAt {place : PusherPlace} (standing : state.thread = place) :
      state.error = place.hasLeft := standing ▸ placed.failed
  cases threadStep_moves steps with
  | enters standing | notices standing | goesOn standing | stores standing
  | failsToClose standing | parks standing | wakes standing | loads standing
  | raises standing | ends standing =>
    have handle := handleAt standing
    have failed := failedAt standing
    exact placed.moved standing nofun rfl rfl nofun handle failed
  | closes standing | closesLast standing =>
    have failed := failedAt standing
    have handle := congrArg Option.isSome (state.db.close_handle temporary)
    exact placed.moved standing nofun rfl rfl nofun handle failed
  | waits => exact placed
  | opens standing opened =>
    have failed := failedAt standing
    have handle := MsgDB.openPath_handle opened
    exact placed.moved standing nofun rfl rfl nofun handle failed
  | @works _ outgoing _ standing _ stays =>
    have failed := failedAt standing
    have handle := (congrArg Option.isSome (storeSent_handle state.db
      (outgoing.stored.drop state.outgoing.stored.length))).trans (handleAt standing)
    rcases stays with rfl | rfl <;> exact placed.moved standing nofun rfl rfl nofun handle failed
  | fails standing =>
    have handle := handleAt standing
    exact placed.moved standing nofun rfl rfl nofun handle rfl
  | unregisters standing leaves following =>
    have handle := handleAt standing
    have failed := failedAt standing
    rcases following with rfl | rfl <;>
      exact placed.moved standing nofun rfl rfl nofun handle failed

/-- What a step of the calling thread inside one of its calls does. -/
inductive ControlMove (soh : UInt8) (inputs : Nat → RowInput) (state : Pusher Path) :
    Pusher Path → Prop
  | pauses {after : AfterStop} (standing : state.caller = .pausing after) :
      ControlMove soh inputs state
        { state with pauseThread := true, caller := .awaitingClosed after }
  | polls : ControlMove soh inputs state state
  | stops {after : AfterStop} (standing : state.caller = .awaitingClosed after)
      (closed : state.dbIsOpen = false) :
      ControlMove soh inputs state ({ state with started := false }.stopReturns after)
  | resumes (standing : state.caller = .resuming) :
      ControlMove soh inputs state
        { state with pauseThread := false, stopped := false, caller := .awaitingOpen }
  | starts (standing : state.caller = .awaitingOpen) (opened : state.dbIsOpen = true) :
      ControlMove soh inputs state { state with started := true, caller := .idle }
  | loads {start stop : Nat} (standing : state.caller = .loading start stop) :
      ControlMove soh inputs state
        { state with caller := .reading start stop state.msgSeqNumber }
  | reads {start stop origSeqnum : Nat} {rows : List (UInt64 × StoredMessage)}
      (standing : state.caller = .reading start stop origSeqnum)
      (found : state.db.getSentMsgs inputs start stop = some rows) :
      ControlMove soh inputs state
        { state with caller := .resending start origSeqnum (rows.map Prod.snd) }
  | resends {start origSeqnum : Nat} {messages : List StoredMessage} {final : Resending}
      {done : Bool} (standing : state.caller = .resending start origSeqnum messages)
      (resent : MercuryFix.resend (state.args soh) state.fixVer state.error inputs
        state.romeo start messages = some (final, done)) :
      ControlMove soh inputs state { state with
        romeo := final.romeo
        db := storeSent state.db final.stored
        outgoing := { state.outgoing with
          sink := state.outgoing.sink ++ final.written.flatten }
        caller := .restoring origSeqnum }
  | restores {origSeqnum : Nat} (standing : state.caller = .restoring origSeqnum) :
      ControlMove soh inputs state ({ state with
        msgSeqNumber := origSeqnum
        caller := .idle }.start soh ⟨none, none, -1⟩)

theorem controlMove_of_step {inputs : Nat → RowInput}
    (steps : state.controlStep soh inputs = some next) :
    ControlMove soh inputs state next := by
  unfold controlStep at steps
  split at steps
  case h_1 => cases steps
  case h_2 standing =>
    cases steps
    exact .pauses standing
  case h_3 standing =>
    split at steps <;> cases steps
    · exact .polls
    · rename_i opened
      exact .stops standing (Bool.eq_false_of_not_eq_true opened)
  case h_4 standing =>
    cases steps
    exact .resumes standing
  case h_5 standing =>
    split at steps <;> cases steps
    · rename_i opened
      exact .starts standing opened
    · exact .polls
  case h_6 standing =>
    cases steps
    exact .loads standing
  case h_7 standing =>
    obtain ⟨rows, found, rfl⟩ := Option.map_eq_some_iff.mp steps
    exact .reads standing found
  case h_8 standing =>
    obtain ⟨⟨final, done⟩, resent, rfl⟩ := Option.map_eq_some_iff.mp steps
    exact .resends standing resent
  case h_9 standing =>
    cases steps
    exact .restores standing

theorem Placed.control (placed : Placed state) {inputs : Nat → RowInput}
    (steps : state.controlStep soh inputs = some next) : Placed next := by
  cases controlMove_of_step steps with
  | polls => exact placed
  | pauses | resumes | starts | loads | reads => exact placed.of_same rfl rfl rfl rfl
  | @stops after =>
    obtain ⟨caller, same⟩ := stopReturns_unchanged { state with started := false } after
    rw [same]
    exact placed.of_same rfl rfl rfl rfl
  | resends => exact placed.of_same rfl rfl (storeSent_handle _ _) rfl
  | @restores origSeqnum =>
    have restored : Placed { state with msgSeqNumber := origSeqnum, caller := .idle } :=
      placed.of_same rfl rfl rfl rfl
    exact restored.start _

theorem push_unchanged {action : OutgoingAction}
    (steps : step soh iovMax temporary state (.push action) = some next) :
    ∃ outgoing, action.byCaller = true ∧
      state.outgoing.step (state.args soh) iovMax action = some outgoing ∧
      next = { state with outgoing := outgoing } := by
  obtain ⟨allowed, pushes⟩ := Option.ite_none_right_eq_some.mp steps
  obtain ⟨outgoing, moves, rfl⟩ := Option.map_eq_some_iff.mp pushes
  exact ⟨outgoing, (Bool.and_eq_true_iff.mp allowed).2, moves, rfl⟩

theorem Placed.step (placed : Placed state) {action : PusherAction Path}
    (steps : step soh iovMax temporary state action = some next) :
    Placed next := by
  cases action with
  | control inputs => exact placed.control steps
  | thread action => exact placed.threadStep steps
  | push action =>
    obtain ⟨outgoing, -, -, rfl⟩ := push_unchanged steps
    exact placed.of_same rfl rfl rfl rfl
  | init localCache =>
    exact placed.init (Option.ite_none_right_eq_some.mp steps).2
  | start settings =>
    cases (Option.ite_none_right_eq_some.mp steps).2
    exact placed.start settings
  | stop =>
    cases (Option.ite_none_right_eq_some.mp steps).2
    exact placed.stop .returns
  | resend start stop =>
    cases (Option.ite_none_right_eq_some.mp steps).2
    exact placed.stop (.reads start stop)

end Placed

section Handshake

theorem InStep.control (inStep : InStep state) {inputs : Nat → RowInput}
    (acknowledged : state.caller = .resuming → state.dbIsOpen = false)
    (steps : state.controlStep soh inputs = some next) : InStep next := by
  have placed := inStep.placed.control steps
  cases controlMove_of_step steps with
  | polls => exact inStep
  | pauses standing =>
    have running := inStep.not_stopped standing nofun
    exact ⟨placed, (inStep.agrees standing).step (.pause rfl), nofun,
      fun stopped => absurd stopped running⟩
  | @stops after standing closed =>
    have agree := inStep.agrees standing
    rw [closed] at agree
    have rests := agree.step (.paused rfl rfl)
    cases after with
    | returns | reads start stop =>
      refine ⟨placed, ?_, nofun, fun _ => ?_⟩
      all_goals
        simp only [view, stopReturns, PusherCaller.controller, closed,
          Bool.false_eq_true, ↓reduceIte]
      exact rests
  | resumes standing =>
    have asked : PusherCaller.resuming.controller state.started state.dbIsOpen = .stopped := by
      rw [inStep.resuming standing, acknowledged standing]
      rfl
    exact ⟨placed, (inStep.agrees standing).step (.resume asked), nofun, nofun⟩
  | starts standing opened =>
    have running := inStep.not_stopped standing nofun
    exact ⟨placed, (inStep.agrees standing).step (.resumed rfl opened), nofun,
      fun stopped => absurd stopped running⟩
  | loads standing | reads standing | resends standing =>
    refine inStep.same_view placed ?_ rfl nofun
    rw [view, view, standing]
    rfl
  | @restores origSeqnum standing =>
    have restored : InStep { state with msgSeqNumber := origSeqnum, caller := .idle } := by
      refine inStep.same_view (inStep.placed.of_same rfl rfl rfl rfl) ?_ rfl nofun
      rw [view, view, standing]
      rfl
    exact restored.start rfl _

theorem InStep.rests (inStep : InStep state) (stopped : state.stopped = true)
    {action : PusherThreadAction}
    (steps : state.threadStep soh iovMax temporary action = some next) :
    next = state := by
  have pauses : state.pauseThread = true := by
    have asked := inStep.agree.pause
    rw [inStep.atRest stopped] at asked
    exact asked
  have parked := inStep.parked stopped
  cases threadStep_moves steps with
  | waits => rfl
  | wakes standing runs => exact absurd (pauses.symm.trans runs) nofun
  | enters standing | notices standing | goesOn standing | stores standing
  | closes standing | failsToClose standing | parks standing | loads standing
  | opens standing | raises standing | works standing | fails standing
  | unregisters standing | closesLast standing | ends standing =>
    rw [standing] at parked
    simp at parked

theorem InStep.threadStep (inStep : InStep state) {action : PusherThreadAction}
    (steps : state.threadStep soh iovMax temporary action = some next) :
    InStep next := by
  by_cases stopped : state.stopped = true
  · rw [inStep.rests stopped steps]
    exact inStep
  have placed := inStep.placed.threadStep steps
  have atRest (later : state.stopped = true) : next.view.controller = .stopped :=
    absurd later stopped
  have agreeAt {place : PusherPlace} (standing : state.thread = place) :
      Agree ⟨state.pauseThread, state.dbIsOpen,
        state.caller.controller state.started state.dbIsOpen, place.worker⟩ :=
    standing ▸ inStep.agree
  cases threadStep_moves steps with
  | enters standing | goesOn standing | stores standing | closes standing
  | loads standing | opens standing | closesLast standing =>
    have agree := agreeAt standing
    exact ⟨placed, agree, inStep.resuming, atRest⟩
  | waits => exact inStep
  | notices standing pauses =>
    exact ⟨placed, (agreeAt standing).step (.notice rfl pauses), inStep.resuming, atRest⟩
  | failsToClose standing =>
    exact ⟨placed, (agreeAt standing).step (.retry rfl), inStep.resuming, atRest⟩
  | parks standing =>
    exact ⟨placed, agree_lowered ((agreeAt standing).step (.park rfl)), inStep.resuming, atRest⟩
  | wakes standing runs =>
    exact ⟨placed, (agreeAt standing).step (.wake rfl runs), inStep.resuming, atRest⟩
  | raises standing =>
    exact ⟨placed, agree_raised (agreeAt standing), inStep.resuming, atRest⟩
  | works standing drains stays =>
    have agree := agreeAt standing
    rcases stays with rfl | rfl <;> exact ⟨placed, agree, inStep.resuming, atRest⟩
  | fails standing =>
    exact ⟨placed, (agreeAt standing).step (.leave rfl), inStep.resuming, atRest⟩
  | unregisters standing leaves following =>
    have agree := agreeAt standing
    rcases following with rfl | rfl <;> exact ⟨placed, agree, inStep.resuming, atRest⟩
  | ends standing =>
    exact ⟨placed, agree_lowered ((agreeAt standing).step (.go rfl)), inStep.resuming, atRest⟩

theorem InStep.step (inStep : InStep state) {action : PusherAction Path}
    (acknowledged : Acknowledged state action)
    (steps : step soh iovMax temporary state action = some next) :
    InStep next := by
  cases action with
  | control inputs => exact inStep.control acknowledged steps
  | thread action => exact inStep.threadStep steps
  | push action =>
    have placed := inStep.placed.step steps
    obtain ⟨outgoing, -, -, rfl⟩ := push_unchanged steps
    exact ⟨placed, inStep.agree, inStep.resuming, inStep.atRest⟩
  | init localCache =>
    obtain ⟨idle, initialises⟩ := Option.ite_none_right_eq_some.mp steps
    exact inStep.init idle acknowledged initialises
  | start settings =>
    obtain ⟨idle, same⟩ := Option.ite_none_right_eq_some.mp steps
    cases same
    exact inStep.start idle settings
  | stop =>
    obtain ⟨idle, same⟩ := Option.ite_none_right_eq_some.mp steps
    cases same
    exact inStep.stop .returns idle acknowledged
  | resend start stop =>
    obtain ⟨idle, same⟩ := Option.ite_none_right_eq_some.mp steps
    cases same
    exact inStep.stop (.reads start stop) idle acknowledged

theorem inStep_of_run {files : Path → List (UInt64 × SentRecord)}
    {actions : List (PusherAction Path)}
    (runs : run (step soh iovMax temporary) (constructed files) actions = some state)
    (acknowledged : Guarded (step soh iovMax temporary) Acknowledged
      (constructed files) actions) : InStep state :=
  run_invariant_guarded InStep Acknowledged
    (fun inStep acknowledged steps => inStep.step acknowledged steps)
    (.constructed files) acknowledged runs

/-- As long as no call takes the flag that `init` sets for an answer of the
thread: from the return of a `stop` to the next clearing of the pause flag, the
pusher thread is in its wait loop, or has ended behind a failed write.  The
database is closed, and no step of the thread changes anything. -/
theorem stop_parks_pusher (soh : UInt8) (iovMax : Nat)
    (temporary : Path → Bool) (files : Path → List (UInt64 × SentRecord))
    (actions : List (PusherAction Path))
    (runs : run (Pusher.step soh iovMax temporary) (constructed files) actions =
      some state)
    (acknowledged : Guarded (Pusher.step soh iovMax temporary) Acknowledged
      (constructed files) actions)
    (initialised : state.initialised = true) (stopped : state.stopped = true) :
    (state.thread = .waiting ∨ state.thread = .ended ∧ state.error = true) ∧
    state.db.handle = none ∧
    ∀ action next, state.threadStep soh iovMax temporary action = some next →
      next = state := by
  have inStep := inStep_of_run runs acknowledged
  refine ⟨?_, inStep.closed stopped, fun action next steps =>
    inStep.rests stopped steps⟩
  rcases inStep.parked stopped with standing | standing | standing
  · have first := inStep.placed.fresh.mpr standing
    exact absurd (initialised.symm.trans first) nofun
  · exact .inl standing
  · refine .inr ⟨standing, ?_⟩
    rw [inStep.placed.failed, standing]
    rfl

def demoSettings : PusherSettings Unit where
  localCache := none
  fixVer := some (ascii ['F', 'I', 'X', '.', '4', '.', '2'])
  sinkFd := 3

def threadGoes {Path : Type} (count : Nat) : List (PusherAction Path) :=
  List.replicate count (.thread .go)

def controlGoes {Path : Type} (count : Nat) : List (PusherAction Path) :=
  List.replicate count (.control fun _ => newYearInput)

def startStopActions : List (PusherAction Unit) :=
  .init (some ()) :: threadGoes 5 ++ .start demoSettings :: controlGoes 1 ++
  threadGoes 4 ++ controlGoes 1 ++ .stop :: controlGoes 1 ++
  List.replicate 3 (.thread (.work .look)) ++ threadGoes 4 ++ controlGoes 1

theorem stop_parks_pusher_once :
    ∃ state, run (Pusher.step 1 1024 fun _ => false) (constructed fun _ => [])
        startStopActions = some state ∧
      state.stopped = true ∧ state.db.handle = none := by
  have evaluated : (run (Pusher.step 1 1024 fun _ => false)
      (constructed fun _ => []) startStopActions).map
        (fun state => (state.initialised, state.stopped)) =
      some (true, true) := by
    decide +kernel
  obtain ⟨state, runs, seen⟩ := Option.map_eq_some_iff.mp evaluated
  have stopped : state.stopped = true := congrArg Prod.snd seen
  exact ⟨state, runs, stopped,
    (stop_parks_pusher 1 1024 (fun _ => false) (fun _ => []) startStopActions
      runs (by decide +kernel) (congrArg Prod.fst seen) stopped).2.1⟩

def pushSteps {Path : Type} : List (PusherAction Path) :=
  [.push (.push 0 ⟨[1, 49, 48, 61], [68], 0, 0, by decide⟩), .push (.scan 0),
    .push (.scan 0), .push (.fill 0 []), .push (.await 0), .push (.commit 0)]

/-- The thread has seen the pause flag of `init` when `start` clears it and
returns, and answers behind that.  The `stop` takes its answer for one to its
own pause. -/
def staleActions : List (PusherAction Unit) :=
  .init (some ()) :: threadGoes 2 ++ .start demoSettings :: controlGoes 2 ++
  threadGoes 4 ++ pushSteps ++ .stop :: controlGoes 2

def sendingActions : List (PusherAction Unit) :=
  threadGoes 3 ++ [.thread (.work .look), .thread (.work .limit),
    .thread (.work .complete), .thread (.work .finish)]

theorem stopped_pusher_sends :
    ∃ before after, run (Pusher.step 1 1024 fun _ => false)
        (constructed fun _ => []) staleActions = some before ∧
      before.stopped = true ∧ before.outgoing.sink = [] ∧
      before.outgoing.msgSeqNumber = 0 ∧
      run (Pusher.step 1 1024 fun _ => false) before sendingActions =
        some after ∧
      after.stopped = true ∧ after.outgoing.sink ≠ [] ∧
      after.outgoing.msgSeqNumber = 1 := by
  have early : (run (Pusher.step 1 1024 fun _ => false)
      (constructed fun _ => []) staleActions).map (fun state =>
        (state.stopped, state.outgoing.sink, state.outgoing.msgSeqNumber)) =
      some (true, [], 0) := by
    decide +kernel
  have late : (run (Pusher.step 1 1024 fun _ => false)
      (constructed fun _ => []) (staleActions ++ sendingActions)).map
        (fun state => (state.stopped, state.outgoing.sink.isEmpty,
          state.outgoing.msgSeqNumber)) = some (true, false, 1) := by
    decide +kernel
  obtain ⟨before, after, runs, seen, rest, later⟩ := exists_run_append early late
  simp only [Prod.mk.injEq] at seen later
  refine ⟨before, after, runs, seen.1, seen.2.1, seen.2.2, rest, later.1, ?_,
    later.2.2⟩
  rw [← List.isEmpty_eq_false_iff]
  exact later.2.1

end Handshake

end Pusher

end MercuryFix
