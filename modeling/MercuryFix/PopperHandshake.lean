import MercuryFix.PauseHandshake
import MercuryFix.PopperControl
import MercuryFix.SplitterChunks

/-!
# The pause of the popper

Each of the two threads goes through a pause handshake with the calling thread:
the splitter answers through `db_is_open_`, the sucker through
`sucker_is_running_`.  Between the return of a `stop` and the next `start` both
are parked.
-/

namespace MercuryFix

open TransitionSystem

open PauseHandshake (Agree)

def PopperCaller.ofSplitter (started : Bool) :
    PopperCaller → PauseHandshake.Controller
  | idle => if started then .started else .stopped
  | resuming => .stopped
  | awaitingOpen => .starting
  | awaitingRunning | pausing => .started
  | awaitingClosed => .stopping
  | awaitingParked => .stopped

def PopperCaller.ofSucker (started : Bool) :
    PopperCaller → PauseHandshake.Controller
  | idle => if started then .started else .stopped
  | resuming => .stopped
  | awaitingOpen | awaitingRunning => .starting
  | pausing => .started
  | awaitingClosed | awaitingParked => .stopping

def SplitterPlace.worker : SplitterPlace → PauseHandshake.Worker
  | absent | beginning | awaitingStart | awaitingResume => .parked
  | opening _ | announcing _ => .resuming
  | numbering | looping | looking | splitting _ => .active
  | closing | clearing => .pausing

def SuckerPlace.worker : SuckerPlace → PauseHandshake.Worker
  | absent | awaitingStart | awaitingResume _ => .parked
  | announcing | reannouncing _ => .resuming
  | looping | acquiring | receiving | checking | committing _ => .active
  | clearing _ => .pausing
  | leaving | ended => .leaving

def SplitterPlace.isParked : SplitterPlace → Bool
  | absent | beginning | awaitingStart | awaitingResume => true
  | _ => false

def SuckerPlace.isParked : SuckerPlace → Bool
  | absent | awaitingStart | awaitingResume _ => true
  | _ => false

def SplitterPlace.holdsDatabase : SplitterPlace → Bool
  | announcing _ | numbering | looping | looking | splitting _ | closing =>
    true
  | _ => false

theorem SplitterPlace.isParked_of_worker {place : SplitterPlace}
    (rests : place.worker = .parked ∨ place.worker = .gone) :
    place.isParked = true := by
  cases place <;> first | rfl | simp [worker] at rests

theorem SuckerPlace.isParked_of_worker {place : SuckerPlace}
    (rests : place.worker = .parked ∨ place.worker = .gone) :
    place.isParked = true := by
  cases place <;> first | rfl | simp [worker] at rests

theorem SplitterPlace.not_holdsDatabase {place : SplitterPlace}
    (parked : place.isParked = true) : place.holdsDatabase = false := by
  cases place <;> first | rfl | cases parked

namespace Popper

variable {Path Pusher : Type*} {state next : Popper Path Pusher}

def splitterView (state : Popper Path Pusher) : PauseHandshake.State where
  pause := state.pauseThreads
  running := state.dbIsOpen
  controller := state.caller.ofSplitter state.started
  worker := state.splitter.worker

def suckerView (state : Popper Path Pusher) : PauseHandshake.State where
  pause := state.pauseThreads
  running := state.suckerIsRunning
  controller := state.caller.ofSucker state.started
  worker := state.sucker.worker

/-- The calling thread is between a `stop` and the store of a `start`. -/
def AtRest (state : Popper Path Pusher) : Prop :=
  state.caller = .resuming ∨ state.caller = .idle ∧ state.started = false

/-- What holds of the three threads in every interleaving. -/
structure InStep (state : Popper Path Pusher) : Prop where
  splitter : Agree state.splitterView
  sucker : Agree state.suckerView
  fresh : state.initialised = false → state.splitter = .absent ∧ state.sucker = .absent
  handle : state.db.handle.isSome = true → state.splitter.holdsDatabase = true
  atRest : state.stopped = true → state.AtRest

theorem InStep.constructed (files : Path → List (UInt64 × List UInt8)) :
    InStep (constructed files : Popper Path Pusher) where
  splitter := ⟨rfl, rfl, rfl⟩
  sucker := ⟨rfl, rfl, rfl⟩
  fresh := fun _ => ⟨rfl, rfl⟩
  handle := fun opened => by cases opened
  atRest := fun stopped => by cases stopped

section Calls

theorem stop_splitterView (idle : state.caller = .idle) :
    state.stop.splitterView = state.splitterView := by
  unfold Popper.stop
  split
  · rename_i started
    simp [splitterView, PopperCaller.ofSplitter, idle, started]
  · rfl

theorem stop_suckerView (idle : state.caller = .idle) :
    state.stop.suckerView = state.suckerView := by
  unfold Popper.stop
  split
  · rename_i started
    simp [suckerView, PopperCaller.ofSucker, idle, started]
  · rfl

theorem stop_unchanged (state : Popper Path Pusher) : state.stop.initialised = state.initialised ∧
      state.stop.splitter = state.splitter ∧
      state.stop.sucker = state.sucker ∧ state.stop.db = state.db := by
  unfold Popper.stop
  split <;> exact ⟨rfl, rfl, rfl, rfl⟩

theorem InStep.stop (inStep : InStep state) (idle : state.caller = .idle) : InStep state.stop where
  splitter := stop_splitterView idle ▸ inStep.splitter
  sucker := stop_suckerView idle ▸ inStep.sucker
  fresh := by
    obtain ⟨initialised, splitter, sucker, -⟩ := stop_unchanged state
    rw [initialised, splitter, sucker]
    exact inStep.fresh
  handle := by
    obtain ⟨-, splitter, -, db⟩ := stop_unchanged state
    rw [db, splitter]
    exact inStep.handle
  atRest := by
    unfold Popper.stop
    split
    · rename_i started
      intro stopped
      rcases inStep.atRest stopped with resuming | ⟨-, notStarted⟩
      · exact absurd (idle.symm.trans resuming) (by decide)
      · exact absurd (started.symm.trans notStarted) (by decide)
    · rename_i notStarted
      exact fun _ => .inr ⟨idle, Bool.eq_false_of_not_eq_true notStarted⟩

theorem InStep.init (inStep : InStep state) (idle : state.caller = .idle) : InStep state.init := by
  have stopped := inStep.stop idle
  obtain ⟨initialised, splitterSame, suckerSame, db⟩ := stop_unchanged state
  unfold Popper.init
  split
  · exact stopped
  · rename_i first
    obtain ⟨noSplitter, noSucker⟩ := inStep.fresh (Bool.eq_false_of_not_eq_true first)
    refine ⟨?_, ?_, nofun, ?_, stopped.atRest⟩
    · have before := stopped.splitter
      rw [splitterView, splitterSame, noSplitter] at before
      exact before
    · have before := stopped.sucker
      rw [suckerView, suckerSame, noSucker] at before
      exact before
    · intro opened
      have before := stopped.handle opened
      rw [splitterSame, noSplitter] at before
      cases before

theorem configure_unchanged (soh : UInt8) (state : Popper Path Pusher)
    (settings : PopperSettings Path Pusher) :
    ∃ beginString sourceFd path, (state.configure soh settings).1 = { state with
          beginString := beginString
          sourceFd := sourceFd
          db := { state.db with path := path } } := by
  unfold configure
  dsimp only
  repeat' split
  all_goals exact ⟨_, _, _, rfl⟩

theorem start_cases (soh : UInt8) (state : Popper Path Pusher)
    (settings : PopperSettings Path Pusher) :
    ∃ beginString sourceFd path caller,
      (caller = state.caller ∨ caller = .resuming ∧ state.started = false) ∧
      state.start soh settings = { state with
          pusher := settings.pusher.or state.pusher
          beginString := beginString
          sourceFd := sourceFd
          db := { state.db with path := path }
          caller := caller } := by
  unfold Popper.start
  extract_lets bound configured
  have boundEq : bound = { state with pusher := settings.pusher.or state.pusher } := by
    unfold bound
    cases settings.pusher <;> rfl
  obtain ⟨beginString, sourceFd, path, configuredEq⟩ := configure_unchanged soh bound settings
  change configured.1 = _ at configuredEq
  clear_value configured bound
  obtain ⟨first, reaches⟩ := configured
  subst boundEq configuredEq
  split
  · exact ⟨state.beginString, state.sourceFd, state.db.path, state.caller, .inl rfl, rfl⟩
  · rename_i notStarted
    split
    · exact ⟨beginString, sourceFd, path, _,
        .inr ⟨rfl, Bool.eq_false_of_not_eq_true notStarted⟩, rfl⟩
    · exact ⟨beginString, sourceFd, path, _, .inl rfl, rfl⟩

theorem InStep.start (inStep : InStep state) (idle : state.caller = .idle)
    (soh : UInt8) (settings : PopperSettings Path Pusher) :
    InStep (state.start soh settings) := by
  obtain ⟨beginString, sourceFd, path, caller, moved, after⟩ := start_cases soh state settings
  rw [after]
  rcases moved with rfl | ⟨rfl, notStarted⟩
  · exact ⟨inStep.splitter, inStep.sucker, inStep.fresh, inStep.handle, inStep.atRest⟩
  · refine ⟨?_, ?_, inStep.fresh, inStep.handle, fun _ => .inl rfl⟩
    · have before := inStep.splitter
      simpa [splitterView, PopperCaller.ofSplitter, idle, notStarted] using before
    · have before := inStep.sucker
      simpa [suckerView, PopperCaller.ofSucker, idle, notStarted] using before

end Calls

section Steps

theorem splitterView_controller {place : PopperCaller} (standing : state.caller = place) :
    state.splitterView.controller = place.ofSplitter state.started :=
  congrArg (PopperCaller.ofSplitter state.started) standing

theorem suckerView_controller {place : PopperCaller} (standing : state.caller = place) :
    state.suckerView.controller = place.ofSucker state.started :=
  congrArg (PopperCaller.ofSucker state.started) standing

section

variable (inStep : InStep state)
include inStep

theorem InStep.splitter_parked (stopped : state.stopped = true) :
    state.splitter.isParked = true := by
  apply SplitterPlace.isParked_of_worker
  apply inStep.splitter.at_rest
  rcases inStep.atRest stopped with standing | ⟨standing, notStarted⟩
  · exact splitterView_controller standing
  · rw [splitterView_controller standing, notStarted]
    rfl

theorem InStep.sucker_parked (stopped : state.stopped = true) : state.sucker.isParked = true := by
  apply SuckerPlace.isParked_of_worker
  apply inStep.sucker.at_rest
  rcases inStep.atRest stopped with standing | ⟨standing, notStarted⟩
  · exact suckerView_controller standing
  · rw [suckerView_controller standing, notStarted]
    rfl

theorem InStep.control (steps : state.controlStep = some next) : InStep next := by
  have notStopped (notIdle : state.caller ≠ .idle)
      (notResuming : state.caller ≠ .resuming) : state.stopped ≠ true :=
    fun stopped => (inStep.atRest stopped).elim notResuming fun idle => notIdle idle.1
  have polls {place : PopperCaller} (standing : state.caller = place) :
      InStep { state with caller := place } := by
    rwa [← standing]
  unfold controlStep at steps
  split at steps
  case h_1 => cases steps
  case h_2 standing =>
    cases steps
    exact ⟨inStep.splitter.step (.resume (splitterView_controller standing)),
      inStep.sucker.step (.resume (suckerView_controller standing)),
      inStep.fresh, inStep.handle, nofun⟩
  case h_3 standing =>
    have running := notStopped (by simp [standing]) (by simp [standing])
    split at steps <;> cases steps
    · rename_i opened
      refine ⟨inStep.splitter.step (.resumed (splitterView_controller standing) opened), ?_,
        inStep.fresh, inStep.handle, fun stopped => absurd stopped running⟩
      simpa [suckerView, PopperCaller.ofSucker, standing] using inStep.sucker
    · exact polls standing
  case h_4 standing =>
    have running := notStopped (by simp [standing]) (by simp [standing])
    split at steps <;> cases steps
    · rename_i runs
      refine ⟨?_, inStep.sucker.step (.resumed (suckerView_controller standing) runs),
        inStep.fresh, inStep.handle, fun stopped => absurd stopped running⟩
      simpa [splitterView, PopperCaller.ofSplitter, standing] using inStep.splitter
    · exact inStep
  case h_5 standing =>
    have running := notStopped (by simp [standing]) (by simp [standing])
    cases steps
    exact ⟨inStep.splitter.step (.pause (splitterView_controller standing)),
      inStep.sucker.step (.pause (suckerView_controller standing)),
      inStep.fresh, inStep.handle, fun stopped => absurd stopped running⟩
  case h_6 standing =>
    have running := notStopped (by simp [standing]) (by simp [standing])
    split at steps <;> cases steps
    · exact polls standing
    · rename_i closed
      refine ⟨inStep.splitter.step
        (.paused (splitterView_controller standing) (Bool.eq_false_of_not_eq_true closed)), ?_,
        inStep.fresh, inStep.handle, fun stopped => absurd stopped running⟩
      simpa [suckerView, PopperCaller.ofSucker, standing] using inStep.sucker
  case h_7 standing =>
    split at steps <;> cases steps
    · exact inStep
    · rename_i parks
      refine ⟨?_, inStep.sucker.step
        (.paused (suckerView_controller standing) (Bool.eq_false_of_not_eq_true parks)),
        inStep.fresh, inStep.handle, fun _ => .inr ⟨rfl, rfl⟩⟩
      simpa [splitterView, PopperCaller.ofSplitter, standing] using inStep.splitter

theorem InStep.sucker_agrees {place : SuckerPlace} (standing : state.sucker = place) :
    Agree ⟨state.pauseThreads, state.suckerIsRunning,
      state.caller.ofSucker state.started, place.worker⟩ :=
  standing ▸ inStep.sucker

theorem InStep.sucked {running : Bool} {place : SuckerPlace} {received foxtrot : List FoxtrotEntry}
    (created : state.sucker ≠ .absent)
    (agree : Agree ⟨state.pauseThreads, running,
      state.caller.ofSucker state.started, place.worker⟩) :
    InStep { state with
      suckerIsRunning := running
      sucker := place
      received := received
      foxtrot := foxtrot } where
  splitter := inStep.splitter
  sucker := agree
  fresh := fun first => absurd (inStep.fresh first).2 created
  handle := inStep.handle
  atRest := inStep.atRest

theorem InStep.suckerStep {input : SuckerInput} (steps : state.suckerStep input = some next) :
    InStep next := by
  unfold Popper.suckerStep at steps
  split at steps
  case h_15 => cases steps
  all_goals
    rename_i standing
    have agree := inStep.sucker_agrees standing
    have created : state.sucker ≠ .absent := by simp [standing]
  -- Waiting for the pause flag.
  case h_1 | h_5 =>
    split at steps <;> cases steps
    · exact inStep.sucked created agree
    · rename_i resumes
      exact inStep.sucked created (agree.step (.wake rfl (Bool.eq_false_of_not_eq_true resumes)))
  -- Telling the calling thread that the sucker runs.
  case h_2 =>
    cases steps
    exact inStep.sucked created (agree.step (.raise rfl))
  case h_6 =>
    split at steps <;> cases steps <;> exact inStep.sucked created (agree.step (.raise rfl))
  -- Looking at the pause flag.
  case h_3 | h_12 =>
    split at steps <;> cases steps
    · rename_i pauses
      exact inStep.sucked created (agree.step (.notice rfl pauses))
    · exact inStep.sucked created agree
  case h_4 =>
    cases steps
    exact inStep.sucked created (agree.step (.park rfl))
  case h_11 =>
    cases steps
    exact inStep.sucked created (agree.step (.leave rfl))
  case h_7 | h_8 | h_9 | h_10 | h_13 | h_14 =>
    cases steps
    exact inStep.sucked created agree

end

theorem suckerStep_parked {input : SuckerInput} (parked : state.sucker.isParked = true)
    (steps : state.suckerStep input = some next) :
    ∃ place, next = { state with sucker := place } := by
  unfold suckerStep at steps
  split at steps
  case h_15 => cases steps
  all_goals
    rename_i standing
    rw [standing] at parked
  case h_1 | h_5 =>
    cases steps
    exact ⟨_, rfl⟩
  all_goals cases parked

theorem InStep.splitter_agrees (inStep : InStep state) {place : SplitterPlace}
    (standing : state.splitter = place) :
    Agree ⟨state.pauseThreads, state.dbIsOpen,
      state.caller.ofSplitter state.started, place.worker⟩ :=
  standing ▸ inStep.splitter

theorem InStep.holdsDatabase (inStep : InStep state) {place : SplitterPlace}
    (standing : state.splitter = place)
    (opened : state.db.handle.isSome = true) : place.holdsDatabase = true :=
  standing ▸ inStep.handle opened

theorem InStep.split (inStep : InStep state) {running : Bool}
    {place : SplitterPlace} {db : MsgDB Path (List UInt8)} {parser : Splitter}
    {foxtrot : List FoxtrotEntry} {effects : List Effect}
    (created : state.splitter ≠ .absent)
    (agree : Agree ⟨state.pauseThreads, running,
      state.caller.ofSplitter state.started, place.worker⟩)
    (handle : db.handle.isSome = true → place.holdsDatabase = true) :
    InStep { state with
      dbIsOpen := running
      splitter := place
      db := db
      parser := parser
      foxtrot := foxtrot
      effects := effects } where
  splitter := agree
  sucker := inStep.sucker
  fresh := fun first => absurd (inStep.fresh first).1 created
  handle := handle
  atRest := inStep.atRest

variable [DecidableEq Path]

theorem splitNext_cases {base : SplitterArgs} {left : Nat}
    (steps : state.splitNext base left = some next) :
    ∃ entry rest, state.foxtrot = entry :: rest ∧ (state.splitterPusher = none →
        (splitEntry (state.args base) state.parser entry).2.any Effect.callsPusher = false) ∧
      next = { state with
        parser := (splitEntry (state.args base) state.parser entry).1
        foxtrot := rest
        db := state.db.receive (splitEntry (state.args base) state.parser entry).2
        effects := state.effects ++ (splitEntry (state.args base) state.parser entry).2
        splitter := .splitting left } := by
  unfold splitNext at steps
  split at steps
  · cases steps
  · rename_i entry rest entries
    dsimp only at steps
    split at steps <;> cases steps
    rename_i served
    refine ⟨entry, rest, entries, fun missing => ?_, rfl⟩
    simpa [missing] using served

theorem InStep.splitterStep (inStep : InStep state) {base : SplitterArgs} {temporary : Path → Bool}
    (steps : state.splitterStep base temporary = some next) : InStep next := by
  unfold Popper.splitterStep at steps
  split at steps
  case h_1 => cases steps
  all_goals
    rename_i standing
    have agree := inStep.splitter_agrees standing
    have holds := inStep.holdsDatabase standing
    have created : state.splitter ≠ .absent := by simp [standing]
  case h_2 =>
    cases steps
    have lowered : state.dbIsOpen = false := agree.running
    exact inStep.split created (lowered ▸ agree) holds
  -- Waiting for the pause flag.
  case h_3 | h_10 =>
    split at steps <;> cases steps
    · exact inStep.split created agree holds
    · rename_i resumes
      exact inStep.split created
        (agree.step (.wake rfl (Bool.eq_false_of_not_eq_true resumes))) holds
  case h_4 =>
    obtain ⟨db, -, rfl⟩ := Option.map_eq_some_iff.mp steps
    exact inStep.split created agree fun _ => rfl
  -- Telling the calling thread that the database is open.
  case h_5 =>
    split at steps <;> cases steps <;>
      exact inStep.split created (agree.step (.raise rfl)) fun _ => rfl
  case h_6 =>
    obtain ⟨latest, -, rfl⟩ := Option.map_eq_some_iff.mp steps
    exact inStep.split created agree fun _ => rfl
  -- Looking at the pause flag.
  case h_7 =>
    split at steps <;> cases steps
    · rename_i pauses
      exact inStep.split created (agree.step (.notice rfl pauses)) fun _ => rfl
    · exact inStep.split created agree fun _ => rfl
  case h_8 =>
    cases steps
    refine inStep.split created agree fun opened => ?_
    rw [MsgDB.close_handle] at opened
    cases opened
  case h_9 =>
    cases steps
    exact inStep.split created (agree.step (.park rfl)) holds
  case h_11 =>
    split at steps <;> cases steps <;> exact inStep.split created agree fun _ => rfl
  case h_12 =>
    cases steps
    exact inStep.split created agree fun _ => rfl
  case h_13 =>
    obtain ⟨entry, rest, -, -, rfl⟩ := splitNext_cases steps
    exact inStep.split created agree fun _ => rfl

end Steps

section Runs

variable [DecidableEq Path] {base : SplitterArgs} {temporary : Path → Bool}

theorem InStep.step (inStep : InStep state) {action : PopperAction Path Pusher}
    (steps : step base temporary state action = some next) : InStep next := by
  cases action with
  | control => exact inStep.control steps
  | splitter => exact inStep.splitterStep steps
  | sucker input => exact inStep.suckerStep steps
  | init =>
    obtain ⟨idle, same⟩ := Option.ite_none_right_eq_some.mp steps
    cases same
    exact inStep.init idle
  | start settings =>
    obtain ⟨idle, same⟩ := Option.ite_none_right_eq_some.mp steps
    cases same
    exact inStep.start idle base.soh settings
  | stop =>
    obtain ⟨idle, same⟩ := Option.ite_none_right_eq_some.mp steps
    cases same
    exact inStep.stop idle

theorem inStep_of_run {files : Path → List (UInt64 × List UInt8)}
    {actions : List (PopperAction Path Pusher)}
    (runs : run (step base temporary) (constructed files) actions = some state) : InStep state :=
  run_invariant InStep (fun inStep steps => inStep.step steps) (.constructed files) runs

theorem splitterStep_parked (parked : state.splitter.isParked = true)
    (steps : state.splitterStep base temporary = some next) :
    ∃ place running, next = { state with splitter := place, dbIsOpen := running } := by
  unfold splitterStep at steps
  split at steps
  case h_1 => cases steps
  all_goals
    rename_i standing
    rw [standing] at parked
  case h_2 | h_3 | h_10 =>
    cases steps
    exact ⟨_, _, rfl⟩
  all_goals cases parked

/-- From the return of a `stop` to the next clearing of the pause flag, both
threads are parked, the database is closed, and no step of theirs receives,
publishes or stores anything. -/
theorem stop_parks_threads (base : SplitterArgs) (temporary : Path → Bool)
    (files : Path → List (UInt64 × List UInt8))
    (actions : List (PopperAction Path Pusher))
    (runs : run (Popper.step base temporary) (constructed files) actions =
      some state)
    (stopped : state.stopped = true) :
    state.splitter.isParked = true ∧ state.db.handle = none ∧
    state.sucker.isParked = true ∧
    ∀ next, (state.splitterStep base temporary = some next ∨
        ∃ input, state.suckerStep input = some next) →
      next.received = state.received ∧ next.foxtrot = state.foxtrot ∧
      next.effects = state.effects ∧ next.db = state.db := by
  have inStep := inStep_of_run runs
  have splitter := inStep.splitter_parked stopped
  have sucker := inStep.sucker_parked stopped
  refine ⟨splitter, ?_, sucker, ?_⟩
  · rw [← Option.not_isSome_iff_eq_none]
    intro opened
    have holds := inStep.handle opened
    rw [SplitterPlace.not_holdsDatabase splitter] at holds
    cases holds
  · rintro next (steps | ⟨input, steps⟩)
    · obtain ⟨place, running, rfl⟩ := splitterStep_parked splitter steps
      exact ⟨rfl, rfl, rfl, rfl⟩
    · obtain ⟨place, rfl⟩ := suckerStep_parked sucker steps
      exact ⟨rfl, rfl, rfl, rfl⟩

end Runs

def demoSettings : PopperSettings Unit Nat where
  localCache := some ()
  fixVer := some (ascii ['F', 'I', 'X', '.', '4', '.', '1'])
  pusher := some 7
  sourceFd := 3

def startStopActions : List (PopperAction Unit Nat) :=
  [PopperAction.init, .start demoSettings, .control] ++
  List.replicate 5 PopperAction.splitter ++
  List.replicate 2 (PopperAction.sucker .proceed) ++
  [PopperAction.control, .control, .stop, .control] ++
  List.replicate 3 PopperAction.splitter ++
  List.replicate 2 (PopperAction.sucker .proceed) ++
  [PopperAction.control, .control]

theorem stop_parks_threads_once :
    ∃ state, run (Popper.step fix41Args fun _ => false)
      (constructed fun _ => []) startStopActions = some state ∧
    state.stopped = true ∧ state.splitter = .awaitingResume ∧
    state.db.handle = none := by
  have evaluated : (run (Popper.step fix41Args fun _ => false)
      (constructed fun _ => []) startStopActions).map
        (fun state => (state.stopped, state.splitter)) =
      some (true, .awaitingResume) := by
    decide +kernel
  obtain ⟨state, runs, seen⟩ := Option.map_eq_some_iff.mp evaluated
  have stopped : state.stopped = true := congrArg Prod.fst seen
  exact ⟨state, runs, stopped, congrArg Prod.snd seen,
    (stop_parks_threads fix41Args (fun _ => false) (fun _ => [])
      startStopActions runs stopped).2.1⟩

end Popper

end MercuryFix
