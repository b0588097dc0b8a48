import Mathlib.Logic.Relation

/-!
# Pause handshakes

A controlling thread pauses and resumes a worker.  It sets and clears a pause
flag and then polls a second flag, which the worker raises when it runs and
lowers when it has parked.  Every access to one of the flags is a step.

A worker may also leave its loop for good.  It then lowers its flag once more,
or never.
-/

namespace PauseHandshake

inductive Controller
  | stopped
  | starting
  | started
  | stopping
  deriving DecidableEq

inductive Worker
  | parked
  | resuming
  | active
  | pausing
  | leaving
  | gone
  deriving DecidableEq

structure State where
  pause : Bool
  running : Bool
  controller : Controller
  worker : Worker

def Controller.wantsPause : Controller → Bool
  | stopped | stopping => true
  | starting | started => false

def Worker.isRunning : Worker → Bool
  | active | pausing | leaving => true
  | parked | resuming | gone => false

/-- Where the worker can be while the controller is at a given place. -/
def Controller.allows : Controller → Worker → Bool
  | _, .gone => true
  | stopped, worker => worker == .parked
  | starting, worker => worker != .pausing
  | started, worker => worker == .active || worker == .leaving
  | stopping, worker => worker != .resuming

inductive Step (state : State) : State → Prop
  | resume (standing : state.controller = .stopped) :
      Step state { state with pause := false, controller := .starting }
  | resumed (standing : state.controller = .starting)
      (sees : state.running = true) :
      Step state { state with controller := .started }
  | pause (standing : state.controller = .started) :
      Step state { state with pause := true, controller := .stopping }
  | paused (standing : state.controller = .stopping)
      (sees : state.running = false) :
      Step state { state with controller := .stopped }
  | wake (standing : state.worker = .parked) (sees : state.pause = false) :
      Step state { state with worker := .resuming }
  | raise (standing : state.worker = .resuming) :
      Step state { state with running := true, worker := .active }
  | notice (standing : state.worker = .active) (sees : state.pause = true) :
      Step state { state with worker := .pausing }
  | retry (standing : state.worker = .pausing) :
      Step state { state with worker := .active }
  | park (standing : state.worker = .pausing) :
      Step state { state with running := false, worker := .parked }
  | leave (standing : state.worker = .active) :
      Step state { state with worker := .leaving }
  | go (standing : state.worker = .leaving) :
      Step state { state with running := false, worker := .gone }

/-- Both flags say what their writers mean, and the two threads are at places
that go together. -/
structure Agree (state : State) : Prop where
  pause : state.pause = state.controller.wantsPause
  running : state.running = state.worker.isRunning
  allowed : state.controller.allows state.worker = true

variable {state next : State}

theorem Agree.step (agree : Agree state) (steps : Step state next) : Agree next := by
  obtain ⟨pause, running, controller, worker⟩ := state
  obtain ⟨pauseEq, runningEq, allowed⟩ := agree
  cases steps with
  | resume standing | resumed standing sees | pause standing
  | paused standing sees =>
    cases standing
    refine ⟨?_, runningEq, ?_⟩
    all_goals cases worker <;> simp_all [Controller.allows,
      Controller.wantsPause, Worker.isRunning]
  | wake standing sees | raise standing | notice standing sees
  | retry standing | park standing | leave standing | go standing =>
    cases standing
    refine ⟨pauseEq, ?_, ?_⟩
    all_goals cases controller <;> simp_all [Controller.allows,
      Controller.wantsPause, Worker.isRunning]

theorem Agree.at_rest (agree : Agree state) (stopped : state.controller = .stopped) :
    state.worker = .parked ∨ state.worker = .gone := by
  have allowed := agree.allowed
  rw [stopped] at allowed
  cases standing : state.worker <;> rw [standing] at allowed <;> simp_all [Controller.allows]

end PauseHandshake
