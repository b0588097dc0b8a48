import MercuryFix.PusherHandshake

/-!
# The database that `resend` reads

`resend` pauses the pusher thread, which closes the database to acknowledge the
pause, and then asks the closed database for the stored messages.  It gets a list
only if the thread holds the database all the same.
-/

namespace MercuryFix

open TransitionSystem

section Rows

/-- The blob has the length in the row, within the limit of SQLite. -/
def SentRecord.Readable (record : SentRecord) : Prop :=
  record.len % 2 ^ 32 ≤ record.partialMsg.length ∧ record.partialMsg.length < 2 ^ 31

end Rows

def PusherCaller.hasPaused : PusherCaller → Bool
  | loading .. | reading .. | resending .. | restoring _ => true
  | _ => false

namespace Pusher

variable {Path : Type*} {state next : Pusher Path} {soh : UInt8}

/-- What `resend` finds in every interleaving. -/
structure Resendable (state : Pusher Path) : Prop where
  placed : Placed state
  romeo : RomeoReached state.error state.romeo
  paused : state.caller.hasPaused = true → state.stopped = true

theorem Resendable.constructed (files : Path → List (UInt64 × SentRecord)) :
    Resendable (constructed files) where
  placed := .constructed files
  romeo := .registered
  paused := nofun

theorem Resendable.stop (resendable : Resendable state) (after : AfterStop) :
    Resendable (state.stop after) := by
  have placed := resendable.placed.stop after
  unfold Pusher.stop at placed ⊢
  split at placed
  · rename_i started
    rw [if_pos started]
    exact ⟨placed, resendable.romeo, nofun⟩
  · rename_i notStarted
    rw [if_neg notStarted]
    cases after <;> exact ⟨placed, resendable.romeo, fun _ => rfl⟩

theorem Resendable.start (resendable : Resendable state) (settings : PusherSettings Path) :
    Resendable (state.start soh settings) := by
  have placed : Placed (state.start soh settings) := resendable.placed.start settings
  obtain ⟨fixStart, fixVer, sinkFd, path, caller, -, -, moved, same⟩ :=
    start_cases soh state settings
  rw [same] at placed ⊢
  rcases moved with rfl | ⟨rfl, -⟩
  · exact ⟨placed, resendable.romeo, resendable.paused⟩
  · exact ⟨placed, resendable.romeo, nofun⟩

variable [DecidableEq Path] {iovMax : Nat} {temporary : Path → Bool}

theorem Resendable.threadStep (resendable : Resendable state) {action : PusherThreadAction}
    (steps : state.threadStep soh iovMax temporary action = some next) :
    Resendable next := by
  have placed := resendable.placed.threadStep steps
  cases threadStep_moves steps with
  | waits => exact resendable
  | fails standing =>
    have running : state.error = false := by
      rw [resendable.placed.failed, standing]
      rfl
    have reached := resendable.romeo
    rw [running] at reached
    exact ⟨placed, reached.failed, resendable.paused⟩
  | enters | notices | goesOn | stores | closes | failsToClose | parks | wakes
  | loads | opens | raises | works | unregisters | closesLast | ends =>
    exact ⟨placed, resendable.romeo, resendable.paused⟩

theorem Resendable.control (resendable : Resendable state) {inputs : Nat → RowInput}
    (steps : state.controlStep soh inputs = some next) : Resendable next := by
  have placed := resendable.placed.control steps
  have romeo := resendable.romeo
  have paused {caller : PusherCaller} (standing : state.caller = caller)
      (inside : caller.hasPaused = true) : state.stopped = true :=
    resendable.paused (standing ▸ inside)
  cases controlMove_of_step steps with
  | polls => exact resendable
  | pauses | resumes | starts => exact ⟨placed, romeo, nofun⟩
  | @stops after => cases after <;> exact ⟨placed, romeo, fun _ => rfl⟩
  | loads standing | reads standing => exact ⟨placed, romeo, fun _ => paused standing rfl⟩
  | resends standing resent =>
    exact ⟨placed, romeo.resent resent, fun _ => paused standing rfl⟩
  | @restores origSeqnum =>
    have restored : Resendable { state with msgSeqNumber := origSeqnum, caller := .idle } :=
      ⟨resendable.placed.of_same rfl rfl rfl rfl, romeo, nofun⟩
    exact restored.start _

theorem Resendable.step (resendable : Resendable state) {action : PusherAction Path}
    (steps : step soh iovMax temporary state action = some next) :
    Resendable next := by
  have placed := resendable.placed.step steps
  cases action with
  | control inputs => exact resendable.control steps
  | thread action => exact resendable.threadStep steps
  | push action =>
    obtain ⟨outgoing, -, -, rfl⟩ := push_unchanged steps
    exact ⟨placed, resendable.romeo, resendable.paused⟩
  | init localCache =>
    obtain ⟨idle, initialises⟩ := Option.ite_none_right_eq_some.mp steps
    have outside : state.caller.hasPaused ≠ true := by
      rw [idle]
      exact nofun
    rcases init_cases initialises with ⟨-, rfl⟩ |
      ⟨-, ⟨-, rfl⟩ | ⟨path, db, latest, -, -, -, rfl⟩⟩
    · exact resendable.stop .returns
    · exact ⟨placed, resendable.romeo, resendable.paused⟩
    · exact ⟨placed, resendable.romeo, fun inside => absurd inside outside⟩
  | start settings =>
    cases (Option.ite_none_right_eq_some.mp steps).2
    exact resendable.start settings
  | stop =>
    cases (Option.ite_none_right_eq_some.mp steps).2
    exact resendable.stop .returns
  | resend start stop =>
    cases (Option.ite_none_right_eq_some.mp steps).2
    exact resendable.stop (.reads start stop)

end Pusher

end MercuryFix
