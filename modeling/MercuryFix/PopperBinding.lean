import MercuryFix.PopperHandshake
import MercuryFix.SplitterSoundness

/-!
# The pusher that the splitter calls

`start` stores its pusher in `pusher_`.  The splitter calls the one in its
argument block, which the first `init` fills from `pusher_`.
-/

namespace MercuryFix

open TransitionSystem

variable {Path Pusher : Type*}

def PopperAction.isInit : PopperAction Path Pusher → Bool
  | init => true
  | _ => false

def PopperAction.passes : PopperAction Path Pusher → Option Pusher
  | start settings => settings.pusher
  | _ => none

def lastPassed : List (PopperAction Path Pusher) → Option Pusher
  | [] => none
  | action :: rest => (lastPassed rest).or action.passes

namespace Popper

variable {base : SplitterArgs} {temporary : Path → Bool}
  {state next final : Popper Path Pusher}

/-- The pointer that the splitter calls through while it takes the next entry,
if it makes such a call. -/
def reactsThrough (base : SplitterArgs) (state : Popper Path Pusher) :
    Option (Option Pusher) :=
  match state.splitter, state.foxtrot with
  | .splitting (_ + 1), entry :: _ =>
    if (splitEntry (state.args base) state.parser entry).2.any
        Effect.callsPusher then
      some state.splitterPusher
    else none
  | _, _ => none

theorem initialised_of_reacts {called : Option Pusher}
    (inStep : InStep state) (reacts : state.reactsThrough base = some called) :
    state.initialised = true ∧ state.splitterPusher = called := by
  unfold reactsThrough at reacts
  split at reacts
  · rename_i standing _
    refine ⟨?_, ?_⟩
    · rw [← Bool.not_eq_false]
      intro fresh
      rw [(inStep.fresh fresh).1] at standing
      cases standing
    · obtain ⟨-, same⟩ := Option.ite_none_right_eq_some.mp reacts
      exact Option.some.inj same
  · cases reacts

theorem stop_keeps_pushers (state : Popper Path Pusher) :
    state.stop.pusher = state.pusher ∧ state.stop.splitterPusher = state.splitterPusher := by
  unfold Popper.stop
  split <;> exact ⟨rfl, rfl⟩

variable [DecidableEq Path]

theorem threads_keep_pushers {action : PopperAction Path Pusher}
    (steps : step base temporary state action = some next)
    (thread : action = .control ∨ action = .splitter ∨ ∃ input, action = .sucker input) :
    next.initialised = state.initialised ∧ next.pusher = state.pusher ∧
      next.splitterPusher = state.splitterPusher := by
  rcases thread with rfl | rfl | ⟨input, rfl⟩
  · change state.controlStep = some next at steps
    unfold controlStep at steps
    repeat' split at steps
    all_goals cases steps <;> exact ⟨rfl, rfl, rfl⟩
  · change state.splitterStep base temporary = some next at steps
    unfold splitterStep at steps
    split at steps
    case h_4 | h_6 =>
      obtain ⟨_, -, rfl⟩ := Option.map_eq_some_iff.mp steps
      exact ⟨rfl, rfl, rfl⟩
    case h_13 =>
      obtain ⟨_, _, -, -, rfl⟩ := splitNext_cases steps
      exact ⟨rfl, rfl, rfl⟩
    all_goals cases steps <;> exact ⟨rfl, rfl, rfl⟩
  · change state.suckerStep input = some next at steps
    unfold suckerStep at steps
    split at steps
    all_goals cases steps <;> exact ⟨rfl, rfl, rfl⟩

/-- What a step does with the pointers: `start` overwrites `pusher_`, and the
first `init` copies it. -/
theorem step_pushers {action : PopperAction Path Pusher}
    (steps : step base temporary state action = some next) :
    next.initialised = (state.initialised || action.isInit) ∧
      next.pusher = action.passes.or state.pusher ∧
      next.splitterPusher =
        if action.isInit && !state.initialised then state.pusher
        else state.splitterPusher := by
  cases action with
  | init =>
    obtain ⟨-, same⟩ := Option.ite_none_right_eq_some.mp steps
    cases same
    obtain ⟨pusher, splitterPusher⟩ := stop_keeps_pushers state
    obtain ⟨initialised, -⟩ := stop_unchanged state
    unfold Popper.init
    split
    · rename_i before
      simp [initialised, pusher, splitterPusher, before, PopperAction.isInit, PopperAction.passes]
    · rename_i first
      simp [pusher, first, PopperAction.isInit, PopperAction.passes]
  | start settings =>
    obtain ⟨-, same⟩ := Option.ite_none_right_eq_some.mp steps
    cases same
    obtain ⟨_, _, _, _, -, after⟩ := start_cases base.soh state settings
    rw [after]
    simp [PopperAction.isInit, PopperAction.passes]
  | stop =>
    obtain ⟨-, same⟩ := Option.ite_none_right_eq_some.mp steps
    cases same
    obtain ⟨pusher, splitterPusher⟩ := stop_keeps_pushers state
    obtain ⟨initialised, -⟩ := stop_unchanged state
    simp [initialised, pusher, splitterPusher, PopperAction.isInit, PopperAction.passes]
  | control =>
    simpa [PopperAction.isInit, PopperAction.passes] using threads_keep_pushers steps (.inl rfl)
  | splitter =>
    simpa [PopperAction.isInit, PopperAction.passes] using
      threads_keep_pushers steps (.inr (.inl rfl))
  | sucker input =>
    simpa [PopperAction.isInit, PopperAction.passes] using
      threads_keep_pushers steps (.inr (.inr ⟨input, rfl⟩))

theorem run_keeps_binding {actions : List (PopperAction Path Pusher)}
    (runs : run (step base temporary) state actions = some final)
    (initialised : state.initialised = true) :
    final.splitterPusher = state.splitterPusher := by
  induction actions generalizing state with
  | nil =>
    cases runs
    rfl
  | cons action actions induction =>
    obtain ⟨next, steps, rest⟩ := run_cons_eq_some.mp runs
    obtain ⟨stays, -, bound⟩ := step_pushers steps
    rw [induction rest (by rw [stays, initialised, Bool.true_or]), bound]
    simp [initialised]

theorem run_binds {actions : List (PopperAction Path Pusher)}
    (runs : run (step base temporary) state actions = some final)
    (fresh : state.initialised = false)
    (initialised : final.initialised = true) :
    final.splitterPusher = (lastPassed (actions.takeWhile (!·.isInit))).or state.pusher := by
  induction actions generalizing state with
  | nil =>
    cases runs
    rw [fresh] at initialised
    cases initialised
  | cons action actions induction =>
    obtain ⟨next, steps, rest⟩ := run_cons_eq_some.mp runs
    obtain ⟨created, passed, bound⟩ := step_pushers steps
    cases first : action.isInit with
    | true =>
      rw [run_keeps_binding rest (by rw [created, first, Bool.or_true]), bound]
      simp [first, fresh, lastPassed]
    | false =>
      rw [induction rest (by rw [created, fresh, first]; rfl), passed]
      simp [first, lastPassed, Option.or_assoc]

/-- Whenever the splitter reacts to a message with a call, it calls the pusher
that was passed last exactly when none was passed behind the first `init` or
that one was the same. -/
theorem splitter_calls_last_pusher_iff (files : Path → List (UInt64 × List UInt8))
    (actions : List (PopperAction Path Pusher))
    (runs : run (step base temporary) (constructed files) actions = some state)
    {called : Option Pusher}
    (reacts : state.reactsThrough base = some called) :
    called = lastPassed actions ↔
      lastPassed (actions.takeWhile (!·.isInit)) = lastPassed actions := by
  obtain ⟨initialised, rfl⟩ :=
    initialised_of_reacts (inStep_of_run runs) reacts
  have bound := run_binds runs rfl initialised
  rw [bound]
  simp [constructed]

def gapMessage : FixMessage 1 where
  digits := ascii ['1', '0']
  msgType := ascii ['D']
  fields := ascii ['3', '4', '=', '2'] ++ [1]
  areDigits := ten_areDigits
  closed := ten_closed
  typed := order_typed
  delimited := order_delimited
  ends := by decide
  counts := by decide

def gapEntry : FoxtrotEntry where
  data := gapMessage.bytes fix41Args.beginString
  fits := by decide +kernel

def gapActions : List (PopperAction Unit Nat) :=
  [PopperAction.init, .start demoSettings, .control] ++
  List.replicate 5 PopperAction.splitter ++
  List.replicate 4 (PopperAction.sucker .proceed) ++
  [PopperAction.sucker (.received gapEntry), .sucker .proceed, .splitter, .splitter]

/-- A `start` that fails behind its store to `pusher_`. -/
def earlySettings : PopperSettings Unit Nat where
  localCache := none
  fixVer := none
  pusher := some 7
  sourceFd := -1

theorem splitter_calls_early_pusher :
    ∃ state, run (step fix41Args fun _ => false) (constructed fun _ => [])
      (.start earlySettings :: gapActions) = some state ∧
    state.reactsThrough fix41Args = some (some 7) ∧
    some 7 = lastPassed (.start earlySettings :: gapActions) := by
  have evaluated : (run (step fix41Args fun _ => false)
      (constructed fun _ => []) (.start earlySettings :: gapActions)).map
        (reactsThrough fix41Args) = some (some (some 7)) := by
    decide +kernel
  obtain ⟨state, runs, reacts⟩ := Option.map_eq_some_iff.mp evaluated
  exact ⟨state, runs, reacts, (splitter_calls_last_pusher_iff (fun _ => [])
    (.start earlySettings :: gapActions) runs reacts).mpr (by decide)⟩

/-- The pusher of the first `start` never gets to the splitter, which calls
through NULL. -/
theorem first_pusher_not_bound :
    lastPassed gapActions = some 7 ∧
    ∃ state, run (step fix41Args fun _ => false) (constructed fun _ => [])
      gapActions = some state ∧
    state.reactsThrough fix41Args = some none ∧
    state.splitterStep fix41Args (fun _ => false) = none := by
  refine ⟨by decide, ?_⟩
  have evaluated : (run (step fix41Args fun _ => false)
      (constructed fun _ => []) gapActions).map (fun state =>
        (state.reactsThrough fix41Args,
          (state.splitterStep fix41Args fun _ => false).isNone)) =
      some (some none, true) := by
    decide +kernel
  obtain ⟨state, runs, seen⟩ := Option.map_eq_some_iff.mp evaluated
  exact ⟨state, runs, congrArg Prod.fst seen,
    Option.isNone_iff_eq_none.mp (congrArg Prod.snd seen)⟩

end Popper

end MercuryFix
