import MercuryFix.DisruptorReaders

/-!
# Entry processors that register late

`entry_processor_barrier_register` loads the slowest entry processor and only
then takes a spot with this value.  Publishers that move on in between do not
see the new cursor.  The registration is sound when the publishers are still
near enough at the moment of the exchange.
-/

namespace MercuryFix

namespace Disruptor

open TransitionSystem

variable {Content : Type} {config : Config} {ring next : Ring Content}

/-- What holds of entry processor `q` from its registration on. -/
structure Registered (config : Config) (q start : Nat) (ring : Ring Content) :
    Prop where
  sound : Sound config ring
  untouched : Untouched ring
  served : Served config ring q
  starts : StartsAt ring start (ring.processors q)

/-- The steps until entry processor `q` leaves again. -/
def Action.Stays (q : Nat) (action : Action Content) : Prop :=
  action.LeavesEntries ∧ action ≠ .process q .unregister

theorem Registered.step {q start : Nat} {action : Action Content}
    (registered : Registered config q start ring) (stays : action.Stays q)
    (steps : step config ring action = some next) :
    Registered config q start next where
  sound := registered.sound.step stays.1.careful steps
  untouched := registered.untouched.step stays.1 steps
  served := by
    apply registered.served.step registered.sound registered.untouched steps
    intro n slowest _ swapping
    have starts := registered.starts
    rw [swapping] at starts
    exact starts.elim
  starts := registered.starts.step registered.sound stays.2 steps

theorem sound_of_run {zero : Content} {actions : List (Action Content)}
    (leaves : ∀ action ∈ actions, action.LeavesEntries)
    (runs : run (step config) (Ring.init zero) actions = some ring) :
    Sound config ring ∧ Untouched ring := by
  apply run_invariant_guarded (fun ring => Sound config ring ∧ Untouched ring)
    (fun _ action => action.LeavesEntries) _ ⟨Sound.init zero, rfl⟩
    (guarded_of_forall fun action member _ => leaves action member) runs
  rintro ring action next ⟨sound, untouched⟩ leaves steps
  exact ⟨sound.step leaves.careful steps, untouched.step leaves steps⟩

theorem registered_of_exchange {q n slowest : Nat} (sound : Sound config ring)
    (untouched : Untouched ring) (swapping : ring.processors q = .swapping n slowest)
    (clear : Clear config ring n (protectedFrom slowest))
    (steps : step config ring (.process q (.swap false)) = some next)
    (exchanged : next.processors q = .checking n) :
    Registered config q (protectedFrom slowest) next := by
  have served : Served config ring q := by
    constructor <;> simp [swapping, Processor.owned]
  have leaves : (Action.process q (.swap false) : Action Content).LeavesEntries := trivial
  refine ⟨sound.step leaves.careful steps, untouched.step leaves steps,
    served.step sound untouched steps ?_, ?_⟩
  · intro m loaded _ standing _
    cases swapping.symm.trans standing
    exact clear
  · have moves := processorMove_of_step steps
    generalize arrival : ProcessorAction.swap false = last at moves
    cases moves with
    | registers standing =>
      cases swapping.symm.trans standing
      simp [StartsAt]
    | passes acts before free =>
      simp only [Ring.setProcessor_processors, Function.update_self] at exchanged
      rw [exchanged] at free
      cases free
    | waits limit sighted acts =>
      obtain rfl | rfl := acts <;> cases arrival
    | _ => cases arrival

/-- An entry processor whose exchange comes in time reads what was committed,
from the sequence number on that the registration has returned, and what it
has not released stays intact. -/
theorem late_registration_intact {zero : Content}
    {earlier later : List (Action Content)} {before after final : Ring Content}
    {q n slowest : Nat} {reader : Reader Content}
    (earlierLeaves : ∀ action ∈ earlier, action.LeavesEntries)
    (reached : run (step config) (Ring.init zero) earlier = some before)
    (swapping : before.processors q = .swapping n slowest)
    (clear : Clear config before n (protectedFrom slowest))
    (exchanges : step config before (.process q (.swap false)) = some after)
    (exchanged : after.processors q = .checking n)
    (laterStays : ∀ action ∈ later, action.Stays q)
    (continues : run (step config) after later = some final)
    (reading : final.processors q = .reading reader) :
    reader.start = protectedFrom slowest ∧
      reader.history = committedFrom final reader.start reader.next ∧
      ∃ cursor, final.entryProcessorCursors reader.spot = some cursor ∧
        Intact config final (protectedFrom cursor) := by
  obtain ⟨sound, untouched⟩ := sound_of_run earlierLeaves reached
  have registered : Registered config q (protectedFrom slowest) final := by
    apply run_invariant_guarded (Registered config q (protectedFrom slowest))
      (fun _ action => action.Stays q) _
      (registered_of_exchange sound untouched swapping clear exchanges exchanged)
      (guarded_of_forall fun action member _ => laterStays action member)
      continues
    intro ring action next registered stays steps
    exact registered.step stays steps
  have owns : (final.processors q).owned = some reader.spot := by
    rw [reading]
    rfl
  refine ⟨?_, registered.served.faithful reader reading, ?_⟩
  · have starts := registered.starts
    rwa [reading] at starts
  · have present := (registered.sound.processors q).cursor_of_owned owns
    obtain ⟨cursor, present⟩ := Option.ne_none_iff_exists'.mp present
    exact ⟨cursor, present, registered.served.intact registered.sound
      registered.untouched owns present⟩

def searchActions : List (Action Nat) :=
  registrationActions ++ [.process 1 .load, .process 1 (.swap false), .process 1 .load]

def joinActions : List (Action Nat) :=
  [.process 1 .check, .process 1 .store, .process 1 .look, .process 1 .limit, .process 1 .read]

def lateSearch : List (Action Nat) :=
  registrationActions ++ publicationActions 2 0 10 ++
    [.process 1 .load, .process 1 (.swap false), .process 1 .load]

theorem late_registration_intact_second :
    ∃ before after final reader,
      run (step ⟨1, 2⟩) (Ring.init 0) lateSearch = some before ∧
      step ⟨1, 2⟩ before (.process 1 (.swap false)) = some after ∧
      run (step ⟨1, 2⟩) after [.process 1 .check, .process 1 .look,
        .process 1 .limit, .process 1 .read] = some final ∧
      final.processors 1 = .reading reader ∧ reader.history = [(1, 10)] ∧
      reader.history = committedFrom final reader.start reader.next := by
  have leaves : ∀ action ∈ lateSearch, action.LeavesEntries := by
    simp [lateSearch, registrationActions, publicationActions, Action.LeavesEntries]
  have stays : ∀ action ∈ ([.process 1 .check, .process 1 .look,
      .process 1 .limit, .process 1 .read] : List (Action Nat)),
      action.Stays 1 := by
    simp [Action.Stays, Action.LeavesEntries]
  let before := (run (step ⟨1, 2⟩) (Ring.init 0) lateSearch).get
    (by decide +kernel)
  have reached : run (step ⟨1, 2⟩) (Ring.init 0) lateSearch = some before :=
    (Option.some_get _).symm
  have idle (p : Nat) : before.publishers p = .idle := by
    cases p <;> rfl
  have clear : Clear ⟨1, 2⟩ before 1 (protectedFrom 1) := by
    refine ⟨by decide +kernel, fun p sequence passes => ?_,
      fun p _ _ _ _ scans => ?_⟩
    · rw [idle p] at passes
      cases passes
    · rw [idle p] at scans
      cases scans
  have swapping : before.processors 1 = .swapping 1 1 := by decide +kernel
  have evaluates : (step ⟨1, 2⟩ before (.process 1 (.swap false))).bind
      (fun after => (run (step ⟨1, 2⟩) after [.process 1 .check,
        .process 1 .look, .process 1 .limit, .process 1 .read]).map
          fun final => (after.processors 1, final.processors 1)) =
      some (.checking 1, .reading ⟨1, 1, 2, 1, false, [(1, 10)]⟩) := by
    decide +kernel
  obtain ⟨after, exchanges, rest⟩ := Option.bind_eq_some_iff.mp evaluates
  obtain ⟨final, continues, both⟩ := Option.map_eq_some_iff.mp rest
  obtain ⟨exchanged, reading⟩ := Prod.mk.inj both
  exact ⟨before, after, final, _, reached, exchanges, continues, reading, rfl,
    (late_registration_intact leaves reached swapping clear exchanges exchanged
      stays continues reading).2.1⟩

/-- Two entries are published, read and released between the load and the
exchange, and a third one takes the place of the first. -/
theorem registration_reads_overwritten :
    ∃ ring reader, run (step ⟨1, 2⟩) (Ring.init 0) (searchActions ++
        publicationActions 2 0 10 ++ publicationActions 2 0 20 ++
        [.process 0 .look, .process 0 .limit, .process 0 .read,
          .process 0 .read, .process 0 (.release 2)] ++
        publicationActions 2 0 30 ++ .process 1 (.swap false) :: joinActions) =
        some ring ∧
      ring.processors 1 = .reading reader ∧ reader.history = [(1, 30)] ∧
      ring.committed 1 = 10 := by
  have evaluates : (run (step ⟨1, 2⟩) (Ring.init 0) (searchActions ++
      publicationActions 2 0 10 ++ publicationActions 2 0 20 ++
      [.process 0 .look, .process 0 .limit, .process 0 .read,
        .process 0 .read, .process 0 (.release 2)] ++
      publicationActions 2 0 30 ++
      .process 1 (.swap false) :: joinActions)).map
        (fun ring => (ring.processors 1, ring.committed 1)) =
      some (.reading ⟨1, 1, 2, 3, false, [(1, 30)]⟩, 10) := by
    decide +kernel
  obtain ⟨ring, runs, both⟩ := Option.map_eq_some_iff.mp evaluates
  rw [Prod.mk.injEq] at both
  exact ⟨ring, _, runs, both.1, rfl, both.2⟩

end Disruptor

end MercuryFix
