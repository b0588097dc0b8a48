import MercuryFix.PusherHandshake

/-!
# The numbers of sent messages

The pusher thread counts the messages that it sends.  The counter comes from the
database that `init` opens, and a pause takes it through `msg_seq_number_`.
`start` does not read it again, so it belongs to the open database only if every
file that a `start` turns to has come as far as the counter.
-/

namespace MercuryFix

open TransitionSystem

namespace Outgoing

variable {state next : Outgoing} {args : PusherArgs} {iovMax : Nat}

theorem onRing_numbers {queue : Queue} {action : Disruptor.Action (List UInt8)}
    (steps : state.onRing queue action = some next) :
    next.msgSeqNumber = state.msgSeqNumber ∧ next.stored = state.stored := by
  obtain ⟨ring, -, rfl⟩ := onRing_eq_some.mp steps
  exact ⟨rfl, rfl⟩

theorem complete_numbers {queue : Queue} {reader : Disruptor.Reader (List UInt8)}
    (steps : state.complete args queue reader = some next) :
    ∃ record : SentRecord, record.seqnum = (state.msgSeqNumber + 1) % 2 ^ 64 ∧
      next.msgSeqNumber = record.seqnum ∧
      next.stored = state.stored ++ [record] := by
  simp only [complete, Option.bind_eq_bind, Option.bind_eq_some_iff, Option.some.injEq] at steps
  obtain ⟨completed, completes, read, -, behind, -, rfl⟩ := steps
  obtain ⟨number, stored⟩ := completeFIXMessage_stored completes
  refine ⟨completed.stored, ?_, ?_, rfl⟩
  · rw [stored]
  · rw [stored]
    exact number

theorem threadStep_numbers {action : OutgoingAction} {round : Round}
    (steps : state.threadStep args iovMax action round = some next) :
    next.msgSeqNumber = state.msgSeqNumber ∧ next.stored = state.stored ∨
    action = .complete ∧ ∃ record : SentRecord, record.seqnum = (state.msgSeqNumber + 1) % 2 ^ 64 ∧
      next.msgSeqNumber = record.seqnum ∧
      next.stored = state.stored ++ [record] := by
  cases roundMove_of_threadStep steps with
  | looks _ moves | limits moves | releases _ moves =>
    have same := onRing_numbers moves
    exact .inl same
  | completes _ _ _ completed => exact .inr ⟨rfl, complete_numbers completed⟩
  | flushes | finishes => exact .inl ⟨rfl, rfl⟩

theorem acquire_numbers {caller : Nat} {queue : Queue} {request : PushRequest}
    (steps : state.acquire caller queue request = some next) :
    next.msgSeqNumber = state.msgSeqNumber ∧ next.stored = state.stored := by
  obtain ⟨behind, moves, rfl⟩ := Option.map_eq_some_iff.mp steps
  have same := onRing_numbers moves
  exact same

theorem step_numbers {action : OutgoingAction} (byCaller : action.byCaller = true)
    (steps : state.step args iovMax action = some next) :
    next.msgSeqNumber = state.msgSeqNumber ∧ next.stored = state.stored := by
  unfold step at steps
  split at steps
  case h_1 caller request =>
    split at steps
    · unfold push at steps
      split at steps
      · cases steps
        exact ⟨rfl, rfl⟩
      · split at steps <;> exact acquire_numbers steps
    · cases steps
  case h_2 caller request =>
    split at steps
    · unfold sessionPush at steps
      split at steps
      · cases steps
        exact ⟨rfl, rfl⟩
      · split at steps
        · exact acquire_numbers steps
        · cases steps
          exact ⟨rfl, rfl⟩
    · cases steps
  case h_3 | h_5 =>
    split at steps
    · exact onRing_numbers steps
    · cases steps
  case h_4 =>
    split at steps
    · unfold fill at steps
      split at steps
      · simp only [Option.bind_eq_bind, Option.bind_eq_some_iff, Option.some.injEq] at steps
        obtain ⟨block, -, filled, -, behind, moves, rfl⟩ := steps
        have same := onRing_numbers moves
        exact same
      · cases steps
    · cases steps
  case h_6 =>
    split at steps
    · obtain ⟨behind, moves, rfl⟩ := Option.map_eq_some_iff.mp steps
      have same := onRing_numbers moves
      exact same
    · cases steps
  case h_7 => cases action <;> simp_all [OutgoingAction.byCaller]

end Outgoing

namespace MsgDB

variable {Path : Type*} {temporary : Path → Bool} {db next : MsgDB Path SentRecord}
  {number : Nat}

/-- The file of the database has come to this number, and it is the one that is
open, if any is. -/
def Counting (temporary : Path → Bool) (db : MsgDB Path SentRecord) (number : Nat) : Prop :=
  ∃ path, db.path = some path ∧ temporary path = false ∧
    (db.handle = none ∨ db.handle = some path) ∧
    latestSeqnum (db.files path) = number

theorem Counting.handle (counting : Counting temporary db number)
    (opened : db.handle.isSome = true) :
    ∃ path, db.handle = some path ∧ db.path = some path ∧
      temporary path = false ∧ latestSeqnum (db.files path) = number := by
  obtain ⟨path, set, kept, closed | handle, latest⟩ := counting
  · rw [closed] at opened
    cases opened
  · exact ⟨path, handle, set, kept, latest⟩

theorem Counting.openPath (counting : Counting temporary db number)
    (closed : db.handle = none) (opens : db.openPath = some next) :
    Counting temporary next number := by
  obtain ⟨path, set, kept, -, latest⟩ := counting
  rw [openPath_closed closed set opens]
  exact ⟨path, set, kept, .inr rfl, latest⟩

variable [DecidableEq Path]

theorem Counting.close (counting : Counting temporary db number)
    (opened : db.handle.isSome = true) :
    Counting temporary (db.close temporary) number := by
  obtain ⟨path, handle, set, kept, latest⟩ := counting.handle opened
  rw [close_kept handle kept]
  exact ⟨path, set, kept, .inl rfl, latest⟩

theorem Counting.store (counting : Counting temporary db number)
    (opened : db.handle.isSome = true) (below : number ≠ 2 ^ 63 - 1)
    {record : SentRecord} (following : record.seqnum = (number + 1) % 2 ^ 64) :
    Counting temporary (db.store record.seqnum record) record.seqnum := by
  obtain ⟨path, handle, set, kept, latest⟩ := counting.handle opened
  refine ⟨path, ?_, kept, .inr ?_, ?_⟩
  · simp only [MsgDB.store, handle]
    exact set
  · rw [store_handle, handle]
  · simp only [MsgDB.store, handle, Function.update_self, following]
    exact latestSeqnum_storeMsg latest below record

end MsgDB

def PusherCaller.inResend : PusherCaller → Bool
  | pausing (.reads ..) | awaitingClosed (.reads ..) | loading .. | reading ..
  | resending .. | restoring _ => true
  | idle | pausing .returns | awaitingClosed .returns | resuming
  | awaitingOpen => false

def PusherPlace.isParking : PusherPlace → Bool
  | closing | clearing | waiting | loading | opening => true
  | _ => false

namespace Pusher

variable {Path : Type*} {state next : Pusher Path} {soh : UInt8} {iovMax : Nat}
  {temporary : Path → Bool}

/-- The step does not part the counter from the database: the files outlive
their handles, `start` turns to another file only while none is open and only to
one that has come as far as `msg_seq_number_`, and no number becomes negative in
its column.  There is no `resend`. -/
def NumbersKept (temporary : Path → Bool) (state : Pusher Path) :
    PusherAction Path → Prop
  | .init localCache => state.initialised = false → ∀ path ∈ localCache, temporary path = false
  | .start settings => state.started = false →
      ∀ path ∈ settings.localCache, state.db.path = some path ∨
        temporary path = false ∧ state.db.handle = none ∧
          latestSeqnum (state.db.files path) = state.msgSeqNumber
  | .thread (.work .complete) => state.outgoing.msgSeqNumber ≠ 2 ^ 63 - 1
  | .resend .. => False
  | _ => True

instance decidableNumbersKept [DecidableEq Path] (temporary : Path → Bool)
    (state : Pusher Path) : DecidablePred (NumbersKept temporary state)
  | .init localCache => inferInstanceAs
      (Decidable (_ → ∀ path ∈ localCache, temporary path = false))
  | .start settings => inferInstanceAs (Decidable (_ → ∀ path ∈ settings.localCache, _ ∨ _ ∧ _ ∧ _))
  | .resend .. => .isFalse id
  | .stop | .control _ | .push _ => .isTrue trivial
  | .thread .go | .thread .closeFails | .thread (.writeFails _) =>
    .isTrue trivial
  | .thread (.work action) =>
    match action with
    | .complete => inferInstanceAs (Decidable (_ ≠ _))
    | .push .. | .sessionPush .. | .scan _ | .fill .. | .await _ | .commit _
    | .look | .limit | .flush | .finish | .release => .isTrue trivial

def counter (state : Pusher Path) : Nat :=
  if state.thread = .entering then state.msgSeqNumber
  else state.outgoing.msgSeqNumber

structure Numbered (temporary : Path → Bool) (state : Pusher Path) : Prop where
  placed : Placed state
  outside : state.caller.inResend = false
  parking : state.thread.isParking = true → state.outgoing.msgSeqNumber = state.msgSeqNumber
  counting : state.thread ≠ .absent → state.thread.hasLeft = false →
    state.db.Counting temporary state.counter

theorem Numbered.constructed (files : Path → List (UInt64 × SentRecord)) :
    Numbered temporary (constructed files) where
  placed := .constructed files
  outside := rfl
  parking := nofun
  counting := fun present => absurd rfl present

section

variable (numbered : Numbered temporary state)
include numbered

theorem Numbered.stop : Numbered temporary (state.stop .returns) := by
  have placed := numbered.placed.stop .returns
  unfold Pusher.stop at placed ⊢
  split at placed
  · rename_i started
    rw [if_pos started]
    exact ⟨placed, rfl, numbered.parking, numbered.counting⟩
  · rename_i notStarted
    rw [if_neg notStarted]
    exact ⟨placed, rfl, numbered.parking, numbered.counting⟩

theorem Numbered.counter_closed (present : state.thread ≠ .absent)
    (stays : state.thread.hasLeft = false) (closed : state.db.handle = none) :
    state.counter = state.msgSeqNumber := by
  have handle := numbered.placed.handle
  have parking := numbered.parking
  rw [closed] at handle
  unfold counter
  cases standing : state.thread <;> rw [standing] at handle parking present stays
  case clearing | waiting | loading | opening =>
    rw [if_neg nofun]
    exact parking rfl
  case absent => exact absurd rfl present
  case unregistering | closingLast | clearingLast | ended => cases stays
  all_goals cases handle

theorem Numbered.start {settings : PusherSettings Path}
    (kept : NumbersKept temporary state (.start settings)) :
    Numbered temporary (state.start soh settings) := by
  have placed : Placed (state.start soh settings) := numbered.placed.start settings
  obtain ⟨fixStart, fixVer, sinkFd, path, caller, chosen, unchanged, moved,
    same⟩ := start_cases soh state settings
  rw [same] at placed ⊢
  refine ⟨placed, ?_, numbered.parking, fun present stays => ?_⟩
  · rcases moved with rfl | ⟨rfl, -⟩
    · exact numbered.outside
    · rfl
  · have counting := numbered.counting present stays
    rcases chosen with rfl | ⟨rfl, chosen⟩
    · exact counting
    · obtain ⟨path, cache⟩ := Option.isSome_iff_exists.mp chosen
      by_cases started : state.started = true
      · rw [unchanged started]
        exact counting
      · rcases kept (Bool.eq_false_of_not_eq_true started) path cache with
          before | ⟨lasts, closed, latest⟩
        · rw [cache, ← before]
          exact counting
        · refine ⟨path, cache, lasts, .inl closed, ?_⟩
          exact latest.trans (numbered.counter_closed present stays closed).symm

theorem Numbered.init {localCache : Option Path}
    (kept : NumbersKept temporary state (.init localCache))
    (steps : state.init localCache = some next) : Numbered temporary next := by
  have placed := numbered.placed.init steps
  rcases init_cases steps with ⟨-, rfl⟩ | ⟨first, ⟨-, rfl⟩ |
    ⟨path, db, latest, rfl, opened, asked, rfl⟩⟩
  · exact numbered.stop
  · exact ⟨placed, numbered.outside, numbered.parking, numbered.counting⟩
  · have closed : state.db.handle = none := by
      have handle := numbered.placed.handle
      rw [numbered.placed.fresh.mp first] at handle
      rwa [← Option.not_isSome_iff_eq_none, Bool.not_eq_true]
    have unopened : (state.db.setDbPath path).handle = none := closed
    have opens : db = { state.db with path := some path, handle := some path } :=
      MsgDB.openPath_closed unopened rfl opened
    subst opens
    cases asked
    refine ⟨placed, numbered.outside, nofun, fun _ _ => ?_⟩
    exact ⟨path, rfl, kept first path rfl, .inr rfl, rfl⟩

end

variable [DecidableEq Path]

theorem Numbered.control (numbered : Numbered temporary state) {inputs : Nat → RowInput}
    (steps : state.controlStep soh inputs = some next) :
    Numbered temporary next := by
  have placed := numbered.placed.control steps
  have outside := numbered.outside
  cases controlMove_of_step steps with
  | polls => exact numbered
  | @pauses after standing | @stops after standing _ =>
    rw [standing] at outside
    cases after
    · exact ⟨placed, rfl, numbered.parking, numbered.counting⟩
    · cases outside
  | resumes | starts => exact ⟨placed, rfl, numbered.parking, numbered.counting⟩
  | loads standing | reads standing | resends standing | restores standing =>
    rw [standing] at outside
    cases outside

theorem counting_work {action : OutgoingAction} {outgoing : Outgoing}
    (counting : state.db.Counting temporary state.outgoing.msgSeqNumber)
    (opened : state.db.handle.isSome = true)
    (kept : NumbersKept temporary state (.thread (.work action)))
    (drains : state.outgoing.threadStep (state.args soh) iovMax action
      state.outgoing.round = some outgoing) :
    (storeSent state.db (outgoing.stored.drop
      state.outgoing.stored.length)).Counting temporary outgoing.msgSeqNumber := by
  rcases Outgoing.threadStep_numbers drains with ⟨number, stored⟩ |
    ⟨rfl, record, following, number, stored⟩
  · rw [number, stored, List.drop_length]
    exact counting
  · rw [number, stored, List.drop_left]
    exact counting.store opened kept following

theorem Numbered.threadStep (numbered : Numbered temporary state) {action : PusherThreadAction}
    (kept : NumbersKept temporary state (.thread action))
    (steps : state.threadStep soh iovMax temporary action = some next) :
    Numbered temporary next := by
  have placed := numbered.placed.threadStep steps
  have handleAt {place : PusherPlace} (standing : state.thread = place) :
      state.db.handle.isSome = place.holdsDatabase :=
    standing ▸ numbered.placed.handle
  have countingAt {place : PusherPlace} (standing : state.thread = place)
      (present : place ≠ .absent) (stays : place.hasLeft = false) :
      state.db.Counting temporary (if place = .entering then state.msgSeqNumber
        else state.outgoing.msgSeqNumber) := by
    have counting := numbered.counting (standing ▸ present) (standing ▸ stays)
    rwa [counter, standing] at counting
  have parkingAt {place : PusherPlace} (standing : state.thread = place)
      (parks : place.isParking = true) :
      state.outgoing.msgSeqNumber = state.msgSeqNumber :=
    numbered.parking (standing ▸ parks)
  cases threadStep_moves steps with
  | enters standing | notices standing | goesOn standing
  | failsToClose standing | raises standing =>
    have counting := countingAt standing nofun rfl
    exact ⟨placed, numbered.outside, nofun, fun _ _ => counting⟩
  | stores standing =>
    have counting := countingAt standing nofun rfl
    exact ⟨placed, numbered.outside, fun _ => rfl, fun _ _ => counting⟩
  | closes standing =>
    have counting := (countingAt standing nofun rfl).close (handleAt standing)
    have parking := parkingAt standing rfl
    exact ⟨placed, numbered.outside, fun _ => parking, fun _ _ => counting⟩
  | parks standing | wakes standing =>
    have counting := countingAt standing nofun rfl
    have parking := parkingAt standing rfl
    exact ⟨placed, numbered.outside, fun _ => parking, fun _ _ => counting⟩
  | waits => exact numbered
  | loads standing =>
    have counting := countingAt standing nofun rfl
    rw [if_neg nofun, parkingAt standing rfl] at counting
    exact ⟨placed, numbered.outside, fun _ => rfl, fun _ _ => counting⟩
  | opens standing opened =>
    have closed : state.db.handle = none := by
      rw [← Option.not_isSome_iff_eq_none, handleAt standing]
      exact nofun
    have counting := (countingAt standing nofun rfl).openPath closed opened
    exact ⟨placed, numbered.outside, nofun, fun _ _ => counting⟩
  | works standing drains stays =>
    have counting := counting_work (countingAt standing nofun rfl) (handleAt standing) kept drains
    rcases stays with rfl | rfl <;> exact ⟨placed, numbered.outside, nofun, fun _ _ => counting⟩
  | fails standing | closesLast standing | ends standing =>
    exact ⟨placed, numbered.outside, nofun, fun _ left => by cases left⟩
  | unregisters standing leaves following =>
    rcases following with rfl | rfl <;>
      exact ⟨placed, numbered.outside, nofun, fun _ left => by cases left⟩

theorem Numbered.step (numbered : Numbered temporary state)
    {action : PusherAction Path} (kept : NumbersKept temporary state action)
    (steps : step soh iovMax temporary state action = some next) :
    Numbered temporary next := by
  cases action with
  | control inputs => exact numbered.control steps
  | thread action => exact numbered.threadStep kept steps
  | push action =>
    have placed := numbered.placed.step steps
    obtain ⟨outgoing, byCaller, pushes, rfl⟩ := push_unchanged steps
    have number := (Outgoing.step_numbers byCaller pushes).1
    refine ⟨placed, numbered.outside, ?_, ?_⟩
    · rw [number]
      exact numbered.parking
    · simp only [counter, number]
      exact numbered.counting
  | init localCache =>
    exact numbered.init kept (Option.ite_none_right_eq_some.mp steps).2
  | start settings =>
    cases (Option.ite_none_right_eq_some.mp steps).2
    exact numbered.start kept
  | stop =>
    cases (Option.ite_none_right_eq_some.mp steps).2
    exact numbered.stop
  | resend start stop => exact absurd kept id

/-- As long as every file that is turned to has come as far as the counter: with
the pusher thread at the top of its loop or in it, the number of the last message
is the latest one in the open database, and the next one is none of its
numbers. -/
theorem sent_numbers_follow_store (soh : UInt8) (iovMax : Nat)
    (temporary : Path → Bool) (files : Path → List (UInt64 × SentRecord))
    (actions : List (PusherAction Path))
    (runs : run (Pusher.step soh iovMax temporary) (constructed files) actions =
      some state)
    (kept : Guarded (Pusher.step soh iovMax temporary) (NumbersKept temporary)
      (constructed files) actions)
    (working : state.thread = .top ∨ state.thread = .pushing) :
    ∃ path, state.db.handle = some path ∧
      state.outgoing.msgSeqNumber = latestSeqnum (state.db.files path) ∧
      (state.outgoing.msgSeqNumber ≠ 2 ^ 63 - 1 →
        ∀ entry ∈ state.db.files path, entry.1 ≠
          UInt64.ofNat ((state.outgoing.msgSeqNumber + 1) % 2 ^ 64)) := by
  have numbered : Numbered temporary state :=
    run_invariant_guarded (Numbered temporary) (NumbersKept temporary)
      (fun numbered kept steps => numbered.step kept steps)
      (.constructed files) kept runs
  have counting : state.db.Counting temporary state.outgoing.msgSeqNumber := by
    have counts := numbered.counting
    unfold counter at counts
    rcases working with standing | standing <;>
      rw [standing] at counts <;> exact counts nofun rfl
  have opened : state.db.handle.isSome = true := by
    rw [numbered.placed.handle]
    rcases working with standing | standing <;> rw [standing] <;> rfl
  obtain ⟨path, handle, -, -, latest⟩ := counting.handle opened
  exact ⟨path, handle, latest.symm, fun below => seqnum_fresh latest below⟩

def sameFileActions : List (PusherAction Bool) :=
  .init (some false) :: threadGoes 5 ++
  .start ⟨some false, demoSettings.fixVer, 3⟩ :: controlGoes 1 ++
  threadGoes 4 ++ controlGoes 1 ++ pushSteps ++
  [.thread (.work .look), .thread (.work .limit), .thread (.work .complete)]

theorem sent_numbers_follow_first :
    ∃ state, run (Pusher.step 1 1024 fun _ => false)
        (constructed fun _ => [timedRow 1]) sameFileActions = some state ∧
      state.outgoing.msgSeqNumber = 2 ∧
      ∃ path, state.db.handle = some path ∧
        state.outgoing.msgSeqNumber = latestSeqnum (state.db.files path) := by
  have evaluated : (run (Pusher.step 1 1024 fun _ => false)
      (constructed fun _ => [timedRow 1]) sameFileActions).map
        (fun state => (state.outgoing.msgSeqNumber, state.thread)) =
      some (2, .pushing) := by
    decide +kernel
  obtain ⟨state, runs, seen⟩ := Option.map_eq_some_iff.mp evaluated
  obtain ⟨path, handle, latest, -⟩ := sent_numbers_follow_store 1 1024
    (fun _ => false) (fun _ => [timedRow 1]) sameFileActions runs
    (by decide +kernel) (.inr (congrArg Prod.snd seen))
  exact ⟨state, runs, congrArg Prod.fst seen, path, handle, latest⟩

def twoFiles : Bool → List (UInt64 × SentRecord)
  | false => []
  | true => [timedRow 1]

def otherFileActions : List (PusherAction Bool) :=
  .init (some false) :: threadGoes 5 ++
  .start ⟨some true, demoSettings.fixVer, 3⟩ :: controlGoes 1 ++
  threadGoes 4 ++ controlGoes 1 ++ List.replicate 3 (.thread (.work .look))

def pushedActions : List (PusherAction Bool) :=
  pushSteps ++ threadGoes 1 ++ [.thread (.work .look), .thread (.work .limit),
    .thread (.work .complete)]

/-- The thread counts from the first file, and the first message that it sends
replaces the one in the second file. -/
theorem other_file_overwritten :
    ∃ before after, run (Pusher.step 1 1024 fun _ => false)
        (constructed twoFiles) otherFileActions = some before ∧
      before.thread = .top ∧ before.db.handle = some true ∧
      before.outgoing.msgSeqNumber = 0 ∧
      latestSeqnum (before.db.files true) = 1 ∧
      run (Pusher.step 1 1024 fun _ => false) before pushedActions =
        some after ∧
      (after.db.files true).map (fun entry => (entry.1, entry.2.partialMsg)) =
        [(1, [1, 49, 48, 61])] := by
  have early : (run (Pusher.step 1 1024 fun _ => false) (constructed twoFiles)
      otherFileActions).map (fun state => (state.thread, state.db.handle,
        state.outgoing.msgSeqNumber, latestSeqnum (state.db.files true))) =
      some (.top, some true, 0, 1) := by
    decide +kernel
  have late : (run (Pusher.step 1 1024 fun _ => false) (constructed twoFiles)
      (otherFileActions ++ pushedActions)).map (fun state =>
        (state.db.files true).map fun entry =>
          (entry.1, entry.2.partialMsg)) = some [(1, [1, 49, 48, 61])] := by
    decide +kernel
  obtain ⟨before, after, runs, seen, rest, later⟩ := exists_run_append early late
  simp only [Prod.mk.injEq] at seen
  exact ⟨before, after, runs, seen.1, seen.2.1, seen.2.2.1, seen.2.2.2, rest,
    later⟩

end Pusher

end MercuryFix
