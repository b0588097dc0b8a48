import MercuryFix.DisruptorEntries
import MercuryFix.FixPushBuffer
import MercuryFix.PopperControl
import MercuryFix.SplitterChunks

/-!
# Received data on its way through foxtrot

The sucker writes what `recvfrom` returns into entries of foxtrot, and the
splitter, which has registered before, takes the entries from there.  Each
atomic operation on the ring is a step; an entry belongs to the sucker while it
is filled.  A thread that is paused takes no step.

`received` is not in the source.
-/

namespace MercuryFix

open ByteBlock TransitionSystem

open Disruptor hiding Ring step

def foxtrotConfig : Config := ⟨10, 1⟩

/-- Where the sucker stands.  The last entry says that no data follows. -/
inductive Sucking
  | acquiring
  | receiving
  | committing (last : Bool)
  | ended

inductive Splitting
  | looking
  | limiting
  | draining
  | releasing

structure FoxtrotLine where
  foxtrot : Disruptor.Ring (List UInt8)
  sucker : Sucking
  splitter : Splitting
  parser : Splitter
  effects : List Effect
  received : List FoxtrotEntry

/-- The entry behind `recvfrom` and `setu32`. -/
def writeFoxtrot (content : List UInt8) (entry : FoxtrotEntry) : List UInt8 :=
  blit content 0 (setu32 entry.data.length ++ entry.data)

/-- The data of an entry as the splitter finds it. -/
def readFoxtrot (content : List UInt8) : Option FoxtrotEntry :=
  let data := (content.drop 4).take (getu32 content)
  if fits : data.length ≤ foxtrotMaxDataSize then some ⟨data, fits⟩ else none

theorem readFoxtrot_writeFoxtrot (content : List UInt8) (entry : FoxtrotEntry) :
    readFoxtrot (writeFoxtrot content entry) = some entry := by
  obtain ⟨data, fits⟩ := entry
  have bound : foxtrotMaxDataSize = 4092 := rfl
  have width : (setu32 data.length).length = 4 := length_bigEndian 4 _
  simp only [readFoxtrot, writeFoxtrot, blit_zero, List.append_assoc, getu32_setu32_append,
    List.drop_left' width, Nat.mod_eq_of_lt (show data.length < 2 ^ 32 by omega),
    List.take_left, fits, dite_true]

inductive LineAction
  | sucker (input : SuckerInput)
  | splitter

/-- The next operation of `publisher_next_entry_nonblocking` or
`publisher_commit_entry_blocking`. -/
def Disruptor.Publisher.going {Content : Type} : Publisher → PublisherAction Content
  | .idle => .nextEntryNonblocking
  | .scanning .. => .scan
  | .claiming _ => .claim
  | .holding _ | .committing _ => .await
  | .adding _ => .commit

theorem Disruptor.Publisher.going_ne_write {Content : Type} (publisher : Publisher)
    (content : Content) : publisher.going ≠ .write content := by
  cases publisher <;> simp [going]

namespace FoxtrotLine

def init (lastReceived : UInt64) : FoxtrotLine where
  foxtrot := .registered (List.replicate (1024 * 4) 0)
  sucker := .acquiring
  splitter := .looking
  parser := .initial lastReceived
  effects := []
  received := []

def onRing (state : FoxtrotLine) (action : Action (List UInt8)) : Option FoxtrotLine :=
  (Disruptor.step foxtrotConfig state.foxtrot action).map fun ring =>
    { state with foxtrot := ring }

def fill (state : FoxtrotLine) (entry : FoxtrotEntry) : Option FoxtrotLine := do
  let sequence ← (state.foxtrot.publishers 0).held
  let content := state.foxtrot.buffer (foxtrotConfig.index sequence)
  let next ← state.onRing (.publish 0 (.write (writeFoxtrot content entry)))
  some { next with
    sucker := .committing entry.data.isEmpty
    received := state.received ++ [entry] }

/-- A step of `sucker_thread_func`.  `closed` stands for the end of the
connection and for the errors that end the thread. -/
def suckerStep (state : FoxtrotLine) : SuckerInput → Sucking → Option FoxtrotLine
  | .proceed, .acquiring =>
    (state.onRing (.publish 0 (state.foxtrot.publishers 0).going)).map fun next =>
      { next with
        sucker := if (next.foxtrot.publishers 0).held = none then .acquiring else .receiving }
  | .retry, .receiving => some state
  | .received entry, .receiving => if entry.data = [] then none else state.fill entry
  | .closed, .receiving => state.fill ⟨[], Nat.zero_le _⟩
  | .proceed, .committing last =>
    (state.onRing (.publish 0 (state.foxtrot.publishers 0).going)).map fun next =>
      { next with
        sucker :=
          if (next.foxtrot.publishers 0).held ≠ none then .committing last
          else if last then .ended else .acquiring }
  | _, _ => none

/-- A step of `splitter_thread_func`, which handles one entry at a time. -/
def splitterStep (args : SplitterArgs) (state : FoxtrotLine) :
    Splitting → Processor (List UInt8) → Option FoxtrotLine
  | .looking, .reading reader =>
    (state.onRing (.process 0 .look)).map fun next =>
      { next with
        splitter := if reader.next ≤ state.foxtrot.maxReadCursor then .limiting else .looking }
  | .limiting, .reading _ =>
    (state.onRing (.process 0 .limit)).map fun next => { next with splitter := .draining }
  | .draining, .reading reader =>
    if reader.next ≤ reader.limit then do
      let next ← state.onRing (.process 0 .read)
      let entry ← readFoxtrot (state.foxtrot.buffer (foxtrotConfig.index reader.next))
      let split := splitEntry args state.parser entry
      some { next with
        splitter := .releasing
        parser := split.1
        effects := state.effects ++ split.2 }
    else some { state with splitter := .looking }
  | .releasing, .reading reader =>
    (state.onRing (.process 0 (.release (reader.next - 1)))).map fun next =>
      { next with splitter := .draining }
  | _, _ => none

def step (args : SplitterArgs) (state : FoxtrotLine) : LineAction → Option FoxtrotLine
  | .sucker input => state.suckerStep input state.sucker
  | .splitter => state.splitterStep args state.splitter (state.foxtrot.processors 0)

/-- What the sucker has received stands in committed entries and in the one
that it is about to commit. -/
def Sucked (state : FoxtrotLine) (committed : List FoxtrotEntry)
    (notes : Nat → Option FoxtrotEntry) : Sucking → Prop
  | .acquiring | .ended =>
    (state.foxtrot.publishers 0).held = none ∧ state.received = committed
  | .receiving => state.received = committed
  | .committing _ => (state.foxtrot.publishers 0).held ≠ none ∧
    ∃ entry, notes 0 = some entry ∧ state.received = committed ++ [entry]

/-- What the splitter knows of the ring at each place of its loop. -/
def Placed (maxReadCursor : Nat) (reader : Reader (List UInt8)) : Splitting → Prop
  | .looking | .draining => True
  | .limiting => reader.sighted = true ∧ reader.next ≤ maxReadCursor
  | .releasing => 1 < reader.next

structure Flowing (args : SplitterArgs) (lastReceived : UInt64) (state : FoxtrotLine)
    (reader : Reader (List UInt8)) (notes : Nat → Option FoxtrotEntry)
    (committed : List FoxtrotEntry) : Prop where
  tracked : Tracked foxtrotConfig state.foxtrot reader
    (fun entry content => readFoxtrot content = some entry) notes committed
  sucked : state.Sucked committed notes state.sucker
  placed : Placed state.foxtrot.maxReadCursor reader state.splitter
  parsed : splitEntries args (.initial lastReceived) (committed.take (reader.next - 1)) =
    (state.parser, state.effects)

/-- A bound on the steps that the splitter needs for what has been committed. -/
def pending (reader : Reader (List UInt8)) (committed : List FoxtrotEntry) (place : Splitting) :
    Nat :=
  5 * (committed.length + 1 - reader.next) + match place with
    | .looking => 2
    | .limiting => 1
    | .draining => if reader.next ≤ reader.limit then 0 else 3
    | .releasing => 4

variable {args : SplitterArgs} {lastReceived : UInt64} {state next : FoxtrotLine}
  {reader : Reader (List UInt8)} {notes : Nat → Option FoxtrotEntry}
  {committed : List FoxtrotEntry}

theorem Flowing.init (args : SplitterArgs) (lastReceived : UInt64) :
    Flowing args lastReceived (.init lastReceived) (.begin 0 1) (fun _ => none) [] where
  tracked := Tracked.registered _ (by decide)
  sucked := ⟨rfl, rfl⟩
  placed := trivial
  parsed := rfl

section

variable (flowing : Flowing args lastReceived state reader notes committed)
include flowing

theorem Flowing.fill {entry : FoxtrotEntry} (standing : state.sucker = .receiving)
    (fills : state.fill entry = some next) :
    ∃ notes, Flowing args lastReceived next reader notes committed := by
  have received := flowing.sucked
  rw [standing] at received
  simp only [FoxtrotLine.fill, onRing, Option.bind_eq_bind, Option.bind_eq_some_iff,
    Option.map_eq_some_iff] at fills
  obtain ⟨sequence, held, _, ⟨ring, writes, rfl⟩, filled⟩ := fills
  cases filled
  have moves := publisherMove_of_step writes
  generalize acts : PublisherAction.write _ = action at moves
  cases moves with
  | turn _ _ acquires => cases acts; exact acquires.elim
  | commit => cases acts
  | write holding =>
    cases acts
    rw [holding] at held
    cases held
    refine ⟨_, flowing.tracked.write holding (readFoxtrot_writeFoxtrot _ entry),
      ⟨?_, entry, Function.update_self _ _ _, ?_⟩, flowing.placed, flowing.parsed⟩
    · simp [holding, Publisher.held]
    · rw [show state.received = committed from received]

theorem Flowing.suckerStep {input : SuckerInput}
    (steps : state.suckerStep input state.sucker = some next) :
    ∃ notes committed, Flowing args lastReceived next reader notes committed := by
  have sucked := flowing.sucked
  generalize standing : state.sucker = place at steps sucked
  unfold FoxtrotLine.suckerStep at steps
  split at steps
  · simp only [onRing, Option.map_eq_some_iff] at steps
    obtain ⟨_, ⟨ring, turns, rfl⟩, rfl⟩ := steps
    obtain ⟨free, received⟩ := sucked
    have moves := publisherMove_of_step turns
    generalize acts : (state.foxtrot.publishers 0).going = action at moves
    cases moves with
    | write => exact (Publisher.going_ne_write _ _ acts).elim
    | commit adds => rw [adds] at free; cases free
    | turn slowest writeCursor acquires turned =>
      refine ⟨_, _, flowing.tracked.turn (.turn slowest writeCursor acquires turned) acquires,
        ?_, flowing.placed, flowing.parsed⟩
      dsimp only
      split_ifs with none
      · exact ⟨none, received⟩
      · exact received
  · cases steps
    exact ⟨_, _, flowing⟩
  · split at steps
    · cases steps
    · obtain ⟨notes, filled⟩ := flowing.fill standing steps
      exact ⟨_, _, filled⟩
  · obtain ⟨notes, filled⟩ := flowing.fill standing steps
    exact ⟨_, _, filled⟩
  · rename_i last
    simp only [onRing, Option.map_eq_some_iff] at steps
    obtain ⟨_, ⟨ring, turns, rfl⟩, rfl⟩ := steps
    obtain ⟨held, entry, noted, received⟩ := sucked
    have moves := publisherMove_of_step turns
    generalize acts : (state.foxtrot.publishers 0).going = action at moves
    cases moves with
    | write => exact (Publisher.going_ne_write _ _ acts).elim
    | commit adds =>
      have tracked := flowing.tracked.commit noted (.commit adds)
      refine ⟨_, _, tracked, ?_, ?_, ?_⟩
      · cases last <;> simp [Publisher.held, Sucked, received]
      · have placed := flowing.placed
        dsimp only
        cases place : state.splitter <;> rw [place] at placed
        case limiting => exact ⟨placed.1, placed.2.trans (Nat.le_succ _)⟩
        all_goals exact placed
      · rw [List.take_append_of_le_length, flowing.parsed]
        have bound := flowing.tracked.consumed.next_le
        rw [flowing.tracked.count]
        omega
    | turn slowest writeCursor acquires turned =>
      obtain ⟨sequence, holds⟩ := Option.ne_none_iff_exists'.mp held
      refine ⟨_, _, flowing.tracked.turn (.turn slowest writeCursor acquires turned) acquires,
        ?_, flowing.placed, flowing.parsed⟩
      simp [turned.held sequence holds, Sucked, noted, received]
  · cases steps

theorem Flowing.splitterStep : ∃ next after,
      state.splitterStep args state.splitter (state.foxtrot.processors 0) = some next ∧
      next.received = state.received ∧
      Flowing args lastReceived next after notes committed ∧
      (after.next = committed.length + 1 ∨
        pending after committed next.splitter < pending reader committed state.splitter) := by
  have tracked := flowing.tracked
  have consumed := tracked.consumed
  have count := tracked.count
  have bound := consumed.next_le
  have limited := consumed.readerOk.limit
  have placed := flowing.placed
  rw [consumed.reading]
  cases place : state.splitter with
  | looking =>
    rcases Nat.lt_or_ge state.foxtrot.maxReadCursor reader.next with idle | readable
    · simp only [FoxtrotLine.splitterStep, onRing, consumed.look_idle idle, Option.map_some,
        if_neg (not_le.mpr idle)]
      exact ⟨_, _, rfl, rfl, ⟨tracked, flowing.sucked, trivial, flowing.parsed⟩, .inl (by omega)⟩
    · obtain ⟨looks, behind⟩ := consumed.look readable
      simp only [FoxtrotLine.splitterStep, onRing, looks, Option.map_some, if_pos readable]
      exact ⟨_, _, rfl, rfl, ⟨tracked.setProcessor behind, flowing.sucked, ⟨rfl, readable⟩,
        flowing.parsed⟩, .inr (by simp [pending])⟩
  | limiting =>
    rw [place] at placed
    obtain ⟨limits, behind⟩ := consumed.limit placed.1
    simp only [FoxtrotLine.splitterStep, onRing, limits, Option.map_some]
    exact ⟨_, _, rfl, rfl, ⟨tracked.setProcessor behind, flowing.sucked, trivial,
      flowing.parsed⟩, .inr (by simp [pending, placed.2])⟩
  | draining =>
    rcases Nat.lt_or_ge reader.limit reader.next with done | readable
    · simp only [FoxtrotLine.splitterStep, if_neg (not_le.mpr done)]
      exact ⟨_, _, rfl, rfl, ⟨tracked, flowing.sucked, trivial, flowing.parsed⟩,
        .inr (by simp [pending, not_le.mpr done])⟩
    · obtain ⟨reads, behind⟩ := consumed.read readable
      obtain ⟨entry, found, holds⟩ := tracked.next_note (readable.trans limited)
      have positive := consumed.next_pos
      simp only [FoxtrotLine.splitterStep, onRing, if_pos readable, reads, holds, Option.map_some,
        Option.bind_eq_bind, Option.bind_some]
      refine ⟨_, _, rfl, rfl, ⟨tracked.setProcessor behind, flowing.sucked, ?_, ?_⟩, .inr ?_⟩
      · exact Nat.lt_succ_of_le positive
      · have parsed := flowing.parsed
        have split : committed.take reader.next = committed.take (reader.next - 1) ++ [entry] := by
          rw [← Nat.sub_add_cancel positive, List.take_add_one, Nat.add_sub_cancel, found]
          rfl
        rw [splitEntries] at parsed
        rw [Reader.advance, Nat.add_sub_cancel, splitEntries, split, MealyMachine.run_append,
          parsed]
        simp [MealyMachine.run]
      · simp only [pending, Reader.advance, if_pos readable]
        omega
  | releasing =>
    rw [place] at placed
    obtain ⟨cursor, present, -, strict⟩ := consumed.cursor
    have above := le_protectedFrom (reader.next - 1)
    have before := strict placed
    obtain ⟨releases, behind⟩ := consumed.release present
      (show _ ≤ protectedFrom (reader.next - 1) by omega) (by omega)
    simp only [FoxtrotLine.splitterStep, onRing, releases, Option.map_some]
    refine ⟨_, _, rfl, rfl, ⟨tracked.process behind rfl rfl rfl fun _ _ _ => rfl,
      flowing.sucked, trivial, flowing.parsed⟩, .inr ?_⟩
    simp only [pending]
    split <;> omega

theorem Flowing.kept {action : LineAction} (steps : state.step args action = some next) :
    ∃ reader notes committed, Flowing args lastReceived next reader notes committed := by
  cases action with
  | sucker input => exact ⟨_, flowing.suckerStep steps⟩
  | splitter =>
    obtain ⟨after, reader, goes, -, later, -⟩ := flowing.splitterStep
    cases goes.symm.trans steps
    exact ⟨_, _, _, later⟩

theorem Flowing.catches_up :
    ∃ count final after, run (step args) state (List.replicate count .splitter) = some final ∧
      final.received = state.received ∧ Flowing args lastReceived final after notes committed ∧
      after.next = committed.length + 1 := by
  induction left : pending reader committed state.splitter using Nat.strong_induction_on
    generalizing state reader with
  | _ left induction =>
    obtain ⟨next, after, steps, received, later, done | less⟩ := flowing.splitterStep
    · exact ⟨1, next, after, run_cons_eq_some.mpr ⟨next, steps, rfl⟩, received, later, done⟩
    · obtain ⟨count, final, last, runs, same, ends⟩ := induction _ (left ▸ less) later rfl
      exact ⟨count + 1, final, last, run_cons_eq_some.mpr ⟨next, steps, runs⟩,
        same.trans received, ends⟩

theorem Flowing.ahead :
    committed <+: state.received ∧ state.received.length ≤ committed.length + 1 := by
  have sucked := flowing.sucked
  revert sucked
  cases state.sucker with
  | committing =>
    rintro ⟨-, entry, -, received⟩
    simp [received]
  | receiving =>
    intro received
    simp [show state.received = committed from received]
  | acquiring | ended =>
    rintro ⟨-, received⟩
    simp [received]

end

theorem exists_flowing {actions : List LineAction}
    (runs : run (step args) (init lastReceived) actions = some state) :
    ∃ reader notes committed, Flowing args lastReceived state reader notes committed :=
  run_invariant (fun state => ∃ reader notes committed,
      Flowing args lastReceived state reader notes committed)
    (fun ⟨_, _, _, flowing⟩ steps => flowing.kept steps) ⟨_, _, _, .init args lastReceived⟩ runs

/-- Whatever the interleaving, the splitter is where the first of the received
entries lead it, and it can take all that have been committed. -/
theorem received_data_split (args : SplitterArgs) (lastReceived : UInt64)
    {actions : List LineAction} {state : FoxtrotLine}
    (runs : run (step args) (init lastReceived) actions = some state) :
    (∃ taken, taken <+: state.received ∧
      splitEntries args (.initial lastReceived) taken = (state.parser, state.effects)) ∧
    state.received.length ≤ state.foxtrot.maxReadCursor + 1 ∧
    ∃ count final, run (step args) state (List.replicate count .splitter) = some final ∧
      splitEntries args (.initial lastReceived)
        (state.received.take state.foxtrot.maxReadCursor) = (final.parser, final.effects) := by
  obtain ⟨reader, notes, committed, flowing⟩ := exists_flowing runs
  obtain ⟨front, ahead⟩ := flowing.ahead
  rw [← flowing.tracked.count]
  refine ⟨⟨_, (List.take_prefix _ _).trans front, flowing.parsed⟩, ahead, ?_⟩
  obtain ⟨count, final, after, continues, -, later, all⟩ := flowing.catches_up
  have parsed := later.parsed
  rw [all, Nat.add_sub_cancel, List.take_length] at parsed
  exact ⟨count, final, continues, by rw [← List.prefix_iff_eq_take.mp front, parsed]⟩

/-- The sucker publishes the beginning of a message and the splitter takes it. -/
def beginningActions : List LineAction :=
  List.replicate 4 (.sucker .proceed) ++
    [.sucker .retry, .sucker (.received ⟨ascii ['8', '='], by decide⟩)] ++
    List.replicate 2 (.sucker .proceed) ++ List.replicate 3 .splitter

theorem received_data_split_beginning : ∃ state,
    run (step fix41Args) (init 0) beginningActions = some state ∧
      state.received.map FoxtrotEntry.data = [ascii ['8', '=']] ∧ state.parser.l = 2 ∧
      ∃ taken, taken <+: state.received ∧
        splitEntries fix41Args (.initial 0) taken = (state.parser, state.effects) := by
  have evaluates : (run (step fix41Args) (init 0) beginningActions).map
      (fun state => (state.received.map FoxtrotEntry.data, state.parser.l)) =
        some ([ascii ['8', '=']], 2) := by
    decide +kernel
  obtain ⟨state, runs, shows⟩ := Option.map_eq_some_iff.mp evaluates
  obtain ⟨received, parsed⟩ := Prod.mk.inj shows
  exact ⟨state, runs, received, parsed, (received_data_split fix41Args 0 runs).1⟩

end FoxtrotLine

end MercuryFix
