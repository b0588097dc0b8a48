import MercuryFix.TransitionSystems
import Mathlib.Data.Nat.Bitwise
import Mathlib.Logic.Function.Basic
import Mathlib.Tactic.Simps.Basic

/-!
# The ring buffer

The ring buffer of `disruptor.h` as a transition system.  Each `__atomic`
operation of a publisher or an entry processor is one step, local computation
belongs to the step before it, and writes to an entry and reads of an entry
are steps of their own.  Sequence numbers are natural numbers, and `none` in
the array of cursors stands for `VACANT__`.

Three components are not in the source: what was committed under each
sequence number, what the entry of each sequence number should hold now, and
what each entry processor has read.
-/

namespace MercuryFix

namespace Disruptor

/-- The capacities of a ring, `2 ^ exponent` entries and as many spots for
entry processors. -/
structure Config where
  exponent : Nat
  spots : Nat

def Config.capacity (config : Config) : Nat := 2 ^ config.exponent

def Config.reducedSize (config : Config) : Nat := config.capacity - 1

def Config.index (config : Config) (sequence : Nat) : Nat := config.reducedSize &&& sequence

/-- Where a publisher stands.  `scanning` is the loop over the cursors of
`publisher_next_entry_blocking` or `_nonblocking`, `claiming` the exchange of
the write cursor in the latter. -/
inductive Publisher
  | idle
  | scanning (blocking : Bool) (incur n : Nat) (slowestReader : Option Nat)
  | claiming (incur : Nat)
  | holding (sequence : Nat)
  | committing (sequence : Nat)
  | adding (sequence : Nat)
  deriving DecidableEq

/-- A registered entry processor: its spot, where it began, the next entry it
reads, up to where it may read, and what it has read. -/
structure Reader (Content : Type) where
  spot : Nat
  start : Nat
  next : Nat
  limit : Nat
  sighted : Bool
  history : List (Nat × Content)
  deriving DecidableEq

/-- Where an entry processor stands.  All but the first and the last are
inside `entry_processor_barrier_register`. -/
inductive Processor (Content : Type)
  | outside
  | loading (n : Nat)
  | swapping (n slowest : Nat)
  | checking (n : Nat)
  | storing (n : Nat)
  | reading (reader : Reader Content)
  deriving DecidableEq

structure Ring (Content : Type) where
  slowestEntryProcessor : Nat
  maxReadCursor : Nat
  writeCursor : Nat
  entryProcessorCursors : Nat → Option Nat
  buffer : Nat → Content
  publishers : Nat → Publisher
  processors : Nat → Processor Content
  committed : Nat → Content
  contents : Nat → Content

inductive PublisherAction (Content : Type)
  | nextEntryBlocking
  | nextEntryNonblocking
  | scan
  | claim
  | write (content : Content)
  | await
  | commit

inductive ProcessorAction (Content : Type)
  | load
  | swap (spurious : Bool)
  | check
  | store
  | look
  | limit
  | read
  | overwrite (content : Content)
  | release (sequence : Nat)
  | unregister

inductive Action (Content : Type)
  | publish (publisher : Nat) (action : PublisherAction Content)
  | process (processor : Nat) (action : ProcessorAction Content)

variable {Content : Type}

def Ring.init (zero : Content) : Ring Content where
  slowestEntryProcessor := 0
  maxReadCursor := 0
  writeCursor := 0
  entryProcessorCursors := fun _ => none
  buffer := fun _ => zero
  publishers := fun _ => .idle
  processors := fun _ => .outside
  committed := fun _ => zero
  contents := fun _ => zero

@[simps]
def Ring.setPublisher (ring : Ring Content) (p : Nat) (state : Publisher) :
    Ring Content :=
  { ring with publishers := Function.update ring.publishers p state }

@[simps]
def Ring.setProcessor (ring : Ring Content) (q : Nat) (state : Processor Content) : Ring Content :=
  { ring with processors := Function.update ring.processors q state }

@[simps]
def Ring.setCursor (ring : Ring Content) (n : Nat) (cursor : Option Nat) :
    Ring Content :=
  { ring with
    entryProcessorCursors := Function.update ring.entryProcessorCursors n cursor }

@[simps]
def Ring.setEntry (config : Config) (ring : Ring Content) (sequence : Nat)
    (content : Content) : Ring Content :=
  { ring with
    buffer := Function.update ring.buffer (config.index sequence) content }

def minCursor : Option Nat → Option Nat → Option Nat
  | some slowest, some sequence =>
    if sequence < slowest then some sequence else some slowest
  | some slowest, none => some slowest
  | none, cursor => cursor

def scanned (config : Config) (incur : Nat) : Option Nat → Nat
  | some slowest => slowest
  | none => incur - (config.reducedSize &&& incur)

/-- The unsigned comparison that lets a publisher have its entry. -/
def mayWrite (config : Config) (incur slowest : Nat) : Bool :=
  decide (slowest ≤ incur ∧ incur - slowest ≤ config.reducedSize)

/-- A step of publisher `p`: `publisher_next_entry_blocking`,
`publisher_next_entry_nonblocking`, `publisher_commit_entry_blocking`, and the
writes to the entry between them. -/
def publisherStep (config : Config) (ring : Ring Content) (p : Nat) :
    PublisherAction Content → Publisher → Option (Ring Content)
  | .nextEntryBlocking, .idle =>
    some ({ ring with writeCursor := ring.writeCursor + 1 }.setPublisher p
      (.scanning true (ring.writeCursor + 1) 0 none))
  | .nextEntryNonblocking, .idle =>
    some (ring.setPublisher p (.scanning false (ring.writeCursor + 1) 0 none))
  | .scan, .scanning blocking incur n slowestReader =>
    if n < config.spots then
      some (ring.setPublisher p (.scanning blocking incur (n + 1)
        (minCursor slowestReader (ring.entryProcessorCursors n))))
    else
      let slowest := scanned config incur slowestReader
      let next : Publisher :=
        if mayWrite config incur slowest then
          if blocking then .holding incur else .claiming incur
        else if blocking then .scanning true incur 0 none else .idle
      some ({ ring with slowestEntryProcessor := slowest }.setPublisher p next)
  | .claim, .claiming incur =>
    -- The source compares with the predecessor, in unsigned arithmetic.
    if ring.writeCursor + 1 = incur then
      some ({ ring with writeCursor := incur }.setPublisher p (.holding incur))
    else some (ring.setPublisher p .idle)
  | .write content, .holding sequence =>
    some (ring.setEntry config sequence content)
  | .await, .holding sequence | .await, .committing sequence =>
    some (ring.setPublisher p
      (if ring.maxReadCursor + 1 = sequence then .adding sequence
        else .committing sequence))
  | .commit, .adding sequence =>
    some ({ ring with
      maxReadCursor := ring.maxReadCursor + 1
      committed := Function.update ring.committed sequence (ring.buffer (config.index sequence))
      contents := Function.update ring.contents sequence
        (ring.buffer (config.index sequence)) }.setPublisher p .idle)
  | _, _ => none

/-- The first sequence number that a cursor protects.  Sequence numbers begin
with one, so a cursor of zero protects as much as a cursor of one. -/
def protectedFrom (cursor : Nat) : Nat := max cursor 1

def Reader.begin (spot start : Nat) : Reader Content := ⟨spot, start, start, 0, false, []⟩

/-- A step of a registered entry processor: `entry_processor_barrier_wait_for`
as two loads, the reads and the writes of entries, `_release_entry` that gives
up no less than before, and `_unregister`. -/
def readerStep (config : Config) (ring : Ring Content) (q : Nat) (reader : Reader Content) :
    ProcessorAction Content → Option (Ring Content)
  | .look =>
    if reader.next ≤ ring.maxReadCursor then
      some (ring.setProcessor q (.reading { reader with sighted := true }))
    else some ring
  | .limit =>
    if reader.sighted then
      some (ring.setProcessor q (.reading
        { reader with sighted := false, limit := ring.maxReadCursor }))
    else none
  | .read =>
    if reader.next ≤ reader.limit then
      let entry := (reader.next, ring.buffer (config.index reader.next))
      some (ring.setProcessor q (.reading
        { reader with
          next := reader.next + 1
          history := reader.history ++ [entry] }))
    else none
  | .overwrite content =>
    if reader.start < reader.next then
      some { ring.setEntry config (reader.next - 1) content with
        contents := Function.update ring.contents (reader.next - 1) content }
    else none
  | .release sequence =>
    match ring.entryProcessorCursors reader.spot with
    | some cursor =>
      if protectedFrom cursor ≤ protectedFrom sequence ∧
          sequence < reader.next then
        some (ring.setCursor reader.spot (some sequence))
      else none
    | none => none
  | .unregister =>
    some ((ring.setCursor reader.spot none).setProcessor q .outside)
  | _ => none

/-- A step of entry processor `q`.  The compare-and-swap of
`entry_processor_barrier_register` is the weak one. -/
def processorStep (config : Config) (ring : Ring Content) (q : Nat) :
    ProcessorAction Content → Processor Content → Option (Ring Content)
  | .load, .outside =>
    some (ring.setProcessor q (.swapping 0 ring.slowestEntryProcessor))
  | .load, .loading n =>
    some (ring.setProcessor q (.swapping n ring.slowestEntryProcessor))
  | .swap spurious, .swapping n slowest =>
    if spurious = false ∧ n < config.spots ∧
        ring.entryProcessorCursors n = none then
      some ((ring.setCursor n (some slowest)).setProcessor q (.checking n))
    else
      some (ring.setProcessor q (.loading (if n + 1 < config.spots then n + 1 else 0)))
  | .check, .checking n =>
    match ring.entryProcessorCursors n with
    | some 0 => some (ring.setProcessor q (.storing n))
    | some start => some (ring.setProcessor q (.reading (.begin n start)))
    | none => none
  | .store, .storing n =>
    some ((ring.setCursor n (some 1)).setProcessor q (.reading (.begin n 1)))
  | action, .reading reader => readerStep config ring q reader action
  | _, _ => none

def step (config : Config) (ring : Ring Content) :
    Action Content → Option (Ring Content)
  | .publish p action => publisherStep config ring p action (ring.publishers p)
  | .process q action => processorStep config ring q action (ring.processors q)

end Disruptor

end MercuryFix
