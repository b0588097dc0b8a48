import MercuryFix.DeltaBlocks

/-!
# Messages taken under the guard

Both `pop` and `session_pop` keep a limit one behind the last entry that they have
seen, and ask the queue for a new one when their counter has come there.
-/

namespace MercuryFix

open ByteBlock TransitionSystem

open Disruptor hiding Ring step

section Caching

inductive CachePhase
  | ready
  | looking
  | limiting
  | raising
  | granted

/-- The cached limit of a consumer, against its entry processor. -/
def Caching {Content : Type} (ring : Disruptor.Ring Content)
    (reader : Reader Content) (upper : Nat) : CachePhase → Prop
  | .ready => upper = reader.limit + 1 ∧ reader.next ≤ reader.limit + 1
  | .looking => upper = reader.next ∧ reader.limit + 1 = reader.next
  | .limiting => upper = reader.next ∧ reader.sighted = true ∧ reader.next ≤ ring.maxReadCursor
  | .raising => upper = reader.limit ∧ reader.next ≤ reader.limit
  | .granted => upper = reader.limit + 1 ∧ reader.next ≤ reader.limit

variable {Content : Type} {config : Config}
  {ring next : Disruptor.Ring Content} {reader : Reader Content} {upper : Nat}

theorem Caching.mono {phase : CachePhase} (caching : Caching ring reader upper phase)
    (grows : ring.maxReadCursor ≤ next.maxReadCursor) :
    Caching next reader upper phase := by
  cases phase with
  | limiting => exact ⟨caching.1, caching.2.1, caching.2.2.trans grows⟩
  | ready | looking | raising | granted => exact caching

theorem Caching.fetch (caching : Caching ring reader upper .ready) :
    Caching ring reader upper (if reader.next = upper then .looking else .granted) := by
  obtain ⟨limit, bound⟩ := caching
  split
  · exact ⟨by omega, by omega⟩
  · exact ⟨limit, by omega⟩

theorem Caching.raise (caching : Caching ring reader upper .raising) :
    Caching ring reader (upper + 1) .granted :=
  ⟨congrArg (· + 1) caching.1, caching.2⟩

end Caching

/-- The steps of the registered poppers. -/
def PopAction.lockfree : PopAction → Bool
  | popper .. => true
  | splitter _ | pop _ | sessionPop | inSitu _ => false

def GuardedPop.pending : GuardedPop → Nat
  | clearing .. | releasing .. | leaving _ => 1
  | outside | fetching | looking _ | limiting _ | raising _ | taking _ => 0

def GuardedPop.uncleared : GuardedPop → Nat
  | clearing .. => 1
  | _ => 0

theorem GuardedPop.uncleared_le_pending (place : GuardedPop) : place.uncleared ≤ place.pending := by
  cases place <;> simp [uncleared, pending]

namespace PopQueues

variable {state next : PopQueues}

/-- What the place of the thread with the guard says about delta. -/
def PopAt (state : PopQueues) (reader : Reader DeltaContent) :
    GuardedPop → Prop
  | .outside | .fetching => state.deltaN = reader.next ∧
      Caching state.delta reader state.deltaCursorUpperLimit .ready
  | .looking n => n = reader.next ∧ state.deltaN = n + 1 ∧
      Caching state.delta reader state.deltaCursorUpperLimit .looking
  | .limiting n => n = reader.next ∧ state.deltaN = n + 1 ∧
      Caching state.delta reader state.deltaCursorUpperLimit .limiting
  | .raising n => n = reader.next ∧ state.deltaN = n + 1 ∧
      Caching state.delta reader state.deltaCursorUpperLimit .raising
  | .taking n => n = reader.next ∧ state.deltaN = n + 1 ∧
      Caching state.delta reader state.deltaCursorUpperLimit .granted
  | .clearing n message | .releasing n message =>
    n + 1 = reader.next ∧ state.deltaN = reader.next ∧
    Caching state.delta reader state.deltaCursorUpperLimit .ready ∧
    message = state.delta.committed n
  | .leaving message => state.deltaN = reader.next ∧
      Caching state.delta reader state.deltaCursorUpperLimit .ready ∧
      message = state.delta.committed (reader.next - 1)

/-- Where the thread with the guard stands. -/
def holder (state : PopQueues) : GuardedPop :=
  match state.guard with
  | some thread => state.threads thread
  | none => .outside

/-- What holds of delta while it is emptied by the guarded `pop` alone. -/
structure DeltaPops (state : PopQueues) (reader : Reader DeltaContent) :
    Prop where
  consumed : Consumed deltaConfig state.delta reader
  alone : ∀ thread, state.guard ≠ some thread → state.threads thread = .outside
  inside : ∀ thread, state.guard = some thread → state.threads thread ≠ .outside
  popAt : PopAt state reader state.holder
  popped : state.popped.map Prod.snd = committedTo state.delta state.popped.length
  count : state.popped.length + 1 + state.holder.pending = reader.next
  committed : state.deltaCommitted = committedTo state.delta state.delta.maxReadCursor
  blocks : Blocks state
  blank : Blank state.delta (reader.next - state.holder.uncleared)

theorem DeltaPops.init : DeltaPops init (.begin 0 1) where
  consumed := .registered DeltaContent.zero (by decide)
  alone := fun _ _ => rfl
  inside := nofun
  popAt := ⟨rfl, rfl, le_rfl⟩
  popped := rfl
  count := rfl
  committed := rfl
  blocks := .init
  blank := fun _ => .inl rfl

section Delta

variable {reader : Reader DeltaContent}

theorem DeltaPops.next_le (pops : DeltaPops state reader) :
    reader.next ≤ state.delta.maxReadCursor + 1 :=
  pops.consumed.next_le

theorem DeltaPops.popped_le (pops : DeltaPops state reader) :
    state.popped.length ≤ state.delta.maxReadCursor := by
  have bound := pops.next_le
  have count := pops.count
  omega

theorem PopAt.mono {place : GuardedPop} {ring : Disruptor.Ring DeltaContent}
    (popAt : PopAt state reader place) (grows : state.delta.maxReadCursor ≤ ring.maxReadCursor)
    (same : ∀ sequence < reader.next, ring.committed sequence = state.delta.committed sequence)
    (begun : 1 ≤ reader.next) : PopAt { state with delta := ring } reader place := by
  cases place with
  | outside | fetching => exact ⟨popAt.1, popAt.2.mono grows⟩
  | looking n | limiting n | raising n | taking n =>
    exact ⟨popAt.1, popAt.2.1, popAt.2.2.mono grows⟩
  | clearing n message | releasing n message =>
    obtain ⟨before, number, caching, rfl⟩ := popAt
    exact ⟨before, number, caching.mono grows, (same n (by omega)).symm⟩
  | leaving message =>
    obtain ⟨number, caching, rfl⟩ := popAt
    exact ⟨number, caching.mono grows, (same _ (by omega)).symm⟩

section

variable (pops : DeltaPops state reader)
include pops

theorem DeltaPops.published {action : PublisherAction DeltaContent}
    {ring : Disruptor.Ring DeltaContent} {place : Publishing} {mallocs : Nat}
    {messages : List DeltaContent}
    (steps : Disruptor.step deltaConfig state.delta (.publish 0 action) = some ring)
    (committed : messages = committedTo ring ring.maxReadCursor)
    (blocks : Blocks { state with
      delta := ring
      splitter := place
      mallocs := mallocs
      deltaCommitted := messages }) :
    DeltaPops { state with
      delta := ring
      splitter := place
      mallocs := mallocs
      deltaCommitted := messages } reader := by
  have moves : PublisherMove deltaConfig state.delta 0 action ring := publisherMove_of_step steps
  have sound := pops.consumed.sound
  have bound := pops.next_le
  refine ⟨pops.consumed.publish moves, pops.alone, pops.inside, ?_, ?_,
    pops.count, committed, blocks, ?_⟩
  · exact pops.popAt.mono moves.maxReadCursor_le
      (fun sequence before => moves.committed_eq sound (by omega))
      pops.consumed.next_pos
  · rw [pops.popped]
    refine (committedTo_congr fun sequence upper => ?_).symm
    exact moves.committed_eq sound (upper.trans pops.popped_le)
  · exact pops.blank.publish sound ((Nat.sub_le _ _).trans bound) moves

theorem DeltaPops.elsewhere {echo : Disruptor.Ring (List UInt8)} {place : Publishing}
    {echoN echoCursorUpperLimit : Nat} {session : SessionPop}
    {echoCommitted sessionPopped : List EchoMessage}
    (blocks : Blocks { state with
      echo := echo
      splitter := place
      echoN := echoN
      echoCursorUpperLimit := echoCursorUpperLimit
      session := session
      echoCommitted := echoCommitted
      sessionPopped := sessionPopped }) :
    DeltaPops { state with
      echo := echo
      splitter := place
      echoN := echoN
      echoCursorUpperLimit := echoCursorUpperLimit
      session := session
      echoCommitted := echoCommitted
      sessionPopped := sessionPopped } reader :=
  ⟨pops.consumed, pops.alone, pops.inside, pops.popAt, pops.popped, pops.count,
    pops.committed, blocks, pops.blank⟩

theorem DeltaPops.acquires {ring : Disruptor.Ring DeltaContent} {sequence : Nat}
    (steps : Disruptor.step deltaConfig state.delta (.publish 0 .scan) = some ring)
    (holds : (ring.publishers 0).held = some sequence) :
    state.delta.buffer (deltaConfig.index sequence) = .zero := by
  have moves : PublisherMove deltaConfig state.delta 0 .scan ring := publisherMove_of_step steps
  have consumed := pops.consumed.publish moves
  have positive := consumed.next_pos
  have above := (consumed.sound.claimed 0 sequence (Publisher.claimed_of_held holds)).1
  rw [(publish_committed moves nofun).1] at above
  have count := pops.count
  have uncleared := state.holder.uncleared_le_pending
  have once : state.holder.pending ≤ 1 := by
    cases state.holder <;> simp [GuardedPop.pending]
  refine pops.blank.acquired (scan_unheld steps) fun readable lower upper => ?_
  exact (consumed.held_index_ne holds (by omega) (by omega) (by omega)).symm

theorem DeltaPops.splitterStep {input : SplitterInput}
    (steps : state.splitterStep input = some next) :
    DeltaPops next reader := by
  have sound := pops.consumed.sound
  have blocks := pops.blocks.splitterStep sound (fun _ _ => pops.acquires) steps
  have committed := splitterStep_committed pops.blocks sound pops.committed steps
  cases splitterStep_moves steps with
  | asksDelta standing moves | scansDelta standing moves
  | fills standing holds positive small moves | delivers standing holds moves
  | awaitsDelta standing moves | commitsDelta standing moves =>
    exact pops.published moves committed blocks
  | asksEcho | scansEcho | deliversSession | awaitsEcho | commitsEcho =>
    exact pops.elsewhere blocks

theorem DeltaPops.guard {thread : Nat} (inside : state.threads thread ≠ .outside) :
    state.guard = some thread :=
  not_imp_comm.mp (pops.alone thread) inside

theorem DeltaPops.moved {thread : Nat} {place : GuardedPop} {ring : Disruptor.Ring DeltaContent}
    {after : Reader DeltaContent} {deltaN upper : Nat} (guarded : state.guard = some thread)
    (inside : place ≠ .outside) (consumed : Consumed deltaConfig ring after)
    (popAt : PopAt { state with
      delta := ring
      deltaN := deltaN
      deltaCursorUpperLimit := upper } after place)
    (count : state.popped.length + 1 + place.pending = after.next)
    (cursor : ring.maxReadCursor = state.delta.maxReadCursor)
    (same : ring.committed = state.delta.committed)
    (publishers : ring.publishers = state.delta.publishers)
    (entry : ∀ sequence, (state.delta.publishers 0).held = some sequence →
      ring.buffer (deltaConfig.index sequence) = state.delta.buffer (deltaConfig.index sequence))
    (blank : Blank ring (after.next - place.uncleared)) :
    DeltaPops ({ state with
      delta := ring
      deltaN := deltaN
      deltaCursorUpperLimit := upper }.setThread thread place) after := by
  have here : ({ state with
      delta := ring
      deltaN := deltaN
      deltaCursorUpperLimit := upper }.setThread thread place).holder =
        place := by
    simp only [holder, setThread, guarded, Function.update_self]
  have committedSame (count : Nat) : committedTo ring count = committedTo state.delta count :=
    committedTo_congr fun sequence _ => congrFun same sequence
  refine ⟨consumed, ?_, ?_, here.symm ▸ popAt, ?_, here.symm ▸ count, ?_, ?_, here.symm ▸ blank⟩
  · intro other free
    have apart : other ≠ thread := fun same => free (same ▸ guarded)
    simp only [setThread, Function.update_of_ne apart]
    exact pops.alone other free
  · intro other holds
    cases guarded.symm.trans holds
    simp only [setThread, Function.update_self]
    exact inside
  · exact pops.popped.trans (committedSame _).symm
  · refine pops.committed.trans ?_
    change _ = committedTo ring ring.maxReadCursor
    rw [cursor]
    exact (committedSame _).symm
  · exact pops.blocks.kept rfl rfl rfl (congrFun publishers 0) entry

theorem DeltaPops.goes {thread : Nat} {before place : GuardedPop}
    {ring : Disruptor.Ring DeltaContent} {after : Reader DeltaContent} {deltaN upper : Nat}
    (standing : state.threads thread = before) (wasInside : before ≠ .outside)
    (inside : place ≠ .outside) (consumed : Consumed deltaConfig ring after)
    (popAt : PopAt { state with
      delta := ring
      deltaN := deltaN
      deltaCursorUpperLimit := upper } after place)
    (count : state.popped.length + 1 + place.pending = after.next)
    (lower : after.next - place.uncleared ≤ reader.next - before.uncleared)
    (cursor : ring.maxReadCursor = state.delta.maxReadCursor)
    (same : ring.committed = state.delta.committed)
    (publishers : ring.publishers = state.delta.publishers)
    (buffer : ring.buffer = state.delta.buffer) :
    DeltaPops ({ state with
      delta := ring
      deltaN := deltaN
      deltaCursorUpperLimit := upper }.setThread thread place) after := by
  have guarded : state.guard = some thread := pops.guard (standing ▸ wasInside)
  have blank := pops.blank
  simp only [holder, guarded, standing] at blank
  exact pops.moved guarded inside consumed popAt count cursor same publishers
    (fun sequence _ => congrFun buffer (deltaConfig.index sequence))
    (blank.kept lower cursor (congrFun publishers 0) buffer)

end

theorem Consumed.held_apart {Content : Type} {config : Config}
    {ring : Disruptor.Ring Content} {reader : Reader Content} {sequence : Nat}
    (consumed : Consumed config ring reader) (started : 1 < reader.next)
    (holds : (ring.publishers 0).held = some sequence) :
    config.index sequence ≠ config.index (reader.next - 1) := by
  have above := (consumed.sound.claimed 0 sequence (Publisher.claimed_of_held holds)).1
  have bound := consumed.next_le
  exact consumed.held_index_ne holds (by omega) (.inl started) (by omega)

theorem Consumed.releases {Content : Type} {config : Config}
    {ring : Disruptor.Ring Content} {reader : Reader Content} {sequence : Nat}
    (consumed : Consumed config ring reader) (last : sequence + 1 = reader.next) :
    Disruptor.step config ring (.process 0 (.release sequence)) =
        some (ring.setCursor 0 (some sequence)) ∧
      Consumed config (ring.setCursor 0 (some sequence)) reader := by
  obtain ⟨cursor, present, bound, strict⟩ := consumed.cursor
  have above := le_protectedFrom sequence
  have positive := protectedFrom_pos sequence
  exact consumed.release present (by omega) (by omega)

section

variable (pops : DeltaPops state reader)
include pops

theorem DeltaPops.enter {thread : Nat} (free : state.guard = none) :
    DeltaPops ({ state with guard := some thread }.setThread thread .fetching)
      reader := by
  have popAt := pops.popAt
  have count := pops.count
  have blank := pops.blank
  simp only [holder, free] at popAt count blank
  refine ⟨pops.consumed, ?_, ?_, ?_, pops.popped, ?_, pops.committed,
    pops.blocks.kept rfl rfl rfl rfl fun _ _ => rfl, ?_⟩
  · intro other apart
    have different : other ≠ thread := fun same => apart (congrArg some same.symm)
    simp only [setThread, Function.update_of_ne different]
    exact pops.alone other (by rw [free]; exact nofun)
  · intro other same
    cases same
    simp [setThread]
  · simp only [holder, setThread, Function.update_self]
    exact popAt
  · simp only [holder, setThread, Function.update_self]
    exact count
  · simp only [holder, setThread, Function.update_self]
    exact blank

theorem DeltaPops.leave {thread : Nat} {message : DeltaContent}
    (guarded : state.guard = some thread) (standing : state.threads thread = .leaving message) :
    DeltaPops ({ state with
      guard := none
      popped := state.popped ++ [(thread, message)] }.setThread thread .outside)
        reader := by
  have popAt := pops.popAt
  have count := pops.count
  have blank := pops.blank
  simp only [holder, guarded, standing, GuardedPop.pending] at popAt count blank
  obtain ⟨number, caching, rfl⟩ := popAt
  refine ⟨pops.consumed, ?_, nofun, ⟨number, caching⟩, ?_, ?_, pops.committed,
    pops.blocks.kept rfl rfl rfl rfl fun _ _ => rfl, blank⟩
  · intro other _
    by_cases same : other = thread
    · rw [same]
      exact Function.update_self _ _ _
    · simp only [setThread, Function.update_of_ne same]
      exact pops.alone other (fun holds => same (by
        rw [guarded] at holds
        exact (Option.some.inj holds).symm))
  · change (state.popped ++ [_]).map Prod.snd = committedTo state.delta (state.popped ++ [_]).length
    rw [List.map_append, pops.popped, List.length_append, List.length_singleton, committedTo_succ]
    have last : reader.next - 1 = state.popped.length + 1 := by omega
    rw [last]
    rfl
  · change (state.popped ++ [_]).length + 1 + 0 = reader.next
    rw [List.length_append, List.length_singleton]
    omega

theorem DeltaPops.popStep {thread : Nat} (steps : state.popStep thread = some next) :
    ∃ after, DeltaPops next after := by
  have consumed := pops.consumed
  have guardedAt {place : GuardedPop} (standing : state.threads thread = place)
      (inside : place ≠ .outside) : state.guard = some thread :=
    pops.guard (standing ▸ inside)
  have popAtPlace {place : GuardedPop}
      (standing : state.threads thread = place) (inside : place ≠ .outside) :
      PopAt state reader place ∧ state.popped.length + 1 + place.pending = reader.next := by
    have popAt := pops.popAt
    have count := pops.count
    simp only [holder, guardedAt standing inside, standing] at popAt count
    exact ⟨popAt, count⟩
  unfold PopQueues.popStep at steps
  split at steps
  case h_1 standing =>
    obtain ⟨free, same⟩ := Option.ite_none_right_eq_some.mp steps
    cases same
    exact ⟨reader, pops.enter free⟩
  case h_2 standing =>
    cases steps
    obtain ⟨⟨number, caching⟩, count⟩ := popAtPlace standing nofun
    have fetched := caching.fetch
    rw [← number] at fetched
    refine ⟨reader, ?_⟩
    split
    · rename_i atLimit
      rw [if_pos atLimit] at fetched
      exact pops.goes standing nofun nofun consumed ⟨number, rfl, fetched⟩ count le_rfl rfl rfl rfl
        rfl
    · rename_i belowLimit
      rw [if_neg belowLimit] at fetched
      exact pops.goes standing nofun nofun consumed ⟨number, rfl, fetched⟩ count le_rfl rfl rfl rfl
        rfl
  case h_3 n standing =>
    obtain ⟨⟨rfl, number, caching⟩, count⟩ := popAtPlace standing nofun
    obtain ⟨behind, enters, rfl⟩ := Option.map_eq_some_iff.mp steps
    obtain ⟨ring, moves, rfl⟩ := onDelta_eq_some.mp enters
    split
    · rename_i sees
      have readable : reader.next ≤ state.delta.maxReadCursor := caching.1 ▸ sees
      obtain ⟨expected, consumedAfter⟩ := consumed.look readable
      cases moves.symm.trans expected
      exact ⟨_, pops.goes standing nofun nofun consumedAfter
        ⟨rfl, number, caching.1, rfl, readable⟩ count le_rfl rfl rfl rfl
        rfl⟩
    · rename_i unseen
      have idle : state.delta.maxReadCursor < reader.next := caching.1 ▸ Nat.lt_of_not_le unseen
      cases moves.symm.trans (consumed.look_idle idle)
      exact ⟨reader, pops.goes standing nofun nofun consumed
        ⟨rfl, number, caching⟩ count le_rfl rfl rfl rfl
        rfl⟩
  case h_4 n standing =>
    obtain ⟨⟨rfl, number, limit, sighted, readable⟩, count⟩ := popAtPlace standing nofun
    obtain ⟨behind, enters, rfl⟩ := Option.map_eq_some_iff.mp steps
    obtain ⟨ring, moves, rfl⟩ := onDelta_eq_some.mp enters
    obtain ⟨expected, consumedAfter⟩ := consumed.limit sighted
    cases moves.symm.trans expected
    exact ⟨_, pops.goes standing nofun nofun consumedAfter
      ⟨rfl, number, rfl, readable⟩ count le_rfl rfl rfl rfl rfl⟩
  case h_5 n standing =>
    cases steps
    obtain ⟨⟨rfl, number, caching⟩, count⟩ := popAtPlace standing nofun
    exact ⟨reader, pops.goes standing nofun nofun consumed
      ⟨rfl, number, caching.raise⟩ count le_rfl rfl rfl rfl rfl⟩
  case h_6 n standing =>
    obtain ⟨⟨rfl, number, limit, readable⟩, count⟩ := popAtPlace standing nofun
    obtain ⟨behind, enters, rfl⟩ := Option.map_eq_some_iff.mp steps
    obtain ⟨ring, moves, rfl⟩ := onDelta_eq_some.mp enters
    obtain ⟨expected, consumedAfter⟩ := consumed.read readable
    cases moves.symm.trans expected
    have content := consumed.next_entry (readable.trans consumed.readerOk.limit)
    refine ⟨_, pops.goes standing nofun nofun consumedAfter
      ⟨rfl, number, ⟨limit, Nat.succ_le_succ readable⟩, content⟩ ?_ le_rfl
      rfl rfl rfl rfl⟩
    change state.popped.length + 1 + 1 = reader.next + 1
    exact congrArg (· + 1) count
  case h_7 n message standing =>
    obtain ⟨⟨last, number, caching, content⟩, count⟩ := popAtPlace standing nofun
    obtain ⟨behind, enters, rfl⟩ := Option.map_eq_some_iff.mp steps
    obtain ⟨ring, moves, rfl⟩ := onDelta_eq_some.mp enters
    have started : 1 < reader.next := by
      simp only [GuardedPop.pending] at count
      omega
    obtain ⟨expected, consumedAfter⟩ := consumed.overwrite started DeltaContent.zero
    cases moves.symm.trans expected
    have blank := pops.blank
    simp only [holder, guardedAt standing nofun, standing] at blank
    have cleared : Blank (state.delta.overwritten deltaConfig (reader.next - 1) .zero)
        (reader.next - 1 + 1) := blank.cleared rfl rfl rfl
    rw [Nat.sub_add_cancel started.le] at cleared
    refine ⟨reader, pops.moved (guardedAt standing nofun) nofun consumedAfter
      ⟨last, number, caching, content⟩ count rfl rfl rfl
      (fun sequence holds => ?_) cleared⟩
    exact Function.update_of_ne (Consumed.held_apart consumed started holds) _ _
  case h_8 n message standing =>
    obtain ⟨⟨last, number, caching, content⟩, count⟩ := popAtPlace standing nofun
    obtain ⟨behind, enters, rfl⟩ := Option.map_eq_some_iff.mp steps
    obtain ⟨ring, moves, rfl⟩ := onDelta_eq_some.mp enters
    obtain ⟨expected, consumedAfter⟩ := Consumed.releases consumed last
    cases moves.symm.trans expected
    refine ⟨reader, pops.goes standing nofun nofun consumedAfter
      ⟨number, caching, ?_⟩ count le_rfl rfl rfl rfl rfl⟩
    rw [content, ← last, Nat.add_sub_cancel]
    rfl
  case h_9 message standing =>
    cases steps
    exact ⟨reader, pops.leave (guardedAt standing nofun) standing⟩

theorem DeltaPops.popStep_enabled {thread : Nat}
    (enters : state.guard = none ∨ state.guard = some thread) :
    (state.popStep thread).isSome := by
  have consumed := pops.consumed
  have popAt := pops.popAt
  have count := pops.count
  rcases enters with free | guarded
  · have outside := pops.alone thread (by rw [free]; exact nofun)
    simp [PopQueues.popStep, outside, free]
  · simp only [holder, guarded] at popAt count
    have inside := pops.inside thread guarded
    unfold PopQueues.popStep
    cases standing : state.threads thread with
    | outside => exact absurd standing inside
    | fetching | raising n | leaving message => rfl
    | looking n =>
      by_cases readable : reader.next ≤ state.delta.maxReadCursor
      · simp [onDelta, (consumed.look readable).1]
      · simp [onDelta, consumed.look_idle (Nat.lt_of_not_le readable)]
    | limiting n =>
      rw [standing] at popAt
      simp [onDelta, (consumed.limit popAt.2.2.2.1).1]
    | taking n =>
      rw [standing] at popAt
      simp [onDelta, (consumed.read popAt.2.2.2).1]
    | clearing n message =>
      rw [standing] at count
      have started : 1 < reader.next := by
        simp only [GuardedPop.pending] at count
        omega
      simp [onDelta, (consumed.overwrite started DeltaContent.zero).1]
    | releasing n message =>
      rw [standing] at popAt
      simp [onDelta, (Consumed.releases consumed popAt.1).1]

theorem DeltaPops.sessionStep (steps : state.sessionStep = some next) : DeltaPops next reader := by
  obtain ⟨echo, echoN, limit, session, popped, rfl⟩ := sessionStep_frame steps
  exact pops.elsewhere (pops.blocks.kept rfl rfl rfl rfl fun _ _ => rfl)

end

end Delta

def SessionAt (state : PopQueues) (reader : Reader (List UInt8)) :
    SessionPop → Prop
  | .outside => state.echoN = reader.next ∧
      Caching state.echo reader state.echoCursorUpperLimit .ready
  | .looking n => n = reader.next ∧ state.echoN = n + 1 ∧
      Caching state.echo reader state.echoCursorUpperLimit .looking
  | .limiting n => n = reader.next ∧ state.echoN = n + 1 ∧
      Caching state.echo reader state.echoCursorUpperLimit .limiting
  | .reading n => n = reader.next ∧ state.echoN = n + 1 ∧
      Caching state.echo reader state.echoCursorUpperLimit .granted

structure EchoPops (state : PopQueues) (reader : Reader (List UInt8)) :
    Prop where
  consumed : Consumed echoConfig state.echo reader
  sessionAt : SessionAt state reader state.session
  length : ∀ place, (state.echo.buffer place).length = echoEntrySize
  popped : state.sessionPopped = (committedTo state.echo state.sessionPopped.length).map readEcho
  count : state.sessionPopped.length + 1 = reader.next
  committed : state.echoCommitted = (committedTo state.echo state.echo.maxReadCursor).map readEcho
  committing : ∀ message, state.splitter = .committingEcho message →
    ∃ sequence, (state.echo.publishers 0).held = some sequence ∧
      readEcho (state.echo.buffer (echoConfig.index sequence)) = message

theorem EchoPops.init : EchoPops init (.begin 0 1) where
  consumed := .registered (List.replicate echoEntrySize 0) (by decide)
  sessionAt := ⟨rfl, rfl, le_rfl⟩
  length := fun _ => List.length_replicate
  popped := rfl
  count := rfl
  committed := rfl
  committing := nofun

section Echo

variable {reader : Reader (List UInt8)}

theorem EchoPops.popped_le (pops : EchoPops state reader) :
    state.sessionPopped.length ≤ state.echo.maxReadCursor := by
  have bound := pops.consumed.next_le
  have count := pops.count
  omega

theorem SessionAt.mono {place : SessionPop} {ring : Disruptor.Ring (List UInt8)}
    (sessionAt : SessionAt state reader place)
    (grows : state.echo.maxReadCursor ≤ ring.maxReadCursor) :
    SessionAt { state with echo := ring } reader place := by
  cases place with
  | outside => exact ⟨sessionAt.1, sessionAt.2.mono grows⟩
  | looking n | limiting n | reading n =>
    exact ⟨sessionAt.1, sessionAt.2.1, sessionAt.2.2.mono grows⟩

theorem EchoPops.published (pops : EchoPops state reader) {action : PublisherAction (List UInt8)}
    {ring : Disruptor.Ring (List UInt8)} {place : Publishing}
    {messages : List EchoMessage}
    (steps : Disruptor.step echoConfig state.echo (.publish 0 action) = some ring)
    (length : ∀ place, (ring.buffer place).length = echoEntrySize)
    (committed : messages = (committedTo ring ring.maxReadCursor).map readEcho)
    (committing : ∀ message, place = .committingEcho message →
      ∃ sequence, (ring.publishers 0).held = some sequence ∧
        readEcho (ring.buffer (echoConfig.index sequence)) = message) :
    EchoPops { state with
      echo := ring
      splitter := place
      echoCommitted := messages } reader := by
  have moves : PublisherMove echoConfig state.echo 0 action ring := publisherMove_of_step steps
  refine ⟨pops.consumed.publish moves,
    pops.sessionAt.mono moves.maxReadCursor_le, length, ?_, pops.count,
    committed, committing⟩
  refine pops.popped.trans (congrArg (List.map readEcho) ?_)
  refine (committedTo_congr fun sequence upper => ?_).symm
  exact moves.committed_eq pops.consumed.sound (upper.trans pops.popped_le)

theorem EchoPops.elsewhere (pops : EchoPops state reader)
    {delta : Disruptor.Ring DeltaContent} {guard : Option Nat}
    {deltaN deltaCursorUpperLimit mallocs : Nat} {place : Publishing}
    {threads : Nat → GuardedPop} {deltaCommitted : List DeltaContent}
    {popped : List (Nat × DeltaContent)}
    (committing : ∀ message, place = .committingEcho message →
      state.splitter = .committingEcho message) :
    EchoPops { state with
      delta := delta
      guard := guard
      deltaN := deltaN
      deltaCursorUpperLimit := deltaCursorUpperLimit
      splitter := place
      mallocs := mallocs
      threads := threads
      deltaCommitted := deltaCommitted
      popped := popped } reader :=
  ⟨pops.consumed, pops.sessionAt, pops.length, pops.popped, pops.count, pops.committed,
    fun message same => pops.committing message (committing message same)⟩

theorem EchoPops.committed_published (pops : EchoPops state reader)
    {action : PublisherAction (List UInt8)}
    {ring : Disruptor.Ring (List UInt8)}
    (steps : Disruptor.step echoConfig state.echo (.publish 0 action) = some ring)
    (other : action ≠ .commit) :
    state.echoCommitted = (committedTo ring ring.maxReadCursor).map readEcho := by
  obtain ⟨cursor, same⟩ := publish_committed (publisherMove_of_step steps) other
  rw [pops.committed, cursor]
  refine congrArg (List.map readEcho) ?_
  exact (committedTo_congr fun sequence _ => congrFun same sequence).symm

theorem echoEntry_holding {content : List UInt8} (holds : state.echoEntry = some content) :
    ∃ sequence, state.echo.publishers 0 = .holding sequence ∧
      state.echo.buffer (echoConfig.index sequence) = content := by
  unfold echoEntry at holds
  split at holds
  · rename_i sequence standing
    cases holds
    exact ⟨sequence, standing, rfl⟩
  · cases holds

theorem readEcho_written {message : EchoMessage} {content written : List UInt8}
    (length : content.length = echoEntrySize) (offset : message.msgtypeOffset < 2 ^ 32)
    (fits : memcpy content 0 message.text = some written) :
    readEcho written = message := by
  have room := fits_of_memcpy fits
  rw [memcpy_of_fits room, Option.some.injEq, blit_zero] at fits
  have textLength : message.text.length = 8 + message.data.length := by
    simp [EchoMessage.text, setu32]
    omega
  have small : message.data.length < 2 ^ 32 := by
    rw [length, echoEntrySize] at room
    omega
  have numberLength (number : Nat) : (setu32 number).length = 4 := length_bigEndian 4 number
  have first : getu32 written = message.data.length := by
    rw [← fits, EchoMessage.text, List.append_assoc, List.append_assoc,
      getu32_setu32_append, Nat.mod_eq_of_lt small]
  have second : getu32 (written.drop 4) = message.msgtypeOffset := by
    rw [← fits, EchoMessage.text, List.append_assoc, List.append_assoc,
      List.drop_left' (numberLength _), List.append_assoc,
      getu32_setu32_append, Nat.mod_eq_of_lt offset]
  have third : (written.drop 8).take message.data.length = message.data := by
    rw [← fits, EchoMessage.text, List.append_assoc, List.drop_left' (by
      rw [List.length_append, numberLength, numberLength]), List.take_left]
  rw [readEcho, first, second, third]

section

variable (pops : EchoPops state reader)
include pops

theorem EchoPops.splitterStep {input : SplitterInput}
    (steps : state.splitterStep input = some next) :
    EchoPops next reader := by
  have unwritten {action : PublisherAction (List UInt8)} {ring : Disruptor.Ring (List UInt8)}
      (moves : Disruptor.step echoConfig state.echo (.publish 0 action) =
        some ring) (other : ∀ content, action ≠ .write content)
      (place : Nat) : (ring.buffer place).length = echoEntrySize := by
    rw [publish_buffer (publisherMove_of_step moves) other]
    exact pops.length place
  cases splitterStep_moves steps with
  | asksEcho standing moves =>
    exact pops.published moves (unwritten moves (by simp))
      (pops.committed_published moves (by simp)) (by simp)
  | scansEcho standing moves goes =>
    refine pops.published moves (unwritten moves (by simp))
      (pops.committed_published moves (by simp)) ?_
    rcases goes with rfl | rfl <;> simp
  | @deliversSession total message content written ring standing holds length offset fits moves =>
      obtain ⟨sequence, holding, rfl⟩ := echoEntry_holding holds
      obtain ⟨held, entry⟩ := write_effect holding moves
      refine pops.published moves ?_ (pops.committed_published moves (by simp)) ?_
      · intro place
        simp only [Disruptor.step, holding, publisherStep, Option.some.injEq] at moves
        rw [← moves, Disruptor.Ring.setEntry_buffer, Function.update_apply]
        split
        · rw [length_memcpy fits]
          exact pops.length _
        · exact pops.length place
      · intro other same
        cases same
        refine ⟨sequence, held, ?_⟩
        rw [entry]
        exact readEcho_written (pops.length _) offset fits
  | awaitsEcho standing moves =>
    refine pops.published moves (unwritten moves (by simp))
      (pops.committed_published moves (by simp)) ?_
    intro message same
    obtain ⟨sequence, holds, content⟩ := pops.committing message same
    obtain ⟨still, buffer⟩ := await_effect holds moves
    exact ⟨sequence, still, buffer ▸ content⟩
  | @commitsEcho message ring standing moves =>
    refine pops.published moves (unwritten moves (by simp)) ?_ (by simp)
    obtain ⟨sequence, holds, following, cursor, committed, -⟩ :=
      commit_effect pops.consumed.sound moves
    obtain ⟨other, held, content⟩ := pops.committing message standing
    cases holds.symm.trans held
    rw [cursor, committedTo_succ, ← following, committed, List.map_append,
      Function.update_self, List.map_singleton, content, pops.committed]
    congr 2
    refine (committedTo_congr fun earlier before => ?_).symm
    rw [committed]
    exact Function.update_of_ne (by omega) _ _
  | asksDelta standing moves => exact pops.elsewhere (by simp)
  | scansDelta standing moves goes =>
    refine pops.elsewhere ?_
    rcases goes with rfl | ⟨-, rfl | rfl⟩ <;> simp
  | fills standing holds positive small moves => exact pops.elsewhere (by simp)
  | delivers standing holds moves => exact pops.elsewhere (by simp)
  | awaitsDelta standing moves => exact pops.elsewhere fun _ same => same
  | commitsDelta standing moves => exact pops.elsewhere (by simp)

theorem EchoPops.popStep {thread : Nat} (steps : state.popStep thread = some next) :
    EchoPops next reader := by
  unfold PopQueues.popStep at steps
  split at steps
  case h_1 =>
    obtain ⟨-, same⟩ := Option.ite_none_right_eq_some.mp steps
    cases same
    exact pops.elsewhere fun _ same => same
  case h_2 | h_5 | h_9 =>
    cases steps
    exact pops.elsewhere fun _ same => same
  case h_3 | h_4 | h_6 | h_7 | h_8 =>
    obtain ⟨behind, enters, rfl⟩ := Option.map_eq_some_iff.mp steps
    obtain ⟨ring, -, rfl⟩ := onDelta_eq_some.mp enters
    exact pops.elsewhere fun _ same => same

theorem EchoPops.moved {place : SessionPop} {ring : Disruptor.Ring (List UInt8)}
    {after : Reader (List UInt8)} {echoN upper : Nat} {messages : List EchoMessage}
    (consumed : Consumed echoConfig ring after)
    (sessionAt : SessionAt { state with
      echo := ring
      echoN := echoN
      echoCursorUpperLimit := upper } after place)
    (popped : messages = (committedTo state.echo messages.length).map readEcho)
    (count : messages.length + 1 = after.next)
    (cursor : ring.maxReadCursor = state.echo.maxReadCursor)
    (same : ring.committed = state.echo.committed)
    (publishers : ring.publishers = state.echo.publishers)
    (buffer : ring.buffer = state.echo.buffer) :
    EchoPops { state with
      echo := ring
      echoN := echoN
      echoCursorUpperLimit := upper
      session := place
      sessionPopped := messages } after := by
  have committedSame (count : Nat) : committedTo ring count = committedTo state.echo count :=
    committedTo_congr fun sequence _ => congrFun same sequence
  refine ⟨consumed, sessionAt, ?_, ?_, count, ?_, ?_⟩
  · intro place
    change (ring.buffer place).length = echoEntrySize
    rw [buffer]
    exact pops.length place
  · change messages = (committedTo ring messages.length).map readEcho
    rw [committedSame]
    exact popped
  · change state.echoCommitted = (committedTo ring ring.maxReadCursor).map readEcho
    rw [committedSame, cursor]
    exact pops.committed
  · intro message standing
    obtain ⟨sequence, holds, content⟩ := pops.committing message standing
    refine ⟨sequence, ?_, ?_⟩
    · change (ring.publishers 0).held = some sequence
      rw [publishers]
      exact holds
    · change readEcho (ring.buffer (echoConfig.index sequence)) = message
      rw [buffer]
      exact content

theorem EchoPops.sessionStep (steps : state.sessionStep = some next) :
    ∃ after, EchoPops next after := by
  have consumed := pops.consumed
  have sessionAt := pops.sessionAt
  unfold PopQueues.sessionStep at steps
  split at steps
  case h_1 standing =>
    rw [standing] at sessionAt
    obtain ⟨number, caching⟩ := sessionAt
    obtain ⟨behind, enters, rfl⟩ := Option.map_eq_some_iff.mp steps
    obtain ⟨ring, moves, rfl⟩ := onEcho_eq_some.mp enters
    have last : state.echoN - 1 + 1 = reader.next := by
      have positive := consumed.next_pos
      omega
    obtain ⟨expected, consumedAfter⟩ := Consumed.releases consumed last
    cases moves.symm.trans expected
    have fetched := caching.fetch
    rw [← number] at fetched
    refine ⟨reader, ?_⟩
    split
    · rename_i atLimit
      rw [if_pos atLimit] at fetched
      exact pops.moved consumedAfter ⟨number, rfl, fetched⟩ pops.popped pops.count rfl rfl rfl rfl
    · rename_i belowLimit
      rw [if_neg belowLimit] at fetched
      exact pops.moved consumedAfter ⟨number, rfl, fetched⟩ pops.popped pops.count rfl rfl rfl rfl
  case h_2 n standing =>
    rw [standing] at sessionAt
    obtain ⟨rfl, number, caching⟩ := sessionAt
    obtain ⟨behind, enters, rfl⟩ := Option.map_eq_some_iff.mp steps
    obtain ⟨ring, moves, rfl⟩ := onEcho_eq_some.mp enters
    split
    · rename_i sees
      have readable : reader.next ≤ state.echo.maxReadCursor := caching.1 ▸ sees
      obtain ⟨expected, consumedAfter⟩ := consumed.look readable
      cases moves.symm.trans expected
      exact ⟨_, pops.moved consumedAfter ⟨rfl, number, caching.1, rfl, readable⟩
        pops.popped pops.count rfl rfl rfl rfl⟩
    · rename_i unseen
      have idle : state.echo.maxReadCursor < reader.next := caching.1 ▸ Nat.lt_of_not_le unseen
      cases moves.symm.trans (consumed.look_idle idle)
      exact ⟨reader, pops.moved consumed ⟨rfl, number, caching⟩ pops.popped
        pops.count rfl rfl rfl rfl⟩
  case h_3 n standing =>
    rw [standing] at sessionAt
    obtain ⟨rfl, number, limit, sighted, readable⟩ := sessionAt
    obtain ⟨behind, enters, rfl⟩ := Option.map_eq_some_iff.mp steps
    obtain ⟨ring, moves, rfl⟩ := onEcho_eq_some.mp enters
    obtain ⟨expected, consumedAfter⟩ := consumed.limit sighted
    cases moves.symm.trans expected
    exact ⟨_, pops.moved consumedAfter ⟨rfl, number, rfl, readable⟩ pops.popped
      pops.count rfl rfl rfl rfl⟩
  case h_4 n standing =>
    rw [standing] at sessionAt
    obtain ⟨rfl, number, limit, readable⟩ := sessionAt
    obtain ⟨behind, enters, rfl⟩ := Option.map_eq_some_iff.mp steps
    obtain ⟨ring, moves, rfl⟩ := onEcho_eq_some.mp enters
    obtain ⟨expected, consumedAfter⟩ := consumed.read readable
    cases moves.symm.trans expected
    have count := pops.count
    have content := consumed.next_entry (readable.trans consumed.readerOk.limit)
    refine ⟨_, pops.moved consumedAfter
      ⟨number, limit, Nat.succ_le_succ readable⟩ ?_ ?_ rfl rfl rfl rfl⟩
    · rw [content, ← count, List.length_append, List.length_singleton,
        committedTo_succ, List.map_append, ← pops.popped]
      rfl
    · rw [List.length_append, List.length_singleton, count]
      rfl

theorem EchoPops.inSitu {content : List UInt8} (started : state.sessionPopped ≠ [])
    (length : content.length = echoEntrySize)
    (steps : state.onEcho (.process 0 (.overwrite content)) = some next) :
    EchoPops next reader := by
  have count := pops.count
  have begun : 1 < reader.next := by
    have nonempty := List.length_pos_iff.mpr started
    omega
  obtain ⟨ring, moves, rfl⟩ := onEcho_eq_some.mp steps
  obtain ⟨expected, consumedAfter⟩ := pops.consumed.overwrite begun content
  cases moves.symm.trans expected
  refine ⟨consumedAfter, pops.sessionAt.mono le_rfl, ?_, pops.popped, count, pops.committed, ?_⟩
  · intro place
    simp only [Disruptor.Ring.overwritten_buffer,
      Disruptor.Ring.setEntry_buffer, Function.update_apply]
    split
    · exact length
    · exact pops.length place
  · intro message standing
    obtain ⟨sequence, holds, entry⟩ := pops.committing message standing
    refine ⟨sequence, holds, ?_⟩
    simp only [Disruptor.Ring.overwritten_buffer, Disruptor.Ring.setEntry_buffer]
    rw [Function.update_of_ne (Consumed.held_apart pops.consumed begun holds)]
    exact entry

theorem EchoPops.sessionStep_enabled : state.sessionStep.isSome := by
  have consumed := pops.consumed
  have sessionAt := pops.sessionAt
  unfold PopQueues.sessionStep
  cases standing : state.session with
  | outside =>
    rw [standing] at sessionAt
    have last : state.echoN - 1 + 1 = reader.next := by
      have number := sessionAt.1
      have positive := consumed.next_pos
      omega
    simp [onEcho, (Consumed.releases consumed last).1]
  | looking n =>
    by_cases readable : reader.next ≤ state.echo.maxReadCursor
    · simp [onEcho, (consumed.look readable).1]
    · simp [onEcho, consumed.look_idle (Nat.lt_of_not_le readable)]
  | limiting n =>
    rw [standing] at sessionAt
    simp [onEcho, (consumed.limit sessionAt.2.2.2.1).1]
  | reading n =>
    rw [standing] at sessionAt
    simp [onEcho, (consumed.read sessionAt.2.2.2).1]

end

end Echo

def InOrder (state : PopQueues) : Prop :=
  (∃ reader, DeltaPops state reader) ∧ ∃ reader, EchoPops state reader

theorem InOrder.step {action : PopAction} (inOrder : InOrder state)
    (guarded : action.lockfree = false) (steps : state.step action = some next) : InOrder next := by
  obtain ⟨⟨deltaReader, deltaPops⟩, echoReader, echoPops⟩ := inOrder
  cases action with
  | splitter input =>
    exact ⟨⟨deltaReader, deltaPops.splitterStep steps⟩, echoReader, echoPops.splitterStep steps⟩
  | pop thread =>
    exact ⟨deltaPops.popStep steps, echoReader, echoPops.popStep steps⟩
  | sessionPop =>
    exact ⟨⟨deltaReader, deltaPops.sessionStep steps⟩, echoPops.sessionStep steps⟩
  | inSitu content =>
    obtain ⟨⟨-, started, length⟩, rest⟩ := Option.ite_none_right_eq_some.mp steps
    refine ⟨⟨deltaReader, ?_⟩, echoReader, echoPops.inSitu started length rest⟩
    obtain ⟨ring, -, rfl⟩ := onEcho_eq_some.mp rest
    exact deltaPops.elsewhere (deltaPops.blocks.kept rfl rfl rfl rfl fun _ _ => rfl)
  | popper k action => cases guarded

theorem EchoPops.last_kept {reader : Reader (List UInt8)}
    (pops : EchoPops state reader) {input : SplitterInput}
    (outside : state.session = .outside) (started : state.sessionPopped ≠ [])
    (steps : state.splitterStep input = some next) :
    next.echo.buffer (echoConfig.index (state.echoN - 1)) =
      state.echo.buffer (echoConfig.index (state.echoN - 1)) := by
  have sessionAt := pops.sessionAt
  rw [outside] at sessionAt
  have begun : 1 < reader.next := by
    have count := pops.count
    have nonempty := List.length_pos_iff.mpr started
    omega
  rw [sessionAt.1]
  cases splitterStep_moves steps with
  | asksDelta | scansDelta | fills | delivers | awaitsDelta | commitsDelta => rfl
  | asksEcho standing moves | scansEcho standing moves
  | awaitsEcho standing moves | commitsEcho standing moves =>
    exact congrFun (publish_buffer (publisherMove_of_step moves) nofun) _
  | @deliversSession total message content written ring standing holds length offset fits moves =>
      obtain ⟨sequence, holding, -⟩ := echoEntry_holding holds
      have held : (state.echo.publishers 0).held = some sequence := by
        rw [holding]
        rfl
      simp only [Disruptor.step, holding, publisherStep, Option.some.injEq] at moves
      rw [← moves]
      exact Function.update_of_ne (Consumed.held_apart pops.consumed begun held).symm _ _

/-- The pops return the committed messages in their order, the block of an
application message is its own, and the message that `session_pop` returned stays
until the next call.  No thread gets stuck in a pop. -/
theorem pops_return_committed (actions : List PopAction) {state : PopQueues}
    (guarded : ∀ action ∈ actions, action.lockfree = false)
    (runs : run step init actions = some state) :
    state.popped.map Prod.snd <+: state.deltaCommitted ∧
      state.sessionPopped <+: state.echoCommitted ∧
      (state.deltaCommitted.map DeltaContent.data).Nodup ∧
      (∀ message ∈ state.deltaCommitted, message.data ≠ none) ∧
      (∀ input next, state.session = .outside → state.sessionPopped ≠ [] →
        state.splitterStep input = some next →
        next.echo.buffer (echoConfig.index (state.echoN - 1)) =
          state.echo.buffer (echoConfig.index (state.echoN - 1))) ∧
      (∀ thread, state.guard = none ∨ state.guard = some thread →
        (state.popStep thread).isSome) ∧
      state.sessionStep.isSome := by
  have inOrder : InOrder state :=
    run_invariant_guarded InOrder (fun _ action => action.lockfree = false)
      InOrder.step ⟨⟨_, .init⟩, _, .init⟩
      (guarded_of_forall fun action member _ => guarded action member) runs
  obtain ⟨⟨deltaReader, deltaPops⟩, echoReader, echoPops⟩ := inOrder
  refine ⟨?_, ?_, deltaPops.blocks.distinct, ?_, ?_, ?_, ?_⟩
  · rw [deltaPops.popped, deltaPops.committed]
    exact committedTo_mono deltaPops.popped_le
  · rw [echoPops.popped, echoPops.committed]
    exact (committedTo_mono echoPops.popped_le).map readEcho
  · intro message member
    obtain ⟨block, -, data⟩ := deltaPops.blocks.allocated message member
    rw [data]
    exact nofun
  · intro input next outside started steps
    exact echoPops.last_kept outside started steps
  · intro thread enters
    exact deltaPops.popStep_enabled enters
  · exact echoPops.sessionStep_enabled

/-- The splitter gets its first entries and commits an application message, thread
5 takes it, the splitter commits a session message, and the session thread takes
that. -/
def firstPops : List PopAction :=
  List.replicate 13 (PopAction.splitter .go) ++
  [PopAction.splitter (.fill 40), .splitter (.deliver 16), .splitter .go, .splitter .go] ++
  List.replicate 9 (PopAction.pop 5) ++
  List.replicate 10 (PopAction.splitter .go) ++
  [PopAction.splitter (.fill 3),
    .splitter (.deliverSession ⟨1, [7, 8, 9]⟩), .splitter .go,
    .splitter .go] ++
  List.replicate 4 PopAction.sessionPop

theorem pops_return_first :
    ∃ state, run step init firstPops = some state ∧
      state.popped = [(5, ⟨40, 16, some 0⟩)] ∧
      state.sessionPopped = [⟨1, [7, 8, 9]⟩] ∧
      state.popped.map Prod.snd <+: state.deltaCommitted ∧
      state.sessionPopped <+: state.echoCommitted := by
  have evaluated : (run step init firstPops).map
      (fun state => (state.popped, state.sessionPopped)) =
      some ([(5, ⟨40, 16, some 0⟩)], [⟨1, [7, 8, 9]⟩]) := by
    decide +kernel
  obtain ⟨state, runs, seen⟩ := Option.map_eq_some_iff.mp evaluated
  obtain ⟨application, session, -⟩ :=
    pops_return_committed firstPops (by decide) runs
  exact ⟨state, runs, congrArg Prod.fst seen, congrArg Prod.snd seen,
    application, session⟩

end PopQueues

end MercuryFix
