import MercuryFix.DisruptorProtection
import Mathlib.Data.List.Range

/-!
# What entry processors read

An entry processor with a shielded spot reads, one after the other, what was
committed under the sequence numbers from its first one on.  Here nobody
overwrites entries.
-/

namespace MercuryFix

namespace Disruptor

variable {Content : Type} {config : Config} {ring next : Ring Content}

def committedFrom (ring : Ring Content) (start next : Nat) :
    List (Nat × Content) :=
  (List.range' start (next - start)).map fun sequence =>
    (sequence, ring.committed sequence)

def Faithful (ring : Ring Content) (reader : Reader Content) : Prop :=
  reader.history = committedFrom ring reader.start reader.next

/-- The first sequence number that an owner of a spot is going to read. -/
def StartsAt (ring : Ring Content) (start : Nat) : Processor Content → Prop
  | .checking n => ∃ cursor, ring.entryProcessorCursors n = some cursor ∧
      protectedFrom cursor = start
  | .storing _ => start = 1
  | .reading reader => reader.start = start
  | _ => False

/-- No entry has been changed since it was committed. -/
def Untouched (ring : Ring Content) : Prop := ring.contents = ring.committed

/-- The action does not overwrite an entry on behalf of an entry processor. -/
def Action.LeavesEntries : Action Content → Prop
  | .process _ (.overwrite _) => False
  | _ => True

structure Served (config : Config) (ring : Ring Content) (q : Nat) : Prop where
  shielded : ∀ n, (ring.processors q).owned = some n → Shielded config ring n
  faithful : ∀ reader, ring.processors q = .reading reader → Faithful ring reader

theorem Action.LeavesEntries.careful {action : Action Content}
    (leaves : action.LeavesEntries) : Careful config ring action := by
  unfold Careful
  split
  · exact leaves.elim
  · trivial

theorem committedFrom_self (ring : Ring Content) (start : Nat) :
    committedFrom ring start start = [] := by
  rw [committedFrom, Nat.sub_self]
  rfl

theorem committedFrom_succ {start last : Nat} (ordered : start ≤ last) :
    committedFrom ring start (last + 1) =
      committedFrom ring start last ++ [(last, ring.committed last)] := by
  have length : last + 1 - start = last - start + 1 := by omega
  have behind : start + (last - start) = last := by omega
  rw [committedFrom, length, List.range'_1_concat, List.map_append, behind]
  rfl

theorem committedFrom_congr {start last : Nat}
    (same : ∀ sequence, start ≤ sequence → sequence < last →
      next.committed sequence = ring.committed sequence) :
    committedFrom next start last = committedFrom ring start last := by
  apply List.map_congr_left
  intro sequence member
  rw [List.mem_range'_1] at member
  rw [same sequence member.1 (by omega)]

section Publishers

variable {p : Nat} {action : PublisherAction Content}

theorem PublisherMove.untouched (moves : PublisherMove config ring p action next)
    (untouched : Untouched ring) : Untouched next := by
  cases moves with
  | turn | write => exact untouched
  | @commit committed adds =>
    change Function.update ring.contents committed _ = Function.update ring.committed committed _
    rw [show ring.contents = ring.committed from untouched]

end Publishers

section Processors

variable {q r : Nat} {action : ProcessorAction Content}

section

variable (moves : ProcessorMove config ring q action next)
include moves

theorem ProcessorMove.other_eq (other : r ≠ q) : next.processors r = ring.processors r := by
  cases moves <;> first | rfl | exact Function.update_of_ne other _ _

theorem ProcessorMove.committed_eq : next.committed = ring.committed := by
  cases moves <;> rfl

theorem ProcessorMove.contents_eq (leaves : (Action.process q action).LeavesEntries) :
    next.contents = ring.contents := by
  cases moves <;> first | rfl | exact leaves.elim

theorem ProcessorMove.owned_before {n : Nat} (owns : (next.processors q).owned = some n) :
    (ring.processors q).owned = some n ∨
      action = .swap false ∧ ring.entryProcessorCursors n = none := by
  cases moves with
  | passes acts before free =>
    simp only [Ring.setProcessor_processors, Function.update_self] at owns
    rw [free] at owns
    cases owns
  | registers swapping spot vacant =>
    simp only [Ring.setProcessor_processors, Function.update_self] at owns
    cases owns
    exact .inr ⟨rfl, vacant⟩
  | overwrites => exact .inl owns
  | releases => exact .inl owns
  | unregisters =>
    simp only [Ring.setProcessor_processors, Function.update_self] at owns
    cases owns
  | checks standing | begins standing | stores standing | reads standing =>
    simp only [Ring.setProcessor_processors, Function.update_self] at owns
    left
    rw [standing]
    exact owns
  | waits limit sighted acts standing =>
    simp only [Ring.setProcessor_processors, Function.update_self] at owns
    left
    rw [standing]
    exact owns

theorem ProcessorMove.cursor_eq {n : Nat} (sound : Sound config ring) (other : r ≠ q)
    (owns : (ring.processors r).owned = some n) :
    next.entryProcessorCursors n = ring.entryProcessorCursors n := by
  have apart {m : Nat} (own : (ring.processors q).owned = some m) : n ≠ m := by
    rintro rfl
    exact other (sound.owners r q n owns own)
  cases moves with
  | passes | checks | begins | waits | reads | overwrites => rfl
  | registers swapping spot vacant =>
    apply Function.update_of_ne
    rintro rfl
    exact (sound.processors r).cursor_of_owned owns vacant
  | stores standing =>
    exact Function.update_of_ne (apart (by rw [standing]; rfl)) _ _
  | releases standing =>
    exact Function.update_of_ne (apart (by rw [standing]; rfl)) _ _
  | unregisters standing =>
    exact Function.update_of_ne (apart (by rw [standing]; rfl)) _ _

theorem ProcessorMove.faithful {reader : Reader Content} (sound : Sound config ring)
    (untouched : Untouched ring) (served : Served config ring q)
    (reading : next.processors q = .reading reader) : Faithful ring reader := by
  cases moves with
  | passes acts before free =>
    simp only [Ring.setProcessor_processors, Function.update_self] at reading
    rw [reading] at free
    cases free
  | registers | checks | unregisters =>
    simp only [Ring.setProcessor_processors, Function.update_self] at reading
    cases reading
  | begins | stores =>
    simp only [Ring.setProcessor_processors, Function.update_self] at reading
    cases reading
    exact (committedFrom_self ring _).symm
  | @waits _ before limit sighted acts standing =>
    simp only [Ring.setProcessor_processors, Function.update_self] at reading
    cases reading
    exact served.faithful before standing
  | @reads before standing readable =>
    simp only [Ring.setProcessor_processors, Function.update_self] at reading
    cases reading
    obtain ⟨-, -, ordered, limit, -⟩ := sound.readerOk standing
    have shielded := served.shielded before.spot (by rw [standing]; rfl)
    have content := sound.read_content standing shielded (by omega)
    rw [show ring.contents = ring.committed from untouched] at content
    have history := served.faithful before standing
    change before.history ++ _ = committedFrom ring _ (before.next + 1)
    rw [committedFrom_succ ordered, history, content]
  | overwrites standing => exact served.faithful _ reading
  | releases standing => exact served.faithful _ reading

end

end Processors

section Steps

variable {q : Nat} {action : Action Content}

theorem Untouched.step (untouched : Untouched ring) (leaves : action.LeavesEntries)
    (steps : step config ring action = some next) : Untouched next := by
  cases action with
  | publish p action =>
    exact (publisherMove_of_step steps).untouched untouched
  | process q action =>
    have moves := processorMove_of_step steps
    rw [Untouched, moves.contents_eq leaves, moves.committed_eq]
    exact untouched

theorem Served.step (served : Served config ring q)
    (sound : Sound config ring) (untouched : Untouched ring)
    (steps : step config ring action = some next)
    (safe : ∀ n slowest, action = .process q (.swap false) →
      ring.processors q = .swapping n slowest →
      ring.entryProcessorCursors n = none →
      Clear config ring n (protectedFrom slowest)) :
    Served config next q := by
  -- A spot that the processor owns already is not vacant.
  have owned_step {n : Nat} (owns : (ring.processors q).owned = some n) :
      Shielded config next n := by
    apply (served.shielded n owns).step sound steps
    intro r slowest _ _ vacant
    exact ((sound.processors q).cursor_of_owned owns vacant).elim
  cases action with
  | publish p action =>
    have moves := publisherMove_of_step steps
    refine ⟨fun n owns => ?_, fun reader reading => ?_⟩
    · rw [moves.processors_eq] at owns
      exact owned_step owns
    · rw [moves.processors_eq] at reading
      have available := (sound.readerOk reading).available
      have history := served.faithful reader reading
      rw [Faithful, history]
      symm
      apply committedFrom_congr
      intro sequence lower upper
      exact moves.committed_eq sound (by omega)
  | process r action =>
    have moves := processorMove_of_step steps
    have kept {reader : Reader Content} (faithful : Faithful ring reader) :
        Faithful next reader := by
      rw [Faithful, committedFrom, moves.committed_eq]
      exact faithful
    rcases eq_or_ne q r with rfl | other
    · refine ⟨fun n owns => ?_, fun reader reading => ?_⟩
      · rcases moves.owned_before owns with before | ⟨rfl, vacant⟩
        · exact owned_step before
        · have unowned : Shielded config ring n := by
            intro cursor present
            rw [vacant] at present
            cases present
          apply unowned.step sound steps
          rintro r slowest ⟨rfl, _⟩ swapping _
          exact safe n slowest rfl swapping vacant
      · exact kept (moves.faithful sound untouched served reading)
    · refine ⟨fun n owns => ?_, fun reader reading => ?_⟩
      · rw [moves.other_eq other] at owns
        exact owned_step owns
      · rw [moves.other_eq other] at reading
        exact kept (served.faithful reader reading)

theorem StartsAt.step {start : Nat} (starts : StartsAt ring start (ring.processors q))
    (sound : Sound config ring) (stays : action ≠ .process q .unregister)
    (steps : step config ring action = some next) :
    StartsAt next start (next.processors q) := by
  have kept (sameState : next.processors q = ring.processors q)
      (sameCursor : ∀ n, (ring.processors q).owned = some n →
        next.entryProcessorCursors n = ring.entryProcessorCursors n) :
      StartsAt next start (next.processors q) := by
    rw [sameState]
    generalize ring.processors q = state at starts sameCursor
    cases state with
    | checking n => simpa only [StartsAt, sameCursor n rfl] using starts
    | _ => exact starts
  cases action with
  | publish p action =>
    have moves := publisherMove_of_step steps
    apply kept (by rw [moves.processors_eq])
    intro n _
    rw [moves.cursors_eq]
  | process r action =>
    have moves := processorMove_of_step steps
    rcases eq_or_ne q r with rfl | other
    · cases moves with
      | passes acts before free =>
        generalize ring.processors q = state at starts before
        cases state <;> first | exact starts.elim | cases before
      | registers standing =>
        rw [standing] at starts
        exact starts.elim
      | checks standing cursor =>
        rw [standing] at starts
        obtain ⟨found, present, rfl⟩ := starts
        cases cursor.symm.trans present
        simp [StartsAt, protectedFrom]
      | begins standing cursor =>
        rw [standing] at starts
        obtain ⟨found, present, rfl⟩ := starts
        cases cursor.symm.trans present
        simp [StartsAt, protectedFrom, Reader.begin]
      | stores standing =>
        rw [standing] at starts
        cases starts
        simp [StartsAt, Reader.begin]
      | waits limit sighted acts standing =>
        rw [standing] at starts
        simpa [StartsAt] using starts
      | reads standing =>
        rw [standing] at starts
        simpa [StartsAt] using starts
      | overwrites standing =>
        rw [standing] at starts
        simpa [StartsAt, standing] using starts
      | releases standing =>
        rw [standing] at starts
        simpa [StartsAt, standing] using starts
      | unregisters => exact (stays rfl).elim
    · exact kept (moves.other_eq other) fun n owns =>
        moves.cursor_eq sound other owns

end Steps

/-- Nobody holds the place of an entry from `start` on for a later entry, and
every committed one has its content. -/
structure Intact (config : Config) (ring : Ring Content) (start : Nat) :
    Prop where
  held : ∀ p sequence other, start ≤ sequence → sequence < other →
    (ring.publishers p).held = some other →
    config.index other ≠ config.index sequence
  entries : ∀ sequence, start ≤ sequence → sequence ≤ ring.maxReadCursor →
    ring.buffer (config.index sequence) = ring.committed sequence

theorem Served.intact {q n cursor : Nat} (served : Served config ring q)
    (sound : Sound config ring) (untouched : Untouched ring)
    (owns : (ring.processors q).owned = some n)
    (present : ring.entryProcessorCursors n = some cursor) :
    Intact config ring (protectedFrom cursor) := by
  have shielded := served.shielded n owns
  refine ⟨fun p sequence other lower before holds => ?_, fun sequence lower readable => ?_⟩
  · have fresh := shielded.fresh present lower
    exact config.index_ne before (fresh.2 p other holds)
  · have positive := protectedFrom_pos cursor
    rw [← show ring.contents = ring.committed from untouched]
    exact sound.entries sequence (by omega) readable (shielded.fresh present lower)

def registrationActions : List (Action Nat) :=
  [.process 0 .load, .process 0 (.swap false), .process 0 .check, .process 0 .store]

def publicationActions (spots p content : Nat) : List (Action Nat) :=
  .publish p .nextEntryBlocking :: List.replicate (spots + 1) (.publish p .scan) ++
    [.publish p (.write content), .publish p .await, .publish p .commit]

end Disruptor

end MercuryFix
