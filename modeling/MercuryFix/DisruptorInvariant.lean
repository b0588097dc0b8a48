import MercuryFix.DisruptorMoves

/-!
# Invariants of the ring buffer

These hold in every state that the ring buffer can reach, whatever the entry
processors do about their registration.  An entry keeps its content until a
publisher comes a whole round behind it.
-/

namespace MercuryFix

namespace Disruptor

variable {Content : Type} {config : Config} {ring next : Ring Content}

section Index

theorem Config.capacity_pos (config : Config) : 0 < config.capacity :=
  Nat.two_pow_pos config.exponent

theorem Config.index_eq_mod (config : Config) (sequence : Nat) :
    config.index sequence = sequence % config.capacity := by
  rw [index, reducedSize, capacity, Nat.and_comm, Nat.and_two_pow_sub_one_eq_mod]

theorem Config.index_ne {first second : Nat} (before : first < second)
    (near : second < first + config.capacity) :
    config.index second ≠ config.index first := by
  rw [config.index_eq_mod, config.index_eq_mod]
  intro same
  have divides : config.capacity ∣ second - first :=
    Nat.dvd_of_mod_eq_zero (Nat.sub_mod_eq_zero_of_mod_eq same)
  have large : config.capacity ≤ second - first := Nat.le_of_dvd (by omega) divides
  omega

end Index

structure ReaderOk (ring : Ring Content) (reader : Reader Content) : Prop where
  cursor : ∃ cursor, ring.entryProcessorCursors reader.spot = some cursor ∧
    (protectedFrom cursor ≤ reader.start ∨ protectedFrom cursor < reader.next)
  positive : 1 ≤ reader.start
  ordered : reader.start ≤ reader.next
  limit : reader.limit ≤ ring.maxReadCursor
  available : reader.next ≤ reader.start ∨ reader.next ≤ ring.maxReadCursor + 1

def ProcessorOk (ring : Ring Content) : Processor Content → Prop
  | .checking n => ring.entryProcessorCursors n ≠ none
  | .storing n => ring.entryProcessorCursors n = some 0
  | .reading reader => ReaderOk ring reader
  | _ => True

def Fresh (config : Config) (ring : Ring Content) (sequence : Nat) : Prop :=
  ring.maxReadCursor < sequence + config.capacity ∧
    ∀ p other, (ring.publishers p).held = some other → other < sequence + config.capacity

/-- The invariant of the ring buffer. -/
structure Sound (config : Config) (ring : Ring Content) : Prop where
  readable : ring.maxReadCursor ≤ ring.writeCursor
  spots : ∀ n, ring.entryProcessorCursors n ≠ none → n < config.spots
  claimed : ∀ p sequence, (ring.publishers p).claimed = some sequence →
    ring.maxReadCursor < sequence ∧ sequence ≤ ring.writeCursor
  distinct : ∀ p q sequence, (ring.publishers p).claimed = some sequence →
    (ring.publishers q).claimed = some sequence → p = q
  adding : ∀ p sequence, ring.publishers p = .adding sequence → sequence = ring.maxReadCursor + 1
  processors : ∀ q, ProcessorOk ring (ring.processors q)
  owners : ∀ q r n, (ring.processors q).owned = some n → (ring.processors r).owned = some n → q = r
  entries : ∀ sequence, 1 ≤ sequence → sequence ≤ ring.maxReadCursor →
    Fresh config ring sequence →
    ring.buffer (config.index sequence) = ring.contents sequence

theorem Sound.readerOk {ring : Ring Content} (sound : Sound config ring) {q : Nat}
    {reader : Reader Content} (reading : ring.processors q = .reading reader) :
    ReaderOk ring reader := by
  have processorOk := sound.processors q
  rwa [reading] at processorOk

theorem Sound.init (zero : Content) : Sound config (Ring.init zero) where
  readable := le_rfl
  spots := by simp [Ring.init]
  claimed := by simp [Ring.init, Publisher.claimed]
  distinct := by simp [Ring.init, Publisher.claimed]
  adding := by simp [Ring.init]
  processors := fun _ => trivial
  owners := by simp [Ring.init, Processor.owned]
  entries := by
    intro sequence positive readable
    simp only [Ring.init] at readable
    omega

theorem ProcessorOk.cursor_of_owned {state : Processor Content} {n : Nat}
    (ok : ProcessorOk ring state) (owns : state.owned = some n) :
    ring.entryProcessorCursors n ≠ none := by
  cases state <;> cases owns
  case checking => exact ok
  case storing =>
    rw [show ring.entryProcessorCursors n = some 0 from ok]
    simp
  case reading reader =>
    obtain ⟨cursor, present, _⟩ := ReaderOk.cursor ok
    rw [present]
    simp

theorem ProcessorOk.mono {state : Processor Content} (ok : ProcessorOk ring state)
    (same : ∀ n, state.owned = some n → next.entryProcessorCursors n = ring.entryProcessorCursors n)
    (grows : ring.maxReadCursor ≤ next.maxReadCursor) :
    ProcessorOk next state := by
  cases state with
  | checking n => simpa only [ProcessorOk, same n rfl] using ok
  | storing n => simpa only [ProcessorOk, same n rfl] using ok
  | reading reader =>
    obtain ⟨cursor, positive, ordered, limit, available⟩ : ReaderOk ring reader := ok
    refine ⟨?_, positive, ordered, by omega, by omega⟩
    rwa [same reader.spot rfl]
  | _ => trivial

section Publishers

variable {p : Nat}

theorem Sound.turn {slowest writeCursor : Nat} {after : Publisher} (sound : Sound config ring)
    (turns : Turn config ring (ring.publishers p) writeCursor after) :
    Sound config ({ ring with
      slowestEntryProcessor := slowest
      writeCursor := writeCursor }.setPublisher p after) := by
  have grows := turns.grows
  -- A new claim lies above the write cursor, so nobody has claimed it before.
  have fresh {q sequence : Nat} (other : q ≠ p) (claims : after.claimed = some sequence)
      (same : (ring.publishers q).claimed = some sequence) : False := by
    rcases turns.claimed sequence claims with old | ⟨rfl, _⟩
    · exact other (sound.distinct q p sequence same old)
    · have bound := (sound.claimed q _ same).2
      omega
  refine ⟨?_, sound.spots, ?_, ?_, ?_, ?_, sound.owners, ?_⟩
  · have readable := sound.readable
    simp only [Ring.setPublisher_maxReadCursor, Ring.setPublisher_writeCursor]
    omega
  · intro q sequence claims
    simp only [Ring.setPublisher_publishers, Function.update_apply] at claims
    simp only [Ring.setPublisher_maxReadCursor, Ring.setPublisher_writeCursor]
    have readable := sound.readable
    split_ifs at claims with same
    · rcases turns.claimed sequence claims with old | new
      · have bounds := sound.claimed p sequence old
        omega
      · omega
    · have bounds := sound.claimed q sequence claims
      omega
  · intro q r sequence first second
    simp only [Ring.setPublisher_publishers, Function.update_apply] at first second
    split_ifs at first second with atQ atR atR
    · rw [atQ, atR]
    · exact (fresh atR first second).elim
    · exact (fresh atQ second first).elim
    · exact sound.distinct q r sequence first second
  · intro q sequence adds
    simp only [Ring.setPublisher_publishers, Function.update_apply] at adds
    split_ifs at adds
    · exact turns.adding sequence adds
    · exact sound.adding q sequence adds
  · intro q
    exact (sound.processors q).mono (fun _ _ => rfl) le_rfl
  · intro sequence positive readable untouched
    apply sound.entries sequence positive readable
    refine ⟨untouched.1, fun q other holds => ?_⟩
    apply untouched.2 q other
    simp only [Ring.setPublisher_publishers, Function.update_apply]
    split_ifs with same
    · exact turns.held other (same ▸ holds)
    · exact holds

theorem Sound.write {sequence : Nat} {content : Content} (sound : Sound config ring)
    (holds : ring.publishers p = .holding sequence) :
    Sound config (ring.setEntry config sequence content) := by
  refine ⟨sound.readable, sound.spots, sound.claimed, sound.distinct,
    sound.adding, fun q => (sound.processors q).mono (fun _ _ => rfl) le_rfl,
    sound.owners, ?_⟩
  intro other positive readable untouched
  have held : (ring.publishers p).held = some sequence := by
    rw [holds]
    rfl
  have near := untouched.2 p sequence held
  have above := (sound.claimed p sequence (Publisher.claimed_of_held held)).1
  have apart : config.index other ≠ config.index sequence :=
    (config.index_ne (lt_of_le_of_lt readable above) near).symm
  simp only [Ring.setEntry_buffer, Ring.setEntry_contents]
  rw [Function.update_of_ne apart]
  exact sound.entries other positive readable untouched

theorem Sound.commit {sequence : Nat} (sound : Sound config ring)
    (adds : ring.publishers p = .adding sequence) :
    Sound config ({ ring with
      maxReadCursor := ring.maxReadCursor + 1
      committed := Function.update ring.committed sequence (ring.buffer (config.index sequence))
      contents := Function.update ring.contents sequence
        (ring.buffer (config.index sequence)) }.setPublisher p .idle) := by
  have held : (ring.publishers p).held = some sequence := by
    rw [adds]
    rfl
  have claims := Publisher.claimed_of_held held
  have following := sound.adding p sequence adds
  have bounds := sound.claimed p sequence claims
  -- The sequence number of any other publisher lies above the committed one.
  have above {q other : Nat} (apart : q ≠ p)
      (claimsOther : (ring.publishers q).claimed = some other) :
      ring.maxReadCursor + 1 < other ∧ other ≤ ring.writeCursor := by
    have lower := sound.claimed q other claimsOther
    have different : other ≠ sequence := by
      rintro rfl
      exact apart (sound.distinct q p other claimsOther claims)
    omega
  refine ⟨?_, sound.spots, ?_, ?_, ?_, ?_, sound.owners, ?_⟩
  · simp only [Ring.setPublisher_maxReadCursor, Ring.setPublisher_writeCursor]
    omega
  · intro q other claimsOther
    simp only [Ring.setPublisher_publishers, Function.update_apply] at claimsOther
    split_ifs at claimsOther with same
    · cases claimsOther
    · exact above same claimsOther
  · intro q r other first second
    simp only [Ring.setPublisher_publishers, Function.update_apply] at first second
    split_ifs at first second
    · cases first
    · cases first
    · cases second
    · exact sound.distinct q r other first second
  · intro q other addsOther
    simp only [Ring.setPublisher_publishers, Function.update_apply] at addsOther
    split_ifs at addsOther with same
    have higher := above same (by rw [addsOther]; rfl)
    have equal := sound.adding q other addsOther
    omega
  · intro q
    exact (sound.processors q).mono (fun _ _ => rfl) (Nat.le_succ _)
  · intro other positive readable untouched
    simp only [Ring.setPublisher_maxReadCursor] at readable
    simp only [Ring.setPublisher_buffer, Ring.setPublisher_contents]
    rcases eq_or_ne other sequence with rfl | different
    · rw [Function.update_self]
    · rw [Function.update_of_ne different]
      have window := untouched.1
      simp only [Ring.setPublisher_maxReadCursor] at window
      apply sound.entries other positive (by omega)
      refine ⟨by omega, fun q later holds => ?_⟩
      rcases eq_or_ne q p with rfl | apart
      · have same : later = sequence := by simpa [held] using holds.symm
        omega
      · apply untouched.2 q later
        simpa only [Ring.setPublisher_publishers, Function.update_of_ne apart] using holds

theorem Sound.publish {action : PublisherAction Content} (sound : Sound config ring)
    (moves : PublisherMove config ring p action next) : Sound config next := by
  cases moves with
  | turn slowest writeCursor acquires turns => exact sound.turn turns
  | write holds => exact sound.write holds
  | commit adds => exact sound.commit adds

section Moves

variable {action : PublisherAction Content}

section

variable (moves : PublisherMove config ring p action next)
include moves

theorem PublisherMove.processors_eq : next.processors = ring.processors := by
  cases moves <;> rfl

theorem PublisherMove.cursors_eq : next.entryProcessorCursors = ring.entryProcessorCursors := by
  cases moves <;> rfl

theorem PublisherMove.maxReadCursor_le : ring.maxReadCursor ≤ next.maxReadCursor := by
  cases moves with
  | turn | write => exact le_rfl
  | commit => exact Nat.le_succ _

theorem PublisherMove.committed_eq {sequence : Nat} (sound : Sound config ring)
    (readable : sequence ≤ ring.maxReadCursor) :
    next.committed sequence = ring.committed sequence := by
  cases moves with
  | turn | write => rfl
  | @commit committed adds =>
    have following := sound.adding p committed adds
    exact Function.update_of_ne (by omega) _ _

theorem PublisherMove.contents_eq {sequence : Nat} (sound : Sound config ring)
    (readable : sequence ≤ ring.maxReadCursor) :
    next.contents sequence = ring.contents sequence := by
  cases moves with
  | turn | write => rfl
  | @commit committed adds =>
    have following := sound.adding p committed adds
    exact Function.update_of_ne (by omega) _ _

end

end Moves

end Publishers

section Processors

variable {q : Nat}

theorem Sound.process_update {n : Nat} {cursor : Option Nat}
    {after : Processor Content} (sound : Sound config ring)
    (owns : (ring.processors q).owned = some n ∨
      ring.entryProcessorCursors n = none ∧ n < config.spots)
    (owned : after.owned = some n ∨ after.owned = none)
    (ok : ProcessorOk (ring.setCursor n cursor) after) :
    Sound config ((ring.setCursor n cursor).setProcessor q after) := by
  -- Nobody else owns the spot.
  have others {r m : Nat} (other : r ≠ q)
      (ownsOther : (ring.processors r).owned = some m) : m ≠ n := by
    rintro rfl
    rcases owns with own | vacant
    · exact other (sound.owners r q m ownsOther own)
    · exact (sound.processors r).cursor_of_owned ownsOther vacant.1
  refine ⟨sound.readable, ?_, sound.claimed, sound.distinct, sound.adding, ?_, ?_, sound.entries⟩
  · intro m present
    rcases eq_or_ne m n with rfl | apart
    · rcases owns with own | vacant
      · exact sound.spots m ((sound.processors q).cursor_of_owned own)
      · exact vacant.2
    · apply sound.spots m
      simpa [apart] using present
  · intro r
    simp only [Ring.setProcessor_processors, Function.update_apply]
    split_ifs with same
    · exact ok.mono (fun _ _ => rfl) le_rfl
    · refine (sound.processors r).mono (fun m ownsOther => ?_) (le_refl ring.maxReadCursor)
      exact Function.update_of_ne (others same ownsOther) _ _
  · intro r s m first second
    simp only [Ring.setProcessor_processors, Function.update_apply] at first second
    split_ifs at first second with atR atS atS
    · rw [atR, atS]
    · rcases owned with own | free
      · rw [own] at first
        exact (others atS second (Option.some.inj first).symm).elim
      · rw [free] at first
        cases first
    · rcases owned with own | free
      · rw [own] at second
        exact (others atR first (Option.some.inj second).symm).elim
      · rw [free] at second
        cases second
    · exact sound.owners r s m first second

theorem Ring.setProcessor_self {state : Processor Content}
    (stands : ring.processors q = state) : ring.setProcessor q state = ring := by
  rw [Ring.setProcessor, ← stands, Function.update_eq_self]

theorem Sound.process_state {after : Processor Content} (sound : Sound config ring)
    (owned : after.owned = (ring.processors q).owned ∨ after.owned = none)
    (ok : ProcessorOk ring after) :
    Sound config (ring.setProcessor q after) := by
  refine ⟨sound.readable, sound.spots, sound.claimed, sound.distinct,
    sound.adding, ?_, ?_, sound.entries⟩
  · intro r
    simp only [Ring.setProcessor_processors, Function.update_apply]
    split_ifs
    · exact ok.mono (fun _ _ => rfl) le_rfl
    · exact (sound.processors r).mono (fun _ _ => rfl) le_rfl
  · intro r s m first second
    have before {t : Nat} (owns : ((ring.setProcessor q after).processors
        t).owned = some m) : (ring.processors t).owned = some m := by
      simp only [Ring.setProcessor_processors, Function.update_apply] at owns
      split_ifs at owns with same
      · rcases owned with own | free
        · rw [same, ← own, owns]
        · rw [free] at owns
          cases owns
      · exact owns
    exact sound.owners r s m (before first) (before second)

theorem Sound.overwrite {reader : Reader Content} {content : Content} (sound : Sound config ring)
    (reading : ring.processors q = .reading reader) (started : reader.start < reader.next)
    (fresh : Fresh config ring (reader.next - 1)) :
    Sound config { ring.setEntry config (reader.next - 1) content with
      contents := Function.update ring.contents (reader.next - 1) content } := by
  refine ⟨sound.readable, sound.spots, sound.claimed, sound.distinct,
    sound.adding, fun r => (sound.processors r).mono (fun _ _ => rfl) le_rfl,
    sound.owners, ?_⟩
  intro other positive readable untouched
  have ok := sound.readerOk reading
  have available := ok.available
  have window := fresh.1
  have otherWindow : ring.maxReadCursor < other + config.capacity := untouched.1
  change other ≤ ring.maxReadCursor at readable
  change Function.update ring.buffer _ content _ = Function.update ring.contents _ content other
  rcases lt_trichotomy other (reader.next - 1) with before | same | behind
  · have apart : config.index other ≠ config.index (reader.next - 1) :=
      (config.index_ne before (by omega)).symm
    rw [Function.update_of_ne apart, Function.update_of_ne before.ne]
    exact sound.entries other positive readable untouched
  · rw [same, Function.update_self, Function.update_self]
  · have apart : config.index other ≠ config.index (reader.next - 1) :=
      config.index_ne behind (by omega)
    rw [Function.update_of_ne apart, Function.update_of_ne behind.ne']
    exact sound.entries other positive readable untouched

def Careful (config : Config) (ring : Ring Content) : Action Content → Prop
  | .process q (.overwrite _) => ∀ reader, ring.processors q = .reading reader →
      Fresh config ring (reader.next - 1)
  | _ => True

theorem Sound.process {action : ProcessorAction Content} (sound : Sound config ring)
    (careful : Careful config ring (.process q action))
    (moves : ProcessorMove config ring q action next) : Sound config next := by
  cases moves with
  | @passes _ after acts before free loads =>
    apply sound.process_state (.inr free)
    cases after <;> trivial
  | registers swapping spot vacant =>
    apply sound.process_update (.inr ⟨vacant, spot⟩) (.inl rfl)
    simp [ProcessorOk]
  | checks checking cursor =>
    apply sound.process_state
    · left
      rw [checking]
      rfl
    · exact cursor
  | @begins n start checking cursor =>
    apply sound.process_state
    · left
      rw [checking]
      rfl
    · refine ⟨⟨start + 1, cursor, .inl ?_⟩, ?_, le_rfl, Nat.zero_le _, .inl le_rfl⟩
      · simp [protectedFrom, Reader.begin]
      · simp [Reader.begin]
  | @stores n storing =>
    apply sound.process_update
    · left
      rw [storing]
      rfl
    · exact .inl rfl
    · refine ⟨⟨1, ?_, .inl ?_⟩, le_rfl, le_rfl, Nat.zero_le _, .inl le_rfl⟩
      · simp [Reader.begin]
      · simp [protectedFrom, Reader.begin]
  | waits limit sighted acts reading bound =>
    obtain ⟨cursor, positive, ordered, limitOld, available⟩ := sound.readerOk reading
    apply sound.process_state
    · left
      rw [reading]
      rfl
    · refine ⟨cursor, positive, ordered, ?_, available⟩
      rcases bound with rfl | rfl
      · exact limitOld
      · exact le_rfl
  | @reads reader reading readable =>
    obtain ⟨⟨cursor, present, bound⟩, positive, ordered, limit, available⟩ := sound.readerOk reading
    apply sound.process_state
    · left
      rw [reading]
      rfl
    · refine ⟨⟨cursor, present, ?_⟩, positive, ?_, limit, .inr ?_⟩
      · exact bound.imp_right Nat.lt_succ_of_lt
      · exact Nat.le_succ_of_le ordered
      · change reader.next + 1 ≤ ring.maxReadCursor + 1
        omega
  | overwrites reading started =>
    exact sound.overwrite reading started (careful _ reading)
  | @releases reader cursor sequence reading cursorAt grows readBefore =>
    have owns : (ring.processors q).owned = some reader.spot := by
      rw [reading]
      rfl
    obtain ⟨_, positive, ordered, limit, available⟩ := sound.readerOk reading
    have stays : (ring.setCursor reader.spot (some sequence)).setProcessor q
        (.reading reader) = ring.setCursor reader.spot (some sequence) :=
      Ring.setProcessor_self reading
    rw [← stays]
    apply sound.process_update (.inl owns) (.inl rfl)
    refine ⟨⟨sequence, ?_, ?_⟩, positive, ordered, limit, available⟩
    · simp
    · unfold protectedFrom
      omega
  | unregisters reading =>
    apply sound.process_update
    · left
      rw [reading]
      rfl
    · exact .inr rfl
    · trivial

end Processors

theorem Sound.step {action : Action Content} (sound : Sound config ring)
    (careful : Careful config ring action)
    (steps : step config ring action = some next) : Sound config next := by
  cases action with
  | publish p action => exact sound.publish (publisherMove_of_step steps)
  | process q action => exact sound.process careful (processorMove_of_step steps)

end Disruptor

end MercuryFix
