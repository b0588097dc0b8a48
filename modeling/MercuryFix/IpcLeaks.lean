import MercuryFix.IpcFrames

/-!
# What a frame shows of earlier frames

`vsend_cmd` writes all frames into one static buffer.  A number leaves bytes of its
frame as they were, so that they go out once more.
-/

namespace MercuryFix

open ByteBlock

variable {Double : Type} {ieee : Ieee754 Double}

section Patches

variable {rounds : List Directive} {args : List (Arg Double)}
  {patches : List (Patch UInt8)}

def Directive.Numeric (round : Directive) : Prop :=
  ∃ specifier : Specifier, round.char = some (.specifier specifier) ∧ specifier ≠ .string

theorem patchesOf_specifiers (found : patchesOf ieee rounds args = some patches) :
    (∀ patch ∈ patches, ∃ round ∈ rounds, ∃ specifier arg,
      round.char = some (.specifier specifier) ∧ specifier.patch ieee arg = some patch) ∧
    ∀ round ∈ rounds, ∀ specifier, round.char = some (.specifier specifier) →
      ∃ patch ∈ patches, ∃ arg, specifier.patch ieee arg = some patch := by
  induction rounds generalizing args patches with
  | nil =>
    cases found
    exact ⟨by simp, by simp⟩
  | cons round rounds induction =>
    rcases round with ⟨sign, _ | char⟩
    · cases args <;> cases found
    · cases char with
      | specifier specifier =>
        cases args with
        | nil => cases found
        | cons arg args =>
          rw [patchesOf] at found
          obtain ⟨patch, first, found⟩ := Option.bind_eq_some_iff.mp found
          obtain ⟨others, rest, found⟩ := Option.bind_eq_some_iff.mp found
          cases found
          obtain ⟨fromRounds, fromPatches⟩ := induction rest
          refine ⟨List.forall_mem_cons.mpr ⟨?_, ?_⟩, List.forall_mem_cons.mpr ⟨?_, ?_⟩⟩
          · exact ⟨_, List.mem_cons_self, specifier, arg, rfl, first⟩
          · intro other member
            obtain ⟨round, listed, specified⟩ := fromRounds other member
            exact ⟨round, List.mem_cons_of_mem _ listed, specified⟩
          · intro same charEq
            cases charEq
            exact ⟨patch, List.mem_cons_self, arg, first⟩
          · intro round member same charEq
            obtain ⟨other, listed, specified⟩ := fromPatches round member same charEq
            exact ⟨other, List.mem_cons_of_mem _ listed, specified⟩
      | percent | u | other =>
        obtain ⟨fromRounds, fromPatches⟩ := induction found
        refine ⟨?_, List.forall_mem_cons.mpr ⟨by simp, fromPatches⟩⟩
        intro patch member
        obtain ⟨round, listed, specified⟩ := fromRounds patch member
        exact ⟨round, List.mem_cons_of_mem _ listed, specified⟩

theorem full_of_strings (found : patchesOf ieee rounds args = some patches)
    (strings : ∀ round ∈ rounds, ¬ round.Numeric) :
    ∀ patch ∈ patches, patch.cells.length = patch.span := by
  intro patch member
  obtain ⟨round, listed, specifier, arg, charEq, patched⟩ :=
    (patchesOf_specifiers found).1 patch member
  rw [patch_full_iff patched]
  by_contra number
  exact strings round listed ⟨specifier, charEq, number⟩

theorem gap_of_number {specifier : Specifier} {arg : Arg Double}
    {patch : Patch UInt8} (found : specifier.patch ieee arg = some patch)
    (number : specifier ≠ .string) : patch.cells.length + 1 < patch.span := by
  obtain ⟨positive, ⟨string, -⟩ | ⟨-, wide⟩⟩ := patch_shape found
  · exact absurd string number
  · omega

theorem exists_gap (found : patchesOf ieee rounds args = some patches)
    (numeric : ∃ round ∈ rounds, round.Numeric) :
    ∃ before patch after, patches = before ++ patch :: after ∧
      patch.cells.length + 1 < patch.span := by
  obtain ⟨round, listed, specifier, charEq, number⟩ := numeric
  obtain ⟨patch, member, arg, patched⟩ :=
    (patchesOf_specifiers found).2 round listed specifier charEq
  obtain ⟨before, after, splits⟩ := List.append_of_mem member
  exact ⟨before, patch, after, splits, gap_of_number patched number⟩

end Patches

section Frame

variable {call : IpcCall Double} {len : Nat} {data : List UInt8}
  {marshalled : Marshalled}

theorem marshalData_steered {other : List UInt8} (length : other.length = data.length)
    (returns : marshalData ieee call len data = some marshalled) :
    ∃ next, marshalData ieee call len other = some ⟨marshalled.done, marshalled.count, next⟩ ∧
      marshalled.buf.length = data.length := by
  unfold marshalData at returns ⊢
  split at returns
  · rename_i empty
    cases returns
    exact ⟨other, if_pos empty, rfl⟩
  · rename_i positive
    rw [vmarshal, if_neg positive] at returns
    obtain ⟨next, runs, -, lengthBuf⟩ := vmarshalLoop_steered length returns
    refine ⟨next, ?_, lengthBuf⟩
    rw [if_neg positive, vmarshal, if_neg positive, runs]

def framePatches (ieee : Ieee754 Double) (call : IpcCall Double) (len : Nat) :
    Option (List (Patch UInt8)) :=
  if len = 0 then some [] else patchesOf ieee (directives call.format) call.args

theorem marshalData_laid (room : len ≤ data.length)
    (returns : marshalData ieee call len data = some marshalled) (done : marshalled.done = true) :
    ∃ patches, framePatches ieee call len = some patches ∧ spanOf patches ≤ data.length ∧
      marshalled.buf.take marshalled.count = overlay patches data := by
  unfold marshalData at returns
  unfold framePatches
  split at returns
  · rename_i empty
    cases returns
    exact ⟨[], if_pos empty, Nat.zero_le _, rfl⟩
  · rename_i positive
    rw [vmarshal, if_neg positive] at returns
    obtain ⟨patches, found, countEq, inside, bufEq⟩ :=
      vmarshalLoop_laid room (Nat.zero_le _) returns done
    rw [Nat.zero_add] at countEq inside
    refine ⟨patches, (if_neg positive).trans found, inside, ?_⟩
    rw [bufEq, countEq, List.take_zero, List.nil_append, List.drop_zero,
      List.take_left' (length_overlay _ inside)]

end Frame

section Calls

variable {call : IpcCall Double} {buf : List UInt8}
  {sends : List (Option Nat)} {outcome : IpcOutcome}

theorem length_vsendCmd (length : buf.length = ipcBufferSize)
    (returns : vsendCmd ieee buf call sends = some outcome) :
    outcome.buf.length = ipcBufferSize := by
  have headed : ipcHeaderSize ≤ buf.length := length ▸ by decide
  rw [vsendCmd] at returns
  split at returns
  · cases returns
    exact length
  · obtain ⟨len, -, returns⟩ := Option.bind_eq_some_iff.mp returns
    split at returns
    · cases returns
      exact length
    · rw [sendFrame_eq headed] at returns
      obtain ⟨marshalled, marshals, returns⟩ := Option.bind_eq_some_iff.mp returns
      obtain ⟨-, -, lengthBuf⟩ := marshalData_steered rfl marshals
      have whole : (ipcHeader call.cmd len ++ marshalled.buf).length =
          ipcBufferSize := by
        rw [List.length_append, length_ipcHeader, lengthBuf, List.length_drop, length]
        decide
      split at returns
      · obtain ⟨sent, -, rfl⟩ := Option.map_eq_some_iff.mp returns
        exact whole
      · cases returns
        exact whole

theorem length_calls {history : List (IpcCall Double × List (Option Nat))}
    {start : List UInt8} (length : start.length = ipcBufferSize)
    (runs : history.foldlM (fun buf (call, sends) =>
      (vsendCmd ieee buf call sends).map IpcOutcome.buf) start = some buf) :
    buf.length = ipcBufferSize := by
  induction history generalizing start with
  | nil =>
    cases runs
    exact length
  | cons first history induction =>
    rw [List.foldlM_cons] at runs
    obtain ⟨next, steps, runs⟩ := Option.bind_eq_some_iff.mp runs
    obtain ⟨outcome, called, rfl⟩ := Option.map_eq_some_iff.mp steps
    exact induction (length_vsendCmd length called) runs

theorem length_afterCalls {history : List (IpcCall Double × List (Option Nat))}
    (returns : afterCalls ieee history = some buf) :
    buf.length = ipcBufferSize :=
  length_calls List.length_replicate returns

structure Sent (ieee : Ieee754 Double) (call : IpcCall Double) (buf : List UInt8)
    (wire : List UInt8) (len : Nat) (patches : List (Patch UInt8)) : Prop where
  legal : call.cmd ≠ 0
  size : vmarshalSize call.format call.args = some len
  fits : len ≤ ipcBufferSize - ipcHeaderSize
  found : framePatches ieee call len = some patches
  room : spanOf patches ≤ ipcBufferSize - ipcHeaderSize
  wire_eq : wire = ipcHeader call.cmd len ++ overlay patches (buf.drop ipcHeaderSize)

theorem sent_of_vsendCmd (length : buf.length = ipcBufferSize)
    (returns : vsendCmd ieee buf call sends = some outcome) (success : outcome.returned ≠ 0) :
    ∃ len patches, Sent ieee call buf outcome.wire len patches := by
  have headed : ipcHeaderSize ≤ buf.length := length ▸ by decide
  rw [vsendCmd] at returns
  split at returns
  · cases returns
    exact absurd rfl success
  · rename_i legal
    obtain ⟨len, size, returns⟩ := Option.bind_eq_some_iff.mp returns
    split at returns
    · cases returns
      exact absurd rfl success
    · rename_i fits
      rw [sendFrame_eq headed] at returns
      obtain ⟨marshalled, marshals, returns⟩ := Option.bind_eq_some_iff.mp returns
      have dataLength : (buf.drop ipcHeaderSize).length = ipcBufferSize - ipcHeaderSize := by
        rw [List.length_drop, length]
      split at returns
      · rename_i done
        obtain ⟨patches, found, room, bufEq⟩ :=
          marshalData_laid (dataLength ▸ not_lt.mp fits) marshals done
        obtain ⟨⟨wire, out⟩, sendsAll, rfl⟩ := Option.map_eq_some_iff.mp returns
        have all : out = true := by
          by_contra failed
          exact success (if_neg failed)
        subst all
        refine ⟨len, patches, legal, size, not_lt.mp fits, found, dataLength ▸ room, ?_⟩
        rw [← bufEq]
        exact wire_of_sendAll sendsAll
      · cases returns
        exact absurd rfl success

theorem vsendCmd_elsewhere {other : List UInt8} (length : buf.length = ipcBufferSize)
    (lengthOther : other.length = ipcBufferSize)
    (returns : vsendCmd ieee buf call sends = some outcome) (success : outcome.returned ≠ 0) :
    ∃ sends outcome, vsendCmd ieee other call sends = some outcome ∧ outcome.returned ≠ 0 := by
  have headed : ipcHeaderSize ≤ buf.length := length ▸ by decide
  have headedOther : ipcHeaderSize ≤ other.length := lengthOther ▸ by decide
  obtain ⟨len, patches, legal, size, fits, -, -, -⟩ := sent_of_vsendCmd length returns success
  rw [vsendCmd_of_size legal size fits, sendFrame_eq headed] at returns
  obtain ⟨marshalled, marshals, returns⟩ := Option.bind_eq_some_iff.mp returns
  have lengths : (other.drop ipcHeaderSize).length = (buf.drop ipcHeaderSize).length := by
    rw [List.length_drop, List.length_drop, length, lengthOther]
  obtain ⟨next, marshalsOther, -⟩ := marshalData_steered lengths marshals
  by_cases done : marshalled.done = true
  · have called : vsendCmd ieee other call [some (ipcHeader call.cmd len ++
          next.take marshalled.count).length] =
        some ⟨ipcHeader call.cmd len ++ next, ipcHeader call.cmd len ++ next.take marshalled.count,
          marshalled.count + ipcHeaderSize⟩ := by
      rw [vsendCmd_of_size legal size fits, sendFrame_eq headedOther,
        marshalsOther, Option.bind_some, if_pos done, sendAll_whole]
      rfl
    exact ⟨_, _, called, by simp [ipcHeaderSize]⟩
  · rw [if_neg done] at returns
    cases returns
    exact absurd rfl success

end Calls

section Leaks

/-- Whatever was sent before, the frames of the successful calls are the same. -/
def LeaksNothing (ieee : Ieee754 Double) (call : IpcCall Double) : Prop :=
  ∀ (history₁ history₂ : List (IpcCall Double × List (Option Nat)))
    (buf₁ buf₂ : List UInt8) (sends₁ sends₂ : List (Option Nat))
    (outcome₁ outcome₂ : IpcOutcome),
    afterCalls ieee history₁ = some buf₁ →
    afterCalls ieee history₂ = some buf₂ →
    vsendCmd ieee buf₁ call sends₁ = some outcome₁ → outcome₁.returned ≠ 0 →
    vsendCmd ieee buf₂ call sends₂ = some outcome₂ → outcome₂.returned ≠ 0 →
    outcome₁.wire = outcome₂.wire

def filler : List Datum := [.string false (List.replicate (ipcBufferSize - ipcHeaderSize - 1) 0x41)]

theorem afterCalls_filler (ieee : Ieee754 Double) : ∃ buf, afterCalls ieee
        [(callFor 1 filler, [some (frameFor 1 filler initialIpcBuffer).length])] = some buf ∧
      buf.drop ipcHeaderSize = List.replicate (ipcBufferSize - ipcHeaderSize - 1) 0x41 ++ [0] := by
  have absent : (0 : UInt8) ∉ List.replicate (ipcBufferSize - ipcHeaderSize - 1) (0x41 : UInt8) :=
    fun member => absurd (List.eq_of_mem_replicate member) (by decide)
  have whole := cString_eq_self absent
  have span : spanOf (patchesFor filler) = ipcBufferSize - ipcHeaderSize := by
    rw [filler, patchesFor, List.map_cons, List.map_nil, spanOf_cons, spanOf_nil, Datum.patch]
    dsimp only
    rw [whole, List.length_replicate]
    rfl
  have full : ∀ patch ∈ patchesFor filler, patch.cells.length = patch.span := by
    intro patch member
    cases List.mem_singleton.mp member
    simp [Datum.patch]
  have length : initialIpcBuffer.length = ipcBufferSize := List.length_replicate
  have legal : (1 : UInt32) ≠ 0 := by decide
  have called := vsendCmd_data ieee legal length span.le
    [some (frameFor 1 filler initialIpcBuffer).length]
  rw [sendAll_whole] at called
  refine ⟨frameFor 1 filler initialIpcBuffer ++
    initialIpcBuffer.drop (ipcHeaderSize + spanOf (patchesFor filler)), ?_, ?_⟩
  · rw [afterCalls, List.foldlM_cons]
    dsimp only
    rw [called]
    rfl
  · have behind : initialIpcBuffer.drop (ipcHeaderSize + spanOf (patchesFor filler)) = [] :=
      List.drop_of_length_le (by rw [length, span]; decide)
    rw [behind, List.append_nil, frameFor, List.drop_left' (length_ipcHeader _ _),
      overlay_full full, filler, patchesFor, List.map_cons, List.map_nil, List.map_cons,
      List.map_nil, List.flatten_cons, List.flatten_nil, List.append_nil, Datum.patch]
    dsimp only
    rw [whole]

/-- A call that can succeed leaks nothing exactly when it has no data or no
numbers. -/
theorem leaksNothing_iff {call : IpcCall Double} {sends : List (Option Nat)}
    {outcome : IpcOutcome}
    (returns : vsendCmd ieee initialIpcBuffer call sends = some outcome)
    (success : outcome.returned ≠ 0) :
    LeaksNothing ieee call ↔ vmarshalSize call.format call.args = some 0 ∨
      ∀ round ∈ directives call.format, ¬ round.Numeric := by
  constructor
  · intro leaksNothing
    by_contra neither
    obtain ⟨some_, numeric⟩ := not_or.mp neither
    push Not at numeric
    have length : initialIpcBuffer.length = ipcBufferSize :=
      List.length_replicate
    obtain ⟨buf, filled, content⟩ := afterCalls_filler ieee
    have lengthFilled := length_afterCalls filled
    obtain ⟨sendsFilled, outcomeFilled, called, successFilled⟩ :=
      vsendCmd_elsewhere length lengthFilled returns success
    have wires := leaksNothing [] _ _ _ _ _ _ _ rfl filled returns success called
      successFilled
    obtain ⟨len, patches, legal, size, fits, found, room, wireEq⟩ :=
      sent_of_vsendCmd length returns success
    obtain ⟨len', patches', -, size', -, found', -, wireEq'⟩ :=
      sent_of_vsendCmd lengthFilled called successFilled
    cases size.symm.trans size'
    cases found.symm.trans found'
    have positive : len ≠ 0 := by
      rintro rfl
      exact some_ size
    rw [framePatches, if_neg positive] at found
    obtain ⟨before, gap, after, rfl, wide⟩ := exists_gap found numeric
    rw [wireEq, wireEq'] at wires
    have overlays := List.append_cancel_left wires
    -- The first cell that the number leaves out tells the buffers apart.
    have inside : spanOf before + gap.cells.length <
        ipcBufferSize - ipcHeaderSize - 1 := by
      simp only [spanOf_append, spanOf_cons] at room
      omega
    have cells := congrArg (·[spanOf before + gap.cells.length]?) overlays
    rw [getElem?_overlay_gap _ (by omega) (by rwa [List.length_drop, length]),
      getElem?_overlay_gap _ (by omega)
        (by rwa [List.length_drop, lengthFilled]), content,
      List.getElem?_append_left (by rwa [List.length_replicate]),
      List.getElem?_replicate, if_pos inside, initialIpcBuffer,
      List.drop_replicate, List.getElem?_replicate, if_pos (by omega)] at cells
    exact absurd cells (by decide)
  · intro harmless history₁ history₂ buf₁ buf₂ sends₁ sends₂ outcome₁ outcome₂
      after₁ after₂ called₁ success₁ called₂ success₂
    obtain ⟨len, patches, -, size, -, found, -, wireEq⟩ :=
      sent_of_vsendCmd (length_afterCalls after₁) called₁ success₁
    obtain ⟨len', patches', -, size', -, found', -, wireEq'⟩ :=
      sent_of_vsendCmd (length_afterCalls after₂) called₂ success₂
    cases size.symm.trans size'
    cases found.symm.trans found'
    have full : ∀ patch ∈ patches, patch.cells.length = patch.span := by
      rw [framePatches] at found
      split at found
      · cases found
        exact fun patch member => absurd member List.not_mem_nil
      · rename_i positive
        rcases harmless with empty | strings
        · cases size.symm.trans empty
          exact absurd rfl positive
        · exact full_of_strings found strings
    rw [wireEq, wireEq', overlay_full full, overlay_full full]

def stringCall (text : List UInt8) : IpcCall Unit := ⟨1, ascii ['%', 's'], [.string (some text)]⟩

def byteCall (value : Int) : IpcCall Unit := ⟨1, ascii ['%', 'b'], [.integer value]⟩

theorem string_leaks_nothing :
    (vsendCmd noFloats initialIpcBuffer (stringCall [0x41]) [some 10]).map
        IpcOutcome.returned = some 10 ∧
      LeaksNothing noFloats (stringCall [0x41]) := by
  have called : (vsendCmd noFloats initialIpcBuffer (stringCall [0x41])
      [some 10]).map IpcOutcome.returned = some 10 := by decide +kernel
  obtain ⟨outcome, returns, returned⟩ := Option.map_eq_some_iff.mp called
  have strings : ∀ round ∈ directives (stringCall [0x41]).format,
      ¬ round.Numeric := by
    rintro round member ⟨specifier, charEq, number⟩
    cases List.mem_singleton.mp member
    cases charEq
    exact number rfl
  exact ⟨called, (leaksNothing_iff returns (by rw [returned]; decide)).mpr
    (.inr strings)⟩

theorem byte_shows_string : (vsendCmd noFloats initialIpcBuffer (byteCall 7) [some 16]).map
        (fun outcome => (outcome.wire, outcome.returned)) =
      some ([0, 0, 0, 1, 0, 0, 0, 8, 7, 0, 0, 0, 0, 0, 0, 0], 16) ∧
    ((afterCalls noFloats [(stringCall (ascii ['s', 'e', 'c', 'r', 'e', 't']),
        [some 15])]).bind fun buf =>
      (vsendCmd noFloats buf (byteCall 7) [some 16]).map
        fun outcome => (outcome.wire, outcome.returned)) =
      some ([0, 0, 0, 1, 0, 0, 0, 8, 7] ++ ascii ['e', 'c', 'r', 'e', 't'] ++ [0, 0], 16) := by
  decide +kernel

theorem byte_leaks : ¬ LeaksNothing noFloats (byteCall 7) := by
  intro leaksNothing
  obtain ⟨fresh, used⟩ := byte_shows_string
  obtain ⟨outcome₁, called₁, same₁⟩ := Option.map_eq_some_iff.mp fresh
  obtain ⟨buf, after, used⟩ := Option.bind_eq_some_iff.mp used
  obtain ⟨outcome₂, called₂, same₂⟩ := Option.map_eq_some_iff.mp used
  obtain ⟨wire₁, returned₁⟩ := Prod.mk.inj same₁
  obtain ⟨wire₂, returned₂⟩ := Prod.mk.inj same₂
  have wires := leaksNothing [] _ _ _ _ _ _ _ rfl after called₁
    (by rw [returned₁]; decide) called₂ (by rw [returned₂]; decide)
  rw [wire₁, wire₂] at wires
  exact absurd wires (by decide)

end Leaks

end MercuryFix
