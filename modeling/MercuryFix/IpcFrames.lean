import MercuryFix.IpcFraming
import MercuryFix.MarshalRoundTrip

/-!
# From `vsend_cmd` to `vunmarshal`

A call of `vsend_cmd` puts a frame on the socket whose header gives the command and
the size of the data.  The receiver gets the frame back from `recv_cmd`, and the
arguments from `vunmarshal`.
-/

namespace MercuryFix

open ByteBlock

def ipcHeader (cmd : UInt32) (len : Nat) : List UInt8 := setu32 cmd.toNat ++ setu32 len

section Header

@[simp]
theorem length_ipcHeader (cmd : UInt32) (len : Nat) :
    (ipcHeader cmd len).length = ipcHeaderSize := by
  simp [ipcHeader, setu32, ipcHeaderSize]

theorem ipcdataSetHeader_eq {buf : List UInt8} (cmd : UInt32) (len : Nat)
    (room : ipcHeaderSize ≤ buf.length) :
    ipcdataSetHeader cmd len buf = some (ipcHeader cmd len ++ buf.drop ipcHeaderSize) := by
  have first : 0 + (setu32 cmd.toNat).length ≤ buf.length :=
    le_trans (by simp [setu32, ipcHeaderSize]) room
  have offset : ipcDatalengthOffset = 0 + (setu32 cmd.toNat).length := by
    simp [setu32, ipcDatalengthOffset]
  have second : ipcDatalengthOffset + (setu32 len).length ≤
      (blit buf 0 (setu32 cmd.toNat)).length := by
    rw [length_blit first]
    exact le_trans (by simp [setu32, ipcDatalengthOffset, ipcHeaderSize]) room
  rw [ipcdataSetHeader, memcpy_of_fits first]
  simp only [Option.bind_eq_bind, Option.bind_some]
  rw [memcpy_of_fits second, offset, blit_blit first, ← ipcHeader, blit,
    List.take_zero, List.nil_append, length_ipcHeader, Nat.zero_add]

theorem ipcdataGetCmd_header (cmd : UInt32) (len : Nat) (data : List UInt8) :
    ipcdataGetCmd (ipcHeader cmd len ++ data) = cmd.toNat := by
  rw [ipcdataGetCmd, ipcHeader, List.append_assoc, getu32_setu32_append]
  exact Nat.mod_eq_of_lt cmd.toNat_lt

theorem ipcdataGetDatalen_header {len : Nat} (cmd : UInt32)
    (small : len < 2 ^ 32) (data : List UInt8) :
    ipcdataGetDatalen (ipcHeader cmd len ++ data) = len := by
  have width : (setu32 cmd.toNat).length = ipcDatalengthOffset := by
    simp [setu32, ipcDatalengthOffset]
  rw [ipcdataGetDatalen, ipcHeader, List.append_assoc, List.drop_left' width, getu32_setu32_append]
  exact Nat.mod_eq_of_lt small

theorem isFrame_header {len : Nat} {data : List UInt8} (cmd : UInt32)
    (small : len < 2 ^ 32) (length : data.length = len) :
    IsFrame (ipcHeader cmd len ++ data) := by
  refine ⟨?_, ?_⟩
  · rw [List.length_append, length_ipcHeader]
    exact Nat.le_add_right _ _
  · rw [List.length_append, length_ipcHeader,
      ipcdataGetDatalen_header cmd small, length, Nat.add_comm]

end Header

section Send

theorem wire_of_sendAll {bytes wire : List UInt8} {sends : List (Option Nat)}
    (returns : sendAll bytes sends = some (wire, true)) : wire = bytes := by
  induction sends generalizing bytes wire with
  | nil =>
    cases bytes with
    | nil =>
      cases returns
      rfl
    | cons byte bytes => cases returns
  | cons result sends induction =>
    cases bytes with
    | nil =>
      cases returns
      rfl
    | cons byte bytes =>
      cases result with
      | none => cases returns
      | some n =>
        rw [sendAll] at returns
        obtain ⟨-, returns⟩ := Option.ite_none_left_eq_some.mp returns
        obtain ⟨⟨later, done⟩, others, returns⟩ := Option.bind_eq_some_iff.mp returns
        cases returns
        rw [induction others, List.take_append_drop]

theorem sendAll_whole (bytes : List UInt8) :
    sendAll bytes [some bytes.length] = some (bytes, true) := by
  cases bytes with
  | nil => rfl
  | cons byte bytes =>
    rw [sendAll, if_neg (lt_irrefl _), List.drop_length, List.take_length]
    simp [sendAll]

variable {Double : Type} {ieee : Ieee754 Double} {call : IpcCall Double}
  {len : Nat} {buf : List UInt8}

theorem vsendCmd_of_size (legal : call.cmd ≠ 0)
    (size : vmarshalSize call.format call.args = some len)
    (fits : len ≤ ipcBufferSize - ipcHeaderSize) (sends : List (Option Nat)) :
    vsendCmd ieee buf call sends = sendFrame ieee call len buf sends := by
  rw [vsendCmd, if_neg legal, size]
  simp only [Option.bind_eq_bind, Option.bind_some]
  rw [if_neg (not_lt.mpr fits)]

theorem sendFrame_eq (room : ipcHeaderSize ≤ buf.length) (sends : List (Option Nat)) :
    sendFrame ieee call len buf sends =
      (marshalData ieee call len (buf.drop ipcHeaderSize)).bind fun marshalled =>
        if marshalled.done then
          (sendAll (ipcHeader call.cmd len ++
              marshalled.buf.take marshalled.count) sends).map fun sent =>
            ⟨ipcHeader call.cmd len ++ marshalled.buf, sent.1,
              if sent.2 then marshalled.count + ipcHeaderSize else 0⟩
        else some ⟨ipcHeader call.cmd len ++ marshalled.buf, [], 0⟩ := by
  have width := length_ipcHeader call.cmd len
  rw [sendFrame, ipcdataSetHeader_eq call.cmd len room]
  simp only [Option.bind_eq_bind, Option.bind_some, List.drop_left' width, List.take_left' width]
  congr 1
  funext marshalled
  have front : (ipcHeader call.cmd len ++ marshalled.buf).take (marshalled.count + ipcHeaderSize) =
        ipcHeader call.cmd len ++ marshalled.buf.take marshalled.count := by
    rw [Nat.add_comm, ← width, List.take_length_add_append]
  rw [front]
  split
  · cases sendAll (ipcHeader call.cmd len ++ marshalled.buf.take marshalled.count) sends <;> rfl
  · rfl

end Send

section RoundTrip

variable {Double : Type}

def frameFor (cmd : UInt32) (data : List Datum) (buf : List UInt8) :
    List UInt8 :=
  ipcHeader cmd (spanOf (patchesFor data)) ++ overlay (patchesFor data) (buf.drop ipcHeaderSize)

def callFor (cmd : UInt32) (data : List Datum) : IpcCall Double := ⟨cmd, formatOf data, argsOf data⟩

theorem length_frameFor {data : List Datum} {buf : List UInt8} (cmd : UInt32)
    (length : buf.length = ipcBufferSize)
    (fits : spanOf (patchesFor data) ≤ ipcBufferSize - ipcHeaderSize) :
    (frameFor cmd data buf).length = spanOf (patchesFor data) + ipcHeaderSize := by
  rw [frameFor, List.length_append, length_ipcHeader,
    length_overlay _ (by rwa [List.length_drop, length]), Nat.add_comm]

theorem marshalData_data (ieee : Ieee754 Double) {data : List Datum}
    {old : List UInt8} (cmd : UInt32) (room : spanOf (patchesFor data) ≤ old.length) :
    marshalData ieee (callFor cmd data) (spanOf (patchesFor data)) old =
      some ⟨true, spanOf (patchesFor data), overlay (patchesFor data) old ++
        old.drop (spanOf (patchesFor data))⟩ := by
  by_cases zero : spanOf (patchesFor data) = 0
  · rw [marshalData, if_pos zero, zero, nil_of_span zero]
    rfl
  · rw [marshalData, if_neg zero]
    refine vmarshal_data ieee ?_ room rfl
    rintro rfl
    exact zero rfl

theorem vsendCmd_data (ieee : Ieee754 Double) {cmd : UInt32} {data : List Datum}
    {buf : List UInt8} (legal : cmd ≠ 0) (length : buf.length = ipcBufferSize)
    (fits : spanOf (patchesFor data) ≤ ipcBufferSize - ipcHeaderSize)
    (sends : List (Option Nat)) :
    vsendCmd ieee buf (callFor cmd data) sends =
      (sendAll (frameFor cmd data buf) sends).map fun sent =>
        ⟨frameFor cmd data buf ++ buf.drop (ipcHeaderSize + spanOf (patchesFor data)), sent.1,
          if sent.2 then spanOf (patchesFor data) + ipcHeaderSize else 0⟩ := by
  have small : spanOf (patchesFor data) < 2 ^ 32 := lt_of_le_of_lt fits (by decide)
  have headed : ipcHeaderSize ≤ buf.length := length ▸ by decide
  have room : spanOf (patchesFor data) ≤ (buf.drop ipcHeaderSize).length := by
    rwa [List.length_drop, length]
  have size : vmarshalSize (formatOf data) (argsOf data : List (Arg Double)) =
      some (spanOf (patchesFor data)) := by
    rw [vmarshalSize_data, Nat.mod_eq_of_lt small]
  rw [vsendCmd_of_size legal size fits, sendFrame_eq headed,
    marshalData_data ieee cmd room, Option.bind_some, if_pos rfl]
  dsimp only
  rw [List.take_left' (length_overlay _ room), List.drop_drop, ← List.append_assoc]
  rfl

/-- What the sender and the receiver of a command with `size` bytes of data agree
on, whatever the static buffer holds. -/
structure RoundTrips (ieee : Ieee754 Double) (cmd : UInt32) (data : List Datum)
    (size : Nat) : Prop where
  marshals : formatOf data ≠ [] → ∀ buf : List UInt8, buf.length = size →
    ∃ next, vmarshal ieee buf size (formatOf data) (argsOf data) = some ⟨true, size, next⟩
  travels : ∀ buf : List UInt8, buf.length = ipcBufferSize →
    ∃ frame next : List UInt8,
      (∀ sends, vsendCmd ieee buf (callFor cmd data) sends =
        (sendAll frame sends).map fun sent =>
          ⟨next, sent.1, if sent.2 then frame.length else 0⟩) ∧
      ipcdataGetCmd frame = cmd.toNat ∧ ipcdataGetDatalen frame = size ∧
      (∀ (bufLen : Nat) (chunks : List (List UInt8)),
        frame.length ≤ bufLen → (∀ chunk ∈ chunks, chunk ≠ []) →
        chunks.flatten = frame →
        recvCmd bufLen (chunks.map some) = some ⟨true, frame, []⟩) ∧
      ∀ beyond : List UInt8,
        vunmarshal ieee (ipcdataGetData frame ++ beyond) size (formatOf data) =
          some ((data.length : Int), data.map Datum.value)

theorem formatOf_ne_nil {data : List Datum} : formatOf data ≠ [] ↔ data ≠ [] := by
  cases data with
  | nil => simp [formatOf]
  | cons datum data =>
    have text (unSigned : Bool) (specifier : Specifier) :
        (FormatItem.directive unSigned specifier).text ≠ [] := by
      cases unSigned <;> simp [FormatItem.text]
    simp [formatOf, text]

theorem roundTrips_of_small (ieee : Ieee754 Double) {cmd : UInt32}
    {data : List Datum} (legal : cmd ≠ 0) (proper : ∀ datum ∈ data, datum.Proper)
    (fits : spanOf (patchesFor data) ≤ ipcBufferSize - ipcHeaderSize) :
    RoundTrips ieee cmd data (spanOf (patchesFor data)) := by
  have small : spanOf (patchesFor data) < 2 ^ 32 := lt_of_le_of_lt fits (by decide)
  constructor
  · intro nonempty buf length
    exact ⟨_, vmarshal_data ieee (formatOf_ne_nil.mp nonempty) length.ge rfl⟩
  · intro buf length
    have room : spanOf (patchesFor data) ≤ (buf.drop ipcHeaderSize).length := by
      rwa [List.length_drop, length]
    have frameLength := length_frameFor cmd length fits
    refine ⟨frameFor cmd data buf,
      frameFor cmd data buf ++ buf.drop (ipcHeaderSize + spanOf (patchesFor data)), fun sends => ?_,
      ipcdataGetCmd_header _ _ _, ipcdataGetDatalen_header _ small _, ?_, ?_⟩
    · rw [frameLength]
      exact vsendCmd_data ieee legal length fits sends
    · intro bufLen chunks frameFits nonempty whole
      have returns := recvCmd_frame
        (isFrame_header cmd small (length_overlay _ room)) frameFits nonempty
        whole []
      rwa [List.append_nil] at returns
    · intro beyond
      have content : ipcdataGetData (frameFor cmd data buf) =
          overlay (patchesFor data) (buf.drop ipcHeaderSize) :=
        List.drop_left' (length_ipcHeader _ _)
      rw [content, vunmarshal]
      split
      · rename_i empty
        rw [nil_of_span (Nat.lt_one_iff.mp empty)]
        rfl
      · have memory : (overlay (patchesFor data) (buf.drop ipcHeaderSize) ++ beyond).drop 0 =
            overlay (patchesFor data) (buf.drop ipcHeaderSize) ++ beyond :=
          List.drop_zero
        rw [vunmarshalLoop_data ieee proper room memory (Nat.zero_add _).symm,
          List.nil_append, List.length_map]

/-- A command whose data fit as `vmarshal_size` counts them goes round exactly when
the count does not wrap around. -/
theorem roundTrips_iff (ieee : Ieee754 Double) {cmd : UInt32} {data : List Datum}
    {size : Nat} (legal : cmd ≠ 0) (proper : ∀ datum ∈ data, datum.Proper)
    (counted : vmarshalSize (formatOf data) (argsOf data : List (Arg Double)) =
      some size)
    (fits : size ≤ ipcBufferSize - ipcHeaderSize) :
    RoundTrips ieee cmd data size ↔ spanOf (patchesFor data) < 2 ^ 32 := by
  rw [vmarshalSize_data, Option.some.injEq] at counted
  constructor
  · intro ⟨marshals, _⟩
    by_cases empty : data = []
    · rw [empty]
      decide
    · obtain ⟨next, returns⟩ := marshals (formatOf_ne_nil.mpr empty)
        (List.replicate size 0) List.length_replicate
      have count : size = spanOf (patchesFor data) :=
        count_of_vmarshal List.length_replicate.ge returns rfl
      rw [← count]
      exact lt_of_le_of_lt fits (by decide)
  · intro small
    rw [Nat.mod_eq_of_lt small] at counted
    subst counted
    exact roundTrips_of_small ieee legal proper fits

def noFloats : Ieee754 Unit := ⟨fun _ => 0, fun _ => 0, fun _ => (), fun _ => ()⟩

/-- A string and a negative word go round. -/
theorem roundTrips_pair :
    vmarshalSize (ascii ['%', 'u', 's', '%', 'w'])
        ([.string (some [0x41]), .integer (-2)] : List (Arg Unit)) = some 18 ∧
      RoundTrips noFloats 7 [.string true [0x41], .integer false .word (-2)] 18 :=
  ⟨rfl, (roundTrips_iff noFloats (by decide) (by decide) rfl (by decide)).mpr
    (by decide)⟩

theorem wrap_of_length {text : List UInt8} (proper : (0 : UInt8) ∉ text)
    (length : text.length + 1 = 2 ^ 32) :
    vmarshalSize (formatOf [.string false text])
        (argsOf [.string false text] : List (Arg Double)) = some 0 ∧
      ∀ (ieee : Ieee754 Double) (cmd : UInt32), ¬ RoundTrips ieee cmd [.string false text] 0 := by
  have wraps : (cString text).length + 1 = 2 ^ 32 := by
    rw [cString_eq_self proper, length]
  refine ⟨?_, fun ieee cmd roundTrips => ?_⟩
  · rw [vmarshalSize_data, patchesFor, List.map_cons, List.map_nil, spanOf_cons,
      spanOf_nil, Datum.patch]
    dsimp only
    rw [wraps, Nat.mod_self]
  · obtain ⟨next, returns⟩ :=
      roundTrips.marshals (formatOf_ne_nil.mpr (List.cons_ne_nil _ _)) [] rfl
    cases returns

/-- A string of 2^32 - 1 bytes counts as nothing. -/
theorem long_string_lost :
    ∃ text : List UInt8, Datum.Proper (.string false text) ∧
      vmarshalSize (formatOf [.string false text])
        (argsOf [.string false text] : List (Arg Unit)) = some 0 ∧
      ∀ (ieee : Ieee754 Unit) (cmd : UInt32),
        ¬ RoundTrips ieee cmd [.string false text] 0 := by
  have absent : (0 : UInt8) ∉ List.replicate (2 ^ 32 - 1) (0x41 : UInt8) :=
    fun member => absurd (List.eq_of_mem_replicate member) (by decide)
  refine ⟨_, absent, wrap_of_length absent ?_⟩
  rw [List.length_replicate, Nat.sub_add_cancel Nat.one_le_two_pow]

end RoundTrip

end MercuryFix
