import Mathlib.Data.List.Basic
import Mathlib.Tactic.IntervalCases

/-!
# Versions and message types

The supported versions, the table of FIX message types, the constant-time lookup of a type by its
text, and the test for session messages.  The lookup packs at most four
characters into one integer; `char` is signed on the modelled platform, so
that a byte above 127 is sign extended before it is shifted into place.
-/

namespace MercuryFix

def ascii (text : List Char) : List UInt8 := text.map fun character => UInt8.ofNat character.toNat

inductive FixVersion
  | custom
  | fix40
  | fix41
  | fix42
  | fix43
  | fix44
  | fix50
  | fix50SP1
  | fix50SP2
  | fixT11
  deriving DecidableEq

def fixVersionString : FixVersion → List UInt8
  | .custom => ascii "CUSTOM".toList
  | .fix40 => ascii "FIX.4.0".toList
  | .fix41 => ascii "FIX.4.1".toList
  | .fix42 => ascii "FIX.4.2".toList
  | .fix43 => ascii "FIX.4.3".toList
  | .fix44 => ascii "FIX.4.4".toList
  | .fix50 => ascii "FIX.5.0".toList
  | .fix50SP1 => ascii "FIX.5.0.SP1".toList
  | .fix50SP2 => ascii "FIX.5.0.SP2".toList
  | .fixT11 => ascii "FIXT.1.1".toList

/-- `enum FIX_MsgType`, in its order. -/
inductive FixMsgType
  | fmtCustomMsg | fmtHeartbeat | fmtTestRequest | fmtResendRequest | fmtReject
  | fmtSequenceReset | fmtLogout | fmtIOI | fmtAdvertisement | fmtExecutionReport
  | fmtOrderCancelReject | fmtLogon | fmtDerivativeSecurityList | fmtNewOrderMultileg
  | fmtMultilegOrderCancelReplace | fmtTradeCaptureReportRequest | fmtTradeCaptureReport
  | fmtOrderMassStatusRequest | fmtQuoteRequestReject | fmtRFQRequest
  | fmtQuoteStatusReport | fmtQuoteResponse | fmtConfirmation
  | fmtPositionMaintenanceRequest | fmtPositionMaintenanceReport | fmtRequestForPositions
  | fmtRequestForPositionsAck | fmtPositionReport | fmtTradeCaptureReportRequestAck
  | fmtTradeCaptureReportAck | fmtAllocationReport | fmtAllocationReportAck
  | fmtConfirmationAck | fmtSettlementInstructionRequest | fmtAssignmentReport
  | fmtCollateralRequest | fmtCollateralAssignment | fmtCollateralResponse | fmtNews
  | fmtCollateralReport | fmtCollateralInquiry | fmtNetworkCounterpartySystemStatusRequest
  | fmtNetworkCounterpartySystemStatusResponse | fmtUserRequest | fmtUserResponse
  | fmtCollateralInquiryAck | fmtConfirmationRequest | fmtTradingSessionListRequest
  | fmtTradingSessionList | fmtSecurityListUpdateReport | fmtAdjustedPositionReport
  | fmtAllocationInstructionAlert | fmtExecutionAcknowledgement
  | fmtContraryIntentionReport | fmtSecurityDefinitionUpdateReport
  | fmtSettlementObligationReport | fmtDerivativeSecurityListUpdateReport
  | fmtTradingSessionListUpdateReport | fmtMarketDefinitionRequest | fmtMarketDefinition
  | fmtMarketDefinitionUpdateReport | fmtApplicationMessageRequest
  | fmtApplicationMessageRequestAck | fmtApplicationMessageReport
  | fmtOrderMassActionReport | fmtEmail | fmtOrderMassActionRequest | fmtUserNotification
  | fmtStreamAssignmentRequest | fmtStreamAssignmentReport | fmtStreamAssignmentReportACK
  | fmtNewOrderSingle | fmtNewOrderList | fmtOrderCancelRequest
  | fmtOrderCancelReplaceRequest | fmtOrderStatusRequest | fmtAllocationInstruction
  | fmtListCancelRequest | fmtListExecute | fmtListStatusRequest | fmtListStatus
  | fmtAllocationInstructionAck | fmtDontKnowTrade | fmtQuoteRequest | fmtQuote
  | fmtSettlementInstructions | fmtMarketDataRequest | fmtMarketDataSnapshotFullRefresh
  | fmtMarketDataIncrementalRefresh | fmtMarketDataRequestReject | fmtQuoteCancel
  | fmtQuoteStatusRequest | fmtMassQuoteAcknowledgement | fmtSecurityDefinitionRequest
  | fmtSecurityDefinition | fmtSecurityStatusRequest | fmtSecurityStatus
  | fmtTradingSessionStatusRequest | fmtTradingSessionStatus | fmtMassQuote
  | fmtBusinessMessageReject | fmtBidRequest | fmtBidResponse | fmtListStrikePrice
  | fmtXMLnonFIX | fmtRegistrationInstructions | fmtRegistrationInstructionsResponse
  | fmtOrderMassCancelRequest | fmtOrderMassCancelReport | fmtNewOrderCross
  | fmtCrossOrderCancelReplaceRequest | fmtCrossOrderCancelRequest | fmtSecurityTypeRequest
  | fmtSecurityTypes | fmtSecurityListRequest | fmtSecurityList
  | fmtDerivativeSecurityListRequest
  deriving DecidableEq

def fixMsgtypeString : List (FixMsgType × List Char) := [
  (.fmtCustomMsg, []), (.fmtHeartbeat, ['0']), (.fmtTestRequest, ['1']),
  (.fmtResendRequest, ['2']), (.fmtReject, ['3']), (.fmtSequenceReset, ['4']),
  (.fmtLogout, ['5']), (.fmtIOI, ['6']), (.fmtAdvertisement, ['7']),
  (.fmtExecutionReport, ['8']), (.fmtOrderCancelReject, ['9']), (.fmtLogon, ['A']),
  (.fmtDerivativeSecurityList, ['A', 'A']), (.fmtNewOrderMultileg, ['A', 'B']),
  (.fmtMultilegOrderCancelReplace, ['A', 'C']), (.fmtTradeCaptureReportRequest, ['A', 'D']),
  (.fmtTradeCaptureReport, ['A', 'E']), (.fmtOrderMassStatusRequest, ['A', 'F']),
  (.fmtQuoteRequestReject, ['A', 'G']), (.fmtRFQRequest, ['A', 'H']),
  (.fmtQuoteStatusReport, ['A', 'I']), (.fmtQuoteResponse, ['A', 'J']),
  (.fmtConfirmation, ['A', 'K']), (.fmtPositionMaintenanceRequest, ['A', 'L']),
  (.fmtPositionMaintenanceReport, ['A', 'M']), (.fmtRequestForPositions, ['A', 'N']),
  (.fmtRequestForPositionsAck, ['A', 'O']), (.fmtPositionReport, ['A', 'P']),
  (.fmtTradeCaptureReportRequestAck, ['A', 'Q']), (.fmtTradeCaptureReportAck, ['A', 'R']),
  (.fmtAllocationReport, ['A', 'S']), (.fmtAllocationReportAck, ['A', 'T']),
  (.fmtConfirmationAck, ['A', 'U']), (.fmtSettlementInstructionRequest, ['A', 'V']),
  (.fmtAssignmentReport, ['A', 'W']), (.fmtCollateralRequest, ['A', 'X']),
  (.fmtCollateralAssignment, ['A', 'Y']), (.fmtCollateralResponse, ['A', 'Z']),
  (.fmtNews, ['B']), (.fmtCollateralReport, ['B', 'A']), (.fmtCollateralInquiry, ['B', 'B']),
  (.fmtNetworkCounterpartySystemStatusRequest, ['B', 'C']),
  (.fmtNetworkCounterpartySystemStatusResponse, ['B', 'D']), (.fmtUserRequest, ['B', 'E']),
  (.fmtUserResponse, ['B', 'F']), (.fmtCollateralInquiryAck, ['B', 'G']),
  (.fmtConfirmationRequest, ['B', 'H']), (.fmtTradingSessionListRequest, ['B', 'I']),
  (.fmtTradingSessionList, ['B', 'J']), (.fmtSecurityListUpdateReport, ['B', 'K']),
  (.fmtAdjustedPositionReport, ['B', 'L']), (.fmtAllocationInstructionAlert, ['B', 'M']),
  (.fmtExecutionAcknowledgement, ['B', 'N']), (.fmtContraryIntentionReport, ['B', 'O']),
  (.fmtSecurityDefinitionUpdateReport, ['B', 'P']),
  (.fmtSettlementObligationReport, ['B', 'Q']),
  (.fmtDerivativeSecurityListUpdateReport, ['B', 'R']),
  (.fmtTradingSessionListUpdateReport, ['B', 'S']), (.fmtMarketDefinitionRequest, ['B', 'T']),
  (.fmtMarketDefinition, ['B', 'U']), (.fmtMarketDefinitionUpdateReport, ['B', 'V']),
  (.fmtApplicationMessageRequest, ['B', 'W']), (.fmtApplicationMessageRequestAck, ['B', 'X']),
  (.fmtApplicationMessageReport, ['B', 'Y']), (.fmtOrderMassActionReport, ['B', 'Z']),
  (.fmtEmail, ['C']), (.fmtOrderMassActionRequest, ['C', 'A']),
  (.fmtUserNotification, ['C', 'B']), (.fmtStreamAssignmentRequest, ['C', 'C']),
  (.fmtStreamAssignmentReport, ['C', 'D']), (.fmtStreamAssignmentReportACK, ['C', 'E']),
  (.fmtNewOrderSingle, ['D']), (.fmtNewOrderList, ['E']), (.fmtOrderCancelRequest, ['F']),
  (.fmtOrderCancelReplaceRequest, ['G']), (.fmtOrderStatusRequest, ['H']),
  (.fmtAllocationInstruction, ['J']), (.fmtListCancelRequest, ['K']), (.fmtListExecute, ['L']),
  (.fmtListStatusRequest, ['M']), (.fmtListStatus, ['N']),
  (.fmtAllocationInstructionAck, ['P']), (.fmtDontKnowTrade, ['Q']), (.fmtQuoteRequest, ['R']),
  (.fmtQuote, ['S']), (.fmtSettlementInstructions, ['T']), (.fmtMarketDataRequest, ['V']),
  (.fmtMarketDataSnapshotFullRefresh, ['W']), (.fmtMarketDataIncrementalRefresh, ['X']),
  (.fmtMarketDataRequestReject, ['Y']), (.fmtQuoteCancel, ['Z']),
  (.fmtQuoteStatusRequest, ['a']), (.fmtMassQuoteAcknowledgement, ['b']),
  (.fmtSecurityDefinitionRequest, ['c']), (.fmtSecurityDefinition, ['d']),
  (.fmtSecurityStatusRequest, ['e']), (.fmtSecurityStatus, ['f']),
  (.fmtTradingSessionStatusRequest, ['g']), (.fmtTradingSessionStatus, ['h']),
  (.fmtMassQuote, ['i']), (.fmtBusinessMessageReject, ['j']), (.fmtBidRequest, ['k']),
  (.fmtBidResponse, ['l']), (.fmtListStrikePrice, ['m']), (.fmtXMLnonFIX, ['n']),
  (.fmtRegistrationInstructions, ['o']), (.fmtRegistrationInstructionsResponse, ['p']),
  (.fmtOrderMassCancelRequest, ['q']), (.fmtOrderMassCancelReport, ['r']),
  (.fmtNewOrderCross, ['s']), (.fmtCrossOrderCancelReplaceRequest, ['t']),
  (.fmtCrossOrderCancelRequest, ['u']), (.fmtSecurityTypeRequest, ['v']),
  (.fmtSecurityTypes, ['w']), (.fmtSecurityListRequest, ['x']), (.fmtSecurityList, ['y']),
  (.fmtDerivativeSecurityListRequest, ['z'])]

def fixSessionMessageTypes : List FixMsgType :=
  [.fmtHeartbeat, .fmtTestRequest, .fmtResendRequest, .fmtReject, .fmtSequenceReset,
    .fmtLogout, .fmtLogon, .fmtXMLnonFIX, .fmtCustomMsg]

/-- A signed `char` converted to the 64 bits of `uint_fast32_t`. -/
def signExtend (character : UInt8) : Nat :=
  if character.toNat < 128 then character.toNat
  else 2 ^ 64 - 256 + character.toNat

/-- The map key of a text of at most four characters, as the map constructors
and the lookup compute it. -/
def packMsgtype : List UInt8 → Option Nat
  | [] => some 0
  | [c0] => some (signExtend c0)
  | [c0, c1] => some ((signExtend c1 <<< 8) % 2 ^ 64 ||| signExtend c0)
  | [c0, c1, c2] =>
    some ((signExtend c2 <<< 16) % 2 ^ 64 ||| (signExtend c1 <<< 8) % 2 ^ 64 ||| signExtend c0)
  | [c0, c1, c2, c3] =>
    some ((signExtend c3 <<< 24) % 2 ^ 64 ||| (signExtend c2 <<< 16) % 2 ^ 64 |||
      (signExtend c1 <<< 8) % 2 ^ 64 ||| signExtend c0)
  | _ => none

/-- The map `get_fix_msgtype_ctor` builds, the entry assigned last in front. -/
def fixMsgtypesMap : List (Nat × FixMsgType) :=
  fixMsgtypeString.foldl
    (fun map entry =>
      match packMsgtype (ascii entry.2) with
      | some key => (key, entry.1) :: map
      | none => map) []

def lookupMsgtype (text : List UInt8) : FixMsgType :=
  match packMsgtype text with
  | none => .fmtCustomMsg
  | some key => (fixMsgtypesMap.lookup key).getD .fmtCustomMsg

/-- The scan for the delimiter that `get_fix_msgtype` and `is_session_message`
begin with, on the memory from the first byte of the value on.  Its index is an
`unsigned int`: behind `2 ^ 32` bytes without the delimiter it starts again in
front and never ends.  `none` stands for that and for a scan that leaves the
memory. -/
def scanToDelimiter (soh : UInt8) (str : List UInt8) : Option (List UInt8) :=
  let text := str.takeWhile (· != soh)
  if text.length < str.length ∧ text.length < 2 ^ 32 then some text else none

/-- `get_fix_msgtype`; `none` when its scan does not end on a delimiter. -/
def getFixMsgtype (soh : UInt8) (str : List UInt8) : Option FixMsgType :=
  (scanToDelimiter soh str).map lookupMsgtype

def isSessionMessage (type : FixMsgType) : Bool :=
  (fixSessionMessageTypes.takeWhile (· != .fmtCustomMsg)).contains type

theorem toNat_pos_of_ne_nul {byte : UInt8} (noNul : byte ≠ 0) : 0 < byte.toNat :=
  Nat.pos_of_ne_zero fun zero =>
    noNul (UInt8.toNat_inj.mp (by simpa using zero))

theorem le_shifted_signExtend {character : UInt8} (noNul : character ≠ 0)
    {shift : Nat} (place : shift ≤ 24) :
    2 ^ shift ≤ (signExtend character <<< shift) % 2 ^ 64 := by
  have positive := toNat_pos_of_ne_nul noNul
  have bounded := character.toNat_lt
  have range : shift < 25 := by omega
  rw [Nat.shiftLeft_eq]
  unfold signExtend
  split <;> interval_cases shift <;> omega

theorem packMsgtype_pair_plain {c0 c1 : UInt8} (plain0 : c0.toNat < 128) (plain1 : c1.toNat < 128) :
    packMsgtype [c0, c1] = some (c1.toNat * 256 + c0.toNat) := by
  have shifted : (c1.toNat <<< 8) % 2 ^ 64 = c1.toNat <<< 8 := by
    apply Nat.mod_eq_of_lt
    rw [Nat.shiftLeft_eq]
    omega
  rw [packMsgtype, signExtend, signExtend, if_pos plain0, if_pos plain1,
    shifted, ← Nat.shiftLeft_add_eq_or_of_lt c0.toNat_lt, Nat.shiftLeft_eq]

theorem packMsgtype_long {c0 c1 : UInt8} {rest : List UInt8}
    (noNul : (0 : UInt8) ∉ c0 :: c1 :: rest) {key : Nat}
    (packed : packMsgtype (c0 :: c1 :: rest) = some key) :
    (rest = [] ∧ c0.toNat < 128 ∧ c1.toNat < 128) ∨ 2 ^ 15 ≤ key := by
  match rest, noNul, packed with
  | [], _, packed =>
    simp only [packMsgtype, Option.some.injEq] at packed
    by_cases plain0 : c0.toNat < 128
    · by_cases plain1 : c1.toNat < 128
      · exact Or.inl ⟨rfl, plain0, plain1⟩
      · right
        rw [← packed]
        refine Nat.le_trans ?_ Nat.left_le_or
        have bounded := c1.toNat_lt
        rw [Nat.shiftLeft_eq, signExtend, if_neg plain1]
        omega
    · right
      rw [← packed]
      refine Nat.le_trans ?_ Nat.right_le_or
      rw [signExtend, if_neg plain0]
      omega
  | [c2], noNul, packed =>
    right
    simp only [packMsgtype, Option.some.injEq] at packed
    have high : 2 ^ 16 ≤ (signExtend c2 <<< 16) % 2 ^ 64 :=
      le_shifted_signExtend (fun zero => noNul (by simp [zero])) (by omega)
    rw [← packed]
    refine Nat.le_trans ?_ (Nat.le_trans Nat.left_le_or Nat.left_le_or)
    omega
  | [c2, c3], noNul, packed =>
    right
    simp only [packMsgtype, Option.some.injEq] at packed
    have high : 2 ^ 24 ≤ (signExtend c3 <<< 24) % 2 ^ 64 :=
      le_shifted_signExtend (fun zero => noNul (by simp [zero])) (by omega)
    rw [← packed]
    refine Nat.le_trans ?_ (Nat.le_trans Nat.left_le_or
      (Nat.le_trans Nat.left_le_or Nat.left_le_or))
    omega
  | _ :: _ :: _ :: _, _, packed => simp [packMsgtype] at packed

def PlainEntry (entry : List UInt8) : Prop :=
  entry.length ≤ 2 ∧ ∀ byte ∈ entry, 0 < byte.toNat ∧ byte.toNat < 128

instance (entry : List UInt8) : Decidable (PlainEntry entry) := inferInstanceAs (Decidable (_ ∧ _))

theorem plainEntry_of_mem : ∀ entry ∈ fixMsgtypeString, PlainEntry (ascii entry.2) := by
  decide +kernel

theorem packMsgtype_eq_entry {text entry : List UInt8}
    (noNul : (0 : UInt8) ∉ text) (plain : PlainEntry entry)
    (same : packMsgtype text = packMsgtype entry) : text = entry := by
  obtain ⟨short, plain⟩ := plain
  match entry, short, plain with
  | [], _, _ =>
    match text, noNul with
    | [], _ => rfl
    | [c0], noNul =>
      have positive : 0 < c0.toNat := toNat_pos_of_ne_nul (fun zero => noNul (by simp [zero]))
      simp only [packMsgtype, signExtend, Option.some.injEq] at same
      split at same <;> omega
    | c0 :: c1 :: rest, noNul =>
      rcases packMsgtype_long noNul same with ⟨rfl, plain0, plain1⟩ | large
      · have positive : 0 < c0.toNat := toNat_pos_of_ne_nul (fun zero => noNul (by simp [zero]))
        rw [packMsgtype_pair_plain plain0 plain1, packMsgtype, Option.some.injEq] at same
        omega
      · omega
  | [e0], _, plain =>
    have small := plain e0 (by simp)
    have entryKey : packMsgtype [e0] = some e0.toNat := by
      simp [packMsgtype, signExtend, small.2]
    rw [entryKey] at same
    match text, noNul with
    | [], _ =>
      simp only [packMsgtype, Option.some.injEq] at same
      omega
    | [c0], _ =>
      simp only [packMsgtype, signExtend, Option.some.injEq] at same
      split at same
      · rw [UInt8.toNat_inj.mp same]
      · omega
    | c0 :: c1 :: rest, noNul =>
      rcases packMsgtype_long noNul same with ⟨rfl, plain0, plain1⟩ | large
      · have positive : 0 < c1.toNat := toNat_pos_of_ne_nul (fun zero => noNul (by simp [zero]))
        rw [packMsgtype_pair_plain plain0 plain1, Option.some.injEq] at same
        omega
      · omega
  | [e0, e1], _, plain =>
    have small0 := plain e0 (by simp)
    have small1 := plain e1 (by simp)
    rw [packMsgtype_pair_plain small0.2 small1.2] at same
    match text, noNul with
    | [], _ =>
      simp only [packMsgtype, Option.some.injEq] at same
      omega
    | [c0], _ =>
      have bounded := c0.toNat_lt
      simp only [packMsgtype, signExtend, Option.some.injEq] at same
      split at same <;> omega
    | c0 :: c1 :: rest, noNul =>
      rcases packMsgtype_long noNul same with ⟨rfl, plain0, plain1⟩ | large
      · rw [packMsgtype_pair_plain plain0 plain1, Option.some.injEq] at same
        have first : c0 = e0 := UInt8.toNat_inj.mp (by omega)
        have second : c1 = e1 := UInt8.toNat_inj.mp (by omega)
        rw [first, second]
      · omega

theorem lookup_foldl_entries {text : List UInt8} (noNul : (0 : UInt8) ∉ text)
    {key : Nat} (packed : packMsgtype text = some key)
    (entries : List (FixMsgType × List Char))
    (plain : ∀ entry ∈ entries, PlainEntry (ascii entry.2))
    (map : List (Nat × FixMsgType)) :
    (entries.foldl (fun map entry =>
          match packMsgtype (ascii entry.2) with
          | some key => (key, entry.1) :: map
          | none => map) map).lookup key =
      ((entries.reverse.find? fun entry => ascii entry.2 == text).map
        Prod.fst).or (map.lookup key) := by
  induction entries generalizing map with
  | nil => simp
  | cons entry entries induction =>
    have plainHead := plain entry (by simp)
    have plainTail : ∀ other ∈ entries, PlainEntry (ascii other.2) :=
      fun other member => plain other (List.mem_cons_of_mem entry member)
    rw [List.foldl_cons, induction plainTail, List.reverse_cons, List.find?_append]
    cases later : entries.reverse.find? fun other => ascii other.2 == text with
    | some found => simp
    | none =>
      by_cases same : ascii entry.2 = text
      · simp [same, packed]
      · cases entryKey : packMsgtype (ascii entry.2) with
        | none => simp [same]
        | some other =>
          have distinct : key ≠ other := by
            rintro rfl
            exact same (packMsgtype_eq_entry noNul plainHead (packed.trans entryKey.symm)).symm
          have skipped : (key == other) = false := by simp [distinct]
          simp [same, List.lookup_cons, skipped]

theorem lookupMsgtype_eq {text : List UInt8} (noNul : (0 : UInt8) ∉ text) : lookupMsgtype text =
      ((fixMsgtypeString.reverse.find? fun entry => ascii entry.2 == text).map
        Prod.fst).getD .fmtCustomMsg := by
  unfold lookupMsgtype
  cases packed : packMsgtype text with
  | some key =>
    simp only
    rw [fixMsgtypesMap, lookup_foldl_entries noNul packed _ plainEntry_of_mem]
    simp
  | none =>
    cases found : fixMsgtypeString.reverse.find? fun entry =>
        ascii entry.2 == text with
    | none => rfl
    | some entry =>
      exfalso
      have same : ascii entry.2 = text := by
        simpa using List.find?_some found
      have member : entry ∈ fixMsgtypeString := by
        simpa using List.mem_of_find?_eq_some found
      have short := (plainEntry_of_mem entry member).1
      rw [same] at short
      match text, short, packed with
      | [], _, packed => simp [packMsgtype] at packed
      | [_], _, packed => simp [packMsgtype] at packed
      | [_, _], _, packed => simp [packMsgtype] at packed

def sessionTypeTexts : List (List UInt8) :=
  [ascii ['0'], ascii ['1'], ascii ['2'], ascii ['3'], ascii ['4'], ascii ['5'],
    ascii ['A'], ascii ['n']]

theorem session_entry : ∀ entry ∈ fixMsgtypeString,
      isSessionMessage entry.1 = true ↔ ascii entry.2 ∈ sessionTypeTexts := by
  decide +kernel

theorem isSessionMessage_lookupMsgtype {text : List UInt8} (noNul : (0 : UInt8) ∉ text) :
    isSessionMessage (lookupMsgtype text) = true ↔ text ∈ sessionTypeTexts := by
  rw [lookupMsgtype_eq noNul]
  cases found : fixMsgtypeString.reverse.find? fun entry =>
      ascii entry.2 == text with
  | some entry =>
    have same : ascii entry.2 = text := by
      simpa using List.find?_some found
    have member : entry ∈ fixMsgtypeString := by
      simpa using List.mem_of_find?_eq_some found
    rw [← same]
    exact session_entry entry member
  | none =>
    have absent : ∀ entry ∈ fixMsgtypeString, ascii entry.2 ≠ text := by
      simpa using found
    have listed : ∀ session ∈ sessionTypeTexts,
        ∃ entry ∈ fixMsgtypeString, ascii entry.2 = session := by
      decide +kernel
    constructor
    · intro session
      exact absurd session (by decide)
    · intro session
      obtain ⟨entry, member, same⟩ := listed text session
      exact absurd same (absent entry member)

/-- A resend request is a session message: the dispatch on it outside the
session branch is never taken. -/
theorem isSessionMessage_resendRequest : isSessionMessage .fmtResendRequest = true := by
  decide

end MercuryFix
