import Mathlib.Data.List.Nodup
import MercuryFix.FixMsgTypes

/-!
# Message types in a message

What the two lookups by text find for a message type value that ends in the
delimiter.  `get_fix_msgtype` is exact on every text without NUL.
`is_session_message` has a table of its own, sized after an array with one
entry more than it has texts: its last row is the empty text, and the key of
that row is taken for a session message.
-/

namespace MercuryFix

section Scan

variable {soh : UInt8} {text : List UInt8}

theorem takeWhile_delimited (closed : soh ∉ text) (rest : List UInt8) :
    (text ++ soh :: rest).takeWhile (fun byte => byte != soh) = text := by
  have inside : ∀ byte ∈ text, (byte != soh) = true := by
    intro byte member
    have different : byte ≠ soh := fun equal => closed (equal ▸ member)
    simp [different]
  rw [List.takeWhile_append_of_pos inside]
  simp

theorem scanToDelimiter_of_delimited (closed : soh ∉ text) (rest : List UInt8) :
    scanToDelimiter soh (text ++ soh :: rest) =
      if text.length < 2 ^ 32 then some text else none := by
  have inside : text.length < (text ++ soh :: rest).length := by simp
  simp only [scanToDelimiter, takeWhile_delimited closed, inside, true_and]

theorem getFixMsgtype_of_delimited (closed : soh ∉ text)
    (short : text.length < 2 ^ 32) (rest : List UInt8) :
    getFixMsgtype soh (text ++ soh :: rest) = some (lookupMsgtype text) := by
  rw [getFixMsgtype, scanToDelimiter_of_delimited closed, if_pos short]
  rfl

end Scan

section Exact

theorem ctorIdx_of_getElem? : ∀ index < fixMsgtypeString.length, ∀ entry ∈ fixMsgtypeString[index]?,
      entry.1.ctorIdx = index := by
  decide +kernel

theorem nodup_msgtypeTexts : (fixMsgtypeString.map fun entry => ascii entry.2).Nodup := by
  decide +kernel

theorem lookupMsgtype_of_entry {entry : FixMsgType × List Char}
    (member : entry ∈ fixMsgtypeString) :
    lookupMsgtype (ascii entry.2) = entry.1 := by
  have noNul : (0 : UInt8) ∉ ascii entry.2 := by
    intro zero
    have positive := ((plainEntry_of_mem entry member).2 0 zero).1
    exact absurd positive (by decide)
  rw [lookupMsgtype_eq noNul]
  cases found : fixMsgtypeString.reverse.find? fun other =>
      ascii other.2 == ascii entry.2 with
  | none =>
    have absent : ∀ other ∈ fixMsgtypeString, ascii other.2 ≠ ascii entry.2 := by
      simpa using found
    exact absurd rfl (absent entry member)
  | some other =>
    have same : ascii other.2 = ascii entry.2 := by
      simpa using List.find?_some found
    have otherMember : other ∈ fixMsgtypeString := by
      simpa using List.mem_of_find?_eq_some found
    have equal : other = entry :=
      List.inj_on_of_nodup_map nodup_msgtypeTexts otherMember member same
    rw [equal]
    rfl

theorem lookupMsgtype_of_unlisted {text : List UInt8} (noNul : (0 : UInt8) ∉ text)
    (unlisted : ∀ entry ∈ fixMsgtypeString, ascii entry.2 ≠ text) :
    lookupMsgtype text = .fmtCustomMsg := by
  have absent : (fixMsgtypeString.reverse.find? fun entry =>
      ascii entry.2 == text) = none := by
    simpa using unlisted
  rw [lookupMsgtype_eq noNul, absent]
  rfl

/-- `get_fix_msgtype` returns the index of the entry equal to the text, and
`fmt_CustomMsg` for a text that is no entry. -/
theorem getFixMsgtype_exact (soh : UInt8) (s rest : List UInt8)
    (noNul : (0 : UInt8) ∉ s) (closed : soh ∉ s) (short : s.length < 2 ^ 32) :
    (∀ (index : Nat) (entry : FixMsgType × List Char),
        fixMsgtypeString[index]? = some entry → ascii entry.2 = s →
        ∃ type, getFixMsgtype soh (s ++ soh :: rest) = some type ∧
          type.ctorIdx = index) ∧
      ((∀ entry ∈ fixMsgtypeString, ascii entry.2 ≠ s) →
        getFixMsgtype soh (s ++ soh :: rest) = some .fmtCustomMsg) := by
  rw [getFixMsgtype_of_delimited closed short]
  constructor
  · intro index entry listed same
    have member : entry ∈ fixMsgtypeString := List.mem_of_getElem? listed
    have inside : index < fixMsgtypeString.length :=
      (List.getElem?_eq_some_iff.mp listed).1
    refine ⟨entry.1, ?_, ctorIdx_of_getElem? index inside entry listed⟩
    rw [← same, lookupMsgtype_of_entry member]
  · intro unlisted
    rw [lookupMsgtype_of_unlisted noNul unlisted]

/-- A known type, an unknown one with a byte above 127 and one of five
characters. -/
theorem getFixMsgtype_exact_samples :
    (∃ type, getFixMsgtype 1 (ascii ['A', 'E'] ++ 1 :: []) = some type ∧
        type.ctorIdx = 16) ∧
      getFixMsgtype 1 ([0x41, 0xc5] ++ 1 :: []) = some .fmtCustomMsg ∧
      getFixMsgtype 1 (ascii "Hello".toList ++ 1 :: []) = some .fmtCustomMsg :=
  ⟨(getFixMsgtype_exact 1 (ascii ['A', 'E']) [] (by decide) (by decide)
      (by decide)).1 16 _ rfl rfl,
    (getFixMsgtype_exact 1 [0x41, 0xc5] [] (by decide) (by decide)
      (by decide)).2 (by decide +kernel),
    (getFixMsgtype_exact 1 (ascii "Hello".toList) [] (by decide) (by decide)
      (by decide)).2 (by decide +kernel)⟩

/-- On `2 ^ 32` bytes in front of the delimiter the scan does not end. -/
theorem getFixMsgtype_endless :
    (0 : UInt8) ∉ List.replicate (2 ^ 32) (65 : UInt8) ∧
      (1 : UInt8) ∉ List.replicate (2 ^ 32) (65 : UInt8) ∧
      (∀ entry ∈ fixMsgtypeString,
        ascii entry.2 ≠ List.replicate (2 ^ 32) (65 : UInt8)) ∧
      getFixMsgtype 1 (List.replicate (2 ^ 32) (65 : UInt8) ++ 1 :: []) = none := by
  have closed : (1 : UInt8) ∉ List.replicate (2 ^ 32) (65 : UInt8) := by
    intro member
    exact absurd (List.eq_of_mem_replicate member) (by decide)
  refine ⟨?_, closed, ?_, ?_⟩
  · intro member
    exact absurd (List.eq_of_mem_replicate member) (by decide)
  · intro entry member same
    have short := (plainEntry_of_mem entry member).1
    rw [same, List.length_replicate] at short
    omega
  · rw [getFixMsgtype, scanToDelimiter_of_delimited closed,
      List.length_replicate, if_neg (Nat.lt_irrefl _)]
    rfl

end Exact

section Session

/-- `fix_session_msgtype_string`.  The array is sized after
`fix_session_message_types`, whose terminating entry has no text: the last row
is filled with NUL. -/
def fixSessionMsgtypeString : List (List Char) :=
  [['0'], ['1'], ['2'], ['3'], ['4'], ['5'], ['A'], ['n'], []]

/-- The map `is_session_message_ctor` builds, the entry assigned last in
front. -/
def fixSessionMsgtypesMap : List (Nat × Nat) :=
  fixSessionMsgtypeString.zipIdx.foldl
    (fun map entry =>
      match packMsgtype (ascii entry.1) with
      | some key => (key, entry.2) :: map
      | none => map) []

def lookupSessionMsgtype (text : List UInt8) : Bool :=
  match packMsgtype text with
  | none => false
  | some key => (fixSessionMsgtypesMap.lookup key).isSome

/-- `is_session_message` on a delimited text; `none` when its scan does not end
on a delimiter. -/
def isSessionMessageText (soh : UInt8) (str : List UInt8) : Option Bool :=
  (scanToDelimiter soh str).map lookupSessionMsgtype

theorem sessionKey_iff : (∀ entry ∈ fixMsgtypesMap, (isSessionMessage entry.2 = true ↔
      entry.1 ≠ 0 ∧ entry.1 ∈ fixSessionMsgtypesMap.map Prod.fst)) ∧
    (∀ key ∈ fixSessionMsgtypesMap.map Prod.fst, key ∈ fixMsgtypesMap.map Prod.fst) := by
  decide +kernel

theorem lookup_isSome_iff_mem {Key Value : Type*} [BEq Key] [LawfulBEq Key]
    (key : Key) (map : List (Key × Value)) :
    (map.lookup key).isSome = true ↔ key ∈ map.map Prod.fst := by
  rw [List.lookup_isSome_iff, List.mem_map]
  constructor
  · rintro ⟨entry, member, same⟩
    exact ⟨entry, member, (eq_of_beq same).symm⟩
  · rintro ⟨entry, member, rfl⟩
    exact ⟨entry, member, beq_self_eq_true entry.1⟩

theorem mem_of_lookup {Key Value : Type*} [BEq Key] [LawfulBEq Key]
    {key : Key} {value : Value} {map : List (Key × Value)}
    (found : map.lookup key = some value) : (key, value) ∈ map := by
  rw [List.lookup_eq_some_iff] at found
  obtain ⟨front, back, split, _⟩ := found
  rw [split]
  simp

theorem session_of_key (key : Nat) : (fixSessionMsgtypesMap.lookup key).isSome = true ↔ key = 0 ∨
      isSessionMessage ((fixMsgtypesMap.lookup key).getD .fmtCustomMsg) = true := by
  rw [lookup_isSome_iff_mem]
  cases found : fixMsgtypesMap.lookup key with
  | some type =>
    have listed := sessionKey_iff.1 (key, type) (mem_of_lookup found)
    rw [Option.getD_some, listed]
    by_cases zero : key = 0
    · rw [zero]
      simp only [true_or, iff_true]
      decide +kernel
    · simp [zero]
  | none =>
    have unlisted : key ∉ fixMsgtypesMap.map Prod.fst := by
      rw [← lookup_isSome_iff_mem, found]
      simp
    constructor
    · intro session
      exact absurd (sessionKey_iff.2 key session) unlisted
    · rintro (zero | session)
      · rw [zero] at unlisted
        exact absurd (by decide +kernel) unlisted
      · exact absurd session (by decide)

theorem isSessionMessage_zeroKey :
    isSessionMessage ((fixMsgtypesMap.lookup 0).getD .fmtCustomMsg) = false := by
  decide +kernel

theorem signExtend_eq_zero {character : UInt8} : signExtend character = 0 ↔ character = 0 := by
  constructor
  · intro zero
    apply UInt8.toNat_inj.mp
    rw [signExtend] at zero
    split at zero
    · exact zero
    · omega
  · rintro rfl
    decide

theorem shifted_signExtend_eq_zero {character : UInt8} {shift : Nat} (place : shift ≤ 24) :
    (signExtend character <<< shift) % 2 ^ 64 = 0 ↔ character = 0 := by
  constructor
  · intro zero
    by_contra noNul
    have large := le_shifted_signExtend noNul place
    have positive := Nat.two_pow_pos shift
    omega
  · rintro rfl
    simp [signExtend]

theorem packMsgtype_eq_zero {text : List UInt8} :
    packMsgtype text = some 0 ↔ text.length ≤ 4 ∧ ∀ byte ∈ text, byte = 0 := by
  match text with
  | [] => simp [packMsgtype]
  | [c0] => simp [packMsgtype, signExtend_eq_zero]
  | [c0, c1] =>
    simp only [packMsgtype, Option.some.injEq, Nat.or_eq_zero_iff,
      signExtend_eq_zero, shifted_signExtend_eq_zero (show 8 ≤ 24 by decide)]
    simp [and_comm]
  | [c0, c1, c2] =>
    simp only [packMsgtype, Option.some.injEq, Nat.or_eq_zero_iff,
      signExtend_eq_zero, shifted_signExtend_eq_zero (show 8 ≤ 24 by decide),
      shifted_signExtend_eq_zero (show 16 ≤ 24 by decide)]
    simp only [List.length_cons, List.length_nil, List.forall_mem_cons]
    grind
  | [c0, c1, c2, c3] =>
    simp only [packMsgtype, Option.some.injEq, Nat.or_eq_zero_iff,
      signExtend_eq_zero, shifted_signExtend_eq_zero (show 8 ≤ 24 by decide),
      shifted_signExtend_eq_zero (show 16 ≤ 24 by decide),
      shifted_signExtend_eq_zero (show 24 ≤ 24 by decide)]
    simp only [List.length_cons, List.length_nil, List.forall_mem_cons]
    grind
  | c0 :: c1 :: c2 :: c3 :: c4 :: rest => simp [packMsgtype]

theorem lookupSessionMsgtype_iff (text : List UInt8) :
    lookupSessionMsgtype text = isSessionMessage (lookupMsgtype text) ↔
      ¬ (text.length ≤ 4 ∧ ∀ byte ∈ text, byte = 0) := by
  rw [← packMsgtype_eq_zero]
  unfold lookupSessionMsgtype lookupMsgtype
  cases packed : packMsgtype text with
  | none =>
    simp only [reduceCtorEq, not_false_eq_true, iff_true]
    decide
  | some key =>
    simp only [Option.some.injEq]
    rw [Bool.eq_iff_iff, session_of_key]
    constructor
    · rintro agree zero
      rw [zero, isSessionMessage_zeroKey] at agree
      exact absurd (agree.mp (Or.inl rfl)) Bool.false_ne_true
    · intro nonzero
      simp [nonzero]

/-- The two tests return the same answer exactly for the texts below `2 ^ 32`
bytes other than up to four bytes that are all NUL, the empty text among
them. -/
theorem isSessionMessage_agree_iff (soh : UInt8) (s rest : List UInt8) (closed : soh ∉ s) :
    (∃ answer, isSessionMessageText soh (s ++ soh :: rest) = some answer ∧
        (getFixMsgtype soh (s ++ soh :: rest)).map isSessionMessage =
          some answer) ↔
      s.length < 2 ^ 32 ∧ ¬ (s.length ≤ 4 ∧ ∀ byte ∈ s, byte = 0) := by
  rw [isSessionMessageText, getFixMsgtype, scanToDelimiter_of_delimited closed]
  by_cases short : s.length < 2 ^ 32
  · rw [if_pos short, ← lookupSessionMsgtype_iff]
    simp only [Option.map_some, Option.some.injEq, exists_eq_left', short, true_and]
    exact eq_comm
  · rw [if_neg short]
    constructor
    · rintro ⟨answer, returned, _⟩
      exact absurd returned (by simp)
    · rintro ⟨below, _⟩
      exact absurd below short

/-- The agreement on a session type and on an application type. -/
theorem isSessionMessage_agree_logon :
    (∃ answer, isSessionMessageText 1 (ascii ['A'] ++ 1 :: []) = some answer ∧
        (getFixMsgtype 1 (ascii ['A'] ++ 1 :: [])).map isSessionMessage =
          some answer) ∧
      ∃ answer, isSessionMessageText 1 (ascii ['D'] ++ 1 :: []) = some answer ∧
        (getFixMsgtype 1 (ascii ['D'] ++ 1 :: [])).map isSessionMessage =
          some answer :=
  ⟨(isSessionMessage_agree_iff 1 (ascii ['A']) [] (by decide)).mpr (by decide),
    (isSessionMessage_agree_iff 1 (ascii ['D']) [] (by decide)).mpr (by decide)⟩

/-- The empty text is a session message for the one test only. -/
theorem isSessionMessage_disagree_empty :
    (1 : UInt8) ∉ ([] : List UInt8) ∧
      isSessionMessageText 1 ([] ++ 1 :: []) = some true ∧
      (getFixMsgtype 1 ([] ++ 1 :: [])).map isSessionMessage = some false := by
  decide +kernel

end Session

end MercuryFix
