import MercuryFix.ByteBlocks
import MercuryFix.DecimalText
import MercuryFix.FixMessageFields
import MercuryFix.SeparatedWords
import Mathlib.Data.List.Forall2

/-!
# The endpoints of a configuration line

`ConfigItemNetwork::get` cuts a copy of its line at white space and reads one endpoint
from each piece.  A piece without the bar in front of the port makes it write through a
null pointer.
-/

namespace MercuryFix

open DecimalText SeparatedWords

section Functions

inductive PfFamily
  | unspec
  | inet
  | inet6
  deriving DecidableEq

inductive EndpointKind
  | connectToThis
  | listenOnThis
  deriving DecidableEq

structure Endpoint where
  kind : EndpointKind
  interface : List UInt8
  port : Nat
  pfFamily : PfFamily
  deriving DecidableEq

def isConfigDelim (byte : UInt8) : Bool := byte == 32 || byte == 13 || byte == 9

/-- `strsep` at those bytes: the token and what is left, or none at the null pointer. -/
def strsep (data : Option (List UInt8)) : Option (List UInt8 × Option (List UInt8)) :=
  data.map fun text =>
    (text.takeWhile fun byte => !isConfigDelim byte,
      match text.dropWhile fun byte => !isConfigDelim byte with
      | [] => none
      | _ :: rest => some rest)

/-- `strtol` in base ten with a `long` of 64 bits: the number and the text behind it. -/
def strtol (text : List UInt8) : Int × List UInt8 :=
  let trimmed := text.dropWhile isSpace
  let negated := trimmed.head? == some 45
  let unsigned := if negated || trimmed.head? == some 43 then trimmed.drop 1 else trimmed
  let digits := unsigned.takeWhile isDigit
  if digits = [] then (0, text)
  else
    (if negated then max (-(value digits)) (-(2 ^ 63))
      else min (value digits) (2 ^ 63 - 1), unsigned.dropWhile isDigit)

def pfFamilyOf (byte : UInt8) : Option PfFamily :=
  if byte = 63 then some .unspec
  else if byte = 52 then some .inet
  else if byte = 54 then some .inet6
  else none

def kindOf (byte : UInt8) : Option EndpointKind :=
  if byte = 67 then some .connectToThis
  else if byte = 76 then some .listenOnThis
  else none

/-- What one round of the loop does with its token. -/
inductive ItemOutcome
  | nullWrite
  | refused
  | accepted (endpoint : Endpoint)
  deriving DecidableEq

/-- The port, unless there is more behind it or it is out of range. -/
def readPort (pstr : List UInt8) : Option Nat :=
  let (port, rest) := strtol pstr
  if rest ≠ [] then none
  else if port < 1 ∨ 65535 < port then none
  else some port.toNat

/-- The token behind its two letters.  `strchr` may find no bar. -/
def parseAddress (pfFamily : PfFamily) (kind : EndpointKind) (tmp : List UInt8) :
    ItemOutcome :=
  if 124 ∉ tmp then .nullWrite
  else
    let interface := tmp.takeWhile fun byte => byte != 124
    match readPort (tmp.dropWhile fun byte => byte != 124).tail with
    | none => .refused
    | some port =>
      if interface.length ≤ 1 then .refused
      else .accepted ⟨kind, interface, port, pfFamily⟩

def parseEndpoint (tmp : List UInt8) : ItemOutcome :=
  match tmp with
  | [] => .refused
  | family :: tmp =>
    match pfFamilyOf family with
    | none => .refused
    | some pfFamily =>
      match tmp with
      | [] => .refused
      | letter :: tmp =>
        match kindOf letter with
        | none => .refused
        | some kind => parseAddress pfFamily kind tmp

/-- How `get` ends. -/
inductive GetOutcome
  | nullWrite
  | endless
  | returned (retv : Bool) (endpoints : List Endpoint)
  deriving DecidableEq

/-- The loop of `get`, for a number of rounds. -/
def getLoop : Nat → Option (List UInt8) → List Endpoint → GetOutcome
  | 0, _, _ => .endless
  | rounds + 1, dataDup, endpoints =>
    match strsep dataDup with
    | none => .returned true endpoints
    | some (tmp, dataDup) =>
      match parseEndpoint tmp with
      | .nullWrite => .nullWrite
      | .refused => .returned false endpoints
      | .accepted endp => getLoop rounds dataDup (endpoints ++ [endp])

/-- `ConfigItemNetwork::get`; `allocated` says whether `strdup` finds memory. -/
def networkGet (allocated : Bool) (configLine : Option (List UInt8)) : GetOutcome :=
  match configLine with
  | none => .returned false []
  | some line =>
    if allocated then getLoop (line.length + 2) (some line) []
    else .returned false []

end Functions

section Items

theorem strtol_digits {digits : List UInt8} (nonempty : digits ≠ [])
    (areDigits : ∀ byte ∈ digits, isDigit byte = true) :
    strtol digits = (min (value digits : Int) (2 ^ 63 - 1), []) := by
  obtain ⟨first, rest, rfl⟩ := List.exists_cons_of_ne_nil nonempty
  have range := isDigit_iff.mp (areDigits first (by simp))
  have solid : isSpace first = false := by
    simp only [isSpace, Bool.or_eq_false_iff, Bool.and_eq_false_iff, beq_eq_false_iff_ne,
      decide_eq_false_iff_not, UInt8.not_le, UInt8.lt_iff_toNat_lt, ne_eq, ← UInt8.toNat_inj]
    change ¬ first.toNat = 32 ∧ (first.toNat < 9 ∨ 13 < first.toNat)
    omega
  have unsigned : first ≠ 45 ∧ first ≠ 43 := by
    simp only [ne_eq, ← UInt8.toNat_inj]
    change ¬ first.toNat = 45 ∧ ¬ first.toNat = 43
    omega
  have trimmed : (first :: rest).dropWhile isSpace = first :: rest := by simp [solid]
  have taken : (first :: rest).takeWhile isDigit = first :: rest :=
    List.takeWhile_eq_self_iff.mpr areDigits
  have dropped : (first :: rest).dropWhile isDigit = [] := List.dropWhile_eq_nil_iff.mpr areDigits
  simp [strtol, trimmed, taken, dropped, unsigned]

theorem readPort_digits {digits : List UInt8}
    (areDigits : ∀ byte ∈ digits, isDigit byte = true) {port : Nat} :
    readPort digits = some port ↔ digits ≠ [] ∧ value digits = port ∧ 1 ≤ port ∧ port ≤ 65535 := by
  by_cases nonempty : digits = []
  · subst nonempty
    have empty : readPort [] = none := rfl
    simp [empty]
  · rw [readPort, strtol_digits nonempty areDigits]
    simp only [ne_eq, not_true_eq_false, if_false]
    split_ifs with outside
    · refine iff_of_false (by simp) ?_
      rintro ⟨-, rfl, positive, small⟩
      omega
    · simp only [Option.some.injEq, nonempty, not_false_eq_true, true_and]
      omega

def Lettered (word : List UInt8) (pfFamily : PfFamily) (kind : EndpointKind)
    (address : List UInt8) : Prop :=
  ∃ family letter, word = family :: letter :: address ∧
    pfFamilyOf family = some pfFamily ∧ kindOf letter = some kind

def LacksBar (word : List UInt8) : Prop :=
  ∃ pfFamily kind address, Lettered word pfFamily kind address ∧ 124 ∉ address

/-- The form of an item, which gives its endpoint. -/
def SpellsEndpoint (word : List UInt8) (endpoint : Endpoint) : Prop :=
  ∃ port, Lettered word endpoint.pfFamily endpoint.kind
      (endpoint.interface ++ 124 :: port) ∧
    124 ∉ endpoint.interface ∧ 2 ≤ endpoint.interface.length ∧
    (∀ byte ∈ port, isDigit byte = true) ∧ port ≠ [] ∧ value port = endpoint.port ∧
    1 ≤ endpoint.port ∧ endpoint.port ≤ 65535

def portText (word : List UInt8) : List UInt8 := (word.dropWhile fun byte => byte != 124).tail

variable {word address interface port : List UInt8} {pfFamily : PfFamily}
  {kind : EndpointKind} {endpoint : Endpoint}

theorem cut_at_bar (free : 124 ∉ interface) :
    (interface ++ 124 :: port).takeWhile (fun byte => byte != 124) = interface ∧
      (interface ++ 124 :: port).dropWhile (fun byte => byte != 124) = 124 :: port := by
  apply ByteBlock.takeWhile_dropWhile_append
  · intro byte member
    exact bne_iff_ne.mpr fun equal => free (equal ▸ member)
  · rintro byte ⟨⟩
    rfl

theorem parseAddress_bar (free : 124 ∉ interface) :
    parseAddress pfFamily kind (interface ++ 124 :: port) = match readPort port with
      | none => .refused
      | some port =>
        if interface.length ≤ 1 then .refused
        else .accepted ⟨kind, interface, port, pfFamily⟩ := by
  rw [parseAddress, if_neg (by simp), (cut_at_bar free).1, (cut_at_bar free).2]
  rfl

theorem parseEndpoint_lettered (lettered : Lettered word pfFamily kind address) :
    parseEndpoint word = parseAddress pfFamily kind address := by
  obtain ⟨family, letter, rfl, first, second⟩ := lettered
  simp [parseEndpoint, first, second]

theorem parseEndpoint_cases (word : List UInt8) : (parseEndpoint word = .refused ∧
      ∀ pfFamily kind address, ¬ Lettered word pfFamily kind address) ∨
    (parseEndpoint word = .nullWrite ∧ LacksBar word) ∨
    ∃ pfFamily kind interface port,
      Lettered word pfFamily kind (interface ++ 124 :: port) ∧ 124 ∉ interface := by
  by_cases letters : ∃ pfFamily kind address, Lettered word pfFamily kind address
  · obtain ⟨pfFamily, kind, address, lettered⟩ := letters
    by_cases bar : 124 ∈ address
    · obtain ⟨interface, port, rfl, free⟩ := List.eq_append_cons_of_mem bar
      exact .inr (.inr ⟨_, _, _, _, lettered, free⟩)
    · refine .inr (.inl ⟨?_, _, _, _, lettered, bar⟩)
      rw [parseEndpoint_lettered lettered, parseAddress, if_pos bar]
  · push Not at letters
    refine .inl ⟨?_, letters⟩
    match word with
    | [] => rfl
    | [family] => cases first : pfFamilyOf family <;> simp [parseEndpoint, first]
    | family :: letter :: address =>
      cases first : pfFamilyOf family with
      | none => simp [parseEndpoint, first]
      | some pfFamily =>
        cases second : kindOf letter with
        | none => simp [parseEndpoint, first, second]
        | some kind => exact absurd ⟨family, letter, rfl, first, second⟩ (letters _ _ _)

theorem parseEndpoint_accepted_iff : parseEndpoint word = .accepted endpoint ↔
      ∃ port, Lettered word endpoint.pfFamily endpoint.kind (endpoint.interface ++ 124 :: port) ∧
        124 ∉ endpoint.interface ∧ 2 ≤ endpoint.interface.length ∧
        readPort port = some endpoint.port := by
  constructor
  · intro accepted
    rcases parseEndpoint_cases word with ⟨refused, -⟩ | ⟨faults, -⟩ |
      ⟨pfFamily, kind, interface, port, lettered, free⟩
    · cases refused.symm.trans accepted
    · cases faults.symm.trans accepted
    rw [parseEndpoint_lettered lettered, parseAddress_bar free] at accepted
    split at accepted
    · cases accepted
    · rename_i reads
      split_ifs at accepted with short
      cases accepted
      exact ⟨port, lettered, free, not_le.mp short, reads⟩
  · rintro ⟨port, lettered, free, long, reads⟩
    rw [parseEndpoint_lettered lettered, parseAddress_bar free, reads]
    exact if_neg (by omega)

theorem parseEndpoint_nullWrite_iff : parseEndpoint word = .nullWrite ↔ LacksBar word := by
  constructor
  · intro faults
    rcases parseEndpoint_cases word with ⟨refused, -⟩ | ⟨-, lacks⟩ |
      ⟨pfFamily, kind, interface, port, lettered, free⟩
    · cases refused.symm.trans faults
    · exact lacks
    rw [parseEndpoint_lettered lettered, parseAddress_bar free] at faults
    split at faults
    · cases faults
    · split_ifs at faults
  · rintro ⟨pfFamily, kind, address, lettered, bar⟩
    rw [parseEndpoint_lettered lettered, parseAddress, if_pos bar]

theorem portText_lettered (lettered : Lettered word pfFamily kind (interface ++ 124 :: port))
    (free : 124 ∉ interface) : portText word = port := by
  obtain ⟨family, letter, rfl, first, second⟩ := lettered
  have front : 124 ∉ family :: letter :: interface := by
    rw [List.mem_cons, List.mem_cons, not_or, not_or]
    refine ⟨?_, ?_, free⟩
    · rintro rfl
      cases first
    · rintro rfl
      cases second
  rw [portText, ← List.cons_append, ← List.cons_append, (cut_at_bar front).2]
  rfl

theorem spellsEndpoint_iff : SpellsEndpoint word endpoint ↔
      (∀ byte ∈ portText word, isDigit byte = true) ∧ parseEndpoint word = .accepted endpoint := by
  rw [parseEndpoint_accepted_iff]
  constructor
  · rintro ⟨port, lettered, free, long, areDigits, number⟩
    rw [portText_lettered lettered free]
    exact ⟨areDigits, port, lettered, free, long, (readPort_digits areDigits).mpr number⟩
  · rintro ⟨areDigits, port, lettered, free, long, reads⟩
    rw [portText_lettered lettered free] at areDigits
    exact ⟨port, lettered, free, long, areDigits, (readPort_digits areDigits).mp reads⟩

end Items

section Lines

def getTokens : List (List UInt8) → List Endpoint → GetOutcome
  | [], endpoints => .returned true endpoints
  | tmp :: tokens, endpoints =>
    match parseEndpoint tmp with
    | .nullWrite => .nullWrite
    | .refused => .returned false endpoints
    | .accepted endp => getTokens tokens (endpoints ++ [endp])

/-- The string is a list of items with white space between them. -/
def EndpointList (line : List UInt8) (endpoints : List Endpoint) : Prop :=
  ∃ words, Separated isConfigDelim words line ∧ List.Forall₂ SpellsEndpoint words endpoints

theorem strsep_cut {piece rest : List UInt8} {mark : UInt8}
    (free : ∀ byte ∈ piece, isConfigDelim byte = false) (marked : isConfigDelim mark = true) :
    strsep (some (piece ++ mark :: rest)) = some (piece, some rest) := by
  obtain ⟨takes, drops⟩ : (piece ++ mark :: rest).takeWhile (fun byte => !isConfigDelim byte) =
      piece ∧ (piece ++ mark :: rest).dropWhile (fun byte => !isConfigDelim byte) =
      mark :: rest := by
    apply ByteBlock.takeWhile_dropWhile_append
    · intro byte member
      simp [free byte member]
    · rintro byte ⟨⟩
      simp [marked]
  simp [strsep, takes, drops]

theorem strsep_last {text : List UInt8} (free : ∀ byte ∈ text, isConfigDelim byte = false) :
    strsep (some text) = some (text, none) := by
  have kept : ∀ byte ∈ text, (!isConfigDelim byte) = true := by simpa using free
  simp [strsep, List.takeWhile_eq_self_iff.mpr kept, List.dropWhile_eq_nil_iff.mpr kept]

theorem getLoop_eq_getTokens {rounds : Nat} {text : List UInt8}
    (enough : text.length + 2 ≤ rounds) (endpoints : List Endpoint) :
    getLoop rounds (some text) endpoints = getTokens (text.splitOnP isConfigDelim) endpoints := by
  induction rounds generalizing text endpoints with
  | zero => omega
  | succ rounds induction =>
    rw [getLoop]
    rcases splitOnP_cases isConfigDelim text with
      ⟨free, single⟩ | ⟨piece, mark, rest, free, marked, rfl, pieces⟩
    · rw [strsep_last free, single, getTokens]
      obtain ⟨later, rfl⟩ : ∃ later, rounds = later + 1 := ⟨rounds - 1, by omega⟩
      dsimp only
      cases parseEndpoint text <;> rfl
    · rw [List.length_append, List.length_cons] at enough
      rw [strsep_cut free marked, pieces, getTokens]
      dsimp only
      cases parseEndpoint piece with
      | nullWrite | refused => rfl
      | accepted endp => exact induction (by omega) (endpoints ++ [endp])

/-- The tokens are all accepted, in this order. -/
def AcceptedItems (tokens : List (List UInt8)) (endpoints : List Endpoint) : Prop :=
  List.Forall₂ (fun word endp => parseEndpoint word = .accepted endp) tokens endpoints

theorem getTokens_true_iff {tokens : List (List UInt8)} {endpoints all : List Endpoint} :
    getTokens tokens endpoints = .returned true all ↔
      ∃ found, all = endpoints ++ found ∧ AcceptedItems tokens found := by
  unfold AcceptedItems
  induction tokens generalizing endpoints with
  | nil => simp [getTokens, eq_comm]
  | cons word tokens induction =>
    rw [getTokens]
    cases parsed : parseEndpoint word with
    | nullWrite | refused => simp [parsed, List.forall₂_cons_left_iff]
    | accepted endp => simp [parsed, induction, List.forall₂_cons_left_iff]

/-- A token without a bar that is reached behind accepted ones. -/
def ReachesNull (tokens : List (List UInt8)) : Prop :=
  ∃ front word rest, tokens = front ++ word :: rest ∧ LacksBar word ∧
    ∃ endpoints, AcceptedItems front endpoints

theorem getTokens_nullWrite_iff {tokens : List (List UInt8)} (endpoints : List Endpoint) :
    getTokens tokens endpoints = .nullWrite ↔ ReachesNull tokens := by
  unfold ReachesNull AcceptedItems
  induction tokens generalizing endpoints with
  | nil => simp [getTokens]
  | cons word tokens induction =>
    rw [getTokens]
    constructor
    · intro faults
      cases parsed : parseEndpoint word with
      | refused => simp [parsed] at faults
      | nullWrite =>
        exact ⟨[], word, tokens, rfl, parseEndpoint_nullWrite_iff.mp parsed, [], .nil⟩
      | accepted endp =>
        simp only [parsed] at faults
        obtain ⟨front, other, rest, rfl, lacks, found, accepted⟩ := (induction _).mp faults
        exact ⟨word :: front, other, rest, rfl, lacks, endp :: found, .cons parsed accepted⟩
    · rintro ⟨front, other, rest, shape, lacks, found, accepted⟩
      cases accepted with
      | nil =>
        cases shape
        rw [parseEndpoint_nullWrite_iff.mpr lacks]
      | cons parsed accepted =>
        cases shape
        rw [parsed]
        exact (induction _).mpr ⟨_, other, rest, rfl, lacks, _, accepted⟩

theorem getTokens_ne_endless (tokens : List (List UInt8)) (endpoints : List Endpoint) :
    getTokens tokens endpoints ≠ .endless := by
  induction tokens generalizing endpoints with
  | nil => simp [getTokens]
  | cons word tokens induction =>
    rw [getTokens]
    cases parseEndpoint word with
    | nullWrite | refused => simp
    | accepted endp => exact induction _

theorem forall₂_spells_iff {words : List (List UInt8)} {endpoints : List Endpoint} :
    List.Forall₂ SpellsEndpoint words endpoints ↔
      (∀ word ∈ words, ∀ byte ∈ portText word, isDigit byte = true) ∧
        AcceptedItems words endpoints := by
  rw [AcceptedItems, ← List.forall₂_and_left]
  simp only [← spellsEndpoint_iff]

theorem AcceptedItems.solid {tokens : List (List UInt8)} {endpoints : List Endpoint}
    (accepted : AcceptedItems tokens endpoints) : [] ∉ tokens := by
  unfold AcceptedItems at accepted
  induction accepted with
  | nil => simp
  | cons parsed _ induction =>
    rintro (- | ⟨-, member⟩)
    · cases parsed
    · exact induction member

theorem EndpointList.spelled {line : List UInt8} {items : List Endpoint}
    (list : EndpointList line items) (solid : [] ∉ line.splitOnP isConfigDelim) :
    List.Forall₂ SpellsEndpoint (line.splitOnP isConfigDelim) items := by
  obtain ⟨words, separated, spelled⟩ := list
  rwa [separated.splitOnP_eq solid]

end Lines

/-- The endpoints are read exactly if the string is no list or is copied and has no runs
of white space, if no token that is reached lacks its bar, and if the ports of accepted
tokens are plain digits. -/
theorem networkGet_exact_iff (allocated : Bool) (line : List UInt8) :
    (∃ retv endpoints, networkGet allocated (some line) = .returned retv endpoints ∧
      (retv = true ↔ ∃ items, EndpointList line items) ∧
      (retv = true → EndpointList line endpoints)) ↔
    (allocated = true → ¬ ReachesNull (line.splitOnP isConfigDelim)) ∧
    (allocated = true → (∃ items, AcceptedItems (line.splitOnP isConfigDelim) items) →
      ∀ word ∈ line.splitOnP isConfigDelim, ∀ byte ∈ portText word, isDigit byte = true) ∧
    ((∃ items, EndpointList line items) →
      allocated = true ∧ [] ∉ line.splitOnP isConfigDelim) := by
  cases allocated with
  | false => simp [networkGet]
  | true =>
    have loop : networkGet true (some line) = getTokens (line.splitOnP isConfigDelim) [] :=
      getLoop_eq_getTokens le_rfl []
    simp only [loop, forall_const, true_and, ← getTokens_nullWrite_iff []]
    cases outcome : getTokens (line.splitOnP isConfigDelim) [] with
    | nullWrite => simp
    | endless => exact absurd outcome (getTokens_ne_endless _ _)
    | returned retv read =>
      cases retv with
      | true =>
        obtain ⟨_, rfl, accepted⟩ := getTokens_true_iff.mp outcome
        have solid := accepted.solid
        constructor
        · rintro ⟨retv, endpoints, same, -, list⟩
          cases same
          have spelled := (list rfl).spelled solid
          exact ⟨by simp, fun _ => (forall₂_spells_iff.mp spelled).1, fun _ => solid⟩
        · rintro ⟨-, plain, -⟩
          have list : EndpointList line read := ⟨_, separated_splitOnP solid,
            forall₂_spells_iff.mpr ⟨plain ⟨read, accepted⟩, accepted⟩⟩
          exact ⟨true, read, rfl, by simpa using ⟨read, list⟩, fun _ => list⟩
      | false =>
        have none_accepted :
            ¬ ∃ items, AcceptedItems (line.splitOnP isConfigDelim) items := by
          rintro ⟨items, accepted⟩
          cases outcome.symm.trans (getTokens_true_iff.mpr ⟨items, rfl, accepted⟩)
        constructor
        · rintro ⟨retv, endpoints, same, iff, -⟩
          cases same
          exact ⟨by simp, fun accepted => absurd accepted none_accepted,
            fun list => absurd (iff.mpr list) (by simp)⟩
        · rintro ⟨-, -, solid⟩
          refine ⟨false, read, rfl, iff_of_false (by simp) ?_, by simp⟩
          rintro ⟨items, list⟩
          have spelled := list.spelled (solid ⟨items, list⟩)
          exact none_accepted ⟨items, (forall₂_spells_iff.mp spelled).2⟩

/-- `4Ceth0|80` is read as its endpoint. -/
theorem networkGet_exact_one :
    networkGet true (some [52, 67, 101, 116, 104, 48, 124, 56, 48]) =
      .returned true [⟨.connectToThis, [101, 116, 104, 48], 80, .inet⟩] ∧
    ∃ retv endpoints, networkGet true (some [52, 67, 101, 116, 104, 48, 124, 56, 48]) =
        .returned retv endpoints ∧
      (retv = true ↔ ∃ items, EndpointList [52, 67, 101, 116, 104, 48, 124, 56, 48] items) ∧
      (retv = true → EndpointList [52, 67, 101, 116, 104, 48, 124, 56, 48] endpoints) := by
  have pieces : [52, 67, 101, 116, 104, 48, 124, 56, 48].splitOnP isConfigDelim =
      [[52, 67, 101, 116, 104, 48, 124, 56, 48]] := by decide
  refine ⟨by decide, (networkGet_exact_iff true _).mpr ⟨fun _ => ?_, fun _ _ => ?_, ?_⟩⟩
  · rw [← getTokens_nullWrite_iff []]
    decide
  · intro word member
    rw [pieces, List.mem_singleton] at member
    subst member
    exact List.all_eq_true.mp rfl
  · exact fun _ => ⟨rfl, by decide⟩

/-- Without its bar an item makes `get` write through a null pointer, and two blanks
between two items make it refuse them. -/
theorem networkGet_fails :
    networkGet true (some [52, 67, 101, 116, 104, 48]) = .nullWrite ∧
    networkGet true (some [52, 67, 101, 116, 124, 56, 32, 32, 52, 67, 108, 111, 124, 57]) =
      .returned false [⟨.connectToThis, [101, 116], 8, .inet⟩] ∧
    ∃ items, EndpointList [52, 67, 101, 116, 124, 56, 32, 32, 52, 67, 108, 111, 124, 57]
      items := by
  have separated : Separated isConfigDelim
      [[52, 67, 101, 116, 124, 56], [52, 67, 108, 111, 124, 57]]
      ([52, 67, 101, 116, 124, 56] ++ [32, 32] ++ [52, 67, 108, 111, 124, 57]) :=
    .cons ⟨by simp, by simp [isConfigDelim]⟩ (by simp) (by simp [isConfigDelim])
      (.single ⟨by simp, by simp [isConfigDelim]⟩)
  refine ⟨by decide, by decide, [⟨.connectToThis, [101, 116], 8, .inet⟩,
    ⟨.connectToThis, [108, 111], 9, .inet⟩], _, separated, .cons ?_ (.cons ?_ .nil)⟩
  · exact spellsEndpoint_iff.mpr ⟨List.all_eq_true.mp rfl, by decide⟩
  · exact spellsEndpoint_iff.mpr ⟨List.all_eq_true.mp rfl, by decide⟩

end MercuryFix
