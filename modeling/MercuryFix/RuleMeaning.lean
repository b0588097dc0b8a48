import MercuryFix.RuleSkips

/-!
# The meaning of an expression

An expression is a chain of terms, and a term is an ID or a group, which is a chain
of IDs.  Its value is the fold of the operators from left to right.

The loop does not leave a group at its end, and a skip that starts in a group may
stop behind it.  It stops at the other operator then, and the terms in between
cannot change the value: an operator is skipped only if the value absorbs it.
-/

namespace MercuryFix

section Chains

inductive RuleOperator
  | and
  | or
  deriving DecidableEq

def RuleOperator.apply : RuleOperator → Bool → Bool → Bool
  | and, left, right => left && right
  | or, left, right => left || right

/-- The value that an operator takes its right side for. -/
def RuleOperator.unit : RuleOperator → Bool
  | and => true
  | or => false

def RuleOperator.other : RuleOperator → RuleOperator
  | and => or
  | or => and

structure Chain (Item : Type) where
  head : Item
  tail : List (RuleOperator × Item)

variable {Item : Type}

/-- The operators of a chain from left to right. -/
def foldFrom (value : Item → Bool) (start : Bool) (tail : List (RuleOperator × Item)) : Bool :=
  tail.foldl (fun result entry => entry.1.apply result (value entry.2)) start

def Chain.fold (value : Item → Bool) (chain : Chain Item) : Bool :=
  foldFrom value (value chain.head) chain.tail

/-- A chain from the first operator of a kind. -/
def seek (operator : RuleOperator) (tail : List (RuleOperator × Item)) :
    List (RuleOperator × Item) :=
  tail.dropWhile fun entry => entry.1 ≠ operator

@[simp]
theorem RuleOperator.apply_unit (operator : RuleOperator) (right : Bool) :
    operator.apply operator.unit right = right := by
  cases operator <;> rfl

theorem RuleOperator.apply_absorbed {operator sought : RuleOperator}
    (differs : operator ≠ sought) (right : Bool) :
    operator.apply sought.unit right = sought.unit := by
  cases operator <;> cases sought <;> first | rfl | exact absurd rfl differs

theorem RuleOperator.ne_other (operator : RuleOperator) : operator ≠ operator.other := by
  cases operator <;> decide

theorem RuleOperator.unit_other {operator : RuleOperator} {value : Bool}
    (absorbs : value ≠ operator.unit) : value = operator.other.unit := by
  cases operator <;> cases value <;> first | rfl | exact absurd rfl absorbs

theorem foldFrom_cons (value : Item → Bool) (start : Bool)
    (entry : RuleOperator × Item) (tail : List (RuleOperator × Item)) :
    foldFrom value start (entry :: tail) =
      foldFrom value (entry.1.apply start (value entry.2)) tail :=
  rfl

/-- What stands in front of the first operator of a kind does not change a value
that absorbs the other kind. -/
theorem foldFrom_seek (value : Item → Bool) (operator : RuleOperator)
    (tail : List (RuleOperator × Item)) :
    foldFrom value operator.unit (seek operator tail) = foldFrom value operator.unit tail := by
  induction tail with
  | nil => rfl
  | cons entry tail induction =>
    by_cases here : entry.1 = operator
    · rw [seek, List.dropWhile_cons_of_neg (by simpa using here)]
    · rw [seek, List.dropWhile_cons_of_pos (by simpa using here), foldFrom_cons,
        RuleOperator.apply_absorbed here]
      exact induction

theorem seek_suffix (operator : RuleOperator) (tail : List (RuleOperator × Item)) :
    seek operator tail <:+ tail :=
  List.dropWhile_suffix _

end Chains

section Texts

def RuleOperator.character : RuleOperator → UInt8
  | and => andChar
  | or => orChar

variable {Item : Type}

def tailText (text : Item → List UInt8) (tail : List (RuleOperator × Item)) :
    List UInt8 :=
  tail.flatMap fun entry => entry.1.character :: text entry.2

def Chain.text (text : Item → List UInt8) (chain : Chain Item) : List UInt8 :=
  text chain.head ++ tailText text chain.tail

/-- A hexadecimal ID, with or without the lead that `strtoul` takes. -/
structure IdText where
  lead : List UInt8
  digits : List UInt8
  lead_mem : lead ∈ [[], ascii ['0', 'x'], ascii ['0', 'X']]
  hex : ∀ digit ∈ digits, isHexDigit digit = true
  nonzero : hexValue digits ≠ 0
  small : hexValue digits < 2 ^ 32

def IdText.text (id : IdText) : List UInt8 := id.lead ++ id.digits

inductive RuleTerm
  | single (id : IdText)
  | group (content : Chain IdText)

def RuleTerm.text : RuleTerm → List UInt8
  | single id => id.text
  | group content => parStart :: content.text IdText.text ++ [parEnd]

def RuleTerm.value (truth : IdText → Bool) : RuleTerm → Bool
  | single id => truth id
  | group content => content.fold truth

def RuleTerm.ids : RuleTerm → List IdText
  | single id => [id]
  | group content => content.head :: content.tail.map Prod.snd

theorem tailText_cons (text : Item → List UInt8) (entry : RuleOperator × Item)
    (tail : List (RuleOperator × Item)) :
    tailText text (entry :: tail) = entry.1.character :: (text entry.2 ++ tailText text tail) :=
  rfl

end Texts

section Digits

theorem ne_of_isHexDigit {digit character : UInt8} (hex : isHexDigit digit = true)
    (plain : isHexDigit character = false) : digit ≠ character := by
  rintro rfl
  rw [hex] at plain
  cases plain

theorem isSpace_of_isHexDigit {digit : UInt8} (hex : isHexDigit digit = true) :
    isSpace digit = false := by
  simp only [isHexDigit, Bool.or_eq_true, Bool.and_eq_true, decide_eq_true_eq,
    UInt8.le_iff_toNat_le] at hex
  simp only [isSpace, Bool.or_eq_false_iff, Bool.and_eq_false_iff, beq_eq_false_iff_ne,
    decide_eq_false_iff_not, UInt8.le_iff_toNat_le, ne_eq, ← UInt8.toNat_inj]
  simp at hex ⊢
  omega

def Stops (rest : List UInt8) : Prop := ∀ character ∈ rest.head?, isHexDigit character = false

theorem stops_nil : Stops [] := nofun

theorem stops_cons {character : UInt8} (plain : isHexDigit character = false)
    (rest : List UInt8) : Stops (character :: rest) := by
  rintro _ ⟨⟩
  exact plain

theorem RuleOperator.plain (operator : RuleOperator) : isHexDigit operator.character = false := by
  cases operator <;> decide

theorem stops_tailText {Item : Type} (text : Item → List UInt8)
    (tail : List (RuleOperator × Item)) {rest : List UInt8} (stops : Stops rest) :
    Stops (tailText text tail ++ rest) := by
  cases tail with
  | nil => exact stops
  | cons entry tail => exact stops_cons entry.1.plain _

theorem IdText.skipHexPrefix_text (id : IdText) (rest : List UInt8) :
    skipHexPrefix (id.text ++ rest) = id.digits ++ rest := by
  obtain ⟨lead, digits, lead_mem, hex, nonzero, small⟩ := id
  obtain ⟨first, digits, rfl⟩ : ∃ first more, digits = first :: more := by
    cases digits with
    | nil => exact absurd rfl nonzero
    | cons first more => exact ⟨first, more, rfl⟩
  have firstHex := hex first (by simp)
  simp only [IdText.text, List.mem_cons, List.not_mem_nil, or_false] at lead_mem ⊢
  rcases lead_mem with rfl | rfl | rfl
  · -- A zero in front of the digits is not a lead: a digit follows, not an `x`.
    rw [List.nil_append]
    unfold skipHexPrefix
    split
    · rename_i x digit more shape
      cases digits with
      | nil =>
        injection shape with zero
        subst zero
        exact absurd rfl nonzero
      | cons second digits =>
        have secondHex := hex second (by simp)
        have same : second = x := (List.cons.inj (List.cons.inj shape).2).1
        subst same
        rw [if_neg]
        simp [ne_of_isHexDigit secondHex (show isHexDigit 120 = false by decide),
          ne_of_isHexDigit secondHex (show isHexDigit 88 = false by decide)]
    · rfl
  · simp [skipHexPrefix, ascii, firstHex]
  · simp [skipHexPrefix, ascii, firstHex]

theorem IdText.exists_text (id : IdText) :
    ∃ first rest, id.text = first :: rest ∧ isHexDigit first = true := by
  obtain ⟨lead, digits, lead_mem, hex, nonzero, small⟩ := id
  simp only [IdText.text, List.mem_cons, List.not_mem_nil, or_false] at lead_mem ⊢
  rcases lead_mem with rfl | rfl | rfl
  · cases digits with
    | nil => exact absurd rfl nonzero
    | cons first rest => exact ⟨first, rest, rfl, hex first (by simp)⟩
  · exact ⟨_, _, rfl, by decide⟩
  · exact ⟨_, _, rfl, by decide⟩

theorem IdText.not_mem_text (id : IdText) {character : UInt8}
    (plain : isHexDigit character = false) (notX : character ≠ 120)
    (notUpperX : character ≠ 88) : character ∉ id.text := by
  obtain ⟨lead, digits, lead_mem, hex, nonzero, small⟩ := id
  have notDigit : character ∉ digits := fun member =>
    ne_of_isHexDigit (hex character member) plain rfl
  have notZero : character ≠ 48 := by
    rintro rfl
    cases plain
  simp only [IdText.text, List.mem_cons, List.not_mem_nil, or_false] at lead_mem ⊢
  rcases lead_mem with rfl | rfl | rfl <;> simp [ascii, *]

theorem IdText.strtoul_text (id : IdText) {rest : List UInt8} (stops : Stops rest) :
    strtoul (id.text ++ rest) = (hexValue id.digits, rest) := by
  obtain ⟨first, more, text, firstHex⟩ := id.exists_text
  have trimmed : (id.text ++ rest).dropWhile isSpace = id.text ++ rest := by
    rw [text]
    simp [isSpace_of_isHexDigit firstHex]
  have head : (id.text ++ rest).head? = some first := by
    rw [text]
    rfl
  have unsigned : first ≠ 45 ∧ first ≠ 43 :=
    ⟨ne_of_isHexDigit firstHex (by decide), ne_of_isHexDigit firstHex (by decide)⟩
  have digits : id.digits ≠ [] := by
    intro empty
    exact id.nonzero (by rw [empty]; rfl)
  obtain ⟨takes, drops⟩ := ByteBlock.takeWhile_dropWhile_append id.hex stops
  have small := id.small
  simp [strtoul, trimmed, head, unsigned.1, unsigned.2, id.skipHexPrefix_text, takes, drops, digits]
  omega

end Digits

section Skipping

theorem IdText.skipForwardTo_text (id : IdText) (operator : RuleOperator) (rest : List UInt8) :
    skipForwardTo operator.character (id.text ++ rest) = skipForwardTo operator.character rest := by
  have notOperator : operator.character ∉ id.text := by
    cases operator <;> exact id.not_mem_text (by decide) (by decide) (by decide)
  have notStart : parStart ∉ id.text := id.not_mem_text (by decide) (by decide) (by decide)
  exact skipForwardTo_plain notOperator notStart rest

theorem not_mem_idChain {character : UInt8} (plain : isHexDigit character = false)
    (notX : character ≠ 120) (notUpperX : character ≠ 88)
    (notOperator : ∀ operator : RuleOperator, character ≠ operator.character)
    (content : Chain IdText) : character ∉ content.text IdText.text := by
  have notId (id : IdText) : character ∉ id.text := id.not_mem_text plain notX notUpperX
  simp [Chain.text, tailText, notId, notOperator]

theorem RuleTerm.skipForwardTo_text (term : RuleTerm) (operator : RuleOperator)
    (rest : List UInt8) :
    skipForwardTo operator.character (term.text ++ rest) =
      skipForwardTo operator.character rest := by
  cases term with
  | single id => exact id.skipForwardTo_text operator rest
  | group content =>
    have noStart : parStart ∉ content.text IdText.text :=
      not_mem_idChain (by decide) (by decide) (by decide)
        (fun operator => by cases operator <;> decide) content
    have noEnd : parEnd ∉ content.text IdText.text :=
      not_mem_idChain (by decide) (by decide) (by decide)
        (fun operator => by cases operator <;> decide) content
    have notStart : parStart ≠ operator.character := by
      cases operator <;> decide
    have shape : RuleTerm.text (.group content) ++ rest =
        parStart :: (content.text IdText.text ++ parEnd :: rest) := by
      simp [RuleTerm.text]
    rw [shape, skipForwardTo_block _ notStart, overBlock_flat noStart noEnd]

theorem skipForwardTo_tailText {Item : Type} {text : Item → List UInt8} {operator : RuleOperator}
    (passes : ∀ item rest, skipForwardTo operator.character (text item ++ rest) =
      skipForwardTo operator.character rest)
    (tail : List (RuleOperator × Item)) (rest : List UInt8) :
    skipForwardTo operator.character (tailText text tail ++ rest) =
      if seek operator tail = [] then skipForwardTo operator.character rest
      else .ok (tailText text (seek operator tail) ++ rest) := by
  induction tail with
  | nil => rfl
  | cons entry tail induction =>
    by_cases here : entry.1 = operator
    · rw [seek, List.dropWhile_cons_of_neg (by simpa using here),
        if_neg (List.cons_ne_nil _ _), tailText_cons, here]
      exact skipForwardTo_here _ _
    · have different : entry.1.character ≠ operator.character := by
        intro same
        apply here
        revert same
        cases entry.1 <;> cases operator <;> decide
      have notStart : entry.1.character ≠ parStart := by
        cases entry.1 <;> decide
      rw [seek, List.dropWhile_cons_of_pos (by simpa using here), tailText_cons,
        List.cons_append, skipForwardTo_cons _ different notStart,
        List.append_assoc, passes]
      exact induction

end Skipping

section Meaning

open FuelledLoop

variable {context : RuleContext} {truth : IdText → Bool}

/-- The truth value of an ID is the one that `evaluate_criteria` gives it. -/
def Known (context : RuleContext) (truth : IdText → Bool) (id : IdText) : Prop :=
  evaluateCriteria context id.text = .ok (truth id, [])

variable {rest : List UInt8}

theorem criteriaMove_id {id : IdText} (known : Known context truth id) (stops : Stops rest) :
    criteriaMove context (id.text ++ rest) = .inr ⟨rest, truth id⟩ := by
  have alone : strtoul id.text = (hexValue id.digits, []) := by
    have reads := id.strtoul_text stops_nil
    rwa [List.append_nil] at reads
  have nonzero : UInt32.ofNat (hexValue id.digits) ≠ 0 := by
    intro zero
    have same : (UInt32.ofNat (hexValue id.digits)).toNat = 0 := by
      rw [zero]
      rfl
    rw [UInt32.toNat_ofNat_of_lt' id.small] at same
    exact id.nonzero same
  rw [Known, evaluateCriteria, criteriaId, alone, if_neg (fun invalid =>
    nonzero invalid.1)] at known
  rw [criteriaMove, evaluateCriteria, criteriaId, id.strtoul_text stops,
    if_neg (fun invalid => nonzero invalid.1)]
  cases evaluates : evaluateId context (UInt32.ofNat (hexValue id.digits)) with
  | error fault =>
    rw [evaluates] at known
    cases known
  | ok value =>
    rw [evaluates] at known
    cases known
    rfl

theorem not_mem_ruleCharacters {digit : UInt8} (hex : isHexDigit digit = true) :
    digit ∉ ruleCharacters := by
  intro member
  have plain : ∀ character ∈ ruleCharacters, isHexDigit character = false := by
    simp [ruleCharacters, parEnd, andChar, orChar, parStart, isHexDigit]
  exact ne_of_isHexDigit hex (plain digit member) rfl

theorem headMove_id {id : IdText} (known : Known context truth id) {expression : List UInt8}
    (opens : opened expression = id.text ++ rest) (stops : Stops rest) (retv : Bool) :
    headMove context ⟨expression, retv⟩ = .inr ⟨rest, truth id⟩ := by
  obtain ⟨first, more, text, hex⟩ := id.exists_text
  have moves := criteriaMove_id known stops
  rw [text, List.cons_append] at opens moves
  rw [headMove_plain opens (not_mem_ruleCharacters hex), moves]

theorem headMove_operator (operator : RuleOperator) (rest : List UInt8) (retv : Bool) :
    headMove context ⟨operator.character :: rest, retv⟩ =
      if retv = operator.unit then termMove context rest
      else skipMove (skipForwardTo operator.other.character rest) retv := by
  cases operator <;> cases retv <;> rfl

theorem headMove_absorbed (context : RuleContext) {operator : RuleOperator} {retv : Bool}
    (absorbs : retv ≠ operator.unit) {place : List UInt8}
    (passes : skipForwardTo operator.other.character place =
      skipForwardTo operator.other.character rest) :
    headMove context ⟨operator.character :: place, retv⟩ =
      skipMove (skipForwardTo operator.other.character rest) retv := by
  rw [headMove_operator, if_neg absorbs, passes]

theorem headMove_end (rest : List UInt8) (retv : Bool) :
    headMove context ⟨parEnd :: rest, retv⟩ = .inr ⟨rest, retv⟩ :=
  rfl

theorem leaves_id {id : IdText} (known : Known context truth id) (stops : Stops rest) (retv : Bool)
    {result : Except RuleFault Bool} (leaves : Leaves (headMove context) ⟨rest, truth id⟩ result) :
    Leaves (headMove context) ⟨id.text ++ rest, retv⟩ result := by
  obtain ⟨first, more, text, hex⟩ := id.exists_text
  refine .of_inr (headMove_id known ?_ stops retv) leaves
  rw [text, List.cons_append, opened, if_neg (ne_of_isHexDigit hex (by decide))]

theorem leaves_of_termMove (term : RuleTerm) {head : RuleHead} {result : Except RuleFault Bool}
    (moves : headMove context head = termMove context (term.text ++ rest))
    (leaves : Leaves (headMove context) ⟨term.text ++ rest, false⟩ result) :
    Leaves (headMove context) head result := by
  cases term with
  | group content => exact .of_inr moves leaves
  | single id =>
    obtain ⟨first, more, text, hex⟩ := id.exists_text
    have notStart : first ≠ parStart := ne_of_isHexDigit hex (by decide)
    apply leaves.of_eq
    rw [moves, RuleTerm.text, text, List.cons_append, termMove, List.head?_cons,
      if_neg (fun start => notStart (Option.some.inj start)),
      headMove_plain (by rw [opened, if_neg notStart]) (not_mem_ruleCharacters hex)]

theorem skipForwardTo_terms (operator : RuleOperator) (terms : List (RuleOperator × RuleTerm)) :
    skipForwardTo operator.character (tailText RuleTerm.text terms) =
      .ok (tailText RuleTerm.text (seek operator terms)) := by
  have skips := skipForwardTo_tailText
    (fun term rest => RuleTerm.skipForwardTo_text term operator rest) terms []
  rw [List.append_nil, List.append_nil] at skips
  rw [skips]
  split
  · rename_i empty
    rw [empty]
    rfl
  · rfl

theorem skipForwardTo_ids (operator : RuleOperator)
    (ids : List (RuleOperator × IdText)) (terms : List (RuleOperator × RuleTerm)) :
    skipForwardTo operator.character
        (tailText IdText.text ids ++ parEnd :: tailText RuleTerm.text terms) =
      .ok (if seek operator ids = [] then
          tailText RuleTerm.text (seek operator terms)
        else
          tailText IdText.text (seek operator ids) ++ parEnd :: tailText RuleTerm.text terms) := by
  have passes : skipForwardTo operator.character (parEnd :: tailText RuleTerm.text terms) =
        .ok (tailText RuleTerm.text (seek operator terms)) := by
    rw [skipForwardTo_cons _ (by cases operator <;> decide) (by decide)]
    exact skipForwardTo_terms operator terms
  rw [skipForwardTo_tailText (fun id rest =>
    IdText.skipForwardTo_text id operator rest) ids, passes]
  split_ifs
  · rfl
  · rfl

/-- From each of these places behind a term the loop folds the terms that are
left. -/
def FoldsBehind (context : RuleContext) (truth : IdText → Bool)
    (terms : List (RuleOperator × RuleTerm)) : Prop :=
  ∀ later, later <:+ terms → ∀ retv,
    Leaves (headMove context) ⟨tailText RuleTerm.text later, retv⟩
      (.ok (foldFrom (RuleTerm.value truth) retv later))

variable {terms : List (RuleOperator × RuleTerm)}

theorem leaves_ids (behind : FoldsBehind context truth terms) {ids : List (RuleOperator × IdText)}
    (known : ∀ entry ∈ ids, Known context truth entry.2) (retv : Bool) :
    Leaves (headMove context)
      ⟨tailText IdText.text ids ++ parEnd :: tailText RuleTerm.text terms, retv⟩
      (.ok (foldFrom (RuleTerm.value truth) (foldFrom truth retv ids) terms)) := by
  induction length : ids.length using Nat.strongRecOn generalizing ids retv with
  | _ length induction =>
    subst length
    cases ids with
    | nil => exact .of_inr (headMove_end _ retv) (behind terms (List.suffix_refl _) retv)
    | cons entry ids =>
      obtain ⟨operator, id⟩ := entry
      have knownTail : ∀ entry ∈ ids, Known context truth entry.2 :=
        fun entry member => known entry (List.mem_cons_of_mem _ member)
      rw [tailText_cons, List.cons_append, List.append_assoc, foldFrom_cons]
      dsimp only
      by_cases evaluated : retv = operator.unit
      · have stops : Stops (tailText IdText.text ids ++ parEnd :: tailText RuleTerm.text terms) :=
          stops_tailText _ _ (stops_cons (by decide) _)
        subst evaluated
        rw [RuleOperator.apply_unit]
        apply leaves_of_termMove (.single id)
        · rw [headMove_operator, if_pos rfl]
          rfl
        · exact leaves_id (known (operator, id) (by simp)) stops false
            (induction ids.length (Nat.lt_succ_self _) knownTail _ rfl)
      · have absorbing := RuleOperator.unit_other evaluated
        subst absorbing
        rw [RuleOperator.apply_absorbed operator.ne_other, ← foldFrom_seek truth]
        have moves := headMove_absorbed context evaluated
          (id.skipForwardTo_text operator.other (tailText IdText.text ids ++
            parEnd :: tailText RuleTerm.text terms))
        rw [skipForwardTo_ids] at moves
        by_cases none : seek operator.other ids = []
        · -- The skip goes on behind the group, with a value that still absorbs.
          rw [if_pos none] at moves
          have value : foldFrom truth operator.other.unit
              (seek operator.other ids) = operator.other.unit := by
            rw [none]
            rfl
          rw [value, ← foldFrom_seek]
          exact .of_inr moves (behind _ (seek_suffix _ _) _)
        · rw [if_neg none] at moves
          have shorter : (seek operator.other ids).length ≤ ids.length :=
            (seek_suffix _ _).length_le
          refine .of_inr moves (induction _ (Nat.lt_succ_of_le shorter)
            (fun entry member => ?_) _ rfl)
          exact knownTail entry ((seek_suffix _ _).subset member)

theorem leaves_term (behind : FoldsBehind context truth terms) {term : RuleTerm}
    (known : ∀ id ∈ term.ids, Known context truth id) (retv : Bool) :
    Leaves (headMove context) ⟨term.text ++ tailText RuleTerm.text terms, retv⟩
      (.ok (foldFrom (RuleTerm.value truth) (term.value truth) terms)) := by
  cases term with
  | single id =>
    have stops : Stops (tailText RuleTerm.text terms) := by
      have stops := stops_tailText RuleTerm.text terms stops_nil
      rwa [List.append_nil] at stops
    exact leaves_id (known id (List.mem_singleton_self id)) stops retv
      (behind terms (List.suffix_refl _) _)
  | group content =>
    have shape : RuleTerm.text (.group content) ++ tailText RuleTerm.text terms =
        parStart :: (content.head.text ++ (tailText IdText.text content.tail ++
          parEnd :: tailText RuleTerm.text terms)) := by
      simp [RuleTerm.text, Chain.text]
    have stops : Stops (tailText IdText.text content.tail ++
        parEnd :: tailText RuleTerm.text terms) :=
      stops_tailText _ _ (stops_cons (by decide) _)
    rw [shape]
    refine .of_inr (headMove_id (known content.head (by simp [RuleTerm.ids])) rfl stops retv) ?_
    refine leaves_ids behind (fun entry member => known entry.2 ?_) _
    exact List.mem_cons_of_mem _ (List.mem_map_of_mem member)

theorem leaves_terms (known : ∀ entry ∈ terms, ∀ id ∈ entry.2.ids, Known context truth id)
    (retv : Bool) :
    Leaves (headMove context) ⟨tailText RuleTerm.text terms, retv⟩
      (.ok (foldFrom (RuleTerm.value truth) retv terms)) := by
  induction length : terms.length using Nat.strongRecOn generalizing terms retv with
  | _ length induction =>
    subst length
    cases terms with
    | nil => exact .of_inl rfl
    | cons entry terms =>
      obtain ⟨operator, term⟩ := entry
      have behind : FoldsBehind context truth terms := by
        intro later suffix retv
        apply induction _ (Nat.lt_succ_of_le suffix.length_le) _ _ rfl
        intro entry member
        exact known entry (List.mem_cons_of_mem _ (suffix.subset member))
      have knownTerm := known (operator, term) (by simp)
      rw [tailText_cons, foldFrom_cons]
      dsimp only
      by_cases evaluated : retv = operator.unit
      · subst evaluated
        rw [RuleOperator.apply_unit]
        refine leaves_of_termMove term ?_ (leaves_term behind knownTerm false)
        rw [headMove_operator, if_pos rfl]
      · have absorbing := RuleOperator.unit_other evaluated
        subst absorbing
        have moves := headMove_absorbed context evaluated
          (term.skipForwardTo_text operator.other (tailText RuleTerm.text terms))
        rw [skipForwardTo_terms] at moves
        rw [RuleOperator.apply_absorbed operator.ne_other, ← foldFrom_seek]
        exact .of_inr moves (behind _ (seek_suffix _ _) _)

end Meaning

/-- An expression has the value of its fold from left to right. -/
theorem evaluateExpression_fold (context : RuleContext)
    (truth : IdText → Bool) (expression : Chain RuleTerm)
    (known : ∀ term ∈ expression.head :: expression.tail.map Prod.snd,
      ∀ id ∈ term.ids,
        evaluateCriteria context id.text = .ok (truth id, [])) :
    ∃ enough, ∀ fuel ≥ enough,
      evaluateExpression context fuel (expression.text RuleTerm.text) =
        .ok (expression.fold (RuleTerm.value truth), []) := by
  have knownTail : ∀ entry ∈ expression.tail, ∀ id ∈ entry.2.ids,
      Known context truth id := fun entry member =>
    known entry.2 (List.mem_cons_of_mem _ (List.mem_map_of_mem member))
  have behind : FoldsBehind context truth expression.tail :=
    fun later suffix retv => leaves_terms
      (fun entry member => knownTail entry (suffix.subset member)) retv
  obtain ⟨enough, returns⟩ :=
    leaves_term behind (known expression.head (List.mem_cons_self ..)) false
  refine ⟨enough, fun fuel le => ?_⟩
  rw [evaluateExpression, evaluateLoop_eq, Chain.text, FuelledLoop.run_mono le returns]
  rfl

def oneId : IdText := ⟨[], ascii ['1'], by decide, List.all_eq_true.mp rfl, by decide, by decide⟩

def twoId : IdText :=
  ⟨ascii ['0', 'x'], ascii ['2'], by decide, List.all_eq_true.mp rfl, by decide, by decide⟩

/-- The expression `1+(0x2|1)`, in an event and a cache that make `1` true and
have no criterion `2`. -/
theorem evaluateExpression_fold_group :
    evaluateCriteria (singleContext .true 0x01000000 0 0) oneId.text =
      .ok (true, []) ∧
    evaluateCriteria (singleContext .true 0x01000000 0 0) twoId.text =
      .ok (false, []) ∧
    ∃ enough, ∀ fuel ≥ enough,
      evaluateExpression (singleContext .true 0x01000000 0 0) fuel
        (ascii ['1', '+', '(', '0', 'x', '2', '|', '1', ')']) = .ok (true, []) := by
  refine ⟨rfl, rfl, evaluateExpression_fold _
    (fun id => decide (hexValue id.digits = 1))
    ⟨.single oneId, [(.and, .group ⟨twoId, [(.or, oneId)]⟩)]⟩ ?_⟩
  simp only [List.map_cons, List.map_nil, RuleTerm.ids, List.mem_cons,
    List.not_mem_nil, or_false, forall_eq_or_imp, forall_eq]
  exact ⟨rfl, rfl, rfl⟩

end MercuryFix
