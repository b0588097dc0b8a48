import MercuryFix.SentMessages
import MercuryFix.TransitionSystems
import Mathlib.Data.List.Infix

/-!
# Runs of a composer

A `FIXMessageTX` is used for one message after the other.  The type stays until
another one is given, and the delimiter in front of the fields stays for good.
`Composition` is what the caller has given, without any block of memory, and the
object follows it as long as nothing is larger than its first block.
-/

namespace MercuryFix

open DecimalText ByteBlock TransitionSystem

inductive ComposerCall
  | append (tag : Nat) (value : List UInt8)
  | expose
  deriving DecidableEq

def FixMessageTX.call (tx : FixMessageTX) :
    ComposerCall → Option FixMessageTX
  | .append tag value => (tx.appendField tag value).map Prod.fst
  | .expose => tx.expose.map Prod.fst

/-- The type that was given last, and the fields that were given since the last
message was exposed. -/
structure Composition where
  msgType : List UInt8
  fields : List (Nat × List UInt8)

namespace Composition

def text (soh : UInt8) (composition : Composition) : List UInt8 :=
  soh :: composition.fields.flatMap fun field =>
    fieldText soh field.1 field.2

def Exposable (composition : Composition) : Prop :=
  composition.msgType ≠ [] ∧ ∃ field ∈ composition.fields, field.1 = 52

instance (composition : Composition) : Decidable composition.Exposable :=
  inferInstanceAs (Decidable (_ ∧ _))

def call (composition : Composition) : ComposerCall → Composition
  | .append tag value =>
    if tag = 35 then { composition with msgType := cString value }
    else { composition with fields := composition.fields ++ [(tag, value)] }
  | .expose =>
    if composition.Exposable then { composition with fields := [] }
    else composition

def after (calls : List ComposerCall) : Composition := calls.foldl call ⟨[], []⟩

theorem after_concat (calls : List ComposerCall) (last : ComposerCall) :
    after (calls ++ [last]) = (after calls).call last :=
  List.foldl_append

theorem text_append (soh : UInt8) (composition : Composition) (tag : Nat) (value : List UInt8) :
    text soh { composition with
        fields := composition.fields ++ [(tag, value)] } =
      composition.text soh ++ fieldText soh tag value := by
  simp [text]

end Composition

open Composition

/-- A run whose values, types and messages are not larger than the first block
allows. -/
structure Moderate (soh : UInt8) (calls : List ComposerCall) : Prop where
  values : ∀ tag value, .append tag value ∈ calls → value.length ≤ 2023
  types : ∀ value, .append 35 value ∈ calls → value.length < maxMsgtypeLength
  messages : ∀ before, before <+: calls → ((after before).text soh).length + 3 ≤ initialTxBufferSize

theorem Moderate.of_append {soh : UInt8} {calls more : List ComposerCall}
    (moderate : Moderate soh (calls ++ more)) : Moderate soh calls where
  values tag value member := moderate.values tag value (List.mem_append_left _ member)
  types value member := moderate.types value (List.mem_append_left _ member)
  messages before front := moderate.messages before (front.trans (List.prefix_append _ _))

/-- The object holds what has been given. -/
structure Follows (soh : UInt8) (tx : FixMessageTX) (composition : Composition) :
    Prop extends Composing tx (composition.text soh) where
  delimiter : tx.soh = soh
  type : tx.msgType = composition.msgType
  timed : tx.sendingTimeAppended = true ↔ ∃ field ∈ composition.fields, field.1 = 52
  size : tx.buf.length = initialTxBufferSize

section Steps

variable {soh : UInt8} {tx : FixMessageTX} {composition : Composition}

theorem follows_init (soh : UInt8) : Follows soh (.init soh) (after []) where
  toComposing := .init soh
  delimiter := rfl
  type := rfl
  timed := by simp [FixMessageTX.init, after]
  size := length_init soh

section

variable (follows : Follows soh tx composition)
include follows

theorem Follows.exposable_iff :
    composition.Exposable ↔ tx.msgType ≠ [] ∧ tx.sendingTimeAppended = true := by
  rw [Exposable, follows.type, follows.timed]

theorem Follows.appendType {value : List UInt8} (short : value.length < maxMsgtypeLength) :
    ∃ next, tx.call (.append 35 value) = some next ∧
      Follows soh next (composition.call (.append 35 value)) := by
  refine ⟨_, by rw [FixMessageTX.call, FixMessageTX.appendField,
    if_neg (not_not.mpr rfl), if_pos short, Option.map_some], ?_⟩
  rw [Composition.call, if_pos rfl]
  exact
    { pos := follows.pos
      length := follows.length
      content := follows.content
      delimiter := follows.delimiter
      type := cString_terminated value
      timed := by simpa using follows.timed
      size := follows.size }

theorem Follows.appendField {tag : Nat} {value : List UInt8} (other : tag ≠ 35)
    (short : value.length ≤ 2023)
    (room : ((composition.call (.append tag value)).text soh).length ≤ initialTxBufferSize) :
    ∃ next, tx.call (.append tag value) = some next ∧
      Follows soh next (composition.call (.append tag value)) := by
  have guessed : 25 + value.length ≤ tx.buf.length := by
    rw [follows.size, initialTxBufferSize]
    omega
  rw [Composition.call, if_neg other] at room ⊢
  rw [text_append, List.length_append, ← follows.size] at room
  obtain ⟨next, appends, composing, delimiter, type, size, timed⟩ :=
    follows.append follows.delimiter tag value other guessed room
  refine ⟨next, by rw [FixMessageTX.call, appends, Option.map_some], ?_⟩
  exact
    { toComposing := by rwa [text_append]
      delimiter := delimiter
      type := type.trans follows.type
      timed := by
        rw [timed, Bool.or_eq_true, follows.timed]
        simp [or_and_right, exists_or]
      size := size.trans follows.size }

theorem Follows.exposes (exposable : composition.Exposable)
    (room : (composition.text soh).length + 3 ≤ initialTxBufferSize) :
    ∃ next exposed, tx.expose = some (next, some exposed) ∧
      exposed.partialMsg = composition.text soh ++ ascii ['1', '0', '='] ∧
      exposed.len = (composition.text soh ++ ascii ['1', '0', '=']).length ∧
      exposed.msgType = composition.msgType ∧
      Follows soh next (composition.call .expose) := by
  have width : (ascii ['1', '0', '=']).length = 3 := rfl
  obtain ⟨typed, timed⟩ := follows.exposable_iff.mp exposable
  rw [← follows.size] at room
  refine ⟨_, _, follows.expose_eq typed timed room, follows.closed, ?_, follows.type, ?_⟩
  · rw [List.length_append, width]
  · rw [Composition.call, if_pos exposable]
    have first : (blit tx.buf (composition.text soh).length
        (ascii ['1', '0', '='])).take 1 = [soh] := by
      rw [take_blit_before (by omega) (by simp [text])]
      have content := congrArg (List.take 1) follows.content
      rwa [List.take_take, Nat.min_eq_left (by simp [text])] at content
    exact
      { pos := rfl
        length := rfl
        content := first
        delimiter := follows.delimiter
        type := follows.type
        timed := by simp
        size := (length_blit (by omega)).trans follows.size }

theorem Follows.refuses (refused : ¬ composition.Exposable) : tx.expose = some (tx, none) := by
  rw [FixMessageTX.expose, if_neg (mt follows.exposable_iff.mpr refused)]

end

end Steps

theorem follows_run {soh : UInt8} {calls : List ComposerCall} (moderate : Moderate soh calls) :
    ∃ tx, run FixMessageTX.call (.init soh) calls = some tx ∧ Follows soh tx (after calls) := by
  induction calls using List.reverseRecOn with
  | nil => exact ⟨_, rfl, follows_init soh⟩
  | append_singleton calls last induction =>
    obtain ⟨tx, runs, follows⟩ := induction moderate.of_append
    have room := moderate.messages _ List.prefix_rfl
    have earlier := moderate.messages calls (List.prefix_append _ _)
    have step : ∃ next, tx.call last = some next ∧ Follows soh next (after (calls ++ [last])) := by
      rw [after_concat] at room ⊢
      cases last with
      | append tag value =>
        by_cases typed : tag = 35
        · subst typed
          exact follows.appendType (moderate.types value (by simp))
        · exact follows.appendField typed (moderate.values tag value (by simp)) (by omega)
      | expose =>
        by_cases exposable : (after calls).Exposable
        · obtain ⟨next, exposed, exposes, -, -, -, back⟩ := follows.exposes exposable earlier
          exact ⟨next, by rw [FixMessageTX.call, exposes]; rfl, back⟩
        · refine ⟨tx, ?_, ?_⟩
          · rw [FixMessageTX.call, follows.refuses exposable]
            rfl
          · rw [Composition.call, if_neg exposable]
            exact follows
    obtain ⟨next, steps, back⟩ := step
    exact ⟨next, run_append_eq_some.mpr ⟨tx, runs, run_cons_eq_some.mpr ⟨next, steps, rfl⟩⟩, back⟩

/-- Behind every run of moderate size, `expose` succeeds exactly when the type
given last is not empty and a SendingTime was given since the last message.  It
hands out what was given since then, and changes nothing when it refuses. -/
theorem run_exposes (soh : UInt8) (calls : List ComposerCall) (moderate : Moderate soh calls) :
    ∃ tx, run FixMessageTX.call (.init soh) calls = some tx ∧
      ((after calls).Exposable → ∃ next exposed,
        tx.expose = some (next, some exposed) ∧
        exposed.partialMsg =
          (after calls).text soh ++ ascii ['1', '0', '='] ∧
        exposed.len =
          ((after calls).text soh ++ ascii ['1', '0', '=']).length ∧
        exposed.msgType = (after calls).msgType) ∧
      (¬ (after calls).Exposable → tx.expose = some (tx, none)) := by
  obtain ⟨tx, runs, follows⟩ := follows_run moderate
  refine ⟨tx, runs, ?_, follows.refuses⟩
  intro exposable
  obtain ⟨next, exposed, exposes, text, len, type, -⟩ :=
    follows.exposes exposable (moderate.messages calls List.prefix_rfl)
  exact ⟨next, exposed, exposes, text, len, type⟩

def twoMessages : List ComposerCall :=
  [.append 35 (ascii ['D']), .append 52 (ascii ['t']), .expose,
    .append 52 (ascii ['u']), .append 58 (ascii ['v'])]

theorem run_exposes_second :
    ∃ tx next exposed,
      run FixMessageTX.call (.init 1) twoMessages = some tx ∧
        tx.expose = some (next, some exposed) ∧
        exposed.partialMsg = 1 :: ascii ['5', '2', '=', 'u'] ++
          1 :: ascii ['5', '8', '=', 'v'] ++ 1 :: ascii ['1', '0', '='] ∧
        exposed.msgType = ascii ['D'] := by
  have moderate : Moderate 1 twoMessages :=
    { values := by
        intro tag value member
        simp only [twoMessages, List.mem_cons, ComposerCall.append.injEq,
          List.not_mem_nil, or_false, reduceCtorEq, false_or] at member
        rcases member with ⟨-, rfl⟩ | ⟨-, rfl⟩ | ⟨-, rfl⟩ | ⟨-, rfl⟩ <;> decide
      types := by
        intro value member
        simp [twoMessages] at member
        rw [member]
        decide
      messages := by
        intro before front
        rw [← List.mem_inits] at front
        revert before
        decide +kernel }
  obtain ⟨tx, runs, exposes, -⟩ := run_exposes 1 twoMessages moderate
  obtain ⟨next, exposed, handed, text, -, type⟩ := exposes (by decide)
  exact ⟨tx, next, exposed, runs, handed, text, type⟩

/-- A type was given and a SendingTime, but the type was emptied in between. -/
theorem emptied_type_refused :
    (run FixMessageTX.call (.init 1) [.append 35 (ascii ['D']), .append 35 [],
        .append 52 (ascii ['t'])]).bind (fun tx => tx.expose.map Prod.snd) =
      some none := by
  decide +kernel

section Cloning

/-- A stored message that `expose` can hand out: it ends in the tag of the
checksum, and a SendingTime is found in front of that and of any NUL. -/
structure StoredMessage.Exposable (soh : UInt8) (pmsg : StoredMessage) :
    Prop where
  long : 4 ≤ pmsg.length
  covered : pmsg.length ≤ pmsg.partMsg.length
  object : pmsg.partMsg.length < 2 ^ 63
  ends : (pmsg.partMsg.take pmsg.length).drop (pmsg.length - 3) = ascii ['1', '0', '=']
  timed : ∃ front, front ++ soh :: ascii ['5', '2', '='] <+:
      pmsg.partMsg.take (pmsg.length - 3) ∧
    (0 : UInt8) ∉ front ++ soh :: ascii ['5', '2', '=']
  typed : pmsg.msgType ≠ []
  short : pmsg.msgType.length < maxMsgtypeLength

variable {soh : UInt8} {pmsg : StoredMessage}

theorem StoredMessage.Exposable.tagged (exposable : pmsg.Exposable soh) :
    (strnstr pmsg.partMsg (sendingTimeTag soh) (pmsg.length - 3)).isSome := by
  obtain ⟨front, ⟨rest, split⟩, noNul⟩ := exposable.timed
  have tag : sendingTimeTag soh = soh :: ascii ['5', '2', '='] :=
    cString_eq_self fun member => noNul (List.mem_append_right _ member)
  have kept : ∀ byte ∈ front ++ soh :: ascii ['5', '2', '='], (byte != 0) = true := by
    intro byte member
    have different : byte ≠ 0 := fun zero => noNul (zero ▸ member)
    simp [different]
  rw [strnstr, isSome_memmem_iff, ← split, cString, List.takeWhile_append_of_pos kept, tag]
  exact ((List.suffix_append front _).isInfix).trans (List.prefix_append _ _).isInfix

/-- What is cloned from a stored message is exposed as it was stored, whatever
the object was used for before. -/
theorem clone_exposes (tx : FixMessageTX) (pmsg : StoredMessage)
    (exposable : pmsg.Exposable tx.soh) :
    ∃ cloned next exposed, tx.cloneFrom pmsg = some (cloned, true) ∧
      cloned.expose = some (next, some exposed) ∧
      exposed.partialMsg = pmsg.partMsg.take pmsg.length ∧
      exposed.len = pmsg.length ∧ exposed.msgType = pmsg.msgType ∧
      exposed.ttl = pmsg.ttl := by
  have long := exposable.long
  have covered := exposable.covered
  have object := exposable.object
  obtain ⟨cloned, clones, composing, -, ttl, type, size, timed⟩ :=
    cloneFrom_composing tx pmsg (by omega) covered (by omega) exposable.short
  have width : (pmsg.partMsg.take (pmsg.length - 3)).length + 3 =
      pmsg.length := by
    rw [List.length_take]
    omega
  have room := (le_grownSize tx.buf.length
    (by omega : pmsg.length ≤ 2 ^ 63)).2
  obtain ⟨next, data, exposes, text, -, -⟩ := composing.expose
    (type ▸ exposable.typed) (timed.trans exposable.tagged)
    (by rwa [width, size])
  refine ⟨cloned, next, _, clones, exposes, ?_, width, type, ttl⟩
  have whole : pmsg.partMsg.take pmsg.length =
      pmsg.partMsg.take (pmsg.length - 3) ++ ascii ['1', '0', '='] := by
    rw [← exposable.ends, List.drop_take]
    conv_lhs =>
      rw [show pmsg.length = pmsg.length - 3 + 3 by omega, List.take_add]
    congr 2
    omega
  rw [whole]
  exact text

def storedShort : StoredMessage where
  length := 9
  msgType := ascii ['D']
  partMsg := 1 :: ascii ['5', '2', '=', 't'] ++ 1 :: ascii ['1', '0', '='] ++ List.replicate 5 0
  ttl := ⟨3, 0⟩

theorem clone_exposes_short :
    ∃ cloned next exposed,
      (FixMessageTX.init 1).cloneFrom storedShort = some (cloned, true) ∧
        cloned.expose = some (next, some exposed) ∧
        exposed.partialMsg = storedShort.partMsg.take 9 ∧ exposed.len = 9 ∧
        exposed.msgType = ascii ['D'] ∧ exposed.ttl = ⟨3, 0⟩ :=
  clone_exposes (.init 1) storedShort
    { long := by decide
      covered := by decide
      object := by decide
      ends := by decide
      timed := ⟨[], by decide, by decide⟩
      typed := by decide
      short := by decide }

end Cloning

end MercuryFix
