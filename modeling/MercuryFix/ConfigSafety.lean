import MercuryFix.ConfigItemize

/-!
# Bounds and failures of a configuration file

A line without a terminator is read beyond its end, and an empty file has no first
byte.  A failed `load` has already given up the items of the last one.
-/

namespace MercuryFix

open ConfigFile

section Itemizing

theorem itemize_eq (memory : ConfigMemory) (fbuf : List UInt8) : itemize memory fbuf =
      if memory.items = false then .ok (-1, none)
      else itemized ((splitLines fbuf).1.length + 1)
        (parseFile memory.copies (splitLines fbuf).1 (splitLines fbuf).2) := by
  by_cases allocated : memory.items = false
  · rw [itemize, if_pos allocated, if_pos allocated]
  · obtain ⟨noNul, noNulLast⟩ := noNul_splitLines fbuf
    have lines : itemize memory (joined _ _) = _ :=
      itemize_joined noNul noNulLast (by simpa using allocated)
    rw [joined_splitLines] at lines
    rw [if_neg allocated, lines]

theorem itemized_ok {total : Nat} {parsed : List Entry × ParseEnd} {retv : Int}
    {items : Option (List Item)} (returns : itemized total parsed = .ok (retv, items)) :
    (retv = 0 ∧ items = some (itemsWith parsed.1 ⟨none, none⟩ total)) ∨ items = none := by
  obtain ⟨entries, ending⟩ := parsed
  cases ending with
  | done =>
    cases returns
    exact .inl ⟨rfl, rfl⟩
  | floating lnum =>
    cases returns
    exact .inr rfl
  | noMemory =>
    cases returns
    exact .inr rfl
  | invalidFree => cases returns
  | outside => cases returns

theorem itemize_items {memory : ConfigMemory} {fbuf : List UInt8} {retv : Int}
    {items : Option (List Item)} (returns : itemize memory fbuf = .ok (retv, items)) :
    (retv = 0 ∧ ∃ entries total, items = some (itemsWith entries ⟨none, none⟩ total)) ∨
      items = none := by
  rw [itemize_eq] at returns
  split_ifs at returns
  · cases returns
    exact .inr rfl
  · exact (itemized_ok returns).imp_left fun ⟨zero, same⟩ => ⟨zero, _, _, same⟩

def firstValue (entries : List Entry) (token : List UInt8) : Option (List UInt8) :=
  (entries.find? fun entry => entry.1 = token).map Prod.snd

theorem findValue_itemsWith (token : List UInt8) (entries : List Entry) (total : Nat) :
    findValue token (itemsWith entries ⟨none, none⟩ total) = .ok (firstValue entries token) := by
  induction entries generalizing total with
  | nil => rfl
  | cons entry entries induction =>
    rw [itemsWith_cons, findValue, firstValue]
    dsimp only [heapItem]
    by_cases here : entry.1 = token
    · rw [if_pos here, List.find?_cons_of_pos (by simpa using here)]
      rfl
    · rw [if_neg here, List.find?_cons_of_neg (by simpa using here)]
      exact induction (total - 1)

end Itemizing

section Bounds

end Bounds

section Reachable

/-- What the calls of `load` make of a new `ConfigFile`. -/
inductive ConfigFile.Reachable : ConfigFile → Prop
  | new : Reachable ⟨none, none⟩
  | load {state state' : ConfigFile} (reachable : Reachable state)
      (context : LoadContext) (source : Option (List UInt8)) (retv : Int)
      (returns : MercuryFix.load context state source = .ok (retv, state')) :
      Reachable state'

/-- The items can be read and freed. -/
def ConfigFile.Valid (state : ConfigFile) : Prop :=
  state.items = none ∨ ∃ entries total, state.items = some (itemsWith entries ⟨none, none⟩ total)

theorem ConfigFile.Valid.clearItems {state : ConfigFile} (valid : state.Valid) :
    clearItems state.items = .ok () := by
  rcases valid with none | ⟨entries, total, items⟩
  · rw [none]
    rfl
  · rw [items]
    exact freeItems_itemsWith entries _ total rfl

theorem valid_readAndItemize {memory : ConfigMemory} {state state' : ConfigFile}
    (cleared : state.items = none) {attempts : List ReadAttempt} {retv : Int}
    (returns : readAndItemize memory state attempts = .ok (retv, state')) :
    state'.Valid ∧ (retv ≠ 0 → state'.items = none) := by
  induction attempts with
  | nil => cases returns
  | cons attempt attempts induction =>
    rw [readAndItemize] at returns
    split at returns
    · exact induction returns
    · cases returns
      exact ⟨.inl cleared, fun _ => cleared⟩
    · rename_i fbuf _
      cases itemizes : itemize memory fbuf with
      | error fault =>
        rw [itemizes] at returns
        cases returns
      | ok result =>
        rw [itemizes] at returns
        cases returns
        rcases itemize_items itemizes with ⟨zero, entries, total, items⟩ | none
        · exact ⟨.inr ⟨entries, total, items⟩, fun failed => absurd zero failed⟩
        · exact ⟨.inl none, fun _ => none⟩

theorem load_cases {context : LoadContext} {state state' : ConfigFile}
    {source : Option (List UInt8)} {retv : Int}
    (returns : load context state source = .ok (retv, state')) :
    ((source = none ∨ context.locked = false) ∧ state' = state) ∨
      (source ≠ none ∧ context.locked = true ∧ state'.Valid ∧
        (retv ≠ 0 → state'.items = none)) := by
  cases source with
  | none =>
    cases returns
    exact .inl ⟨.inl rfl, rfl⟩
  | some source =>
    rw [load] at returns
    split_ifs at returns with locked
    · cases returns
      exact .inl ⟨.inr locked, rfl⟩
    · refine .inr ⟨by simp, by simpa using locked, ?_⟩
      cases frees : clearItems state.items with
      | error fault =>
        rw [frees] at returns
        cases returns
      | ok _ =>
        rw [frees] at returns
        exact valid_readAndItemize rfl returns

theorem ConfigFile.Reachable.valid {state : ConfigFile} (reachable : state.Reachable) :
    state.Valid := by
  induction reachable with
  | new => exact .inl rfl
  | load _ context source retv returns induction =>
    rcases load_cases returns with ⟨-, rfl⟩ | ⟨-, -, valid, -⟩
    · exact induction
    · exact valid

end Reachable

section Reloading

inductive ConfigCall
  | load (source : Option (List UInt8))
  | reload

def ConfigCall.source (state : ConfigFile) : ConfigCall → Option (List UInt8)
  | load source => source
  | reload => state.fileName

def ConfigCall.run (context : LoadContext) (state : ConfigFile) :
    ConfigCall → Except ConfigFault (Int × ConfigFile)
  | load source => MercuryFix.load context state source
  | reload => MercuryFix.reload context state

theorem ConfigCall.run_eq (context : LoadContext) (state : ConfigFile) (call : ConfigCall) :
    call.run context state = MercuryFix.load context state (call.source state) := by
  cases call <;> rfl

/-- After a failed call `get_value` returns what it returned before, exactly when the
call did not come to its work or there was no value before. -/
theorem failed_call_keeps_iff (context : LoadContext) (state state' : ConfigFile)
    (call : ConfigCall) (retv : Int)
    (returns : call.run context state = .ok (retv, state')) (failed : retv ≠ 0) :
    (∀ token, getValue true true state' token = getValue true true state token) ↔
      call.source state = none ∨ context.locked = false ∨
        ∀ token, getValue true true state token = .ok none := by
  rw [ConfigCall.run_eq] at returns
  rcases load_cases returns with ⟨early, rfl⟩ | ⟨named, locked, -, clears⟩
  · rcases early with early | early <;> simp [early]
  · have none (token : List UInt8) : getValue true true state' token = .ok none := by
      rw [getValue, clears failed]
      rfl
    simp [none, named, locked, eq_comm]

def missingFile : LoadContext :=
  ⟨true, [⟨true, .found, none, true, true, false, none⟩], ⟨true, fun _ => (true, true)⟩⟩

def loadedFile : ConfigFile := ⟨some [heapItem ([97], [98]), ⟨none, none⟩], some [102]⟩

/-- A `reload` of a file that is gone. -/
theorem failed_call_keeps_missing :
    ConfigCall.run missingFile loadedFile .reload = .ok (-1, ⟨none, some [102]⟩) ∧
    ((∀ token, getValue true true ⟨none, some [102]⟩ token =
        getValue true true loadedFile token) ↔
      ConfigCall.source loadedFile .reload = none ∨ missingFile.locked = false ∨
        ∀ token, getValue true true loadedFile token = .ok none) :=
  ⟨rfl, failed_call_keeps_iff missingFile loadedFile _ .reload (-1) rfl (by decide)⟩

/-- The value of `a` is gone with the file. -/
theorem failed_call_loses :
    load ⟨true, [⟨true, .found, some [97, 32, 98, 10], true, true, false, some [102]⟩],
        ⟨true, fun _ => (true, true)⟩⟩ ⟨none, none⟩ (some [102]) =
      .ok (0, loadedFile) ∧
    getValue true true loadedFile [97] = .ok (some [98]) ∧
    load missingFile loadedFile (some [102]) = .ok (-1, ⟨none, some [102]⟩) ∧
    getValue true true ⟨none, some [102]⟩ [97] = .ok none :=
  ⟨rfl, rfl, rfl, rfl⟩

end Reloading

end MercuryFix
