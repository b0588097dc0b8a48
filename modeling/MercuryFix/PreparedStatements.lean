import MercuryFix.KeyedTables
import Mathlib.Logic.Function.Basic

/-!
# Prepared statements

A prepared statement has parameters, numbered from one.  A parameter holds the
value that was bound to it last, and NULL if there is none or if the bindings have
been cleared.  The statements here are `INSERT OR REPLACE` statements, each on a
table of its own, with the key as the first parameter.
-/

namespace PreparedStatement

open KeyedTable

inductive SqlValue
  | null
  | integer (value : Int)
  | text (text : List UInt8)
  | blob (bytes : List UInt8)
  deriving DecidableEq

abbrev Columns := List SqlValue

structure Session (Statement : Type*) where
  bindings : Statement → Nat → SqlValue
  tables : Statement → List (Int × Columns)

/-- A call that binds a value; none if the value cannot be bound. -/
structure Binding (Statement : Type*) where
  statement : Statement
  parameter : Nat
  value : Option SqlValue

variable {Statement : Type*} [DecidableEq Statement]

namespace Session

/-- A session whose statements have just been prepared. -/
def opened (tables : Statement → List (Int × Columns)) : Session Statement :=
  ⟨fun _ _ => .null, tables⟩

def bind (session : Session Statement) (statement : Statement) (parameter : Nat)
    (value : SqlValue) : Session Statement :=
  { session with
    bindings := Function.update session.bindings statement
      (Function.update (session.bindings statement) parameter value) }

def clearBindings (session : Session Statement) (statement : Statement) :
    Session Statement :=
  { session with
    bindings := Function.update session.bindings statement fun _ => .null }

def row (session : Session Statement) (statement : Statement) (count : Nat) :
    Columns :=
  (List.range count).map fun index => session.bindings statement (index + 1)

/-- The step of an INSERT.  The key is a number whenever a statement is
executed. -/
def insert (session : Session Statement) (statement : Statement) (count : Nat) :
    Session Statement :=
  match session.bindings statement 1 with
  | .integer key =>
    { session with
      tables := Function.update session.tables statement
        (insertOrReplace (session.tables statement) key (session.row statement count)) }
  | _ => session

def bindAll (succeeds : Nat → Bool) :
    Nat → List (Binding Statement) → Session Statement → Session Statement × Bool
  | _, [], session => (session, true)
  | call, binding :: later, session =>
    match binding.value, succeeds call with
    | some value, true =>
      bindAll succeeds (call + 1) later (session.bind binding.statement binding.parameter value)
    | _, _ => (session, false)

/-- A row is stored: its values are bound, the statement is executed, and its
bindings are cleared, also behind a failure. -/
def store (succeeds : Nat → Bool) (statement : Statement) (count : Nat)
    (bindings : List (Binding Statement)) (session : Session Statement) :
    Session Statement × Bool :=
  let bound := bindAll succeeds 0 bindings session
  if bound.2 && succeeds bindings.length then
    ((bound.1.insert statement count).clearBindings statement, true)
  else (bound.1.clearBindings statement, false)

def bindEach (session : Session Statement) (bindings : List (Binding Statement)) :
    Session Statement :=
  bindings.foldl (fun session binding =>
    session.bind binding.statement binding.parameter (binding.value.getD .null)) session

end Session

def Accepted (succeeds : Nat → Bool) :
    Nat → List (Binding Statement) → Prop
  | _, [] => True
  | call, binding :: later =>
    binding.value.isSome ∧ succeeds call ∧ Accepted succeeds (call + 1) later

instance decidableAccepted (succeeds : Nat → Bool) :
    (call : Nat) → (bindings : List (Binding Statement)) →
      Decidable (Accepted succeeds call bindings)
  | _, [] => inferInstanceAs (Decidable True)
  | call, binding :: later =>
    have := decidableAccepted succeeds (call + 1) later
    inferInstanceAs (Decidable (binding.value.isSome ∧ succeeds call ∧
      Accepted succeeds (call + 1) later))

def Stored (succeeds : Nat → Bool) (bindings : List (Binding Statement)) : Prop :=
  Accepted succeeds 0 bindings ∧ succeeds bindings.length

instance (succeeds : Nat → Bool) (bindings : List (Binding Statement)) :
    Decidable (Stored succeeds bindings) :=
  inferInstanceAs (Decidable (_ ∧ _))

namespace Session

variable {succeeds : Nat → Bool} {call count : Nat} {statement other : Statement}
  {bindings : List (Binding Statement)} {session : Session Statement}

section Bind

@[simp]
theorem tables_bind (parameter : Nat) (value : SqlValue) :
    (session.bind statement parameter value).tables = session.tables :=
  rfl

theorem bindings_bind_of_ne (distinct : other ≠ statement) (parameter : Nat) (value : SqlValue) :
    (session.bind statement parameter value).bindings other = session.bindings other :=
  Function.update_of_ne distinct _ _

@[simp]
theorem tables_clearBindings : (session.clearBindings statement).tables = session.tables := rfl

@[simp]
theorem bindings_clearBindings :
    (session.clearBindings statement).bindings statement = fun _ => .null :=
  Function.update_self ..

theorem bindings_clearBindings_of_ne (distinct : other ≠ statement) :
    (session.clearBindings statement).bindings other = session.bindings other :=
  Function.update_of_ne distinct _ _

@[simp]
theorem bindings_insert : (session.insert statement count).bindings = session.bindings := by
  unfold insert
  split <;> rfl

theorem tables_insert_of_ne (distinct : other ≠ statement) :
    (session.insert statement count).tables other = session.tables other := by
  unfold insert
  split
  · exact Function.update_of_ne distinct _ _
  · rfl

theorem tables_insert {key : Int} (bound : session.bindings statement 1 = .integer key) :
    (session.insert statement count).tables statement =
      insertOrReplace (session.tables statement) key (session.row statement count) := by
  simp only [insert, bound, Function.update_self]

end Bind

section Chain

@[simp]
theorem tables_bindAll : (bindAll succeeds call bindings session).1.tables = session.tables := by
  induction bindings generalizing call session with
  | nil => rfl
  | cons binding later induction =>
    rw [bindAll]
    split
    · rw [induction, tables_bind]
    · rfl

theorem bindings_bindAll_of_ne (elsewhere : ∀ binding ∈ bindings, other ≠ binding.statement) :
    (bindAll succeeds call bindings session).1.bindings other = session.bindings other := by
  induction bindings generalizing call session with
  | nil => rfl
  | cons binding later induction =>
    rw [bindAll]
    split
    · rw [induction fun binding member =>
          elsewhere binding (List.mem_cons_of_mem _ member),
        bindings_bind_of_ne (elsewhere binding List.mem_cons_self)]
    · rfl

theorem accepted_of_bindAll (done : (bindAll succeeds call bindings session).2 = true) :
    Accepted succeeds call bindings := by
  induction bindings generalizing call session with
  | nil => trivial
  | cons binding later induction =>
    rw [bindAll] at done
    split at done
    · rename_i found success
      exact ⟨by rw [found]; rfl, success, induction done⟩
    · cases done

theorem bindAll_of_accepted (accepted : Accepted succeeds call bindings) :
    bindAll succeeds call bindings session = (session.bindEach bindings, true) := by
  induction bindings generalizing call session with
  | nil => rfl
  | cons binding later induction =>
    obtain ⟨bindable, success, accepted⟩ := accepted
    obtain ⟨value, found⟩ := Option.isSome_iff_exists.mp bindable
    simp only [bindAll, found, success, bindEach, List.foldl_cons, Option.getD_some]
    exact induction accepted

theorem bindAll_bindEach (stored : Stored succeeds bindings) :
    (bindAll succeeds 0 bindings session).1 = session.bindEach bindings := by
  rw [bindAll_of_accepted stored.1]

end Chain

section Store

theorem store_cases (succeeds : Nat → Bool) (statement : Statement) (count : Nat)
    (bindings : List (Binding Statement)) (session : Session Statement) :
    (Stored succeeds bindings ∧ store succeeds statement count bindings session =
          (((session.bindEach bindings).insert statement count).clearBindings statement, true)) ∨
      (¬ Stored succeeds bindings ∧ store succeeds statement count bindings session =
          ((bindAll succeeds 0 bindings session).1.clearBindings statement, false)) := by
  by_cases stored : Stored succeeds bindings
  · left
    simp only [store, bindAll_of_accepted stored.1, stored.2]
    exact ⟨stored, rfl⟩
  · right
    have refused : ((bindAll succeeds 0 bindings session).2 &&
        succeeds bindings.length) = false := by
      rw [Bool.eq_false_iff]
      intro done
      rw [Bool.and_eq_true] at done
      exact stored ⟨accepted_of_bindAll done.1, done.2⟩
    simp only [store, refused]
    exact ⟨stored, rfl⟩

theorem tables_store_of_ne (distinct : other ≠ statement) :
    (store succeeds statement count bindings session).1.tables other = session.tables other := by
  obtain ⟨stored, same⟩ | ⟨-, same⟩ := store_cases succeeds statement count bindings session
  · rw [same, tables_clearBindings, tables_insert_of_ne distinct,
      ← bindAll_bindEach stored, tables_bindAll]
  · rw [same, tables_clearBindings, tables_bindAll]

theorem tables_store_of_failed (failed : ¬ Stored succeeds bindings) :
    (store succeeds statement count bindings session).1.tables = session.tables := by
  obtain ⟨stored, -⟩ | ⟨-, same⟩ := store_cases succeeds statement count bindings session
  · exact absurd stored failed
  · rw [same, tables_clearBindings, tables_bindAll]

theorem tables_store (stored : Stored succeeds bindings) {key : Int}
    (bound : (session.bindEach bindings).bindings statement 1 = .integer key) :
    (store succeeds statement count bindings session).1.tables statement =
      insertOrReplace (session.tables statement) key
        ((session.bindEach bindings).row statement count) := by
  obtain ⟨-, same⟩ | ⟨failed, -⟩ := store_cases succeeds statement count bindings session
  · rw [same, tables_clearBindings, tables_insert bound, ← bindAll_bindEach stored, tables_bindAll]
  · exact absurd stored failed

@[simp]
theorem bindings_store :
    (store succeeds statement count bindings session).1.bindings statement = fun _ => .null := by
  obtain ⟨-, same⟩ | ⟨-, same⟩ := store_cases succeeds statement count bindings session
  all_goals rw [same, bindings_clearBindings]

theorem bindings_store_of_ne (distinct : other ≠ statement)
    (elsewhere : ∀ binding ∈ bindings, other ≠ binding.statement) :
    (store succeeds statement count bindings session).1.bindings other =
      session.bindings other := by
  obtain ⟨stored, same⟩ | ⟨-, same⟩ := store_cases succeeds statement count bindings session
  · rw [same, bindings_clearBindings_of_ne distinct, bindings_insert,
      ← bindAll_bindEach stored, bindings_bindAll_of_ne elsewhere]
  · rw [same, bindings_clearBindings_of_ne distinct, bindings_bindAll_of_ne elsewhere]

end Store

end Session

end PreparedStatement
