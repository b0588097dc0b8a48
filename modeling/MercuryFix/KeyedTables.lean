import Mathlib.Data.List.MinMax

/-!
# Tables with a primary key

A table is a list of rows under distinct keys.  The keys are compared by a
rank, which need not be their own order.
-/

namespace KeyedTable

variable {Key Row Rank : Type*} [LinearOrder Rank]

def insertOrReplace [DecidableEq Key] (table : List (Key × Row)) (key : Key)
    (row : Row) : List (Key × Row) :=
  table.filter (fun entry => entry.1 ≠ key) ++ [(key, row)]

def maxKey (rank : Key → Rank) (table : List (Key × Row)) : Option Key :=
  (table.map Prod.fst).argmax rank

variable {rank : Key → Rank} {table : List (Key × Row)} {key : Key} {row : Row}

theorem mem_insertOrReplace [DecidableEq Key] {entry : Key × Row} :
    entry ∈ insertOrReplace table key row ↔ entry.1 ≠ key ∧ entry ∈ table ∨ entry = (key, row) := by
  simp [insertOrReplace, and_comm]

theorem map_insertOrReplace [DecidableEq Key] {Other : Type*} [DecidableEq Other]
    {rename : Key → Other} (injective : Function.Injective rename) :
    (insertOrReplace table key row).map (fun entry => (rename entry.1, entry.2)) =
      insertOrReplace (table.map fun entry => (rename entry.1, entry.2)) (rename key) row := by
  have same : (fun entry : Other × Row => decide (entry.1 ≠ rename key)) ∘
      (fun entry : Key × Row => (rename entry.1, entry.2)) =
        fun entry => decide (entry.1 ≠ key) := by
    ext entry
    simp [injective.eq_iff]
  rw [insertOrReplace, insertOrReplace, List.map_append, List.filter_map, same]
  rfl

theorem rank_le_of_maxKey {entry : Key × Row}
    (found : maxKey rank table = some key) (member : entry ∈ table) :
    rank entry.1 ≤ rank key :=
  List.le_of_mem_argmax (List.mem_map_of_mem member) found

theorem eq_nil_of_maxKey (missing : maxKey rank table = none) : table = [] :=
  List.map_eq_nil_iff.mp (List.argmax_eq_none.mp missing)

theorem maxKey_insertOrReplace [DecidableEq Key]
    (above : ∀ entry ∈ table, rank entry.1 < rank key) :
    maxKey rank (insertOrReplace table key row) = some key := by
  rw [maxKey, insertOrReplace, List.map_append, List.map_singleton, List.argmax_concat]
  cases found : ((table.filter fun entry => entry.1 ≠ key).map Prod.fst).argmax rank with
  | none => rfl
  | some top =>
    obtain ⟨entry, member, rfl⟩ := List.mem_map.mp (List.argmax_mem found)
    have below := above entry (List.mem_of_mem_filter member)
    exact if_pos below

end KeyedTable
