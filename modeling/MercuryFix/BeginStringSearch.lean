import MercuryFix.RestartMatching
import MercuryFix.SplitterRecovery

/-!
# The search for the begin string

On a mismatch `FindingBeginString` starts again at index 0 or 1.  Over a plain
begin string that resumes right, `l` is the length of the longest part at its
front that the bytes read so far end in, as long as no NUL is compared with the
terminator of the array.
-/

namespace MercuryFix

open DecimalText ByteBlock RestartMatching

variable {args : SplitterArgs} {s : Splitter} {byte : UInt8}

section Index

def Enters (args : SplitterArgs) (s : Splitter) (byte : UInt8) : Prop :=
  s.state = .findingBeginString ∧ (findingBeginString args byte s).2 = true

instance (args : SplitterArgs) (s : Splitter) (byte : UInt8) :
    Decidable (Enters args s byte) :=
  inferInstanceAs (Decidable (_ ∧ _))

theorem beginChar_eq_zero_iff {l : Nat} (within : l ≤ args.beginString.length) :
    args.beginChar l = 0 ↔ l = args.beginString.length := by
  constructor
  · intro zero
    by_contra different
    have inside : l < args.beginString.length := by omega
    rw [beginChar_of_inside (List.getElem?_eq_getElem inside)] at zero
    exact args.terminated (zero ▸ List.getElem_mem inside)
  · rintro rfl
    exact beginChar_at_end

theorem charEqByte_beginChar {l : Nat} (within : l ≤ args.beginString.length)
    (nonzero : l = args.beginString.length → byte ≠ 0)
    (equal : charEqByte (args.beginChar l) byte = true) :
    args.beginString[l]? = some byte := by
  obtain ⟨same, -⟩ := charEqByte_iff.mp equal
  rcases Nat.lt_or_ge l args.beginString.length with inside | behind
  · have here := List.getElem?_eq_getElem inside
    rw [beginChar_of_inside here] at same
    rw [here, same]
  · have atEnd : l = args.beginString.length := by omega
    rw [(beginChar_eq_zero_iff within).mpr atEnd] at same
    exact absurd same.symm (nonzero atEnd)

theorem enters_iff (searching : s.state = .findingBeginString)
    (within : s.l ≤ args.beginString.length) :
    Enters args s byte ↔ s.l = args.beginString.length ∧ isDigit byte = true := by
  constructor
  · rintro ⟨-, falls⟩
    unfold findingBeginString at falls
    split_ifs at falls with matched ended again
    rw [Bool.and_eq_true, beq_iff_eq] at ended
    exact ⟨(beginChar_eq_zero_iff within).mp ended.1, ended.2⟩
  · rintro ⟨atEnd, digit⟩
    have zero := (beginChar_eq_zero_iff within).mpr atEnd
    have unequal : ¬ charEqByte (args.beginChar s.l) byte = true := by
      intro equal
      rw [zero] at equal
      rw [← (charEqByte_iff.mp equal).1] at digit
      exact absurd digit (by decide)
    refine ⟨searching, ?_⟩
    unfold findingBeginString
    rw [if_neg unequal, if_pos (by simp [zero, digit])]

theorem index_le_succ (args : SplitterArgs) (byte : UInt8) (s : Splitter) :
    (findingBeginString args byte s).1.l ≤ s.l + 1 := by
  unfold findingBeginString
  split_ifs
  · exact le_rfl
  · exact Nat.zero_le _
  · exact Nat.succ_le_succ (Nat.zero_le _)
  · exact Nat.zero_le _

theorem index_eq_advance (plain : args.Plain) (within : s.l ≤ args.beginString.length)
    (nonzero : s.l = args.beginString.length → byte ≠ 0)
    (stays : (findingBeginString args byte s).2 = false) :
    (findingBeginString args byte s).1.l = advance args.beginString s.l byte := by
  have equal_iff : ∀ l, l ≤ args.beginString.length → (l = args.beginString.length → byte ≠ 0) →
      (charEqByte (args.beginChar l) byte = true ↔ args.beginString[l]? = some byte) := by
    intro l inside nonzero
    refine ⟨charEqByte_beginChar inside nonzero, fun here => ?_⟩
    rw [beginChar_of_inside here, charEqByte_iff]
    exact ⟨rfl, plain byte (List.mem_of_getElem? here)⟩
  have first := equal_iff 0 (Nat.zero_le _) fun empty => nonzero (by omega)
  unfold findingBeginString at stays ⊢
  simp only [equal_iff s.l within nonzero, first] at stays ⊢
  unfold advance
  split_ifs at stays ⊢ <;> rfl

theorem take_index_suffix {read : List UInt8}
    (ends : s.l ≤ args.beginString.length → args.beginString.take s.l <:+ read)
    (within : (findingBeginString args byte s).1.l ≤ args.beginString.length) :
    args.beginString.take (findingBeginString args byte s).1.l <:+ read ++ [byte] := by
  have matches_at : ∀ {l}, l < args.beginString.length → charEqByte (args.beginChar l) byte = true →
      args.beginString[l]? = some byte := fun inside =>
    charEqByte_beginChar inside.le fun whole => absurd whole inside.ne
  unfold findingBeginString at within ⊢
  split_ifs at within ⊢ with matched ended again
  · have inside : s.l < args.beginString.length := within
    exact (take_succ_suffix_iff inside).mpr ⟨ends inside.le, matches_at inside matched⟩
  · simp
  · have inside : 0 < args.beginString.length := within
    exact (take_succ_suffix_iff inside).mpr ⟨by simp, matches_at inside again⟩
  · simp

theorem splitByte_searching (noFault : s.fault = none)
    (searching : s.state = .findingBeginString) (stays : ¬ Enters args s byte) :
    splitByte args s byte = (s.matching (findingBeginString args byte s).1.l, []) := by
  rcases findingBeginString_cases args byte s with falls | ⟨l, searches⟩
  · exact absurd ⟨searching, by rw [falls]⟩ stays
  · have header : headerByte args byte s = ({ s with l := l }, false) := by
      rw [headerByte_of_beginString searching, searches]
      rfl
    rw [splitByte_of_moved (progress_of_refused noFault (by rw [header])),
      header, settled_of_searching searching, searches]

end Index

section Entries

/-- The splitter enters `FindingBodyLength` behind these bytes, with this one. -/
def EntersBehind (args : SplitterArgs) (s : Splitter) (before : List UInt8) (byte : UInt8) : Prop :=
  Enters args (splitBytes args s before).1 byte

theorem noEntry_concat {first : List UInt8} : Nowhere (EntersBehind args s) (first ++ [byte]) ↔
      Nowhere (EntersBehind args s) first ∧ ¬ Enters args (splitBytes args s first).1 byte :=
  nowhere_concat

theorem splitBytes_searching (noFault : s.fault = none)
    (searching : s.state = .findingBeginString) {read : List UInt8}
    (stays : Nowhere (EntersBehind args s) read) :
    (splitBytes args s read).1.fault = none ∧
      (splitBytes args s read).1.state = .findingBeginString := by
  induction read using List.reverseRecOn with
  | nil => exact ⟨noFault, searching⟩
  | append_singleton read byte induction =>
    obtain ⟨earlier, here⟩ := noEntry_concat.mp stays
    obtain ⟨runs, finding⟩ := induction earlier
    rw [splitBytes_concat_state, splitByte_searching runs finding here]
    exact ⟨runs, finding⟩

theorem splitBytes_searching_index (noFault : s.fault = none)
    (searching : s.state = .findingBeginString) {read : List UInt8}
    (stays : Nowhere (EntersBehind args s) (read ++ [byte])) :
    (splitBytes args s (read ++ [byte])).1.l =
      (findingBeginString args byte (splitBytes args s read).1).1.l := by
  obtain ⟨earlier, here⟩ := noEntry_concat.mp stays
  obtain ⟨runs, finding⟩ := splitBytes_searching noFault searching earlier
  rw [splitBytes_concat_state, splitByte_searching runs finding here]
  rfl

end Entries

section Search

/-- The begin string ends in front of a digit. -/
def Occurs (beginString before : List UInt8) (byte : UInt8) : Prop :=
  beginString <:+ before ∧ isDigit byte = true

/-- The first entry is where the begin string with a digit behind it occurs first,
and until then the index stays within the begin string. -/
def SearchesRight (args : SplitterArgs) (s : Splitter) (stream : List UInt8) :
    Prop :=
  (∀ before byte after, stream = before ++ byte :: after →
    (EntersBehind args s before byte ∧ Nowhere (EntersBehind args s) before ↔
      Occurs args.beginString before byte ∧ Nowhere (Occurs args.beginString) before)) ∧
    ∀ before after, stream = before ++ after →
      Nowhere (EntersBehind args s) before →
      (splitBytes args s before).1.l ≤ args.beginString.length

/-- The byte is a NUL behind a begin string, in front of the first begin string
with a digit behind it. -/
def NulBehind (beginString before : List UInt8) (byte : UInt8) : Prop :=
  byte = 0 ∧ beginString <:+ before ∧ Nowhere (Occurs beginString) before

/-- The search needs no table for this begin string: its characters are plain, and
starting again at index 0 or 1 loses no match. -/
def Searchable (beginString : List UInt8) : Prop :=
  (∀ byte ∈ beginString, byte.toNat < 128) ∧ Resumes (fun byte => isDigit byte = true) beginString

variable {read stream : List UInt8}

theorem Searching.longest (rest : Searching s) (searchable : Searchable args.beginString)
    (nulFree : Nowhere (NulBehind args.beginString) read)
    (absent : Nowhere (Occurs args.beginString) read) :
    Nowhere (EntersBehind args s) read ∧
      Longest args.beginString read (splitBytes args s read).1.l := by
  induction read using List.reverseRecOn with
  | nil =>
    refine ⟨nowhere_nil, ?_⟩
    rw [show (splitBytes args s []).1.l = 0 from rest.atStart]
    exact longest_nil
  | append_singleton read byte induction =>
    obtain ⟨earlierNul, noNul⟩ := nowhere_concat.mp nulFree
    obtain ⟨earlier, notHere⟩ := nowhere_concat.mp absent
    obtain ⟨stays, longest⟩ := induction earlierNul earlier
    obtain ⟨-, finding⟩ := splitBytes_searching rest.noFault rest.searching stays
    have final : (splitBytes args s read).1.l = args.beginString.length →
        ¬ isDigit byte = true := by
      intro whole digit
      exact notHere ⟨longest.eq_length_iff.mp whole, digit⟩
    have nonzero : (splitBytes args s read).1.l = args.beginString.length → byte ≠ 0 := by
      intro whole zero
      exact noNul ⟨zero, longest.eq_length_iff.mp whole, earlier⟩
    have here : ¬ Enters args (splitBytes args s read).1 byte := by
      rw [enters_iff finding longest.within]
      rintro ⟨whole, digit⟩
      exact final whole digit
    have next := noEntry_concat.mpr ⟨stays, here⟩
    refine ⟨next, ?_⟩
    rw [splitBytes_searching_index rest.noFault rest.searching next,
      index_eq_advance searchable.1 longest.within nonzero (by simpa [Enters, finding] using here)]
    exact longest.advance searchable.2 final

theorem Searching.enters_iff_occurs (rest : Searching s) (searchable : Searchable args.beginString)
    (nulFree : Nowhere (NulBehind args.beginString) read)
    (absent : Nowhere (Occurs args.beginString) read) (byte : UInt8) :
    EntersBehind args s read byte ↔ Occurs args.beginString read byte := by
  obtain ⟨stays, longest⟩ := rest.longest searchable nulFree absent
  obtain ⟨-, finding⟩ := splitBytes_searching rest.noFault rest.searching stays
  rw [EntersBehind, enters_iff finding longest.within, longest.eq_length_iff, Occurs]

theorem Searching.noEntry_iff (rest : Searching s) (searchable : Searchable args.beginString)
    (nulFree : Nowhere (NulBehind args.beginString) read) :
    Nowhere (EntersBehind args s) read ↔ Nowhere (Occurs args.beginString) read := by
  constructor
  · intro stays
    by_contra somewhere
    obtain ⟨before, byte, after, rfl, here, absent⟩ := exists_first_place somewhere
    have enters := (rest.enters_iff_occurs searchable
      (nowhere_append.mp nulFree).1 absent byte).mpr here
    exact stays before byte after rfl enters
  · intro absent
    exact (rest.longest searchable nulFree absent).1

theorem Searching.searchesRight (rest : Searching s) (searchable : Searchable args.beginString)
    (nulFree : Nowhere (NulBehind args.beginString) stream) :
    SearchesRight args s stream := by
  constructor
  · rintro before byte after rfl
    have earlier := (nowhere_append.mp nulFree).1
    rw [rest.noEntry_iff searchable earlier]
    constructor
    · rintro ⟨enters, absent⟩
      exact ⟨(rest.enters_iff_occurs searchable earlier absent byte).mp enters, absent⟩
    · rintro ⟨occurs, absent⟩
      exact ⟨(rest.enters_iff_occurs searchable earlier absent byte).mpr occurs, absent⟩
  · rintro before after rfl stays
    have earlier := (nowhere_append.mp nulFree).1
    have absent := (rest.noEntry_iff searchable earlier).mp stays
    exact (rest.longest searchable earlier absent).2.within

/-- A NUL behind the begin string is taken for its terminator. -/
theorem Searching.nulFree_of_searchesRight (rest : Searching s)
    (searchable : Searchable args.beginString) (right : SearchesRight args s stream) :
    Nowhere (NulBehind args.beginString) stream := by
  by_contra somewhere
  obtain ⟨before, byte, after, rfl, ⟨zero, ends, absent⟩, nulFree⟩ := exists_first_place somewhere
  obtain ⟨stays, longest⟩ := rest.longest searchable nulFree absent
  obtain ⟨-, finding⟩ := splitBytes_searching rest.noFault rest.searching stays
  have whole := longest.eq_length_iff.mpr ends
  have notDigit : ¬ isDigit byte = true := by
    rw [zero]
    decide
  have here : ¬ Enters args (splitBytes args s before).1 byte := by
    rw [enters_iff finding longest.within]
    exact fun enters => notDigit enters.2
  have next := noEntry_concat.mpr ⟨stays, here⟩
  have index : (splitBytes args s (before ++ [byte])).1.l = args.beginString.length + 1 := by
    rw [splitBytes_searching_index rest.noFault rest.searching next,
      findingBeginString, whole, beginChar_at_end, zero, if_pos (by decide)]
  have within := right.2 (before ++ [byte]) after (by simp) next
  omega

/-- A stream that the splitter takes for no begin string although it holds one. -/
theorem not_searchesRight_of_missed {digit : UInt8}
    (ends : args.beginString <:+ read) (isDigit : isDigit digit = true)
    (missed : Nowhere (EntersBehind args s) (read ++ [digit])) :
    ¬ SearchesRight args s (read ++ [digit]) := by
  intro right
  have somewhere : ¬ Nowhere (Occurs args.beginString) (read ++ [digit]) := by
    intro nowhere
    exact nowhere read digit [] rfl ⟨ends, isDigit⟩
  obtain ⟨before, byte, after, splits, here, absent⟩ := exists_first_place somewhere
  have enters := ((right.1 before byte after splits).mpr ⟨here, absent⟩).1
  exact missed before byte after splits enters

theorem nulFree_of_not_mem {beginString : List UInt8}
    (noNul : (0 : UInt8) ∉ stream) : Nowhere (NulBehind beginString) stream := by
  rintro before byte after rfl ⟨rfl, -⟩
  exact noNul (by simp)

theorem StuckAt.noEntry {position : Nat} {character : UInt8}
    (here : args.beginString[position]? = some character)
    (negative : 128 ≤ character.toNat) (stuck : StuckAt position s)
    (stream : List UInt8) : Nowhere (EntersBehind args s) stream := by
  rintro before byte after rfl ⟨-, falls⟩
  have preserved : ∀ s byte, StuckAt position s → StuckAt position (splitByte args s byte).1 :=
    fun _ byte stuck => (splitByte_stuckAt here negative stuck byte).1
  have kept : StuckAt position (splitBytes args s before).1 :=
    MealyMachine.run_invariant preserved stuck before
  rw [(findingBeginString_stuckAt here negative kept byte).1] at falls
  cases falls

theorem Searching.index_take (rest : Searching s) (plain : args.Plain)
    {length : Nat} (within : length ≤ args.beginString.length) :
    Nowhere (EntersBehind args s) (args.beginString.take length) ∧
      (splitBytes args s (args.beginString.take length)).1.l = length := by
  induction length with
  | zero => exact ⟨nowhere_nil, rest.atStart⟩
  | succ length induction =>
    obtain ⟨stays, index⟩ := induction (by omega)
    obtain ⟨-, finding⟩ := splitBytes_searching rest.noFault rest.searching stays
    have character := List.getElem?_eq_getElem within
    rw [List.take_succ_eq_append_getElem within]
    have here : ¬ Enters args (splitBytes args s (args.beginString.take length)).1
        args.beginString[length] := by
      rw [enters_iff finding (by omega)]
      omega
    have next := noEntry_concat.mpr ⟨stays, here⟩
    refine ⟨next, ?_⟩
    rw [splitBytes_searching_index rest.noFault rest.searching next,
      findingBeginString, index, beginChar_of_inside character,
      if_pos (charEqByte_iff.mpr ⟨rfl, plain _ (List.getElem_mem within)⟩)]

/-- The index grows by one at most, so that fewer bytes than the begin string has
left do not complete it. -/
theorem Searching.noEntry_of_behind (rest : Searching s) {index : Nat}
    {more : List UInt8} (stays : Nowhere (EntersBehind args s) read)
    (behind : (splitBytes args s read).1.l ≤ index)
    (short : index + more.length ≤ args.beginString.length) :
    Nowhere (EntersBehind args s) (read ++ more) ∧
      (splitBytes args s (read ++ more)).1.l ≤ index + more.length := by
  induction more using List.reverseRecOn with
  | nil => simpa using ⟨stays, behind⟩
  | append_singleton more byte induction =>
    rw [List.length_append, List.length_singleton] at short ⊢
    obtain ⟨earlier, small⟩ := induction (by omega)
    obtain ⟨-, finding⟩ := splitBytes_searching rest.noFault rest.searching earlier
    rw [← List.append_assoc]
    have here : ¬ Enters args (splitBytes args s (read ++ more)).1 byte := by
      rw [enters_iff finding (by omega)]
      omega
    have next := noEntry_concat.mpr ⟨earlier, here⟩
    refine ⟨next, ?_⟩
    rw [splitBytes_searching_index rest.noFault rest.searching next]
    have grows := index_le_succ args byte (splitBytes args s (read ++ more)).1
    omega

/-- Without a place to resume at, a begin string that starts inside the beginning
of another one is missed. -/
theorem Searching.misses (rest : Searching s) (plain : args.Plain)
    (stops : ¬ Resumes (fun byte => isDigit byte = true) args.beginString) :
    ∃ stream, Nowhere (NulBehind args.beginString) stream ∧ ¬ SearchesRight args s stream := by
  unfold Resumes at stops
  push Not at stops
  obtain ⟨shorter, longer, symbol, positive, below, within, ⟨front, overlap⟩,
    follows, differs, final⟩ := stops
  obtain ⟨inside, symbolEq⟩ := List.getElem?_eq_some_iff.mp follows
  have member : symbol ∈ args.beginString := List.mem_of_getElem? follows
  obtain ⟨stays, index⟩ := rest.index_take plain within
  obtain ⟨-, finding⟩ := splitBytes_searching rest.noFault rest.searching stays
  have nonzero : symbol ≠ 0 := by
    rintro rfl
    exact args.terminated member
  have here : ¬ Enters args (splitBytes args s (args.beginString.take longer)).1
      symbol := by
    rw [enters_iff finding (by omega), index]
    rintro ⟨whole, digit⟩
    exact final whole digit
  have next := noEntry_concat.mpr ⟨stays, here⟩
  have restarted : (splitBytes args s (args.beginString.take longer ++ [symbol])).1.l ≤ 1 := by
    rw [splitBytes_searching_index rest.noFault rest.searching next,
      index_eq_advance plain (by omega) (fun _ => nonzero)
        (by simpa [Enters, finding] using here), index]
    exact advance_le_one differs
  have short : 1 + (args.beginString.drop (shorter + 1) ++ [48]).length ≤
      args.beginString.length := by
    rw [List.length_append, List.length_drop, List.length_singleton]
    omega
  obtain ⟨missed, -⟩ := rest.noEntry_of_behind next restarted short
  rw [← List.append_assoc] at missed
  have ends : args.beginString <:+ args.beginString.take longer ++ [symbol] ++
      args.beginString.drop (shorter + 1) := by
    refine ⟨front, ?_⟩
    rw [← overlap, List.append_assoc, List.append_assoc, List.append_cancel_left_eq,
      List.singleton_append, ← symbolEq, ← List.drop_eq_getElem_cons inside, List.take_append_drop]
  refine ⟨_, ?_, not_searchesRight_of_missed ends (by decide) missed⟩
  apply nulFree_of_not_mem
  simp only [List.mem_append, List.mem_singleton, not_or]
  refine ⟨⟨⟨?_, nonzero.symm⟩, ?_⟩, by decide⟩
  · exact fun zero => args.terminated (List.mem_of_mem_take zero)
  · exact fun zero => args.terminated (List.mem_of_mem_drop zero)

theorem ofVersion_eq_cons (version : FixVersion) {soh : UInt8} (notDigit : isDigit soh = false) :
    ∃ rest, (BeginString.ofVersion soh (fixVersionString version)).text =
      56 :: rest ∧ (56 : UInt8) ∉ rest := by
  refine ⟨cString ((61 :: fixVersionString version ++ soh :: ascii ['9', '=']).take 30), rfl, ?_⟩
  intro again
  have delimiter : (56 : UInt8) ≠ soh := by
    rintro rfl
    exact absurd notDigit (by decide)
  have inVersion : (56 : UInt8) ∉ fixVersionString version := by
    cases version <;> decide +kernel
  have inside := List.mem_of_mem_take ((List.takeWhile_sublist _).subset again)
  simp [delimiter, inVersion, ascii] at inside

theorem searchable_fixVersionString (version : FixVersion) {soh : UInt8}
    (notDigit : isDigit soh = false) (plain : soh.toNat < 128) :
    Searchable (BeginString.ofVersion soh (fixVersionString version)).text := by
  constructor
  · intro byte member
    have inside := List.mem_of_mem_take ((List.takeWhile_sublist _).subset member)
    have inVersion : ∀ byte ∈ fixVersionString version, byte.toNat < 128 := by
      cases version <;> decide +kernel
    simp only [ascii, List.map_cons, List.map_nil, List.cons_append, List.nil_append, List.mem_cons,
      List.mem_append, List.not_mem_nil, or_false] at inside
    rcases inside with rfl | rfl | character | rfl | rfl | rfl
    · decide
    · decide
    · exact inVersion byte character
    · exact plain
    · decide
    · decide
  · obtain ⟨rest, text, once⟩ := ofVersion_eq_cons version notDigit
    rw [text]
    apply resumes_of_unique
    intro place positive inside again
    obtain ⟨place, rfl⟩ : ∃ before, place = before + 1 := ⟨place - 1, by omega⟩
    rw [List.getElem?_cons_succ, List.getElem?_cons_zero] at again
    exact once (List.mem_of_getElem? again)

/-- The search is right for every stream without a NUL behind an early begin
string exactly when the begin string can be searched for without a table.  For such
a begin string it goes wrong on all other streams. -/
theorem searchable_iff (args : SplitterArgs) (s : Splitter) (rest : Searching s) :
    (Searchable args.beginString ↔ ∀ stream,
      Nowhere (NulBehind args.beginString) stream →
        SearchesRight args s stream) ∧
      (Searchable args.beginString → ∀ stream, SearchesRight args s stream →
        Nowhere (NulBehind args.beginString) stream) := by
  refine ⟨⟨?_, ?_⟩, ?_⟩
  · intro searchable stream nulFree
    exact rest.searchesRight searchable nulFree
  · intro right
    by_contra notSearchable
    by_cases plain : args.Plain
    · obtain ⟨stream, nulFree, wrong⟩ :=
        rest.misses plain fun resumes => notSearchable ⟨plain, resumes⟩
      exact wrong (right stream nulFree)
    · unfold SplitterArgs.Plain at plain
      push Not at plain
      obtain ⟨character, member, negative⟩ := plain
      obtain ⟨position, here⟩ := List.mem_iff_getElem?.mp member
      have stuck : StuckAt position s :=
        ⟨rest.searching, rest.atStart ▸ Nat.zero_le position⟩
      apply not_searchesRight_of_missed (List.suffix_refl args.beginString)
        (by decide : isDigit 48 = true) (stuck.noEntry here negative _)
      apply right
      apply nulFree_of_not_mem
      rw [List.mem_append, not_or]
      exact ⟨args.terminated, by decide⟩
  · intro searchable stream right
    exact rest.nulFree_of_searchesRight searchable right

theorem searching_initial (lastReceived : UInt64) : Searching (.initial lastReceived) :=
  ⟨rfl, rfl, rfl⟩

theorem searchable_iff_order :
    SearchesRight fix41Args (.initial 0) orderEntry.data := by
  have text : (BeginString.ofVersion 1 (fixVersionString .fix41)).text =
      fix41Args.beginString := by
    decide +kernel
  have searchable : Searchable fix41Args.beginString :=
    text ▸ searchable_fixVersionString .fix41 (by decide) (by decide)
  exact (searchable_iff fix41Args (.initial 0) (searching_initial 0)).1.mp
    searchable _ (nulFree_of_not_mem (by decide +kernel))

def fix789Args : SplitterArgs where
  soh := 1
  beginString := (BeginString.ofVersion 1 (ascii "FIX.78.9".toList)).text
  beyond := fun _ => 0
  dataTags := fun _ => false
  mallocSucceeds := fun _ => true
  terminated := by decide +kernel
  fits := by decide +kernel

def overlappingStream : List UInt8 := ascii "8=FIX.7".toList ++ fix789Args.beginString

instance (args : SplitterArgs) (s : Splitter) (before : List UInt8)
    (byte : UInt8) : Decidable (EntersBehind args s before byte) :=
  inferInstanceAs (Decidable (Enters ..))

/-- The search misses a begin string of FIX.78.9 behind the start of another one,
and a NUL behind one of FIX.4.1 takes the index beyond its end. -/
theorem search_goes_wrong :
    (fix789Args.beginString <:+ overlappingStream ∧
      ¬ SearchesRight fix789Args (.initial 0) (overlappingStream ++ [53])) ∧
    ¬ SearchesRight fix41Args (.initial 0) (fix41Args.beginString ++ [0]) := by
  have ends : fix789Args.beginString <:+ overlappingStream :=
    List.suffix_append _ _
  have missed : Nowhere (EntersBehind fix789Args (.initial 0))
      (overlappingStream ++ [53]) :=
    MealyMachine.forall_split (by decide +kernel)
  have stays : Nowhere (EntersBehind fix41Args (.initial 0))
      (fix41Args.beginString ++ [0]) :=
    MealyMachine.forall_split (by decide +kernel)
  refine ⟨⟨ends, not_searchesRight_of_missed ends (by decide) missed⟩, ?_⟩
  intro right
  have within := right.2 _ [] (List.append_nil _).symm stays
  revert within
  decide +kernel

end Search

section Noise

variable {noise : List UInt8} {first : UInt8} {rest : List UInt8}

theorem splitBytes_noise (noFault : s.fault = none)
    (searching : s.state = .findingBeginString) (nonempty : args.beginString ≠ [])
    (absent : ¬ args.beginString <:+: noise) :
    ∃ l, l < args.beginString.length ∧ args.beginString.take l <:+ noise ∧
      splitBytes args (s.matching 0) noise = (s.matching l, []) := by
  induction noise using List.reverseRecOn with
  | nil =>
    exact ⟨0, List.length_pos_iff.mpr nonempty, by simp, rfl⟩
  | append_singleton noise byte induction =>
    obtain ⟨l, inside, ends, runs⟩ := induction fun earlier =>
      absent (earlier.trans (List.prefix_append _ _).isInfix)
    have stays : ¬ Enters args (s.matching l) byte := by
      rw [enters_iff (s := s.matching l) searching inside.le]
      exact fun enters => inside.ne enters.1
    have within := (index_le_succ args byte (s.matching l)).trans inside
    have next := take_index_suffix (s := s.matching l) (fun _ => ends) within
    refine ⟨_, lt_of_le_of_ne within ?_, next, ?_⟩
    · intro whole
      rw [whole, List.take_length] at next
      exact absent next.isInfix
    · have step := splitByte_searching (s := s.matching l) noFault searching stays
      unfold splitBytes at runs ⊢
      rw [MealyMachine.run_append, runs, MealyMachine.run_cons, step]
      rfl

theorem splitByte_restarts (noFault : s.fault = none) (searching : s.state = .findingBeginString)
    (begins : args.beginString = first :: rest) (once : first ∉ rest)
    (plain : first.toNat < 128) {l : Nat} (inside : l < args.beginString.length) :
    splitByte args (s.matching l) first = (s.matching 1, []) := by
  have start : args.beginString[0]? = some first := by
    rw [begins]
    rfl
  cases l with
  | zero => exact splitByte_matching noFault searching start plain
  | succ l =>
    have stays : ¬ Enters args (s.matching (l + 1)) first := by
      rw [enters_iff (s := s.matching (l + 1)) searching inside.le]
      exact fun enters => inside.ne enters.1
    have different : ¬ charEqByte (args.beginChar (l + 1)) first = true := by
      intro equal
      have here := charEqByte_beginChar inside.le (fun whole => absurd whole inside.ne) equal
      rw [begins, List.getElem?_cons_succ] at here
      exact once (List.mem_of_getElem? here)
    have nonzero : args.beginChar (l + 1) ≠ 0 := by
      intro zero
      exact inside.ne ((beginChar_eq_zero_iff inside.le).mp zero)
    have again : charEqByte (args.beginChar 0) first = true := by
      rw [beginChar_of_inside start]
      exact charEqByte_iff.mpr ⟨rfl, plain⟩
    have index : (findingBeginString args first (s.matching (l + 1))).1.l = 1 := by
      change (findingBeginString args first { s.matching 0 with l := l + 1 }).1.l = 1
      unfold findingBeginString
      rw [if_neg different, if_neg (by simp [nonzero]), if_pos again]
    rw [splitByte_searching (s := s.matching (l + 1)) noFault searching stays, index]
    rfl

/-- Noise in which no begin string occurs, not even with the one behind it, changes
nothing of what the splitter does with the messages that follow. -/
theorem noise_is_skipped (args : SplitterArgs) (version : FixVersion)
    (begins : args.beginString =
      (BeginString.ofVersion args.soh (fixVersionString version)).text)
    (delimiter : isDigit args.soh = false) (s : Splitter)
    (consistent : Consistent args s) (rest : Searching s) (noise : List UInt8)
    (quiet : ∀ front back,
      noise ++ args.beginString = front ++ args.beginString ++ back → back = [])
    (messages : List (FixMessage args.soh)) (noisy clean : List FoxtrotEntry)
    (noisyStream : streamOf noisy =
      noise ++ messages.flatMap fun message => message.bytes args.beginString)
    (cleanStream : streamOf clean =
      messages.flatMap fun message => message.bytes args.beginString) :
    (splitEntries args s noisy).2 = (splitEntries args s clean).2 := by
  obtain ⟨tail, text, once⟩ := ofVersion_eq_cons version delimiter
  rw [← begins] at text
  have settled : s.settled = s.matching 0 := by
    have kept := settled_of_searching rest.searching s.l
    rw [rest.atStart] at kept
    rw [← kept, ← rest.atStart]
  have effects : ∀ entries, (splitEntries args s entries).2 =
      (splitBytes args (s.matching 0) (streamOf entries)).2 := by
    intro entries
    rw [← settled]
    exact (Prod.ext_iff.mp (splitEntries_refines (fun _ => consistent) entries)).2
  have absent : ¬ args.beginString <:+: noise := by
    rintro ⟨front, back, joined⟩
    have none := quiet front (back ++ args.beginString) (by
      rw [← joined, List.append_assoc])
    rw [text] at none
    simp at none
  obtain ⟨l, inside, -, runs⟩ :=
    splitBytes_noise rest.noFault rest.searching (by simp [text]) absent
  have restarts : ∀ {l}, l < args.beginString.length →
      splitByte args (s.matching l) 56 = (s.matching 1, []) := fun inside =>
    splitByte_restarts rest.noFault rest.searching text once (by decide) inside
  have same : ∀ bytes, (splitBytes args (s.matching l) (56 :: bytes)).2 =
      (splitBytes args (s.matching 0) (56 :: bytes)).2 := by
    intro bytes
    rw [splitBytes_cons, splitBytes_cons, restarts inside, restarts (Nat.zero_lt_of_lt inside)]
  rw [effects, effects, noisyStream, cleanStream]
  have skipped : ∀ bytes, (splitBytes args (s.matching 0) (noise ++ bytes)).2 =
      (splitBytes args (s.matching l) bytes).2 := by
    intro bytes
    unfold splitBytes at runs ⊢
    rw [MealyMachine.run_append_outputs, runs, List.nil_append]
  rw [skipped]
  cases messages with
  | nil => rfl
  | cons message messages =>
    rw [List.flatMap_cons, FixMessage.bytes, FixMessage.summed, text]
    exact same _

def shortNoise : List UInt8 := ascii ['8', '='] ++ [49, 1, 0]

def noisyOrderEntry : FoxtrotEntry where
  data := shortNoise ++ orderEntry.data
  fits := by decide +kernel

theorem noise_is_skipped_order :
    (splitEntries fix41Args (.initial 0) [noisyOrderEntry]).2 =
      (splitEntries fix41Args (.initial 0) [orderEntry]).2 := by
  apply noise_is_skipped fix41Args .fix41 (by decide +kernel) (by decide)
    (.initial 0) (consistent_initial fix41Args 0) (searching_initial 0) shortNoise
    ?_ [orderMessage] [noisyOrderEntry] [orderEntry] (by decide +kernel)
    (by decide +kernel)
  intro front back splits
  have early : ¬ front.length < 5 := by
    intro inside
    have places : ∀ place < 5, ¬ fix41Args.beginString <+:
        (shortNoise ++ fix41Args.beginString).drop place := by
      decide +kernel
    apply places front.length inside
    rw [splits, List.append_assoc, List.drop_left]
    exact List.prefix_append _ _
  have lengths := congrArg List.length splits
  rw [List.length_append, List.length_append, List.length_append,
    show shortNoise.length = 5 from rfl] at lengths
  exact List.length_eq_zero_iff.mp (by omega)

end Noise

end MercuryFix
