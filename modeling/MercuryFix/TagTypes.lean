import MercuryFix.FieldTraversal
import MercuryFix.StandardTags
import Mathlib.Logic.Function.Basic

/-!
# The types of tags

A `FIXMessageRX` keeps the types of all tags in a map and the tags of data fields
once more in a set, and `next_field` asks the set.  `add_custom_tag` changes the map
and only ever adds to the set.
-/

namespace MercuryFix

open DecimalText ByteBlock

structure TypedMessageRX extends FixMessageRX where
  tags : Nat → Option FixType

/-- A `FIX_Tag` for `add_custom_tag`, and whether there is memory for a new node in
the map and in the set. -/
structure CustomTag where
  tag : Nat
  type : FixType
  tagNode : Bool
  dataNode : Bool

namespace TypedMessageRX

def loadTags (tags : Nat → Option FixType) (table : List (Nat × FixType)) :
    Nat → Option FixType :=
  table.foldl (fun tags entry => Function.update tags entry.1 (some entry.2)) tags

def init (version : FixVersion) (soh : UInt8) : TypedMessageRX where
  toFixMessageRX := FixMessageRX.init version soh
  tags := loadTags (fun _ => none) (stdTags version)

def fieldContainsData (rx : TypedMessageRX) (tag : Nat) : Bool := rx.dataTags tag

/-- `add_custom_tag`, with its return value.  An exception leaves what has been done
before it. -/
def addCustomTag (rx : TypedMessageRX) (custom : CustomTag) :
    TypedMessageRX × Bool :=
  if (rx.tags custom.tag).isNone && !custom.tagNode then (rx, false)
  else
    let rx := { rx with
      tags := Function.update rx.tags custom.tag (some custom.type) }
    if custom.type = .data then
      if !rx.dataTags custom.tag && !custom.dataNode then (rx, false)
      else
        ({ rx with dataTags := Function.update rx.dataTags custom.tag true }, true)
    else (rx, true)

def addCustomTags (rx : TypedMessageRX) (customs : List CustomTag) :
    TypedMessageRX :=
  customs.foldl (fun rx custom => (rx.addCustomTag custom).1) rx

end TypedMessageRX

section Mirror

/-- The set holds the tags that the map gives the type `ft_data`. -/
def InSet (tags : Nat → Option FixType) (dataTags : Nat → Bool) : Prop :=
  ∀ tag, dataTags tag = true ↔ tags tag = some .data

variable {tags : Nat → Option FixType} {dataTags : Nat → Bool}

theorem InSet.data (inSet : InSet tags dataTags) (tag : Nat) :
    InSet (Function.update tags tag (some .data)) (Function.update dataTags tag true) := by
  intro other
  by_cases same : other = tag
  · subst same
    simp
  · rw [Function.update_of_ne same, Function.update_of_ne same]
    exact inSet other

theorem InSet.other (inSet : InSet tags dataTags) {tag : Nat} {type : FixType}
    (ordinary : type ≠ .data) (absent : dataTags tag = false) :
    InSet (Function.update tags tag (some type)) dataTags := by
  intro other
  by_cases same : other = tag
  · subst same
    simp [ordinary, absent]
  · rw [Function.update_of_ne same]
    exact inSet other

def neverRetyped : List Nat → List (Nat × FixType) → Bool
  | _, [] => true
  | data, (tag, type) :: table =>
    if type = .data then neverRetyped (data ++ [tag]) table
    else !data.contains tag && neverRetyped data table

def dataTagsOf (table : List (Nat × FixType)) : List Nat :=
  (table.filter fun entry => entry.2 = .data).map Prod.fst

theorem InSet.loadTags {table : List (Nat × FixType)} {data : List Nat}
    (inSet : InSet tags data.contains) (kept : neverRetyped data table = true) :
    InSet (TypedMessageRX.loadTags tags table) (data ++ dataTagsOf table).contains := by
  induction table generalizing tags data with
  | nil => simpa [dataTagsOf, TypedMessageRX.loadTags] using inSet
  | cons entry table induction =>
    obtain ⟨tag, type⟩ := entry
    rw [TypedMessageRX.loadTags, List.foldl_cons]
    by_cases isData : type = .data
    · subst isData
      have grown : (data ++ [tag]).contains = Function.update data.contains tag true := by
        ext other
        by_cases same : other = tag
        · simp [same]
        · simp [same]
      have here := inSet.data tag
      rw [← grown] at here
      rw [neverRetyped, if_pos rfl] at kept
      have rest := induction here kept
      rw [List.append_assoc] at rest
      exact rest
    · rw [neverRetyped, if_neg isData, Bool.and_eq_true, Bool.not_eq_true'] at kept
      have rest := induction (inSet.other isData kept.1) kept.2
      have same : dataTagsOf ((tag, type) :: table) = dataTagsOf table := by
        simp [dataTagsOf, isData]
      rw [same]
      exact rest

theorem neverRetyped_append (data : List Nat) (first second : List (Nat × FixType)) :
    neverRetyped data (first ++ second) =
      (neverRetyped data first && neverRetyped (data ++ dataTagsOf first) second) := by
  induction first generalizing data with
  | nil => simp [neverRetyped, dataTagsOf]
  | cons entry first induction =>
    obtain ⟨tag, type⟩ := entry
    rw [List.cons_append, neverRetyped, neverRetyped]
    by_cases isData : type = .data
    · simp [isData, induction, dataTagsOf]
    · simp [isData, induction, dataTagsOf, Bool.and_assoc]

/-- A table and the table of data tags agree. -/
def TablesAgree (table : List (Nat × FixType)) (data : List Nat) : Prop :=
  neverRetyped [] table = true ∧ dataTagsOf table = data

instance (table : List (Nat × FixType)) (data : List Nat) :
    Decidable (TablesAgree table data) :=
  inferInstanceAs (Decidable (_ ∧ _))

theorem TablesAgree.append {first second : List (Nat × FixType)} {data later : List Nat}
    (agree : TablesAgree first data) (kept : neverRetyped data second = true)
    (more : data ++ dataTagsOf second = later) : TablesAgree (first ++ second) later := by
  constructor
  · rw [neverRetyped_append, agree.1, agree.2, List.nil_append, kept, Bool.and_self]
  · rw [← more, ← agree.2, dataTagsOf, List.filter_append, List.map_append]
    rfl

theorem agree_fix44 : TablesAgree fix44StdTags (stdDataTags .fix44) := by
  decide +kernel

theorem agree_fix50 : TablesAgree fix50StdTags (stdDataTags .fix50) := by
  apply agree_fix44.append <;> decide +kernel

theorem agree_fix50SP1 : TablesAgree fix50SP1StdTags (stdDataTags .fix50SP1) := by
  apply agree_fix50.append <;> decide +kernel

theorem agree_fix50SP2 : TablesAgree fix50SP2StdTags (stdDataTags .fix50SP2) := by
  apply agree_fix50SP1.append <;> decide +kernel

theorem agree_stdTags (version : FixVersion) :
    TablesAgree (stdTags version) (stdDataTags version) := by
  cases version with
  | fix44 => exact agree_fix44
  | fix50 => exact agree_fix50
  | fix50SP1 => exact agree_fix50SP1
  | fix50SP2 => exact agree_fix50SP2
  | custom | fix40 | fix41 | fix42 | fix43 | fixT11 => decide +kernel

theorem InSet.init (version : FixVersion) (soh : UInt8) :
    InSet (TypedMessageRX.init version soh).tags (TypedMessageRX.init version soh).dataTags := by
  obtain ⟨kept, same⟩ := agree_stdTags version
  have empty : InSet (fun _ => none) ([] : List Nat).contains := by
    intro tag
    simp
  have loaded := empty.loadTags kept
  rw [List.nil_append, same] at loaded
  exact loaded

end Mirror

section Parsing

/-- `next_field` takes the length of the field from the value in front of it. -/
def LengthPrefixed (rx : FixMessageRX) (tag : Nat) : Prop :=
  ∀ (start value previous : List UInt8) (length : Nat),
    getFixTag start = some ((tag : Int), value) →
    getFixLengthValue rx.soh previous = some (length : Int) → length < 2 ^ 31 →
    ∃ next, { rx with pos := some start, prevValue := some previous }.nextField =
      some ⟨tag, length, value, next⟩

/-- The tags that `get_fix_tag` accepts, without the one that ends a message. -/
def Readable (tag : Nat) : Prop := 1 ≤ tag ∧ tag ≤ 2147483639 ∧ tag ≠ 10

theorem lengthPrefixed_iff {rx : FixMessageRX} {tag : Nat} (readable : Readable tag) :
    LengthPrefixed rx tag ↔ rx.dataTags tag = true := by
  obtain ⟨positive, small, inside⟩ := readable
  constructor
  · intro measured
    by_contra absent
    -- The value is empty and the one in front of it is 1.
    have found : getFixTag (render tag ++ 61 :: [rx.soh]) = some ((tag : Int), [rx.soh]) := by
      rw [getFixTag_of_tagText (tagText_render positive small), value_render]
    have one : getFixLengthValue rx.soh [49, rx.soh] = some ((1 : Nat) : Int) := by
      simp [getFixLengthValue, getFixLengthLoop, maxLength]
    obtain ⟨next, read⟩ := measured _ _ _ 1 found one (by decide)
    unfold FixMessageRX.nextField at read
    simp only [found, Int.toNat_natCast, if_neg absent] at read
    rw [if_neg (by omega), if_neg (by omega)] at read
    split at read
    · rename_i shorter
      have none : ([rx.soh].takeWhile fun byte =>
          !charEqByte rx.soh byte).length = 0 := by
        simpa using shorter
      simp [none] at read
    · cases read
  · intro data start value previous length found measured bounded
    have same : (length : Int).bmod (2 ^ 32) = length := by
      rw [Int.bmod_def]
      omega
    unfold FixMessageRX.nextField
    simp only [found, Int.toNat_natCast, if_pos data, Option.bind_some, measured, same]
    rw [if_neg (by omega), if_neg (by omega), if_neg (by omega)]
    exact ⟨_, rfl⟩

end Parsing

section Run

variable {rx : TypedMessageRX} {custom : CustomTag}

/-- The set mirrors the types in the map, and so does `next_field`. -/
def TypesMirrored (rx : TypedMessageRX) : Prop :=
  InSet rx.tags rx.dataTags ∧
    ∀ tag, Readable tag → (LengthPrefixed rx.toFixMessageRX tag ↔ rx.tags tag = some .data)

theorem typesMirrored_iff : TypesMirrored rx ↔ InSet rx.tags rx.dataTags := by
  constructor
  · intro mirrored
    exact mirrored.1
  · intro inSet
    apply And.intro inSet
    intro tag readable
    rw [lengthPrefixed_iff readable]
    exact inSet tag

/-- A call gives its tag another type only if the set does not hold the tag, and the
type `ft_data` only if the set can take it. -/
def CustomTag.Harmless (rx : TypedMessageRX) (custom : CustomTag) : Prop :=
  (rx.tags custom.tag).isSome ∨ custom.tagNode →
    if custom.type = .data then rx.dataTags custom.tag ∨ custom.dataNode
    else rx.dataTags custom.tag = false

theorem addCustomTag_unwritten (unwritten : ¬ ((rx.tags custom.tag).isSome ∨ custom.tagNode)) :
    rx.addCustomTag custom = (rx, false) := by
  simp only [not_or, Bool.not_eq_true, Option.isSome_eq_false_iff] at unwritten
  simp [TypedMessageRX.addCustomTag, unwritten.1, unwritten.2]

theorem addCustomTag_written (written : (rx.tags custom.tag).isSome ∨ custom.tagNode) :
    (rx.addCustomTag custom).1.tags = Function.update rx.tags custom.tag (some custom.type) ∧
      (rx.addCustomTag custom).1.dataTags =
        if custom.type = .data ∧ (rx.dataTags custom.tag ∨ custom.dataNode) then
          Function.update rx.dataTags custom.tag true
        else rx.dataTags := by
  have passed : ((rx.tags custom.tag).isNone && !custom.tagNode) = false := by
    rcases written with known | node
    · simp [← Option.not_isSome, known]
    · simp [node]
  by_cases isData : custom.type = .data
  · by_cases room : rx.dataTags custom.tag ∨ custom.dataNode
    · have taken : (!rx.dataTags custom.tag && !custom.dataNode) = false := by
        rcases room with known | node
        · simp [known]
        · simp [node]
      simp [TypedMessageRX.addCustomTag, passed, isData, taken, room]
    · have refused : (!rx.dataTags custom.tag && !custom.dataNode) = true := by
        simpa using room
      simp [TypedMessageRX.addCustomTag, passed, isData, refused, room]
  · simp [TypedMessageRX.addCustomTag, passed, isData]

theorem inSet_addCustomTag (inSet : InSet rx.tags rx.dataTags) :
    InSet (rx.addCustomTag custom).1.tags (rx.addCustomTag custom).1.dataTags ↔
      custom.Harmless rx := by
  by_cases written : (rx.tags custom.tag).isSome ∨ custom.tagNode
  case neg =>
    rw [addCustomTag_unwritten written]
    exact ⟨fun _ other => absurd other written, fun _ => inSet⟩
  obtain ⟨tags, dataTags⟩ := addCustomTag_written written
  rw [tags, dataTags, CustomTag.Harmless, forall_prop_of_true written]
  by_cases isData : custom.type = .data
  · rw [if_pos isData, isData]
    by_cases room : rx.dataTags custom.tag ∨ custom.dataNode
    · simp only [room, and_self, if_true, iff_true]
      exact inSet.data custom.tag
    · -- Only the map has taken the tag.
      simp only [room, and_false, if_false, iff_false]
      intro kept
      have here := kept custom.tag
      rw [Function.update_self] at here
      exact room (.inl (here.mpr rfl))
  · simp only [isData, false_and, if_false]
    constructor
    · intro kept
      have here := kept custom.tag
      simpa [isData] using here
    · intro absent
      exact inSet.other isData absent

theorem InSet.addCustomTags {customs : List CustomTag} (inSet : InSet rx.tags rx.dataTags)
    (harmless : ∀ done custom later, customs = done ++ custom :: later →
      custom.Harmless (rx.addCustomTags done)) :
    InSet (rx.addCustomTags customs).tags (rx.addCustomTags customs).dataTags := by
  induction customs generalizing rx with
  | nil => exact inSet
  | cons custom customs induction =>
    apply induction ((inSet_addCustomTag inSet).mpr (harmless [] custom customs rfl))
    intro done next later split
    exact harmless (custom :: done) next later (by rw [split]; rfl)

/-- After each of the calls the set mirrors the types exactly if each of them is
harmless for the object that it finds. -/
theorem dataTags_mirror_iff (version : FixVersion) (soh : UInt8) (customs : List CustomTag) :
    (∀ done later, customs = done ++ later →
      TypesMirrored ((TypedMessageRX.init version soh).addCustomTags done)) ↔
      ∀ done custom later, customs = done ++ custom :: later →
        custom.Harmless
          ((TypedMessageRX.init version soh).addCustomTags done) := by
  constructor
  · intro mirrored done custom later split
    have before := typesMirrored_iff.mp (mirrored done (custom :: later) split)
    have behind := typesMirrored_iff.mp
      (mirrored (done ++ [custom]) later (by rw [split, List.append_assoc]; rfl))
    rw [TypedMessageRX.addCustomTags, List.foldl_append] at behind
    exact (inSet_addCustomTag before).mp behind
  · intro harmless done later split
    apply typesMirrored_iff.mpr
    apply (InSet.init version soh).addCustomTags
    intro before custom behind inside
    apply harmless before custom (behind ++ later)
    rw [split, inside, List.append_assoc]
    rfl

/-- RawData of FIX 4.1 as a string: the map says so, and the set still holds the
tag. -/
theorem dataTags_retyped :
    let rx := (TypedMessageRX.init .fix41 1).addCustomTags [⟨96, .string, true, true⟩]
    rx.tags 96 = some .string ∧ rx.fieldContainsData 96 = true ∧
      ¬ TypesMirrored rx := by
  have retyped : ((TypedMessageRX.init .fix41 1).addCustomTags
      [⟨96, .string, true, true⟩]).tags 96 = some .string := by
    simp [TypedMessageRX.addCustomTags, TypedMessageRX.addCustomTag]
  have kept : ((TypedMessageRX.init .fix41 1).addCustomTags
      [⟨96, .string, true, true⟩]).dataTags 96 = true := by
    simp [TypedMessageRX.addCustomTags, TypedMessageRX.addCustomTag]
    rfl
  apply And.intro retyped
  apply And.intro kept
  intro mirrored
  have type := (mirrored.1 96).mp kept
  rw [retyped] at type
  cases type

end Run

end MercuryFix
