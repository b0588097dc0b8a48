import MercuryFix.ByteBlocks

/-!
# Configuration files

`load` reads a file into a buffer in which the ends of the lines are NUL, and
`itemize` makes the tokens and values from it.  It cuts them out by writing NUL into
the buffer, which `get_next_line` then takes for the ends of lines.

The buffer is a list of bytes, `fsize_` is its length and a pointer into it is a
position.  `char` is signed, so that the byte 0xFF compares equal to `EOF`.
-/

namespace MercuryFix

open ByteBlock

/-- Why a call does not return: an access outside of the buffer or of the items, a
`free` of a pointer that was not allocated, a file that never gets ready, or no end
of the steps. -/
inductive ConfigFault
  | outside
  | invalidFree
  | waiting
  | unfinished
  deriving DecidableEq

def commentChar : UInt8 := 0x23

def maxConfigFileSize : Nat := 20480

def wspace (c : UInt8) : Bool := c == 32 || c == 9 || c == 13

section Buffer

def walk (stop : UInt8 → Bool) (fbuf : List UInt8) (str : Nat) :
    Option (Nat × UInt8) :=
  let place := str + ((fbuf.drop str).takeWhile fun byte => !stop byte).length
  fbuf[place]?.map fun byte => (place, byte)

/-- A loop that does not look for the end of the buffer. -/
def reach : Option (Nat × UInt8) → Except ConfigFault (Nat × UInt8)
  | none => .error .outside
  | some place => .ok place

def stringAt (fbuf : List UInt8) (str : Nat) : Except ConfigFault (List UInt8) := do
  let (terminator, _) ← reach (walk (· == 0) fbuf str)
  .ok ((fbuf.drop str).take (terminator - str))

/-- The loop of `point_to_value` that removes trailing whitespace. -/
def removeTrailing (fbuf : List UInt8) : Nat → Except ConfigFault (List UInt8)
  | 0 => .error .outside
  | tmp + 1 =>
    match fbuf[tmp]? with
    | none => .error .outside
    | some byte =>
      if wspace byte then removeTrailing (fbuf.set tmp 0) tmp else .ok fbuf

/-- The part of `point_to_value` behind the token. -/
def cutOutValue (fbuf : List UInt8) (str : Nat) :
    Except ConfigFault (List UInt8 × Nat) := do
  let (val, _) ← reach (walk (fun byte => !wspace byte) fbuf str)
  let fbuf := blit fbuf str (List.replicate (val - str) 0)
  let (tmp, _) ← reach (walk (· == 0) fbuf val)
  let fbuf ← removeTrailing fbuf tmp
  .ok (fbuf, val)

def pointToValue (fbuf : List UInt8) (str : Nat) :
    Except ConfigFault (Option (List UInt8 × Nat)) :=
  match fbuf[str]? with
  | none => .error .outside
  | some first =>
    -- not possible
    if wspace first then .ok none
    else do
      let (str, byte) ← reach (walk (fun byte => wspace byte || byte == 0) fbuf str)
      if byte = 0 then .ok (some (fbuf, str))
      else do
        let result ← cutOutValue fbuf str
        .ok (some result)

/-- What `get_next_line` finds: a configuration line, the end of the buffer, or
floating text. -/
inductive NextLine
  | line (str : Nat)
  | null
  | floating
  deriving DecidableEq

/-- `get_next_line`: the line number and what it finds. -/
def getNextLine (fbuf : List UInt8) :
    Nat → Nat → Nat → Except ConfigFault (Nat × NextLine)
  | 0, _, _ => .error .unfinished
  | fuel + 1, lnum, str =>
    if fbuf.length ≤ str then .error .outside
    else
      match walk (· == 0) fbuf str with
      | none => .ok (lnum, .null)
      | some (nul, _) =>
        match walk (· != 0) fbuf nul with
        | none => .ok (lnum + (fbuf.length - nul), .null)
        | some (start, first) =>
          let lnum := lnum + (start - nul)
          if wspace first then
            match walk (fun byte => !wspace byte) fbuf start with
            | none => .ok (lnum, .null)
            | some (stop, byte) =>
              if byte ≠ 0 then .ok (lnum, .floating)
              else getNextLine fbuf fuel lnum stop
          else if first = commentChar then getNextLine fbuf fuel lnum start
          else .ok (lnum, .line start)

end Buffer

section Items

/-- A pointer into the buffer, or to an allocated string. -/
inductive CharPtr
  | fbuf (str : Nat)
  | heap (text : List UInt8)
  deriving DecidableEq

structure ConfigFile.Item where
  token : Option CharPtr
  value : Option CharPtr
  deriving DecidableEq

open ConfigFile

def storeItem (items : List Item) (count : Nat) (item : Item) :
    Except ConfigFault (List Item) :=
  if count < items.length then .ok (items.set count item) else .error .outside

def freePtr : Option CharPtr → Except ConfigFault Unit
  | some (.fbuf _) => .error .invalidFree
  | _ => .ok ()

/-- The loop that frees the tokens and values up to the first NULL value. -/
def freeItems : List Item → Except ConfigFault Unit
  | [] => .error .outside
  | item :: items =>
    match item.value with
    | none => .ok ()
    | some value => do
        freePtr item.token
        freePtr (some value)
        freeItems items

/-- Which of the allocations of `itemize` succeed: the one of `items_`, and for each
item the ones of its token and of its value. -/
structure ConfigMemory where
  items : Bool
  copies : Nat → Bool × Bool

variable (memory : ConfigMemory)

/-- The loop of `itemize` behind a call of `get_next_line`, or at the first line: its
result and the items. -/
def itemizeLoop :
    Nat → List UInt8 → List Item → Nat → Nat × NextLine → Except ConfigFault (Int × List Item)
  | 0, _, _, _, _ => .error .unfinished
  | _ + 1, _, items, _, (lnum, .floating) => .ok (lnum, items)
  | _ + 1, _, items, _, (_, .null) => .ok (0, items)
  | fuel + 1, fbuf, items, count, (lnum, .line str) =>
    match fbuf[str]? with
    | none => .error .outside
    | some byte =>
      if byte = 0xFF then .ok (0, items)
      else do
        let items ← storeItem items count ⟨some (.fbuf str), none⟩
        match ← pointToValue fbuf str with
        | none => .ok (lnum, items)
        | some (fbuf, val) => do
            let token ← stringAt fbuf str
            if (memory.copies count).1 = false then do
              let items ← storeItem items count ⟨none, some (.fbuf val)⟩
              .ok (-1, items)
            else do
              let value ← stringAt fbuf val
              if (memory.copies count).2 = false then do
                let items ← storeItem items count ⟨none, none⟩
                .ok (-1, items)
              else do
                let items ← storeItem items count ⟨some (.heap token), some (.heap value)⟩
                let next ← getNextLine fbuf (fbuf.length + 1) lnum val
                itemizeLoop fuel fbuf items (count + 1) next

def itemizeOut (result : Int × List Item) :
    Except ConfigFault (Int × Option (List Item)) :=
  if result.1 ≠ 0 then do
    freeItems result.2
    .ok (result.1, none)
  else .ok (0, some result.2)

/-- The first configuration line, for which only the first line is skipped
without a look behind its first character. -/
def firstLine (fbuf : List UInt8) : Except ConfigFault (Nat × NextLine) :=
  match fbuf[0]? with
  | none => .error .outside
  | some first =>
    if first = 0 ∨ wspace first ∨ first = commentChar then
      getNextLine fbuf (fbuf.length + 1) 1 0
    else .ok (1, .line 0)

/-- `itemize`: its result and the items. -/
def itemize (fbuf : List UInt8) : Except ConfigFault (Int × Option (List Item)) :=
  if memory.items = false then .ok (-1, none)
  else do
    let items := List.replicate (fbuf.count 0 + 1) ⟨none, none⟩
    let next ← firstLine fbuf
    let result ← itemizeLoop memory (fbuf.length + 2) fbuf items 0 next
    itemizeOut result

end Items

section Files

open ConfigFile

/-- A loaded file.  `fbuf_` and `lnum_` are used by a call of `load` only. -/
structure ConfigFile where
  items : Option (List Item)
  fileName : Option (List UInt8)

inductive ReadyStat
  | found
  | noEntry
  | failed
  deriving DecidableEq

/-- What a call of `read_conf` meets.  The name that it stores is a parameter: the
copy may fail, and `reload` frees the name before it is copied. -/
structure ReadAttempt where
  nameAllocated : Bool
  ready : ReadyStat
  content : Option (List UInt8)
  bufferAllocated : Bool
  opened : Bool
  readError : Bool
  storedName : Option (List UInt8)

inductive ReadFileResult
  | ok (fbuf : List UInt8)
  | again
  | error
  deriving DecidableEq

def storedByte (c : UInt8) : UInt8 := if c = 10 ∨ c = 13 then 0 else c

def readConf (attempt : ReadAttempt) : ReadFileResult :=
  if attempt.nameAllocated = false then .error
  else
    match attempt.ready with
    | .noEntry => .again
    | .failed => .error
    | .found =>
      match attempt.content with
      | none => .error
      | some content =>
        if maxConfigFileSize < content.length then .error
        else if attempt.bufferAllocated = false then .error
        else if attempt.opened = false then .error
        else if attempt.readError then .error
        else .ok (content.map storedByte)

/-- What a call of `load` meets: whether it gets the lock, its attempts to read the
file, and the memory for the items. -/
structure LoadContext where
  locked : Bool
  attempts : List ReadAttempt
  memory : ConfigMemory

/-- The loop of `load` that reads the file, and `itemize`. -/
def readAndItemize (memory : ConfigMemory) (state : ConfigFile) :
    List ReadAttempt → Except ConfigFault (Int × ConfigFile)
  | [] => .error .waiting
  | attempt :: attempts =>
    match readConf attempt with
    | .again => readAndItemize memory state attempts
    | .error => .ok (-1, state)
    | .ok fbuf => do
        let (retv, items) ← itemize memory fbuf
        .ok (retv, ⟨items, attempt.storedName⟩)

def clearItems : Option (List Item) → Except ConfigFault Unit
  | none => .ok ()
  | some items => freeItems items

def load (context : LoadContext) (state : ConfigFile) (source : Option (List UInt8)) :
    Except ConfigFault (Int × ConfigFile) :=
  match source with
  | none => .ok (-1, state)
  | some _ =>
    if context.locked = false then .ok (-1, state)
    else do
      clearItems state.items
      readAndItemize context.memory { state with items := none } context.attempts

def reload (context : LoadContext) (state : ConfigFile) :
    Except ConfigFault (Int × ConfigFile) :=
  load context state state.fileName

def findValue (token : List UInt8) :
    List Item → Except ConfigFault (Option (List UInt8))
  | [] => .error .outside
  | item :: items =>
    match item.value with
    | none => .ok none
    | some value =>
      match item.token with
      | none => findValue token items
      | some (.fbuf _) => .error .outside
      | some (.heap text) =>
        if text = token then
          match value with
          | .fbuf _ => .error .outside
          | .heap text => .ok (some text)
        else findValue token items

/-- `get_value`, which may not get the lock or the memory for the copy. -/
def getValue (locked allocated : Bool) (state : ConfigFile) (token : List UInt8) :
    Except ConfigFault (Option (List UInt8)) :=
  if locked = false then .ok none
  else
    match state.items with
    | none => .ok none
    | some items => do
        let value ← findValue token items
        .ok (if allocated then value else none)

end Files

end MercuryFix
