import MercuryFix.OptionLookup
import Mathlib.Data.List.Perm.Basic
import Mathlib.Logic.Function.Basic

/-!
# The scan of the command line

`argopt` is called until it is done.  It leaves the options that it recognises in front
and moves everything else to the end of the array, so that its two static counters
always delimit the arguments that it has not yet seen.
-/

namespace MercuryFix

def argoptOptionFound : Int := -1

def argoptMissingParam : Int := -4

def argoptNotOption : Int := -5

def argoptDone : Int := -6

section Functions

def isOption (str : List UInt8) : Bool := decide (str.head? = some 45) && decide (1 < str.length)

/-- The loop of `push_to_end` from `i` on. -/
def pushToEndLoop {α : Type} : Nat → Nat → List α → Option (List α)
  | 0, _, str => some str
  | rounds + 1, i, str => do
      let next ← str[i + 1]?
      pushToEndLoop rounds (i + 1) (str.set i next)

def pushToEnd {α : Type} (str : List α) (idx : Nat) : Option (List α) := do
  let tmp ← str[idx]?
  let moved ← pushToEndLoop (str.length - 1 - idx) idx str
  some (moved.set (str.length - 1) tmp)

/-- `is_param`, where `strdup` may find no memory. -/
def isParam (allocated : Bool) (param : List UInt8) : Option (List UInt8) :=
  if param.head? = some 45 then none
  else
    let copied := if param.head? = some 92 ∧ param[1]? = some 45 then param.tail else param
    if allocated then some copied else none

/-- The static variables of `argopt` and what its arguments point to. -/
structure Scanner where
  argvIdx : Nat
  pushCount : Nat
  argv : List (List UInt8)
  index : Int
  parameter : Option (List UInt8)
  flags : Nat → Int

/-- `push_to_end` of the current argument, which is then counted. -/
def Scanner.push (scanner : Scanner) : Option Scanner := do
  let argv ← pushToEnd scanner.argv scanner.argvIdx
  some { scanner with argv := argv, pushCount := scanner.pushCount + 1 }

/-- `argopt` at an argument that is no option. -/
def argoptOther (scanner : Scanner) : Option (Int × Scanner) :=
  if scanner.pushCount + scanner.argvIdx = scanner.argv.length then
    some (argoptDone, scanner)
  else do
    let pushed ← scanner.push
    some (argoptNotOption, { pushed with
      argvIdx := pushed.argvIdx - 1, index := pushed.argv.length - 1 })

/-- `argopt` at an option that is unknown or ambiguous. -/
def argoptErroneous (optIndex : Int) (scanner : Scanner) : Option (Int × Scanner) := do
  let pushed ← scanner.push
  let moved := { pushed with index := pushed.argv.length - 1 }
  if moved.pushCount + moved.argvIdx = moved.argv.length then
    some (optIndex, { moved with argvIdx := moved.argvIdx - 1 })
  else do
    let next ← moved.argv[moved.argvIdx]?
    if isOption next = false then do
      let both ← moved.push
      some (optIndex, { both with
        index := both.argv.length - 2, argvIdx := both.argvIdx - 1 })
    else some (optIndex, { moved with argvIdx := moved.argvIdx - 1 })

/-- What `argopt` returns for an option, behind its parameter. -/
def argoptValue (option : CommandOption) (scanner : Scanner) : Int × Scanner :=
  match option.flag with
  | none => (option.val, scanner)
  | some flag => (argoptOptionFound,
      { scanner with flags := Function.update scanner.flags flag option.val })

/-- The next argument becomes the parameter. -/
def Scanner.consume (scanner : Scanner) (parameter : List UInt8) : Scanner :=
  { scanner with
    parameter := some parameter
    argvIdx := scanner.argvIdx + 1
    index := scanner.argvIdx + 1 }

/-- `argopt` at an option of the table. -/
def argoptRecognised (option : CommandOption) (allocated : Bool) (scanner : Scanner) :
    Option (Int × Scanner) :=
  match option.param with
  | .noParam => some (argoptValue option scanner)
  | .needParam =>
    if scanner.pushCount + scanner.argvIdx + 1 = scanner.argv.length then
      some (argoptMissingParam, scanner)
    else do
      let next ← scanner.argv[scanner.argvIdx + 1]?
      match isParam allocated next with
      | none => some (argoptMissingParam, scanner)
      | some parameter => some (argoptValue option (scanner.consume parameter))
  | .optionalParam =>
    if scanner.pushCount + scanner.argvIdx + 1 = scanner.argv.length then
      some (argoptValue option scanner)
    else do
      let next ← scanner.argv[scanner.argvIdx + 1]?
      match isParam allocated next with
      | none => some (argoptValue option scanner)
      | some parameter => some (argoptValue option (scanner.consume parameter))

/-- `argopt` behind the increment of its counter. -/
def argoptCurrent (options : List CommandOption) (allocated : Bool) (scanner : Scanner) :
    Option (Int × Scanner) :=
  if scanner.argvIdx < scanner.argv.length then
    if scanner.argv.length ≤ scanner.pushCount + scanner.argvIdx then
      some (argoptDone, { scanner with
        index := scanner.argv.length - scanner.pushCount })
    else do
      let current := { scanner with index := scanner.argvIdx }
      let str ← current.argv[current.argvIdx]?
      if isOption str = false then argoptOther current
      else do
        let optIndex ← findOption str options
        if optIndex < 0 then argoptErroneous optIndex current
        else do
          let option ← options[optIndex.toNat]?
          argoptRecognised option allocated current
  else
    some (argoptDone, { scanner with
      index := scanner.argv.length - scanner.pushCount })

def Scanner.reset (scanner : Scanner) : Scanner :=
  if scanner.index = -1 then { scanner with argvIdx := 0, pushCount := 0 } else scanner

/-- `argopt`; `allocated` says whether `strdup` finds memory. -/
def argopt (options : Option (List CommandOption)) (allocated : Bool)
    (scanner : Scanner) : Option (Int × Scanner) :=
  match options with
  | none => some (argoptDone, scanner)
  | some options =>
    argoptCurrent options allocated { scanner.reset with
      parameter := none, argvIdx := scanner.reset.argvIdx + 1 }

/-- Calls of `argopt` until it is done, numbered from `call` on and at most `fuel` of
them: the number of the call behind the last one and what that one leaves. -/
def argoptRun (options : List CommandOption) (memory : Nat → Bool) :
    Nat → Nat → Scanner → Option (Nat × Scanner)
  | 0, _, _ => none
  | fuel + 1, call, scanner => do
      let (retv, scanner) ← argopt (some options) (memory call) scanner
      if retv = argoptDone then some (call + 1, scanner)
      else argoptRun options memory fuel (call + 1) scanner

end Functions

section Partition

/-- The option of the table that an argument stands for. -/
def recognise (options : List CommandOption) (arg : List UInt8) : Option CommandOption :=
  if isOption arg = false then none
  else do
    let optIndex ← findOption arg options
    if optIndex < 0 then none else options[optIndex.toNat]?

/-- An argument goes with the one in front of it: the parameter that a recognised
option consumes, or what follows an option in error and is itself no option. -/
def goesWith (options : List CommandOption) (allocated : Bool) (arg next : List UInt8) : Bool :=
  match recognise options arg with
  | some option => decide (option.param ≠ .noParam) && (isParam allocated next).isSome
  | none => isOption arg && !isOption next

def roles (options : List CommandOption) (memory : Nat → Bool) :
    Nat → List (List UInt8) → List (List UInt8 × Bool)
  | _, [] => []
  | _, [arg] => [(arg, (recognise options arg).isSome)]
  | call, arg :: next :: rest =>
    if goesWith options (memory call) arg next then
      (arg, (recognise options arg).isSome) ::
        (next, (recognise options arg).isSome) :: roles options memory (call + 1) rest
    else
      (arg, (recognise options arg).isSome) :: roles options memory (call + 1) (next :: rest)

def frontPart (tagged : List (List UInt8 × Bool)) : List (List UInt8) :=
  (tagged.filter (fun entry => entry.2)).map Prod.fst

def endPart (tagged : List (List UInt8 × Bool)) : List (List UInt8) :=
  (tagged.filter (fun entry => !entry.2)).map Prod.fst

theorem frontPart_append (first second : List (List UInt8 × Bool)) :
    frontPart (first ++ second) = frontPart first ++ frontPart second := by
  simp [frontPart]

theorem endPart_append (first second : List (List UInt8 × Bool)) :
    endPart (first ++ second) = endPart first ++ endPart second := by
  simp [endPart]

theorem frontPart_tagged (args : List (List UInt8)) (front : Bool) :
    frontPart (args.map (fun arg => (arg, front))) = if front then args else [] := by
  cases front <;> simp [frontPart, List.filter_map, Function.comp_def]

theorem endPart_tagged (args : List (List UInt8)) (front : Bool) :
    endPart (args.map (fun arg => (arg, front))) = if front then [] else args := by
  cases front <;> simp [endPart, List.filter_map, Function.comp_def]

variable {options : List CommandOption} {memory : Nat → Bool} {call : Nat}
  {arg next : List UInt8} {rest : List (List UInt8)}

theorem map_fst_roles (args : List (List UInt8)) :
    (roles options memory call args).map Prod.fst = args := by
  fun_induction roles options memory call args with
  | case1 => rfl
  | case2 => rfl
  | case3 call arg next rest together induction =>
    rw [List.map_cons, List.map_cons, induction]
  | case4 call arg next rest apart induction => rw [List.map_cons, induction]

theorem roles_together (together : goesWith options (memory call) arg next = true) :
    roles options memory call (arg :: next :: rest) =
      [arg, next].map (fun taken => (taken, (recognise options arg).isSome)) ++
        roles options memory (call + 1) rest := by
  rw [roles, if_pos together]
  rfl

theorem roles_apart (apart : ∀ next ∈ rest.head?, goesWith options (memory call) arg next = false) :
    roles options memory call (arg :: rest) =
      [arg].map (fun taken => (taken, (recognise options arg).isSome)) ++
        roles options memory (call + 1) rest := by
  cases rest with
  | nil => rfl
  | cons next rest =>
    rw [roles, if_neg (by simp [apart next rfl])]
    rfl

theorem perm_parts (tagged : List (List UInt8 × Bool)) :
    (frontPart tagged ++ endPart tagged).Perm (tagged.map Prod.fst) := by
  rw [frontPart, endPart, ← List.map_append]
  exact (List.filter_append_perm _ tagged).map Prod.fst

end Partition

section Turns

theorem pushToEndLoop_append {α : Type} (front : List α) (first : α) (back : List α) :
    ∃ last, pushToEndLoop back.length front.length (front ++ first :: back) =
      some (front ++ back ++ [last]) := by
  induction back generalizing front first with
  | nil => exact ⟨first, by simp [pushToEndLoop]⟩
  | cons next back induction =>
    obtain ⟨last, moves⟩ := induction (front ++ [next]) next
    refine ⟨last, ?_⟩
    rw [List.length_append, List.length_singleton] at moves
    rw [List.length_cons, pushToEndLoop]
    simpa using moves

theorem pushToEnd_append {α : Type} (front : List α) (pushed : α) (back : List α) :
    pushToEnd (front ++ pushed :: back) front.length = some (front ++ back ++ [pushed]) := by
  obtain ⟨last, moves⟩ := pushToEndLoop_append front pushed back
  have rounds : (front ++ pushed :: back).length - 1 - front.length = back.length := by
    rw [List.length_append, List.length_cons]
    omega
  have place : (front ++ pushed :: back).length - 1 = (front ++ back).length := by
    rw [List.length_append, List.length_append, List.length_cons]
    omega
  have current : (front ++ pushed :: back)[front.length]? = some pushed := by simp
  rw [pushToEnd, current, rounds, moves, place]
  simp

/-- The counters delimit what is not yet seen; in a call the first one is ahead. -/
structure Delimits (prog : List UInt8) (kept rest pushed : List (List UInt8))
    (ahead : Nat) (scanner : Scanner) : Prop where
  argv : scanner.argv = prog :: kept ++ (rest ++ pushed)
  argvIdx : scanner.argvIdx = kept.length + ahead
  pushCount : scanner.pushCount = pushed.length

variable {prog arg : List UInt8} {kept rest pushed : List (List UInt8)}
  {scanner : Scanner} {ahead : Nat}

theorem Delimits.length (delimits : Delimits prog kept rest pushed ahead scanner) :
    scanner.argv.length = 1 + kept.length + rest.length + pushed.length := by
  rw [delimits.argv]
  simp
  omega

theorem Delimits.current (delimits : Delimits prog kept (arg :: rest) pushed 1 scanner) :
    scanner.argv[scanner.argvIdx]? = some arg := by
  rw [delimits.argv, delimits.argvIdx]
  simp

theorem Delimits.following {next : List UInt8}
    (delimits : Delimits prog kept (arg :: next :: rest) pushed 1 scanner) :
    scanner.argv[scanner.argvIdx + 1]? = some next := by
  rw [delimits.argv, delimits.argvIdx, List.getElem?_append_right (by simp)]
  simp

theorem Delimits.push (delimits : Delimits prog kept (arg :: rest) pushed 1 scanner) :
    ∃ after, scanner.push = some after ∧ Delimits prog kept rest (pushed ++ [arg]) 1 after := by
  have moves : pushToEnd (prog :: kept ++ (arg :: rest ++ pushed)) (kept.length + 1) = _ :=
    pushToEnd_append (prog :: kept) arg (rest ++ pushed)
  refine ⟨{ scanner with
    argv := prog :: kept ++ (rest ++ pushed) ++ [arg]
    pushCount := scanner.pushCount + 1 }, ?_, ?_⟩
  · rw [Scanner.push, delimits.argv, delimits.argvIdx, moves]
    rfl
  · exact ⟨by simp, delimits.argvIdx, by simp [delimits.pushCount]⟩

theorem Delimits.back (delimits : Delimits prog kept rest pushed 1 scanner) (index : Int) :
    Delimits prog kept rest pushed 0
      { scanner with argvIdx := scanner.argvIdx - 1, index := index } :=
  ⟨delimits.argv, by rw [delimits.argvIdx]; rfl, delimits.pushCount⟩

/-- A call that is not the last one, with what it leaves. -/
def Turns (prog : List UInt8) (kept rest pushed : List (List UInt8))
    (result : Option (Int × Scanner)) : Prop :=
  ∃ retv after, result = some (retv, after) ∧ retv ≠ argoptDone ∧ after.index ≠ -1 ∧
    Delimits prog kept rest pushed 0 after

theorem argoptOther_turns (delimits : Delimits prog kept (arg :: rest) pushed 1 scanner) :
    Turns prog kept rest (pushed ++ [arg]) (argoptOther scanner) := by
  obtain ⟨moved, pushes, behind⟩ := delimits.push
  have more : ¬ scanner.pushCount + scanner.argvIdx = scanner.argv.length := by
    rw [delimits.length, delimits.pushCount, delimits.argvIdx, List.length_cons]
    omega
  have length := behind.length
  refine ⟨argoptNotOption, _, ?_, by decide, ?_, behind.back (moved.argv.length - 1)⟩
  · rw [argoptOther, if_neg more, pushes]
    rfl
  · dsimp only
    omega

theorem argoptErroneous_turns {code : Int} (error : code ≠ argoptDone)
    (delimits : Delimits prog kept (arg :: rest) pushed 1 scanner) :
    (∃ next later, rest = next :: later ∧ isOption next = false ∧
      Turns prog kept later (pushed ++ [arg, next]) (argoptErroneous code scanner)) ∨
    ((∀ next ∈ rest.head?, isOption next = true) ∧
      Turns prog kept rest (pushed ++ [arg]) (argoptErroneous code scanner)) := by
  obtain ⟨moved, pushes, behind⟩ := delimits.push
  have length := behind.length
  rw [List.length_append, List.length_singleton] at length
  have marked : Delimits prog kept rest (pushed ++ [arg]) 1
      { moved with index := moved.argv.length - 1 } :=
    ⟨behind.argv, behind.argvIdx, behind.pushCount⟩
  have ends : moved.pushCount + moved.argvIdx = moved.argv.length ↔ rest = [] := by
    rw [behind.pushCount, behind.argvIdx, length, ← List.length_eq_zero_iff,
      List.length_append, List.length_singleton]
    omega
  cases rest with
  | nil =>
    refine .inr ⟨by simp, code, _, ?_, error, ?_, marked.back (moved.argv.length - 1)⟩
    · simp only [argoptErroneous, pushes, Option.bind_eq_bind, Option.bind_some,
        if_pos (ends.mpr rfl)]
    · dsimp only
      omega
  | cons next later =>
    have more : ¬ moved.pushCount + moved.argvIdx = moved.argv.length := by simp [ends]
    by_cases plain : isOption next = false
    · obtain ⟨both, again, last⟩ := marked.push
      have longer := last.length
      rw [List.length_append, List.length_append] at longer
      rw [List.append_assoc] at last
      refine .inl ⟨next, later, rfl, plain, code, _, ?_, error, ?_,
        last.back (both.argv.length - 2)⟩
      · simp only [argoptErroneous, pushes, Option.bind_eq_bind, Option.bind_some,
          if_neg more, behind.current, if_pos plain, again]
      · simp only [List.length_singleton] at longer
        dsimp only
        omega
    · refine .inr ⟨by simpa using plain, code, _, ?_, error, ?_,
        marked.back (moved.argv.length - 1)⟩
      · simp only [argoptErroneous, pushes, Option.bind_eq_bind, Option.bind_some,
          if_neg more, behind.current, if_neg plain]
      · dsimp only
        omega

theorem Delimits.keep (delimits : Delimits prog kept (arg :: rest) pushed 1 scanner) :
    Delimits prog (kept ++ [arg]) rest pushed 0 scanner :=
  ⟨by rw [delimits.argv]; simp, by rw [delimits.argvIdx]; simp, delimits.pushCount⟩

theorem Delimits.consume {next : List UInt8}
    (delimits : Delimits prog kept (arg :: next :: rest) pushed 1 scanner)
    (parameter : List UInt8) :
    Delimits prog (kept ++ [arg, next]) rest pushed 0 (scanner.consume parameter) where
  argv := by rw [Scanner.consume, delimits.argv]; simp
  argvIdx := by rw [Scanner.consume, delimits.argvIdx]; simp
  pushCount := delimits.pushCount

variable {option : CommandOption}

theorem argoptValue_turns (noDone : option.flag = none → option.val ≠ argoptDone)
    (index : scanner.index ≠ -1) (delimits : Delimits prog kept rest pushed 0 scanner) :
    Turns prog kept rest pushed (some (argoptValue option scanner)) := by
  rw [argoptValue]
  split
  · rename_i plain
    exact ⟨_, _, rfl, noDone plain, index, delimits⟩
  · exact ⟨_, _, rfl, by decide, index, delimits.argv, delimits.argvIdx, delimits.pushCount⟩

theorem argoptRecognised_turns (allocated : Bool)
    (noDone : option.flag = none → option.val ≠ argoptDone) (index : scanner.index ≠ -1)
    (delimits : Delimits prog kept (arg :: rest) pushed 1 scanner) :
    (∃ next later, rest = next :: later ∧
      (option.param ≠ .noParam ∧ (isParam allocated next).isSome) ∧
      Turns prog (kept ++ [arg, next]) later pushed (argoptRecognised option allocated scanner)) ∨
    ((∀ next ∈ rest.head?, ¬ (option.param ≠ .noParam ∧ (isParam allocated next).isSome)) ∧
      Turns prog (kept ++ [arg]) rest pushed (argoptRecognised option allocated scanner)) := by
  have missing : Turns prog (kept ++ [arg]) rest pushed (some (argoptMissingParam, scanner)) :=
    ⟨_, _, rfl, by decide, index, delimits.keep⟩
  have found := argoptValue_turns noDone index delimits.keep
  have ends : scanner.pushCount + scanner.argvIdx + 1 = scanner.argv.length ↔ rest = [] := by
    rw [delimits.length, delimits.pushCount, delimits.argvIdx,
      ← List.length_eq_zero_iff, List.length_cons]
    omega
  cases rest with
  | nil =>
    refine .inr ⟨by simp, ?_⟩
    rw [argoptRecognised]
    simp only [if_pos (ends.mpr rfl)]
    split
    · exact found
    · exact missing
    · exact found
  | cons next later =>
    have more : ¬ scanner.pushCount + scanner.argvIdx + 1 = scanner.argv.length := by
      simp [ends]
    have consumed (parameter : List UInt8) : Turns prog (kept ++ [arg, next]) later pushed
          (some (argoptValue option (scanner.consume parameter))) :=
      argoptValue_turns noDone (by dsimp only [Scanner.consume]; omega) (delimits.consume parameter)
    rw [argoptRecognised]
    simp only [if_neg more, delimits.following, Option.bind_eq_bind, Option.bind_some]
    cases param : option.param with
    | noParam => exact .inr ⟨by simp, found⟩
    | needParam =>
      cases taken : isParam allocated next with
      | none => exact .inr ⟨by simp [taken], missing⟩
      | some parameter => exact .inl ⟨next, later, rfl, by simp [taken], consumed parameter⟩
    | optionalParam =>
      cases taken : isParam allocated next with
      | none => exact .inr ⟨by simp [taken], found⟩
      | some parameter => exact .inl ⟨next, later, rfl, by simp [taken], consumed parameter⟩

end Turns

section Calls

theorem recognise_cases (options : List CommandOption) {arg : List UInt8}
    (dashed : isOption arg = true) :
    (∃ code : Int, findOption arg options = some code ∧ code < 0 ∧ code ≠ argoptDone ∧
      recognise options arg = none) ∨
    ∃ (i : Nat) (option : CommandOption), findOption arg options = some (i : Int) ∧
      options[i]? = some option ∧ recognise options arg = some option := by
  have shape := dashed
  rw [isOption, Bool.and_eq_true, decide_eq_true_eq, decide_eq_true_eq] at shape
  obtain ⟨text, rfl⟩ := List.head?_eq_some_iff.mp shape.1
  have nonempty : text ≠ [] := by
    rintro rfl
    exact absurd shape.2 (by simp)
  obtain ⟨result, finds, abbreviates⟩ :=
    findOptionLoop_abbreviates nonempty options (Seen.start text)
  have finds : findOption (45 :: text) options = some result := finds
  rcases abbreviates.cases with ⟨i, inside, rfl⟩ | error
  · rw [List.nil_append, List.length_map] at inside
    refine .inr ⟨i, options[i], finds, List.getElem?_eq_getElem inside, ?_⟩
    simp [recognise, dashed, finds]
  · have negative : result < 0 ∧ result ≠ argoptDone := by
      rcases error with rfl | rfl <;> decide
    refine .inl ⟨result, finds, negative.1, negative.2, ?_⟩
    simp [recognise, dashed, finds, negative.1]

variable {options : List CommandOption} {memory : Nat → Bool} {call : Nat}
  {prog arg next : List UInt8} {kept rest pushed : List (List UInt8)} {scanner : Scanner}
  {result : Option (Int × Scanner)}

/-- A call takes the arguments in front of those not yet seen, as their roles say. -/
def Takes (options : List CommandOption) (memory : Nat → Bool) (call : Nat)
    (prog : List UInt8) (kept rest pushed : List (List UInt8))
    (result : Option (Int × Scanner)) : Prop :=
  ∃ chunk left, left.length < rest.length ∧
    roles options memory call rest = chunk ++ roles options memory (call + 1) left ∧
    Turns prog (kept ++ frontPart chunk) left (pushed ++ endPart chunk) result

theorem takes_together (front : Bool)
    (turns : Turns prog (kept ++ if front then [arg, next] else []) rest
      (pushed ++ if front then [] else [arg, next]) result)
    (role : (recognise options arg).isSome = front)
    (together : goesWith options (memory call) arg next = true) :
    Takes options memory call prog kept (arg :: next :: rest) pushed result := by
  refine ⟨_, rest, by simp only [List.length_cons]; omega, roles_together together, ?_⟩
  rwa [frontPart_tagged, endPart_tagged, role]

theorem takes_apart (front : Bool) (turns : Turns prog (kept ++ if front then [arg] else []) rest
      (pushed ++ if front then [] else [arg]) result)
    (role : (recognise options arg).isSome = front)
    (apart : ∀ next ∈ rest.head?, goesWith options (memory call) arg next = false) :
    Takes options memory call prog kept (arg :: rest) pushed result := by
  refine ⟨_, rest, by simp, roles_apart apart, ?_⟩
  rwa [frontPart_tagged, endPart_tagged, role]

theorem argoptCurrent_takes
    (noDone : ∀ option ∈ options, option.flag = none → option.val ≠ argoptDone)
    (delimits : Delimits prog kept (arg :: rest) pushed 1 scanner) :
    Takes options memory call prog kept (arg :: rest) pushed
      (argoptCurrent options (memory call) scanner) := by
  have length := delimits.length
  have current : Delimits prog kept (arg :: rest) pushed 1
      { scanner with index := scanner.argvIdx } :=
    ⟨delimits.argv, delimits.argvIdx, delimits.pushCount⟩
  have inside : scanner.argvIdx < scanner.argv.length := by
    rw [length, delimits.argvIdx, List.length_cons]
    omega
  have more : ¬ scanner.argv.length ≤ scanner.pushCount + scanner.argvIdx := by
    rw [length, delimits.argvIdx, delimits.pushCount, List.length_cons]
    omega
  simp only [argoptCurrent, if_pos inside, if_neg more, delimits.current,
    Option.bind_eq_bind, Option.bind_some]
  by_cases plain : isOption arg = false
  · have unknown : recognise options arg = none := if_pos plain
    have turns := argoptOther_turns current
    rw [if_pos plain]
    exact takes_apart false (by simpa using turns) (by simp [unknown])
      (by simp [goesWith, unknown, plain])
  have dashed : isOption arg = true := by simpa using plain
  rw [if_neg plain]
  rcases recognise_cases options dashed with
    ⟨code, finds, negative, error, unknown⟩ | ⟨i, option, finds, entry, known⟩
  · simp only [finds, Option.bind_some, if_pos negative]
    rcases argoptErroneous_turns error current with
      ⟨next, later, rfl, follows, turns⟩ | ⟨apart, turns⟩
    · exact takes_together false (by simpa using turns) (by simp [unknown])
        (by simp [goesWith, unknown, dashed, follows])
    · refine takes_apart false (by simpa using turns) (by simp [unknown]) ?_
      intro next member
      simp [goesWith, unknown, apart next member]
  · have nonnegative : ¬ (i : Int) < 0 := by omega
    simp only [finds, Option.bind_some, if_neg nonnegative, Int.toNat_natCast, entry]
    rcases argoptRecognised_turns (memory call) (noDone option (List.mem_of_getElem? entry))
        (by dsimp only; omega) current with
      ⟨next, later, rfl, follows, turns⟩ | ⟨apart, turns⟩
    · exact takes_together true (by simpa using turns) (by simp [known])
        (by simpa [goesWith, known] using follows)
    · refine takes_apart true (by simpa using turns) (by simp [known]) ?_
      intro next member
      simpa [goesWith, known] using apart next member

theorem argopt_takes (noDone : ∀ option ∈ options, option.flag = none → option.val ≠ argoptDone)
    (delimits : Delimits prog kept (arg :: rest) pushed 0 scanner.reset) :
    Takes options memory call prog kept (arg :: rest) pushed
      (argopt (some options) (memory call) scanner) :=
  argoptCurrent_takes noDone ⟨delimits.argv, congrArg (· + 1) delimits.argvIdx, delimits.pushCount⟩

theorem argopt_done (allocated : Bool) (delimits : Delimits prog kept [] pushed 0 scanner.reset) :
    ∃ after, argopt (some options) allocated scanner = some (argoptDone, after) ∧
      after.argv = prog :: kept ++ pushed ∧ after.index = 1 + kept.length := by
  have length := delimits.length
  have last : ((scanner.reset.argv.length : Int) - scanner.reset.pushCount) = 1 + kept.length := by
    rw [length, delimits.pushCount, List.length_nil]
    omega
  have none_left : scanner.reset.argv.length ≤
      scanner.reset.pushCount + (scanner.reset.argvIdx + 1) := by
    rw [length, delimits.pushCount, delimits.argvIdx, List.length_nil]
    omega
  refine ⟨{ scanner.reset with
    parameter := none
    argvIdx := scanner.reset.argvIdx + 1
    index := scanner.reset.argv.length - scanner.reset.pushCount }, ?_, delimits.argv, last⟩
  rw [argopt, argoptCurrent]
  simp only [if_pos none_left, ite_self]

theorem argoptRun_eq (noDone : ∀ option ∈ options, option.flag = none → option.val ≠ argoptDone)
    {fuel : Nat} (enough : rest.length < fuel)
    (delimits : Delimits prog kept rest pushed 0 scanner.reset) :
    ∃ calls after, argoptRun options memory fuel call scanner = some (calls, after) ∧
      calls ≤ call + rest.length + 1 ∧
      after.argv = prog :: (kept ++ frontPart (roles options memory call rest)) ++
        (pushed ++ endPart (roles options memory call rest)) ∧
      after.index = 1 + (kept ++ frontPart (roles options memory call rest)).length := by
  induction fuel generalizing call kept rest pushed scanner with
  | zero => omega
  | succ fuel induction =>
    rw [argoptRun]
    cases rest with
    | nil =>
      obtain ⟨after, done, argv, index⟩ := argopt_done (memory call) delimits
      refine ⟨call + 1, after, ?_, by simp, ?_, ?_⟩
      · rw [done, Option.bind_eq_bind, Option.bind_some]
        exact if_pos rfl
      · simpa [roles, frontPart, endPart] using argv
      · simpa [roles, frontPart] using index
    | cons arg rest =>
      have takes : Takes options memory call prog kept (arg :: rest) pushed
          (argopt (some options) (memory call) scanner) := argopt_takes noDone delimits
      obtain ⟨chunk, left, shorter, splits, retv, next, turns, goesOn, index, behind⟩ := takes
      have unchanged : next.reset = next := if_neg index
      rw [← unchanged] at behind
      obtain ⟨calls, after, runs, few, argv, position⟩ : ∃ calls after,
          argoptRun options memory fuel (call + 1) next = some (calls, after) ∧ _ :=
        induction (by omega) behind
      refine ⟨calls, after, ?_, by omega, ?_, ?_⟩
      · rw [turns, Option.bind_eq_bind, Option.bind_some]
        exact (if_neg goesOn).trans runs
      · rw [argv, splits, frontPart_append, endPart_append, List.append_assoc, List.append_assoc]
      · rw [position, splits, frontPart_append, List.append_assoc]

end Calls

/-- From a reset state, the calls of `argopt` sort the arguments by their roles and keep
the order within each part. -/
theorem argopt_partitions (options : List CommandOption)
    (noDone : ∀ option ∈ options, option.flag = none → option.val ≠ argoptDone)
    (memory : Nat → Bool) (prog : List UInt8) (args : List (List UInt8)) (start : Scanner)
    (argv : start.argv = prog :: args)
    (reset : start.index = -1 ∨ (start.argvIdx = 0 ∧ start.pushCount = 0)) :
    ∃ calls final, argoptRun options memory start.argv.length 0 start = some (calls, final) ∧
      calls ≤ start.argv.length ∧ final.argv.Perm start.argv ∧
      (roles options memory 0 args).map Prod.fst = args ∧
      final.argv = prog :: frontPart (roles options memory 0 args) ++
        endPart (roles options memory 0 args) ∧
      final.index = 1 + (frontPart (roles options memory 0 args)).length := by
  have delimits : Delimits prog [] args [] 0 start.reset := by
    rw [Scanner.reset]
    split
    · exact ⟨by simpa using argv, rfl, rfl⟩
    · rename_i running
      obtain ⟨first, second⟩ := reset.resolve_left running
      exact ⟨by simpa using argv, first, second⟩
  have length : start.argv.length = args.length + 1 := by rw [argv, List.length_cons]
  obtain ⟨calls, final, runs, few, sorted, index⟩ : ∃ calls final,
      argoptRun options memory start.argv.length 0 start = some (calls, final) ∧ _ :=
    argoptRun_eq noDone (by omega) delimits
  rw [List.nil_append, List.nil_append] at sorted
  refine ⟨calls, final, runs, by omega, ?_, map_fst_roles args, sorted, index⟩
  have parts := perm_parts (roles options memory 0 args)
  rw [map_fst_roles] at parts
  rw [sorted, argv, List.cons_append]
  exact parts.cons prog

/-- The arguments `x -a y -b 7`, with a parameter for `b` and no option `a`. -/
theorem argopt_partitions_two :
    roles [⟨[98], .needParam, none, 98⟩] (fun _ => true) 0
        [[120], [45, 97], [121], [45, 98], [55]] =
      [([120], false), ([45, 97], false), ([121], false), ([45, 98], true), ([55], true)] ∧
    ∃ calls final, argoptRun [⟨[98], .needParam, none, 98⟩] (fun _ => true) 6 0
        ⟨0, 0, [[112], [120], [45, 97], [121], [45, 98], [55]], -1, none, fun _ => 0⟩ =
        some (calls, final) ∧
      calls ≤ 6 ∧ final.argv = [[112], [45, 98], [55], [120], [45, 97], [121]] := by
  refine ⟨by decide, ?_⟩
  obtain ⟨calls, final, runs, few, -, -, sorted, -⟩ := argopt_partitions
    [⟨[98], .needParam, none, 98⟩] (by simp [argoptDone]) (fun _ => true) [112]
    [[120], [45, 97], [121], [45, 98], [55]]
    ⟨0, 0, [[112], [120], [45, 97], [121], [45, 98], [55]], -1, none, fun _ => 0⟩ rfl (.inl rfl)
  exact ⟨calls, final, runs, few, sorted⟩

/-- An option whose value is that of `ARGOPT_DONE` ends the calls too early. -/
theorem argopt_ends_early :
    (argoptRun [⟨[97], .noParam, none, -6⟩] (fun _ => true) 3 0
        ⟨0, 0, [[112], [45, 97], [120]], -1, none, fun _ => 0⟩).map
        (fun result => (result.1, result.2.argv, result.2.index)) =
      some (1, [[112], [45, 97], [120]], 1) ∧
    frontPart (roles [⟨[97], .noParam, none, -6⟩] (fun _ => true) 0 [[45, 97], [120]]) =
      [[45, 97]] := by
  decide

end MercuryFix
