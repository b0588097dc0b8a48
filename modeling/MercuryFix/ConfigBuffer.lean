import MercuryFix.ConfigLines

/-!
# The work on the buffer

What `point_to_value` and `get_next_line` do at a line of the buffer.  The buffer is
taken apart into what stands in front of the line, the line, and the rest.
-/

namespace MercuryFix

open ByteBlock

section Walks

variable {stop : UInt8 → Bool} {fbuf pre passed rest : List UInt8} {byte : UInt8}
  {str : Nat}

theorem walk_some (split : fbuf = pre ++ (passed ++ byte :: rest))
    (place : str = pre.length) (plain : ∀ byte ∈ passed, stop byte = false)
    (stops : stop byte = true) :
    walk stop fbuf str = some (str + passed.length, byte) := by
  subst split place
  have behind : ∀ other ∈ (byte :: rest).head?, (!stop other) = false := by
    rintro _ ⟨⟩
    simp [stops]
  have kept : ∀ byte ∈ passed, (!stop byte) = true := by
    intro byte member
    simp [plain byte member]
  rw [walk, List.drop_left, (takeWhile_dropWhile_append kept behind).1]
  simp

theorem walk_none (split : fbuf = pre ++ passed) (place : str = pre.length)
    (plain : ∀ byte ∈ passed, stop byte = false) : walk stop fbuf str = none := by
  subst split place
  have taken : passed.takeWhile (fun byte => !stop byte) = passed := by
    rw [List.takeWhile_eq_self_iff]
    intro byte member
    simp [plain byte member]
  rw [walk, List.drop_left, taken]
  simp

theorem nul_passed {text : List UInt8} (noNul : 0 ∉ text) : ∀ byte ∈ text, (byte == 0) = false := by
  intro byte member
  have nonzero : byte ≠ 0 := fun zero => noNul (zero ▸ member)
  simp [nonzero]

theorem blank_passed {text : List UInt8} (blank : ∀ byte ∈ text, wspace byte = true) :
    ∀ byte ∈ text, (!wspace byte) = false := by
  intro byte member
  simp [blank byte member]

theorem stringAt_eq {text : List UInt8} (split : fbuf = pre ++ (text ++ 0 :: rest))
    (place : str = pre.length) (noNul : 0 ∉ text) : stringAt fbuf str = .ok text := by
  rw [stringAt, walk_some split place (nul_passed noNul) rfl]
  subst split place
  simp [reach, bind, Except.bind]

theorem removeTrailing_eq {front trail back : List UInt8}
    (blank : ∀ byte ∈ trail, wspace byte = true)
    (last : ∃ byte, front.getLast? = some byte ∧ wspace byte = false) :
    removeTrailing (front ++ (trail ++ back)) (front.length + trail.length) =
      .ok (front ++ (List.replicate trail.length 0 ++ back)) := by
  induction trail using List.reverseRecOn generalizing back with
  | nil =>
    obtain ⟨byte, last, plain⟩ := last
    obtain ⟨init, rfl⟩ := List.getLast?_eq_some_iff.mp last
    simp [removeTrailing, plain]
  | append_singleton init byte induction =>
    have white := blank byte (by simp)
    have found : (front ++ (init ++ [byte] ++ back))[front.length + init.length]? = some byte := by
      simp
    have written : (front ++ (init ++ [byte] ++ back)).set
        (front.length + init.length) 0 = front ++ (init ++ 0 :: back) := by
      simp
    rw [List.length_append, List.length_singleton, ← Nat.add_assoc, removeTrailing, found]
    dsimp only
    rw [if_pos white, written, induction fun byte member =>
      blank byte (List.mem_append_left _ member)]
    simp [List.replicate_succ']

end Walks

section Values

variable {pre rest : List UInt8} (entry : EntryText)

theorem token_passed (noNul : 0 ∉ entry.text) :
    ∀ byte ∈ entry.token, (wspace byte || byte == 0) = false := by
  intro byte member
  have nonzero : byte ≠ 0 := by
    rintro rfl
    exact noNul (List.mem_append_left _ member)
  simp [entry.token_plain byte member, nonzero]

theorem exists_token : ∃ first more, entry.token = first :: more ∧ wspace first = false := by
  cases token : entry.token with
  | nil => exact absurd token entry.token_ne_nil
  | cons first more =>
    exact ⟨first, more, rfl, entry.token_plain first (by simp [token])⟩

theorem blit_gap (front back : List UInt8) :
    blit (front ++ (entry.gap ++ back)) front.length (List.replicate
        (front.length + entry.gap.length - front.length) 0) =
      front ++ List.replicate entry.gap.length 0 ++ back := by
  rw [Nat.add_sub_cancel_left, List.append_assoc]
  exact blit_append (List.length_replicate ..)

theorem cutOutValue_terminated {front : List UInt8} (gap : entry.gap ≠ [])
    (noNul : 0 ∉ entry.value ++ entry.trail) :
    cutOutValue (front ++ (entry.gap ++ (entry.value ++ entry.trail ++ 0 :: rest))) front.length =
      .ok (front ++ (List.replicate entry.gap.length 0 ++ (entry.value ++
        (List.replicate entry.trail.length 0 ++ 0 :: rest))),
        front.length + entry.gap.length) := by
  obtain ⟨byte, more, shape, plain⟩ : ∃ byte more,
      entry.value ++ entry.trail ++ 0 :: rest = byte :: more ∧ wspace byte = false := by
    cases shape : entry.value ++ entry.trail with
    | nil => exact ⟨0, rest, rfl, rfl⟩
    | cons byte more =>
      exact ⟨byte, more ++ 0 :: rest, rfl, entry.rest_first byte (by rw [shape]; rfl)⟩
  have skips : walk (fun byte => !wspace byte)
      (front ++ (entry.gap ++ (entry.value ++ entry.trail ++ 0 :: rest)))
        front.length = some (front.length + entry.gap.length, byte) := by
    rw [shape]
    exact walk_some rfl rfl (blank_passed entry.gap_blank) (by simp [plain])
  let blanked := front ++ List.replicate entry.gap.length (0 : UInt8)
  have length : front.length + entry.gap.length = blanked.length := by
    simp [blanked]
  have ends : walk (· == 0) (blanked ++ (entry.value ++ entry.trail ++ 0 :: rest))
      blanked.length = some (blanked.length + (entry.value ++ entry.trail).length, 0) :=
    walk_some rfl rfl (nul_passed noNul) rfl
  have last : ∃ byte, (blanked ++ entry.value).getLast? = some byte ∧ wspace byte = false := by
    rw [List.getLast?_append]
    cases last : entry.value.getLast? with
    | some byte => exact ⟨byte, rfl, entry.value_last byte last⟩
    | none =>
      obtain ⟨white, more, shape⟩ := List.exists_cons_of_ne_nil gap
      refine ⟨0, ?_, rfl⟩
      simp [blanked, shape, List.replicate_succ']
  have trims : removeTrailing (blanked ++ (entry.value ++ entry.trail ++ 0 :: rest))
      (blanked.length + (entry.value ++ entry.trail).length) =
        .ok (blanked ++ (entry.value ++ (List.replicate entry.trail.length 0 ++ 0 :: rest))) := by
    have trims : removeTrailing (blanked ++ entry.value ++ (entry.trail ++ 0 :: rest))
        ((blanked ++ entry.value).length + entry.trail.length) = _ :=
      removeTrailing_eq entry.trail_blank last
    simpa [Nat.add_assoc] using trims
  rw [cutOutValue, skips]
  dsimp only [reach, bind, Except.bind]
  rw [blit_gap, length, ends]
  dsimp only
  rw [trims]
  simp [blanked]

theorem cutOutValue_unterminated (front : List UInt8) (noNul : 0 ∉ entry.value ++ entry.trail) :
    cutOutValue (front ++ (entry.gap ++ (entry.value ++ entry.trail))) front.length =
      .error .outside := by
  rw [cutOutValue]
  cases shape : entry.value ++ entry.trail with
  | nil =>
    rw [List.append_nil, walk_none rfl rfl (blank_passed entry.gap_blank)]
    rfl
  | cons byte more =>
    have plain := entry.rest_first byte (by rw [shape]; rfl)
    rw [shape] at noNul
    rw [walk_some rfl rfl (blank_passed entry.gap_blank) (by simp [plain])]
    dsimp only [reach, bind, Except.bind]
    rw [blit_gap, walk_none rfl (by simp) (nul_passed noNul)]

theorem pointToValue_token (back : List UInt8) :
    pointToValue (pre ++ (entry.token ++ back)) pre.length =
      (reach (walk (fun byte => wspace byte || byte == 0)
        (pre ++ (entry.token ++ back)) pre.length)).bind fun place =>
          if place.2 = 0 then .ok (some (pre ++ (entry.token ++ back), place.1))
          else (cutOutValue (pre ++ (entry.token ++ back)) place.1).bind fun result =>
            .ok (some result) := by
  obtain ⟨first, more, token, plain⟩ := exists_token entry
  have found : (pre ++ (entry.token ++ back))[pre.length]? = some first := by
    simp [token]
  rw [pointToValue, found]
  dsimp only
  rw [if_neg (by simp [plain])]
  rfl

theorem pointToValue_gap (pre back : List UInt8) (gap : entry.gap ≠ []) (noNul : 0 ∉ entry.text) :
    pointToValue (pre ++ (entry.token ++ (entry.gap ++ back))) pre.length =
      (cutOutValue (pre ++ entry.token ++ (entry.gap ++ back))
        (pre ++ entry.token).length).bind fun result => .ok (some result) := by
  obtain ⟨white, more, shape⟩ := List.exists_cons_of_ne_nil gap
  have blank := entry.gap_blank white (by simp [shape])
  have nonzero : white ≠ 0 := by
    rintro rfl
    cases blank
  have finds : walk (fun byte => wspace byte || byte == 0)
      (pre ++ (entry.token ++ (entry.gap ++ back))) pre.length =
        some (pre.length + entry.token.length, white) := by
    rw [shape]
    exact walk_some rfl rfl (token_passed entry noNul) (by simp [blank])
  rw [pointToValue_token, finds, List.append_assoc, List.length_append]
  exact if_neg nonzero

theorem noNul_rest (noNul : 0 ∉ entry.text) : 0 ∉ entry.value ++ entry.trail :=
  fun member => noNul (List.mem_append_right _ (List.mem_append_right _ member))

theorem pointToValue_entry (pre rest : List UInt8) (noNul : 0 ∉ entry.text) :
    pointToValue (pre ++ (entry.text ++ 0 :: rest)) pre.length =
      .ok (some (pre ++ (entry.token ++ (List.replicate entry.gap.length 0 ++
        (entry.value ++ (List.replicate entry.trail.length 0 ++ 0 :: rest)))),
        pre.length + (entry.token.length + entry.gap.length))) := by
  by_cases gap : entry.gap = []
  · have value := EntryText.value_eq_nil gap
    have trail := EntryText.trail_eq_nil value
    rw [EntryText.text, gap, value, trail, List.append_nil, List.append_nil, List.append_nil,
      pointToValue_token, walk_some rfl rfl (token_passed entry noNul) rfl]
    rfl
  · rw [EntryText.text, List.append_assoc, List.append_assoc,
      pointToValue_gap entry pre _ gap noNul,
      cutOutValue_terminated entry gap (noNul_rest entry noNul)]
    simp [Except.bind, Nat.add_assoc]

theorem pointToValue_unterminated (pre : List UInt8) (noNul : 0 ∉ entry.text) :
    pointToValue (pre ++ entry.text) pre.length = .error .outside := by
  by_cases gap : entry.gap = []
  · have value := EntryText.value_eq_nil gap
    have trail := EntryText.trail_eq_nil value
    rw [EntryText.text, gap, value, trail, List.nil_append, List.nil_append, pointToValue_token,
      List.append_nil, walk_none rfl rfl (token_passed entry noNul)]
    rfl
  · rw [EntryText.text, pointToValue_gap entry pre _ gap noNul,
      cutOutValue_unterminated entry _ (noNul_rest entry noNul)]
    rfl

end Values

section Lines

variable {fbuf rest : List UInt8} {str nuls : Nat}

/-- At `str` stands the end of a line, with this number of terminators and the rest
of the buffer behind it. -/
def LineEnd (fbuf : List UInt8) (str nuls : Nat) (rest : List UInt8) : Prop :=
  ∃ pre text, fbuf = pre ++ (text ++ (List.replicate nuls 0 ++ rest)) ∧
    str = pre.length ∧ 0 ∉ text ∧ 0 < nuls

theorem LineEnd.length_lt (ends : LineEnd fbuf str nuls rest) :
    str < fbuf.length ∧ rest.length < fbuf.length := by
  obtain ⟨pre, text, rfl, rfl, -, positive⟩ := ends
  simp only [List.length_append, List.length_replicate]
  omega

theorem LineEnd.number_pos (ends : LineEnd fbuf str nuls rest) (lnum : Nat) : 0 < lnum + nuls := by
  obtain ⟨_, _, -, -, -, positive⟩ := ends
  omega

theorem LineEnd.of_nil (ends : LineEnd fbuf str nuls (0 :: rest)) :
    LineEnd fbuf str (nuls + 1) rest := by
  obtain ⟨pre, text, split, place, noNul, positive⟩ := ends
  refine ⟨pre, text, ?_, place, noNul, Nat.succ_pos _⟩
  rw [split, List.replicate_succ']
  simp

theorem LineEnd.exists_nul (ends : LineEnd fbuf str nuls rest) :
    ∃ front, fbuf = front ++ (List.replicate nuls 0 ++ rest) ∧
      walk (· == 0) fbuf str = some (front.length, 0) := by
  obtain ⟨pre, text, split, rfl, noNul, positive⟩ := ends
  obtain ⟨fewer, rfl⟩ : ∃ fewer, nuls = fewer + 1 := ⟨nuls - 1, by omega⟩
  refine ⟨pre ++ text, by rw [split, List.append_assoc], ?_⟩
  rw [List.replicate_succ, List.cons_append] at split
  rw [List.length_append, walk_some split rfl (nul_passed noNul) rfl]

theorem getNextLine_end (ends : LineEnd fbuf str nuls []) (fuel lnum : Nat) :
    getNextLine fbuf (fuel + 1) lnum str = .ok (lnum + nuls, .null) := by
  have inside := ends.length_lt.1
  obtain ⟨front, split, finds⟩ := ends.exists_nul
  rw [List.append_nil] at split
  have leaves : walk (· != 0) fbuf front.length = none := walk_none split rfl (by simp)
  have length : fbuf.length - front.length = nuls := by
    simp [split]
  rw [getNextLine, if_neg (Nat.not_le.mpr inside), finds]
  dsimp only
  rw [leaves, length]

theorem getNextLine_start {first : UInt8} (ends : LineEnd fbuf str nuls (first :: rest))
    (nonzero : first ≠ 0) (fuel lnum : Nat) :
    getNextLine fbuf (fuel + 1) lnum str = if wspace first then
        match walk (fun byte => !wspace byte) fbuf (fbuf.length - (first :: rest).length) with
        | none => .ok (lnum + nuls, .null)
        | some (stop, byte) =>
          if byte ≠ 0 then .ok (lnum + nuls, .floating)
          else getNextLine fbuf fuel (lnum + nuls) stop
      else if first = commentChar then
        getNextLine fbuf fuel (lnum + nuls) (fbuf.length - (first :: rest).length)
      else .ok (lnum + nuls, .line (fbuf.length - (first :: rest).length)) := by
  have inside := ends.length_lt.1
  obtain ⟨front, split, finds⟩ := ends.exists_nul
  have starts : walk (· != 0) fbuf front.length =
      some (front.length + (List.replicate nuls (0 : UInt8)).length, first) :=
    walk_some split rfl (by simp) (by simpa using nonzero)
  have start : front.length + nuls = fbuf.length - (first :: rest).length := by
    simp only [split, List.length_append, List.length_replicate]
    omega
  rw [getNextLine, if_neg (Nat.not_le.mpr inside), finds]
  dsimp only
  rw [starts, List.length_replicate]
  dsimp only
  rw [Nat.add_sub_cancel_left]
  generalize fbuf.length - (first :: rest).length = next at start ⊢
  subst start
  rfl

theorem LineEnd.exists_front (ends : LineEnd fbuf str nuls rest) :
    ∃ front, fbuf = front ++ rest ∧ fbuf.length - rest.length = front.length := by
  obtain ⟨pre, text, split, -, -, -⟩ := ends
  refine ⟨pre ++ (text ++ List.replicate nuls 0), ?_, ?_⟩
  · simp [split]
  · simp only [split, List.length_append]
    omega

section Kinds

variable {line behind : List UInt8} (fuel lnum : Nat)

theorem getNextLine_blank (ends : LineEnd fbuf str nuls (line ++ 0 :: behind))
    (present : line ≠ []) (blank : ∀ byte ∈ line, wspace byte = true) :
    ∃ place, LineEnd fbuf place 1 behind ∧
      getNextLine fbuf (fuel + 1) lnum str = getNextLine fbuf fuel (lnum + nuls) place := by
  obtain ⟨front, split, start⟩ := ends.exists_front
  refine ⟨front.length + line.length, ⟨front ++ line, [], ?_, ?_, by simp, by simp⟩, ?_⟩
  · simp [split]
  · rw [List.length_append]
  obtain ⟨first, more, rfl⟩ := List.exists_cons_of_ne_nil present
  have nonzero : first ≠ 0 := by
    rintro rfl
    exact absurd (blank 0 (by simp)) (by decide)
  rw [List.cons_append] at ends start
  rw [getNextLine_start ends nonzero, if_pos (blank first (by simp)), start,
    walk_some split rfl (blank_passed blank) rfl]
  rfl

theorem getNextLine_comment (ends : LineEnd fbuf str nuls (line ++ 0 :: behind))
    (noNul : 0 ∉ line) (comment : ∃ more, line = commentChar :: more) :
    ∃ place, LineEnd fbuf place 1 behind ∧
      getNextLine fbuf (fuel + 1) lnum str = getNextLine fbuf fuel (lnum + nuls) place := by
  obtain ⟨front, split, start⟩ := ends.exists_front
  refine ⟨front.length, ⟨front, line, by simp [split], rfl, noNul, by simp⟩, ?_⟩
  obtain ⟨more, rfl⟩ := comment
  rw [List.cons_append] at ends start
  rw [getNextLine_start ends (by decide), if_neg (by decide), if_pos rfl, start]

theorem getNextLine_floating (ends : LineEnd fbuf str nuls (line ++ behind))
    (noNul : 0 ∉ line) (floating : lineKind line = .floating) :
    getNextLine fbuf (fuel + 1) lnum str = .ok (lnum + nuls, .floating) := by
  obtain ⟨front, split, start⟩ := ends.exists_front
  obtain ⟨white, byte, more, rfl, present, blank, plain⟩ := exists_of_floating floating
  have nonzero : byte ≠ 0 := fun zero => noNul (by simp [zero])
  have finds : walk (fun byte => !wspace byte) fbuf front.length =
      some (front.length + white.length, byte) :=
    walk_some (by simpa using split) rfl (blank_passed blank) (by simp [plain])
  obtain ⟨first, rest, rfl⟩ := List.exists_cons_of_ne_nil present
  have firstNonzero : first ≠ 0 := fun zero => noNul (by simp [zero])
  rw [List.cons_append, List.cons_append] at ends start
  rw [getNextLine_start ends firstNonzero, if_pos (blank first (by simp)), start, finds]
  exact if_pos nonzero

theorem getNextLine_line {first : UInt8} {more : List UInt8}
    (ends : LineEnd fbuf str nuls (first :: more)) (nonzero : first ≠ 0)
    (plain : wspace first = false) (notComment : first ≠ commentChar) :
    ∃ front, fbuf = front ++ first :: more ∧
      getNextLine fbuf (fuel + 1) lnum str = .ok (lnum + nuls, .line front.length) := by
  obtain ⟨front, split, start⟩ := ends.exists_front
  refine ⟨front, split, ?_⟩
  rw [getNextLine_start ends nonzero, if_neg (by simp [plain]), if_neg notComment, start]

theorem getNextLine_entry (entry : EntryText) (noNul : 0 ∉ entry.text)
    (ends : LineEnd fbuf str nuls (entry.text ++ behind)) :
    ∃ front, fbuf = front ++ (entry.text ++ behind) ∧
      getNextLine fbuf (fuel + 1) lnum str = .ok (lnum + nuls, .line front.length) := by
  obtain ⟨first, more, token, plain⟩ := exists_token entry
  have notComment := (entry.token_first first (by rw [token]; rfl)).1
  have nonzero : first ≠ 0 := by
    rintro rfl
    exact noNul (by simp [EntryText.text, token])
  have shape : entry.text ++ behind =
      first :: (more ++ (entry.gap ++ (entry.value ++ entry.trail)) ++ behind) := by
    simp [EntryText.text, token]
  rw [shape] at ends ⊢
  exact getNextLine_line fuel lnum ends nonzero plain notComment

theorem getNextLine_unterminated (ends : LineEnd fbuf str nuls line) (noNul : 0 ∉ line)
    (skipped : lineKind line = .blank ∨ lineKind line = .comment) :
    getNextLine fbuf (fuel + 2) lnum str = .ok (lnum + nuls, .null) := by
  obtain ⟨front, split, start⟩ := ends.exists_front
  rcases skipped with blank | comment
  · have white := all_wspace_of_blank blank
    cases line with
    | nil => exact getNextLine_end ends (fuel + 1) lnum
    | cons first more =>
      have nonzero : first ≠ 0 := fun zero => noNul (by simp [zero])
      rw [getNextLine_start ends nonzero, if_pos (white first (by simp)), start,
        walk_none split rfl (blank_passed white)]
  · obtain ⟨more, rfl⟩ := exists_of_comment comment
    have inside : ¬ fbuf.length ≤ front.length := by
      simp [split]
    rw [getNextLine_start ends (by decide), if_neg (by decide), if_pos rfl, start,
      getNextLine, if_neg inside, walk_none split rfl (nul_passed noNul)]

end Kinds

end Lines

end MercuryFix
