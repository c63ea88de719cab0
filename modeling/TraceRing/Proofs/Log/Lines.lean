import TraceRing.Log.Line

/-!
# Reading log lines back

A line shows in a text by its shape: a bracket, blanks, the digits of its time, a bracket and a
blank, its level, a colon and a blank, its message, and a newline (`Line.Spells`). The reader takes
the texts of this shape, and no others (`Line.parse_eq_some_iff`), and each of them in one way: the
digits end at a bracket, no level starts like another one, and the message is all that is left up to
the last newline, whatever it holds. A rendered line has this shape, with the blanks that fill its
ten columns or with none (`Line.spells_render`), so it is read back (`Line.reads_back`).
-/

namespace TraceRing.Log

variable {α : Type} {p : α → Bool} {inside behind : List α}

/-- A row of elements of one kind ends where the first one of another kind stands. -/
theorem span_of_ended (hinside : ∀ a ∈ inside, p a = true)
    (hended : ∀ a, behind.head? = some a → p a = false) :
    (inside ++ behind).takeWhile p = inside ∧ (inside ++ behind).dropWhile p = behind := by
  rw [List.takeWhile_append_of_pos hinside, List.dropWhile_append_of_pos hinside]
  cases behind with
  | nil => exact ⟨List.append_nil inside, rfl⟩
  | cons a rest =>
    have hother : ¬p a = true := Bool.eq_false_iff.mp (hended a rfl)
    rw [List.takeWhile_cons_of_neg hother, List.dropWhile_cons_of_neg hother, List.append_nil]
    exact ⟨rfl, rfl⟩

/-! ## Levels -/

theorem Level.mem_all (level : Level) : level ∈ Level.all := by
  cases level <;> decide

/-- A level in front of a message. -/
def Level.opening (level : Level) : List Char :=
  (level.name ++ ": ").toList

/-- No level starts like another one. -/
theorem Level.eq_of_prefix {a b : Level} (h : a.opening <+: b.opening) : a = b := by
  revert h
  cases a <;> cases b <;> decide

namespace Line

variable {cs message : List Char} {level : Level} {text : String} {line : Line}

theorem readLevel_eq (cs : List Char) :
    readLevel cs = Level.all.findSome? fun level =>
      if level.opening.isPrefixOf cs then some (level, cs.drop level.opening.length) else none :=
  rfl

theorem eq_of_readLevel (h : readLevel cs = some (level, message)) :
    cs = level.opening ++ message := by
  rw [readLevel_eq] at h
  obtain ⟨found, -, hfound⟩ := List.exists_of_findSome?_eq_some h
  split at hfound
  · next hprefix =>
    cases hfound
    exact (List.prefix_iff_eq_append.mp (List.isPrefixOf_iff_prefix.mp hprefix)).symm
  · cases hfound

theorem readLevel_append (level : Level) (message : List Char) :
    readLevel (level.opening ++ message) = some (level, message) := by
  have hprefix : level.opening <+: level.opening ++ message := List.prefix_append ..
  have hsome : (readLevel (level.opening ++ message)).isSome = true := by
    rw [readLevel_eq, List.findSome?_isSome_iff]
    refine ⟨level, level.mem_all, ?_⟩
    rw [if_pos (List.isPrefixOf_iff_prefix.mpr hprefix), Option.isSome_some]
  obtain ⟨⟨found, left⟩, hfound⟩ := Option.isSome_iff_exists.mp hsome
  -- the level that is found starts the text, and so does the level itself
  have htext : level.opening ++ message = found.opening ++ left := eq_of_readLevel hfound
  have hstart : found.opening <+: level.opening ++ message := ⟨left, htext.symm⟩
  have hlevel : level = found := by
    rcases List.prefix_or_prefix_of_prefix hprefix hstart with hle | hge
    · exact Level.eq_of_prefix hle
    · exact (Level.eq_of_prefix hge).symm
  subst hlevel
  rw [hfound, List.append_cancel_left htext]

/-! ## Digits -/

theorem readNumber_eq (digits : List Char) : readNumber digits = Nat.ofDigitChars 10 digits 0 :=
  rfl

theorem beq_blank_of_isDigit {c : Char} (h : c.isDigit = true) : (c == ' ') = false := by
  rw [beq_eq_false_iff_ne]
  rintro rfl
  exact absurd h (by decide)

/-! ## The shape of a line -/

/-- A text shows a line if it has the digits of the time behind blanks in brackets, then the level,
the message and a newline. -/
def Spells (text : String) (line : Line) : Prop :=
  ∃ blanks digits : List Char,
    text = "[" ++ String.ofList blanks ++ String.ofList digits ++ "] " ++ line.level.name ++ ": "
      ++ line.message ++ "\n" ∧
    (∀ c ∈ blanks, c = ' ') ∧ (∀ d ∈ digits, d.isDigit = true) ∧
    Nat.ofDigitChars 10 digits 0 = line.timestamp

theorem toList_shape (blanks digits : List Char) (line : Line) :
    ("[" ++ String.ofList blanks ++ String.ofList digits ++ "] " ++ line.level.name ++ ": "
      ++ line.message ++ "\n").toList =
    '[' :: (blanks ++ (digits ++ ']' :: ' ' ::
      (line.level.opening ++ (line.message.toList ++ ['\n'])))) := by
  simp [Level.opening]

/-- What the reader went through before it answers with a line. -/
theorem exists_of_parse (h : parse text = some line) :
    ∃ rest, text.toList = '[' :: rest ∧
      (rest.dropWhile (· == ' ')).dropWhile Char.isDigit =
        ']' :: ' ' :: (line.level.opening ++ (line.message.toList ++ ['\n'])) ∧
      readNumber ((rest.dropWhile (· == ' ')).takeWhile Char.isDigit) = line.timestamp := by
  unfold parse at h
  split at h
  · next rest hrest =>
    dsimp only at h
    split at h
    · next after hafter =>
      split at h
      · next level message hlevel =>
        split at h
        · next hlast =>
          cases h
          obtain ⟨body, rfl⟩ := List.getLast?_eq_some_iff.mp hlast
          refine ⟨rest, hrest, ?_, rfl⟩
          rw [hafter, eq_of_readLevel hlevel, List.dropLast_concat, String.toList_ofList]
        · cases h
      · cases h
    · cases h
  · cases h

theorem spells_of_parse (h : parse text = some line) : Spells text line := by
  obtain ⟨rest, htext, hafter, htime⟩ := exists_of_parse h
  refine ⟨rest.takeWhile (· == ' '), (rest.dropWhile (· == ' ')).takeWhile Char.isDigit, ?_, ?_,
    List.all_eq_true.mp List.all_takeWhile, htime⟩
  · rw [← String.toList_inj, toList_shape, htext, ← hafter, List.takeWhile_append_dropWhile,
      List.takeWhile_append_dropWhile]
  · intro c hc
    exact beq_iff_eq.mp (List.all_eq_true.mp List.all_takeWhile c hc)

theorem parse_of_spells (h : Spells text line) : parse text = some line := by
  obtain ⟨blanks, digits, rfl, hblanks, hdigits, htime⟩ := h
  let after := line.level.opening ++ (line.message.toList ++ ['\n'])
  -- a digit or a bracket ends the blanks, a bracket ends the digits
  have hblank : ∀ c, (digits ++ ']' :: ' ' :: after).head? = some c → (c == ' ') = false := by
    intro c hc
    cases digits with
    | nil =>
      cases hc
      decide
    | cons d rest =>
      have hd : d = c := Option.some.inj hc
      subst hd
      exact beq_blank_of_isDigit (hdigits d List.mem_cons_self)
  have hdigit : ∀ c, (']' :: ' ' :: after).head? = some c → c.isDigit = false := by
    intro c hc
    cases hc
    decide
  obtain ⟨-, hrest⟩ := span_of_ended (fun c hc => beq_iff_eq.mpr (hblanks c hc)) hblank
  obtain ⟨hread, hleft⟩ := span_of_ended hdigits hdigit
  have hlast : (line.message.toList ++ ['\n']).getLast? = some '\n' := List.getLast?_concat
  rw [parse, toList_shape]
  simp only [hrest, hread, hleft, after, readLevel_append, hlast, if_true, List.dropLast_concat,
    String.ofList_toList, readNumber_eq, htime]

/-- The reader takes the texts that show a line, and no others. -/
theorem parse_eq_some_iff : parse text = some line ↔ Spells text line :=
  ⟨spells_of_parse, parse_of_spells⟩

/-! ## Rendered lines -/

theorem spells_render (line : Line) : Spells line.render line := by
  refine ⟨List.replicate (10 - (toString line.timestamp).length) ' ',
    Nat.toDigits 10 line.timestamp, ?_, ?_, ?_, Nat.ofDigitChars_ten_toDigits⟩
  · rw [render, Text.padLeft, Nat.toString_eq_ofList_toDigits]
    simp only [String.append_assoc]
  · intro c hc
    exact (List.mem_replicate.mp hc).2
  · intro d hd
    exact Nat.isDigit_of_mem_toDigits (by decide) (by decide) hd

theorem parse_render (line : Line) : parse line.render = some line :=
  parse_of_spells (spells_render line)

theorem render_inj {a b : Line} : a.render = b.render ↔ a = b := by
  constructor
  · intro h
    exact Option.some.inj ((parse_render a).symm.trans ((congrArg parse h).trans (parse_render b)))
  · rintro rfl
    rfl

theorem getLast?_render (line : Line) : line.render.toList.getLast? = some '\n' := by
  have hend : "\n".toList = ['\n'] := rfl
  rw [render, String.toList_append, hend, List.getLast?_concat]

/-- A line is only appended to a text, ends in a newline, and is read back with its time, level and
message, however wide the time is and whatever the message holds. The reader knows nothing of the
line but its shape. No other line leaves the same text. -/
theorem reads_back (out : String) (line : Line) :
    appendTo out line = out ++ line.render ∧ line.render.toList.getLast? = some '\n' ∧
      parse line.render = some line ∧
      (∀ text read, parse text = some read ↔ Spells text read) ∧
      ∀ other, appendTo out other = appendTo out line ↔ other = line := by
  refine ⟨rfl, getLast?_render line, parse_render line, fun _ _ => parse_eq_some_iff, ?_⟩
  intro other
  rw [appendTo, appendTo, String.append_right_inj, render_inj]

/-- The time has 39 digits, and the message looks like the end of a line and the start of another
one. -/
example : parse "[340282366920938463463374607431768211455] WARN: ] INFO: a\n[ 1] INFO: b\n" =
    some ⟨2 ^ 128 - 1, .warn, "] INFO: a\n[ 1] INFO: b"⟩ := by decide +kernel

end Line

end TraceRing.Log
