import Mathlib.Data.List.DropRight
import Mathlib.Data.Nat.Digits.Defs
import TraceRing.Settings

/-!
# Numerals

Which texts a setting takes as a number, and as which, told by the shape of the text: what stands
between the blanks at its two ends is, without its underscores, a row of decimal digits with a plus
sign before it or none (`Settings.Denotes`). The number has to fit 64 bits. `readNumber` reads
these texts, and no others (`Settings.readNumber_eq_some_iff`).
-/

namespace TraceRing

namespace Text

/-! ## Blanks at the ends -/

/-- A part of a text is its body if there are only blanks before it and behind it, and none at its
own two ends. -/
structure IsBody (cs body : List Char) : Prop where
  between : ∃ before behind, cs = before ++ (body ++ behind) ∧
    (∀ c ∈ before, isBlank c = true) ∧ ∀ c ∈ behind, isBlank c = true
  first : ∀ c, body.head? = some c → isBlank c = false
  last : ∀ c, body.getLast? = some c → isBlank c = false

theorem isBlank_of_head?_dropWhile {cs : List Char} {c : Char}
    (h : (cs.dropWhile isBlank).head? = some c) : isBlank c = false := by
  have hhead := List.head?_dropWhile_not isBlank cs
  rwa [h] at hhead

theorem dropWhile_of_first {cs : List Char} (h : ∀ c, cs.head? = some c → isBlank c = false) :
    cs.dropWhile isBlank = cs := by
  cases cs with
  | nil => rfl
  | cons c rest => exact List.dropWhile_cons_of_neg (Bool.eq_false_iff.mp (h c rfl))

theorem trim_eq (cs : List Char) : trim cs = (cs.dropWhile isBlank).rdropWhile isBlank :=
  rfl

theorem isBody_trim (cs : List Char) : IsBody cs (trim cs) := by
  have hsplit : trim cs ++ (cs.dropWhile isBlank).rtakeWhile isBlank = cs.dropWhile isBlank :=
    List.rdropWhile_append_rtakeWhile
  refine ⟨⟨cs.takeWhile isBlank, (cs.dropWhile isBlank).rtakeWhile isBlank, ?_, ?_, ?_⟩, ?_, ?_⟩
  · rw [hsplit, List.takeWhile_append_dropWhile]
  · intro c hc
    exact List.mem_takeWhile_imp hc
  · intro c hc
    exact List.mem_rtakeWhile_imp hc
  · intro c hc
    -- the body starts where the blanks before it end
    have hstart : (cs.dropWhile isBlank).head? = some c := by
      rw [← hsplit, List.head?_append, hc, Option.some_or]
    exact isBlank_of_head?_dropWhile hstart
  · intro c hc
    rw [trim_eq, List.rdropWhile, List.getLast?_reverse] at hc
    exact isBlank_of_head?_dropWhile hc

/-- A text has one body. -/
theorem IsBody.eq_trim {cs body : List Char} (h : IsBody cs body) : body = trim cs := by
  obtain ⟨⟨before, behind, rfl, hbefore, hbehind⟩, hfirst, hlast⟩ := h
  rw [trim_eq, List.dropWhile_append_of_pos hbefore]
  by_cases hne : body = []
  · subst hne
    rw [List.nil_append, List.dropWhile_eq_nil_iff.mpr hbehind, List.rdropWhile_nil]
  · have hstart : ∀ c, (body ++ behind).head? = some c → isBlank c = false := by
      intro c hc
      rw [List.head?_append_of_ne_nil body hne] at hc
      exact hfirst c hc
    have hend : ∀ c, body.reverse.head? = some c → isBlank c = false := by
      intro c hc
      rw [List.head?_reverse] at hc
      exact hlast c hc
    rw [dropWhile_of_first hstart, List.rdropWhile, List.reverse_append,
      List.dropWhile_append_of_pos (fun c hc => hbehind c (List.mem_reverse.mp hc)),
      dropWhile_of_first hend, List.reverse_reverse]

end Text

namespace Settings

open Text (IsBody)

/-! ## Digits -/

/-- The number that decimal digits stand for, the first of them the most significant one. -/
def decimal (digits : List Char) : Nat :=
  Nat.ofDigits 10 (digits.reverse.map fun d => d.toNat - '0'.toNat)

theorem digitsValue_eq_decimal (digits : List Char) : digitsValue digits = decimal digits := by
  induction digits using List.reverseRecOn with
  | nil => rfl
  | append_singleton digits d ih =>
    have hvalue : digitsValue (digits ++ [d]) =
        10 * digitsValue digits + (d.toNat - '0'.toNat) := by
      rw [digitsValue, List.foldl_append]
      rfl
    have hdecimal : decimal (digits ++ [d]) = (d.toNat - '0'.toNat) + 10 * decimal digits := by
      rw [decimal, List.reverse_append, List.reverse_singleton, List.singleton_append,
        List.map_cons, Nat.ofDigits_cons]
      rfl
    rw [hvalue, hdecimal, ih, Nat.add_comm]

/-- One or more digits, with a plus sign before them or none, spell a number. -/
inductive Spells : List Char → Nat → Prop where
  | plain {digits : List Char} (some_digit : digits ≠ [])
      (all_digits : ∀ d ∈ digits, d.isDigit = true) : Spells digits (decimal digits)
  | signed {digits : List Char} (some_digit : digits ≠ [])
      (all_digits : ∀ d ∈ digits, d.isDigit = true) : Spells ('+' :: digits) (decimal digits)

/-- What comes behind a plus sign, if there is one. -/
def unsigned (cs : List Char) : List Char :=
  match cs with
  | '+' :: rest => rest
  | _ => cs

theorem unsigned_of_plain {cs : List Char} (h : ∀ rest, cs ≠ '+' :: rest) : unsigned cs = cs := by
  unfold unsigned
  split
  · next rest => exact absurd rfl (h rest)
  · rfl

theorem spells_iff {cs : List Char} {n : Nat} :
    Spells cs n ↔
      unsigned cs ≠ [] ∧ (∀ d ∈ unsigned cs, d.isDigit = true) ∧ decimal (unsigned cs) = n := by
  constructor
  · intro h
    cases h with
    | signed hne hdigits => exact ⟨hne, hdigits, rfl⟩
    | plain hne hdigits =>
      have hplain : ∀ rest, cs ≠ '+' :: rest := by
        -- a plus sign is no digit
        rintro rest rfl
        exact absurd (hdigits '+' List.mem_cons_self) (by decide)
      rw [unsigned_of_plain hplain]
      exact ⟨hne, hdigits, rfl⟩
  · rintro ⟨hne, hdigits, rfl⟩
    by_cases hsign : ∃ rest, cs = '+' :: rest
    · obtain ⟨rest, rfl⟩ := hsign
      exact .signed hne hdigits
    · rw [unsigned_of_plain (not_exists.mp hsign)] at hne hdigits ⊢
      exact .plain hne hdigits

theorem readDigits_eq (cs : List Char) :
    readDigits cs =
      if unsigned cs ≠ [] ∧ (unsigned cs).all Char.isDigit = true ∧
        digitsValue (unsigned cs) < 2 ^ 64 then some (digitsValue (unsigned cs)) else none :=
  rfl

theorem readDigits_eq_some_iff {cs : List Char} {n : Nat} :
    readDigits cs = some n ↔ Spells cs n ∧ n < 2 ^ 64 := by
  rw [readDigits_eq, spells_iff, digitsValue_eq_decimal]
  constructor
  · intro h
    split at h
    · next hread =>
      cases h
      exact ⟨⟨hread.1, List.all_eq_true.mp hread.2.1, rfl⟩, hread.2.2⟩
    · cases h
  · rintro ⟨⟨hne, hdigits, rfl⟩, hlt⟩
    rw [if_pos ⟨hne, List.all_eq_true.mpr hdigits, hlt⟩]

/-! ## Texts -/

/-- A text denotes a number of 64 bits if its body spells it, up to underscores. -/
def Denotes (raw : String) (n : Nat) : Prop :=
  ∃ body, IsBody raw.toList body ∧ Spells (body.filter (· ≠ '_')) n ∧ n < 2 ^ 64

theorem readNumber_eq_some_iff {raw : String} {n : Nat} :
    readNumber raw = some n ↔ Denotes raw n := by
  rw [readNumber, readDigits_eq_some_iff]
  constructor
  · rintro ⟨hspells, hlt⟩
    exact ⟨_, Text.isBody_trim raw.toList, hspells, hlt⟩
  · rintro ⟨body, hbody, hspells, hlt⟩
    rw [hbody.eq_trim] at hspells
    exact ⟨hspells, hlt⟩

/-- Underscores may stand anywhere between the blanks, next to the sign too. -/
example : readNumber "\t _+_00_16__ " = some 16 := by decide +kernel

end Settings

end TraceRing
