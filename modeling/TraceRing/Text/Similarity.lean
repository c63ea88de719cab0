/-!
# Similarity of words

The Jaro similarity of two words. Equal letters match if their places are not too far apart, each
letter once; the similarity is the mean of three shares: the matched letters of the first word,
those of the second, and the matches that stand in the same order in both. It is computed in double
precision, so words that would be equally similar in exact arithmetic may differ in the last bit.
-/

namespace TraceRing.Text

/-! ## Matching letters -/

/-- How far apart the places of matching letters may be, in words of some lengths. -/
def reach (m n : Nat) : Nat :=
  max m n / 2 - 1

/-- The first place of a letter in a word that is within reach of place `i` and not taken. -/
def partner (word : List Char) (reach : Nat) (taken : List Nat) (i : Nat) (c : Char) :
    Option Nat :=
  (List.range word.length).find? fun j =>
    word[j]? == some c && decide (i ≤ j + reach) && decide (j ≤ i + reach) && !taken.contains j

/-- Matches letters, the first of which stands at place `i`: the letters that found a partner, and
the places that are taken then. -/
def matchFrom (word : List Char) (reach : Nat) (taken : List Nat) :
    Nat → List Char → List Char × List Nat
  | _, [] => ([], taken)
  | i, c :: rest =>
    match partner word reach taken i c with
    | none => matchFrom word reach taken (i + 1) rest
    | some j =>
      let later := matchFrom word reach (j :: taken) (i + 1) rest
      (c :: later.1, later.2)

/-- The letters of a word at some of its places, in the order of the word. -/
def lettersAt (word : List Char) (places : List Nat) : List Char :=
  (List.range word.length).filterMap fun j => if places.contains j then word[j]? else none

/-! ## The similarity -/

/-- The share that a part has in a whole. -/
def share (part whole : Nat) : Float :=
  Float.ofNat part / Float.ofNat whole

/-- How alike two words are, from 0 to 1. -/
def similarity (a b : List Char) : Float :=
  let matched := matchFrom b (reach a.length b.length) [] 0 a
  let m := matched.1.length
  let displaced :=
    ((matched.1.zip (lettersAt b matched.2)).filter fun pair => pair.1 != pair.2).length / 2
  if a = [] ∧ b = [] then 1
  else if m = 0 then 0
  else (share m a.length + share m b.length + share (m - displaced) m) / 3

end TraceRing.Text
