/-!
# Text

A text is the list of its code points. Lengths, cuts and reveal positions all count code points,
so one list answers every question the library asks of a text, and induction on a text is induction
on a list.

## Main definitions

* `Text.trim p` drops the longest `p`-prefix and the longest `p`-suffix
* `Text.cut c` cuts at the first `c`, and `Text.cutPair` at the first pair of adjacent characters
* `Text.splitPair a b` splits at every pair `a`, `b`, leftmost first and without overlap
-/

namespace Parley

/-- A text, as the list of its code points. -/
abbrev Text := List Char

namespace Text

/-- Drop the longest suffix all of whose characters satisfy `p`. -/
def dropEnd (p : Char → Bool) : Text → Text
  | [] => []
  | c :: t =>
    match dropEnd p t with
    | [] => if p c then [] else [c]
    | rest => c :: rest

/-- Drop the longest prefix and the longest suffix of characters satisfying `p`. -/
def trim (p : Char → Bool) (t : Text) : Text :=
  dropEnd p (t.dropWhile p)

/-- The part before the first `c`, and the part after it when there is one. -/
def cut (c : Char) : Text → Text × Option Text
  | [] => ([], none)
  | d :: t =>
    if d = c then ([], some t)
    else
      let rest := cut c t
      (d :: rest.1, rest.2)

/-- The part before the first occurrence of `a` directly followed by `b`, and the part after it
when there is one. -/
def cutPair (a b : Char) : Text → Text × Option Text
  | [] => ([], none)
  | [c] => ([c], none)
  | c :: d :: t =>
    if c = a ∧ d = b then ([], some t)
    else
      let rest := cutPair a b (d :: t)
      (c :: rest.1, rest.2)

/-- Put `c` in front of the first piece. -/
def consFirst (c : Char) : List Text → List Text
  | [] => [[c]]
  | t :: ts => (c :: t) :: ts

/-- The pieces between the occurrences of `a` directly followed by `b`, read from the left without
overlap. There is always at least one piece. -/
def splitPair (a b : Char) : Text → List Text
  | [] => [[]]
  | [c] => [[c]]
  | c :: d :: t =>
    if c = a ∧ d = b then [] :: splitPair a b t
    else consFirst c (splitPair a b (d :: t))

/-- The pieces with `sep` between neighbours. -/
def join (sep : Text) : List Text → Text
  | [] => []
  | [t] => t
  | t :: u :: ts => t ++ sep ++ join sep (u :: ts)

/-- The first `k` characters for `k ≥ 0`; for negative `k`, all but the last `-k`. -/
def take (k : Int) (t : Text) : Text :=
  match k with
  | .ofNat n => List.take n t
  | .negSucc n => List.take (t.length - (n + 1)) t

@[simp] theorem dropEnd_nil (p : Char → Bool) : dropEnd p [] = [] := rfl

@[simp] theorem splitPair_nil (a b : Char) : splitPair a b [] = [[]] := rfl

theorem splitPair_ne_nil (a b : Char) (t : Text) : splitPair a b t ≠ [] := by
  fun_cases splitPair a b t with
  | case1 => simp
  | case2 => simp
  | case3 => simp
  | case4 c d t => cases splitPair a b (d :: t) <;> simp [consFirst]

end Text

end Parley
