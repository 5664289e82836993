/-! # Lines of a text

A text is cut into lines at each line feed. A carriage return right before a line
feed belongs to the line end; anywhere else it is an ordinary character.
-/
namespace TaggedSlots.Text

/-- Puts a character in front of the first line. -/
def consLine (c : Char) : List (List Char) → List (List Char)
  | [] => [[c]]
  | l :: ls => (c :: l) :: ls

/-- The lines of a text, as lists of characters. -/
def splitLines : List Char → List (List Char)
  | [] => [[]]
  | '\r' :: '\n' :: cs => [] :: splitLines cs
  | '\n' :: cs => [] :: splitLines cs
  | c :: cs => consLine c (splitLines cs)

/-- The lines of a text. There is always at least one. -/
def lines (t : String) : List String := (splitLines t.toList).map String.ofList

/-- A text without a line feed is a single line. -/
theorem splitLines_of_not_mem {cs : List Char} (h : '\n' ∉ cs) : splitLines cs = [cs] := by
  fun_induction splitLines cs with
  | case1 => rfl
  | case2 cs _ => simp at h
  | case3 cs _ => simp at h
  | case4 c cs _ _ ih =>
    rw [ih (fun hc => h (List.mem_cons_of_mem c hc))]
    rfl

end TaggedSlots.Text
