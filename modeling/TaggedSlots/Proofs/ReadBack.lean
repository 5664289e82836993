import TaggedSlots.Proofs.LiteralGrammar

/-! # Printed values read back

A long is printed as a numeral and a boolean as a word, and both are literals of that value.
An array is printed between brackets, with a comma and a blank between its elements. No
numeral has a comma in it, so the text between the brackets can be cut into the numerals of
the elements again (`Text.pieces`), and these are read back one by one.

Hence a value that is not a double can be told from its text (`printed_values_read_back`).
-/
namespace TaggedSlots

/-! ## Pieces of a text -/

namespace Text

/-- Cuts a text at each comma that a blank follows. -/
def splitCommas : List Char → List (List Char)
  | [] => [[]]
  | ',' :: ' ' :: cs => [] :: splitCommas cs
  | c :: cs => consLine c (splitCommas cs)

/-- The pieces of a text between commas that a blank follows. An empty text has no pieces. -/
def pieces (t : String) : List String :=
  if t = "" then [] else (splitCommas t.toList).map String.ofList

theorem splitCommas_of_not_mem {w : List Char} (hw : ',' ∉ w) : splitCommas w = [w] := by
  fun_induction splitCommas w with
  | case1 => rfl
  | case2 cs _ => simp at hw
  | case3 c cs _ ih =>
    rw [ih fun hc => hw (List.mem_cons_of_mem c hc)]
    rfl

/-- A piece without commas ends at the first separator. -/
theorem splitCommas_append {w : List Char} (hw : ',' ∉ w) (cs : List Char) :
    splitCommas (w ++ ',' :: ' ' :: cs) = w :: splitCommas cs := by
  induction w with
  | nil => rfl
  | cons c w ih =>
    have hc : c ≠ ',' := fun h => hw (h ▸ List.mem_cons_self)
    have hrest := ih fun h => hw (List.mem_cons_of_mem c h)
    rw [List.cons_append, splitCommas, hrest]
    · rfl
    · simp [hc]

/-- Pieces without commas that were joined are found again. -/
theorem splitCommas_intercalate {ws : List (List Char)} (hne : ws ≠ [])
    (hws : ∀ w ∈ ws, ',' ∉ w) : splitCommas ([',', ' '].intercalate ws) = ws := by
  induction ws with
  | nil => exact absurd rfl hne
  | cons w ws ih =>
    have hw := hws w List.mem_cons_self
    cases ws with
    | nil => rw [List.intercalate_singleton, splitCommas_of_not_mem hw]
    | cons w' ws =>
      have hrest := ih (List.cons_ne_nil w' ws) fun v hv => hws v (List.mem_cons_of_mem w hv)
      rw [List.intercalate_cons_cons, List.append_assoc, List.cons_append, List.cons_append,
        List.nil_append, splitCommas_append hw, hrest]

theorem pieces_intercalate {ts : List String} (hts : ∀ t ∈ ts, t ≠ "" ∧ ',' ∉ t.toList) :
    pieces (", ".intercalate ts) = ts := by
  cases ts with
  | nil => rfl
  | cons t ts =>
    have hne : ", ".intercalate (t :: ts) ≠ "" := by
      intro h
      have ht := (hts t List.mem_cons_self).1
      cases ts with
      | nil => exact ht (by rwa [String.intercalate_singleton] at h)
      | cons u ts =>
        rw [String.intercalate_cons_cons, String.append_assoc, String.append_eq_empty_iff] at h
        exact ht h.1
    have hcommas : ∀ w ∈ (t :: ts).map String.toList, ',' ∉ w := by
      intro w hw
      obtain ⟨u, hu, rfl⟩ := List.mem_map.mp hw
      exact (hts u hu).2
    rw [pieces, if_neg hne, String.toList_intercalate]
    change (splitCommas ([',', ' '].intercalate ((t :: ts).map String.toList))).map _ = _
    rw [splitCommas_intercalate (by simp) hcommas, List.map_map]
    simp

end Text

/-! ## Texts of values -/

namespace LongArray

/-- The text of an array between its brackets. -/
def inside (a : LongArray) : String := ", ".intercalate (a.elements.toList.map Long.text)

theorem text_eq (a : LongArray) : a.text = "[" ++ a.inside ++ "]" := rfl

theorem pieces_inside (a : LongArray) :
    Text.pieces a.inside = a.elements.toList.map Long.text := by
  refine Text.pieces_intercalate fun t ht => ?_
  obtain ⟨n, -, rfl⟩ := List.mem_map.mp ht
  refine ⟨fun hempty => (Long.signed_text n).ne_nil ?_, Long.not_mem_text (by decide) rfl n⟩
  rw [hempty]
  rfl

/-- An array can be told from its text. -/
theorem text_inj {a b : LongArray} (h : a.text = b.text) : a = b := by
  have hinside : a.inside = b.inside := by
    rw [text_eq, text_eq, String.append_left_inj, String.append_right_inj] at h
    exact h
  have htexts : a.elements.toList.map Long.text = b.elements.toList.map Long.text := by
    rw [← pieces_inside, hinside, pieces_inside]
  have helements := List.map_inj_right (fun m n hmn => Long.text_inj.mp hmn) |>.mp htexts
  cases a
  cases b
  exact congrArg LongArray.mk (Array.toList_inj.mp helements)

/-- Only arrays are printed with brackets. -/
theorem ne_text {t : String} (ht : '[' ∉ t.toList) (a : LongArray) : t ≠ a.text := by
  rintro rfl
  exact ht (by simp [text_eq])

end LongArray

namespace Value

theorem written_long (n : Int64) : Literal.Written (Value.long n).text (.long n) :=
  .long (Long.signed_text n)

theorem written_boolean (b : Bool) : Literal.Written (Value.boolean b).text (.boolean b) :=
  .boolean b

theorem longText_ne_booleanText (n : Int64) (b : Bool) :
    (Value.long n).text ≠ (Value.boolean b).text := by
  intro h
  have hlong := written_long n
  rw [h] at hlong
  cases hlong.unique (written_boolean b)

theorem longText_ne_arrayText (n : Int64) (a : LongArray) : (Value.long n).text ≠ a.text :=
  a.ne_text (Long.not_mem_text (by decide) rfl n)

theorem booleanText_ne_arrayText (b : Bool) (a : LongArray) : (Value.boolean b).text ≠ a.text :=
  a.ne_text (by cases b <;> decide)

/-- A value that is not a double can be told from its text. -/
theorem eq_of_text_eq {v w : Value} (hv : ∀ x, v ≠ .double x) (hw : ∀ x, w ≠ .double x)
    (h : v.text = w.text) : v = w := by
  cases v with
  | double x => exact absurd rfl (hv x)
  | long m =>
    cases w with
    | double x => exact absurd rfl (hw x)
    | long n => exact congrArg Value.long (Long.text_inj.mp h)
    | boolean b => exact absurd h (longText_ne_booleanText m b)
    | array a => exact absurd h (longText_ne_arrayText m a)
  | boolean b =>
    cases w with
    | double x => exact absurd rfl (hw x)
    | long n => exact absurd h.symm (longText_ne_booleanText n b)
    | boolean c =>
      have hb := written_boolean b
      rw [h] at hb
      cases hb.unique (written_boolean c)
      rfl
    | array a => exact absurd h (booleanText_ne_arrayText b a)
  | array a =>
    cases w with
    | double x => exact absurd rfl (hw x)
    | long n => exact absurd h.symm (longText_ne_arrayText n a)
    | boolean b => exact absurd h.symm (booleanText_ne_arrayText b a)
    | array b => exact congrArg Value.array (LongArray.text_inj h)

end Value

namespace CommandLine

/-- **Printed values read back.** The text of a long or of a boolean is a literal of that
value. The text of an array stands between brackets, and cut at its commas it gives the literals
of the elements, in order. So values that are not doubles can be told from their texts. -/
theorem printed_values_read_back :
    (∀ n : Int64, literal (Value.long n).text = .ok (.literal (.long n))) ∧
    (∀ b : Bool, literal (Value.boolean b).text = .ok (.literal (.boolean b))) ∧
    (∀ a : LongArray, ∃ inner, (Value.array a).text = "[" ++ inner ++ "]" ∧
      (Text.pieces inner).map literal =
        a.elements.toList.map fun n => .ok (.literal (.long n))) ∧
    ∀ v w : Value, (∀ x, v ≠ .double x) → (∀ x, w ≠ .double x) → v.text = w.text → v = w := by
  refine ⟨fun n => literal_eq_ok_iff.mpr (Value.written_long n),
    fun b => literal_eq_ok_iff.mpr (Value.written_boolean b),
    fun a => ⟨a.inside, a.text_eq, ?_⟩, fun v w hv hw h => Value.eq_of_text_eq hv hw h⟩
  rw [a.pieces_inside, List.map_map]
  exact List.map_congr_left fun n _ => literal_eq_ok_iff.mpr (Value.written_long n)

/-- The least long reads back from its text, and a long is not printed as the array that holds
nothing else. -/
theorem least_long_reads_back :
    (Value.long (-9223372036854775808)).text = "-9223372036854775808" ∧
      literal "-9223372036854775808" = .ok (.literal (.long (-9223372036854775808))) ∧
      (Value.long (-9223372036854775808)).text ≠ (Value.array ⟨#[-9223372036854775808]⟩).text := by
  obtain ⟨hlong, -, -, hinj⟩ := printed_values_read_back
  have htext : (Value.long (-9223372036854775808)).text = "-9223372036854775808" := by
    decide +kernel
  refine ⟨htext, htext ▸ hlong (-9223372036854775808), fun h => ?_⟩
  have heq := hinj _ _ (fun x hx => by cases hx) (fun x hx => by cases hx) h
  cases heq

end CommandLine

end TaggedSlots
