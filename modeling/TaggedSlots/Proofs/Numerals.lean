import TaggedSlots.Long

/-! # The texts of integers

Which texts are numerals is said here by rules, without reading anything: a run of digits
spells a number (`Decimal.Spells`), and with a sign in front it spells an integer
(`Decimal.Signed`). Zeros in front and a plus are allowed, so an integer has many texts. A
text has one integer at most (`Decimal.Signed.unique`).

A long is read from exactly the texts of the integers in its range, and what is read is that
integer (`Long.ofText_eq_ok_iff`). This rests on how signs and digits are split off: what is
split off is what the rules say (`*_sound`), and where nothing follows that could belong to it
too, all of it is split off.
-/
namespace TaggedSlots

/-! ## Digits and signs -/

namespace Decimal

/-- A run of at least one digit spells a number. A digit behind others makes them count ten
times as much. -/
inductive Spells : List Char → Nat → Prop where
  | digit {c : Char} (hc : c.isDigit = true) : Spells [c] (c.toNat - '0'.toNat)
  | append {ds : List Char} {n : Nat} {c : Char} (h : Spells ds n) (hc : c.isDigit = true) :
    Spells (ds ++ [c]) (10 * n + (c.toNat - '0'.toNat))

/-- The mark of a sign: nothing stands for a plus. -/
inductive SignMark : List Char → Sign → Prop where
  | absent : SignMark [] .plus
  | plus : SignMark ['+'] .plus
  | minus : SignMark ['-'] .minus

/-- The texts of integers: a sign, then digits. -/
inductive Signed : List Char → Int → Prop where
  | mk {mark ds : List Char} {s : Sign} {n : Nat} (sign : SignMark mark s) (digits : Spells ds n) :
    Signed (mark ++ ds) (s.apply n)

namespace Spells
variable {ds : List Char} {n : Nat}

theorem ne_nil (h : Spells ds n) : ds ≠ [] := by
  cases h <;> simp

theorem isDigit (h : Spells ds n) : ∀ c ∈ ds, c.isDigit = true := by
  induction h with
  | digit hc => simpa using hc
  | append h hc ih =>
    intro d hd
    rcases List.mem_append.mp hd with hd | hd
    · exact ih d hd
    · exact List.mem_singleton.mp hd ▸ hc

theorem ofDigits_eq (h : Spells ds n) : ofDigits ds = n := by
  induction h with
  | digit hc => simp [ofDigits, Nat.ofDigitChars_cons, Nat.ofDigitChars_nil]
  | append h hc ih =>
    rw [ofDigits] at ih
    rw [ofDigits, Nat.ofDigitChars_append, ih, Nat.ofDigitChars_cons, Nat.ofDigitChars_nil]

/-- More digits behind a numeral go on with the same calculation. -/
theorem extend {more : List Char} (h : Spells ds n) (hmore : ∀ c ∈ more, c.isDigit = true) :
    Spells (ds ++ more) (Nat.ofDigitChars 10 more n) := by
  induction more generalizing ds n with
  | nil => simpa using h
  | cons c more ih =>
    have hnext := ih (h.append (hmore c List.mem_cons_self))
      fun d hd => hmore d (List.mem_cons_of_mem c hd)
    rwa [List.append_assoc, List.singleton_append] at hnext

end Spells

/-- Reading a run of digits gives the number that it spells. -/
theorem spells_iff {ds : List Char} {n : Nat} :
    Spells ds n ↔ ds ≠ [] ∧ (∀ c ∈ ds, c.isDigit = true) ∧ ofDigits ds = n := by
  constructor
  · intro h
    exact ⟨h.ne_nil, h.isDigit, h.ofDigits_eq⟩
  · rintro ⟨hne, hdigits, rfl⟩
    cases ds with
    | nil => exact absurd rfl hne
    | cons c more =>
      have hfirst : Spells [c] (10 * 0 + (c.toNat - '0'.toNat)) := by
        simpa using Spells.digit (hdigits c List.mem_cons_self)
      exact hfirst.extend fun d hd => hdigits d (List.mem_cons_of_mem c hd)

/-! ### Splitting -/

/-- A text that does not begin with a character of the given class. -/
def NoHead (p : Char → Prop) (cs : List Char) : Prop := ∀ c ∈ cs.head?, ¬ p c

theorem noHead_nil (p : Char → Prop) : NoHead p [] := nofun

theorem noHead_cons {p : Char → Prop} {c : Char} (cs : List Char) (h : ¬ p c) :
    NoHead p (c :: cs) := by
  intro d hd
  obtain rfl : c = d := by simpa using hd
  exact h

theorem NoHead.imp {p q : Char → Prop} {cs : List Char} (h : NoHead p cs) (hpq : ∀ c, q c → p c) :
    NoHead q cs := fun c hc hq => h c hc (hpq c hq)

/-- A text without a sign in front. -/
def Unsigned (cs : List Char) : Prop := NoHead (fun c => c = '+' ∨ c = '-') cs

theorem splitDigits_of_noHead {ds rest : List Char} (hds : ∀ c ∈ ds, c.isDigit = true)
    (hrest : NoHead (fun c => c.isDigit = true) rest) : splitDigits (ds ++ rest) = (ds, rest) := by
  rw [splitDigits, List.takeWhile_append_of_pos hds, List.dropWhile_append_of_pos hds]
  cases rest with
  | nil => simp
  | cons c rest =>
    have hc : ¬ c.isDigit = true := hrest c rfl
    rw [List.takeWhile_cons_of_neg hc, List.dropWhile_cons_of_neg hc, List.append_nil]

/-- What is split off as digits is the beginning of the text, and consists of digits. -/
theorem splitDigits_sound {cs ds rest : List Char} (h : splitDigits cs = (ds, rest)) :
    cs = ds ++ rest ∧ ∀ c ∈ ds, c.isDigit = true := by
  obtain ⟨rfl, rfl⟩ := Prod.mk.inj h
  exact ⟨(splitDigits_append cs).symm, List.all_eq_true.mp List.all_takeWhile⟩

/-- What is split off as a sign is the mark of one. -/
theorem splitSign_sound {cs rest : List Char} {s : Sign} (h : splitSign cs = (s, rest)) :
    ∃ mark, SignMark mark s ∧ cs = mark ++ rest := by
  unfold splitSign at h
  split at h
  · obtain ⟨rfl, rfl⟩ := Prod.mk.inj h
    exact ⟨_, .plus, rfl⟩
  · obtain ⟨rfl, rfl⟩ := Prod.mk.inj h
    exact ⟨_, .minus, rfl⟩
  · obtain ⟨rfl, rfl⟩ := Prod.mk.inj h
    exact ⟨_, .absent, rfl⟩

theorem splitSign_of_unsigned {mark rest : List Char} {s : Sign} (h : SignMark mark s)
    (hrest : Unsigned rest) : splitSign (mark ++ rest) = (s, rest) := by
  cases h with
  | plus => rfl
  | minus => rfl
  | absent =>
    rw [List.nil_append]
    unfold splitSign
    split
    · exact absurd (.inl rfl) (hrest '+' rfl)
    · exact absurd (.inr rfl) (hrest '-' rfl)
    · rfl

/-- Digits are no signs. -/
theorem Spells.unsigned {ds : List Char} {n : Nat} (h : Spells ds n) : Unsigned ds := by
  obtain ⟨c, ds, rfl⟩ := List.exists_cons_of_ne_nil h.ne_nil
  have hc := h.isDigit c List.mem_cons_self
  refine noHead_cons _ ?_
  rintro (rfl | rfl) <;> cases hc

/-- A text is that of one integer only: its sign and its digits can be split. -/
theorem Signed.unique {cs : List Char} {i j : Int} (hi : Signed cs i) (hj : Signed cs j) :
    i = j := by
  have hvalue : ∀ {k : Int}, Signed cs k →
      k = (splitSign cs).1.apply (ofDigits (splitSign cs).2) := fun h => by
    obtain ⟨sign, digits⟩ := h
    rw [splitSign_of_unsigned sign digits.unsigned, digits.ofDigits_eq]
  rw [hvalue hi, hvalue hj]

theorem Signed.ne_nil {cs : List Char} {i : Int} (h : Signed cs i) : cs ≠ [] := by
  obtain ⟨sign, digits⟩ := h
  simp [digits.ne_nil]

/-! ### Writing -/

theorem spells_digits (n : Nat) : Spells (digits n) n :=
  spells_iff.mpr ⟨digits_ne_nil n, fun _ hc => isDigit_of_mem_digits hc, ofDigits_digits n⟩

/-- An integer is written as one of its texts. -/
theorem signed_chars (i : Int) : Signed (chars i) i := by
  cases i with
  | ofNat n => exact .mk .absent (spells_digits n)
  | negSucc n => exact .mk .minus (spells_digits (n + 1))

/-- Numerals consist of digits and a minus. -/
theorem not_mem_chars {c : Char} (hminus : c ≠ '-') (hdigit : c.isDigit = false) (i : Int) :
    c ∉ chars i := by
  have hdigits : ∀ n, c ∉ digits n := fun n hc => by
    rw [isDigit_of_mem_digits hc] at hdigit
    cases hdigit
  cases i with
  | ofNat n => exact hdigits n
  | negSucc n => simp [chars, hminus, hdigits]

theorem natText_inj {m n : Nat} : natText m = natText n ↔ m = n := by
  rw [natText, natText, String.ofList_inj, digits_inj]

end Decimal

/-! ## Longs -/

namespace Long
open Decimal

/-- **Reading a long.** The texts of longs are the texts of the integers in their range. -/
theorem ofText_eq_ok_iff {t : String} {n : Int64} :
    ofText t = .ok n ↔ Signed t.toList n.toInt := by
  constructor
  · intro h
    unfold ofText at h
    split at h
    · cases h
    cases hsign : splitSign t.toList with | mk s cs =>
    cases hdigits : splitDigits cs with | mk ds rest =>
    obtain ⟨mark, hmark, ht⟩ := splitSign_sound hsign
    obtain ⟨rfl, hall⟩ := splitDigits_sound hdigits
    cases hi : ofInt? (s.apply (ofDigits ds)) with
    | none => simp [hsign, hdigits, hi] at h
    | some m =>
      simp only [hsign, hdigits, hi] at h
      split at h
      · cases h
      next hwhole =>
        obtain rfl : m = n := Except.ok.inj h
        have hne : ds ≠ [] := fun hnil => hwhole (.inl hnil)
        have hrest : rest = [] := Decidable.not_not.mp fun hr => hwhole (.inr hr)
        rw [ofInt?_eq_some_iff.mp hi, ht, hrest, List.append_nil]
        exact .mk hmark (spells_iff.mpr ⟨hne, hall, rfl⟩)
  · intro h
    generalize hcs : t.toList = cs at h
    generalize hi : n.toInt = i at h
    obtain ⟨sign, digits⟩ := h
    next mark ds s k =>
    have hne : t.toList ≠ [] := by simp [hcs, digits.ne_nil]
    have hsign := splitSign_of_unsigned sign digits.unsigned
    have hdigits : splitDigits ds = (ds, []) := by
      simpa using splitDigits_of_noHead digits.isDigit (noHead_nil _)
    have hn : ofInt? (s.apply k) = some n := ofInt?_eq_some_iff.mpr hi
    rw [ofText, if_neg hne, hcs, hsign]
    simp [hdigits, digits.ofDigits_eq, hn, digits.ne_nil]

theorem toList_text (n : Int64) : (text n).toList = Decimal.chars n.toInt := by
  rw [text, String.toList_ofList, chars]

theorem signed_text (n : Int64) : Signed (text n).toList n.toInt := by
  rw [toList_text]
  exact signed_chars n.toInt

theorem not_mem_text {c : Char} (hminus : c ≠ '-') (hdigit : c.isDigit = false) (n : Int64) :
    c ∉ (text n).toList := by
  rw [toList_text]
  exact not_mem_chars hminus hdigit n.toInt

/-- A long can be told from its text. -/
theorem text_inj {m n : Int64} : text m = text n ↔ m = n := by
  constructor
  · intro h
    have hn := signed_text n
    rw [← h] at hn
    exact Int64.toInt_inj.mp ((signed_text m).unique hn)
  · rintro rfl
    rfl

end Long

end TaggedSlots
