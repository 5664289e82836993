import TaggedSlots.CommandLine.Session
import TaggedSlots.Proofs.Numerals

/-! # The grammar of literals

The texts of literals are described by rules of a grammar. Digits with a point and an exponent
are a decimal (`Decimal.Scientific`), and a double is a decimal with a sign in front, or one of
three words in any letter case (`Double.Written`). Reading accepts exactly these texts and gives
them the meaning that the rules do (`Double.ofText?_eq_some_iff`).

The grammars of longs and doubles overlap, since every integer is a decimal. The order of the
readers decides: an integer in the range of longs is a long, one outside of it is a double, and
the booleans are the two words that are left (`literal_reads_grammar`).
-/
namespace TaggedSlots

/-! ## Decimals -/

namespace Decimal

/-- The digits of a decimal, with the number that they spell together and how many of them
stand behind the point. A point needs a digit in front of it or behind it. -/
inductive Mantissa : List Char → Nat → Nat → Prop where
  | whole {ds : List Char} {n : Nat} (digits : Spells ds n) : Mantissa ds n 0
  | point {ds fraction : List Char} {n : Nat} (digits : Spells (ds ++ fraction) n) :
    Mantissa (ds ++ '.' :: fraction) n fraction.length

/-- The exponent of a decimal: nothing, or a letter, a sign and digits. -/
inductive Exponent : List Char → Int → Prop where
  | absent : Exponent [] 0
  | present {letter : Char} {mark ds : List Char} {s : Sign} {n : Nat}
    (hletter : letter = 'e' ∨ letter = 'E') (sign : SignMark mark s) (digits : Spells ds n) :
    Exponent (letter :: (mark ++ ds)) (s.apply n)

/-- The texts of decimals without a sign. -/
inductive Scientific : List Char → Scaled → Prop where
  | mk {m x : List Char} {n k : Nat} {e : Int} (mantissa : Mantissa m n k)
    (exponent : Exponent x e) : Scientific (m ++ x) ⟨n, e - k⟩

/-- An exponent begins neither with a digit nor with a point. -/
theorem Exponent.noHead {x : List Char} {e : Int} (h : Exponent x e) :
    NoHead (fun c => c.isDigit = true ∨ c = '.') x := by
  cases h with
  | absent => exact noHead_nil _
  | present hletter sign digits =>
    refine noHead_cons _ ?_
    rcases hletter with rfl | rfl <;> decide

/-- A decimal begins with a digit or a point. -/
theorem Scientific.head {cs : List Char} {d : Scaled} (h : Scientific cs d) :
    ∃ c rest, cs = c :: rest ∧ (c.isDigit = true ∨ c = '.') := by
  obtain ⟨mantissa, exponent⟩ := h
  cases mantissa with
  | whole digits =>
    obtain ⟨c, ds, rfl⟩ := List.exists_cons_of_ne_nil digits.ne_nil
    exact ⟨c, _, rfl, .inl (digits.isDigit c List.mem_cons_self)⟩
  | @point ds fraction _ digits =>
    cases ds with
    | nil => exact ⟨'.', _, rfl, .inr rfl⟩
    | cons c ds => exact ⟨c, _, rfl, .inl (digits.isDigit c List.mem_cons_self)⟩

theorem Scientific.unsigned {cs : List Char} {d : Scaled} (h : Scientific cs d) : Unsigned cs := by
  obtain ⟨c, rest, rfl, hc⟩ := h.head
  refine noHead_cons _ ?_
  rintro (rfl | rfl) <;> exact absurd hc (by decide)

end Decimal

namespace Double
open Decimal

theorem exponentPart?_eq_some_iff {x : List Char} {e : Int} :
    exponentPart? x = some e ↔ Exponent x e := by
  constructor
  · intro h
    cases x with
    | nil =>
      obtain rfl : 0 = e := Option.some.inj h
      exact .absent
    | cons c cs =>
      cases hsign : splitSign cs with | mk s ds =>
      obtain ⟨mark, hmark, rfl⟩ := splitSign_sound hsign
      rw [exponentPart?] at h
      split at h
      · rw [hsign] at h
        simp only [List.all_eq_true] at h
        split at h
        next hletter hdigits =>
          obtain rfl := Option.some.inj h
          exact .present hletter hmark (spells_iff.mpr ⟨hdigits.1, hdigits.2, rfl⟩)
        · cases h
      · cases h
  · intro h
    cases h with
    | absent => rfl
    | present hletter sign digits =>
      have hsign := splitSign_of_unsigned sign digits.unsigned
      rw [exponentPart?, if_pos hletter, hsign]
      simp only [List.all_eq_true]
      rw [if_pos ⟨digits.ne_nil, digits.isDigit⟩, digits.ofDigits_eq]

/-- What is split off as a fraction stands behind a point, or there is none. -/
theorem splitFraction_sound {cs fraction rest : List Char}
    (h : splitFraction cs = (fraction, rest)) :
    (cs = '.' :: (fraction ++ rest) ∧ ∀ c ∈ fraction, c.isDigit = true) ∨
      (fraction = [] ∧ rest = cs) := by
  unfold splitFraction at h
  split at h
  · obtain ⟨rfl, hall⟩ := splitDigits_sound h
    exact .inl ⟨rfl, hall⟩
  · obtain ⟨rfl, rfl⟩ := Prod.mk.inj h
    exact .inr ⟨rfl, rfl⟩

theorem splitFraction_of_noHead {x : List Char} (h : NoHead (fun c => c = '.') x) :
    splitFraction x = ([], x) := by
  unfold splitFraction
  split
  · exact absurd rfl (h '.' rfl)
  · rfl

theorem numeral?_eq_some_iff {cs : List Char} {d : Scaled} :
    numeral? cs = some d ↔ Scientific cs d := by
  constructor
  · intro h
    cases hdigits : splitDigits cs with | mk whole rest =>
    cases hfraction : splitFraction rest with | mk fraction x =>
    obtain ⟨rfl, hwhole⟩ := splitDigits_sound hdigits
    simp only [numeral?, hdigits, hfraction] at h
    split at h
    · cases h
    next hsome =>
      obtain ⟨e, he, rfl⟩ := Option.map_eq_some_iff.mp h
      have hx := exponentPart?_eq_some_iff.mp he
      rcases splitFraction_sound hfraction with ⟨rfl, hfrac⟩ | ⟨rfl, rfl⟩
      · have hspells : Spells (whole ++ fraction) (ofDigits (whole ++ fraction)) := by
          refine spells_iff.mpr ⟨by simpa using hsome, fun c hc => ?_, rfl⟩
          exact (List.mem_append.mp hc).elim (hwhole c) (hfrac c)
        have hcs := Scientific.mk (.point hspells) hx
        rwa [List.append_assoc] at hcs
      · rw [List.append_nil]
        have hspells : Spells whole (ofDigits whole) :=
          spells_iff.mpr ⟨by simpa using hsome, hwhole, rfl⟩
        exact .mk (.whole hspells) hx
  · intro h
    obtain ⟨mantissa, exponent⟩ := h
    next m x n k e =>
    have hdigit : NoHead (fun c => c.isDigit = true) x := exponent.noHead.imp fun _ => .inl
    have hpoint : NoHead (fun c => c = '.') x := exponent.noHead.imp fun _ => .inr
    have hx := exponentPart?_eq_some_iff.mpr exponent
    cases mantissa with
    | whole digits =>
      simp [numeral?, splitDigits_of_noHead digits.isDigit hdigit, splitFraction_of_noHead hpoint,
        hx, digits.ne_nil, digits.ofDigits_eq]
    | @point ds fraction _ digits =>
      have hds : ∀ c ∈ ds, c.isDigit = true :=
        fun c hc => digits.isDigit c (List.mem_append_left _ hc)
      have hfrac : ∀ c ∈ fraction, c.isDigit = true :=
        fun c hc => digits.isDigit c (List.mem_append_right _ hc)
      have hne : ¬ (ds = [] ∧ fraction = []) := by simpa using digits.ne_nil
      have hwhole : splitDigits (ds ++ '.' :: (fraction ++ x)) = (ds, '.' :: (fraction ++ x)) :=
        splitDigits_of_noHead hds (noHead_cons _ (by decide))
      simp [numeral?, hwhole, splitFraction, splitDigits_of_noHead hfrac hdigit, hx, hne,
        digits.ofDigits_eq]

/-! ## Words -/

/-- A word in which each letter is the lower or the upper case of a given one. -/
inductive AnyCase : List Char → List Char → Prop where
  | nil : AnyCase [] []
  | lower {l : Char} {word cs : List Char} (h : AnyCase word cs) : AnyCase (l :: word) (l :: cs)
  | upper {l : Char} {word cs : List Char} (h : AnyCase word cs) :
    AnyCase (l :: word) (l.toUpper :: cs)

/-- The words for doubles that have no numeral. -/
inductive Names : List Char → Special → Prop where
  | inf {cs : List Char} (h : AnyCase ['i', 'n', 'f'] cs) : Names cs .infinity
  | infinity {cs : List Char} (h : AnyCase ['i', 'n', 'f', 'i', 'n', 'i', 't', 'y'] cs) :
    Names cs .infinity
  | nan {cs : List Char} (h : AnyCase ['n', 'a', 'n'] cs) : Names cs .nan

theorem toNat_toLower (c : Char) :
    c.toLower.toNat = if 65 ≤ c.toNat ∧ c.toNat ≤ 90 then c.toNat + 32 else c.toNat := by
  have hA : 'A'.val.toNat = 65 := rfl
  have hZ : 'Z'.val.toNat = 90 := rfl
  have hdistance : ('a'.val - 'A'.val).toNat = 32 := rfl
  unfold Char.toLower
  simp only [Char.toNat, ge_iff_le, UInt32.le_iff_toNat_le, hA, hZ]
  split
  · simp only [UInt32.toNat_add, hdistance]
    omega
  · rfl

theorem toNat_toUpper (c : Char) :
    c.toUpper.toNat = if 97 ≤ c.toNat ∧ c.toNat ≤ 122 then c.toNat - 32 else c.toNat := by
  have ha : 'a'.val.toNat = 97 := rfl
  have hz : 'z'.val.toNat = 122 := rfl
  -- The distance is negative, and adding it wraps around.
  have hdistance : ('A'.val - 'a'.val).toNat = 4294967264 := rfl
  unfold Char.toUpper
  simp only [Char.toNat, UInt32.le_iff_toNat_le, ha, hz]
  split
  · simp only [UInt32.toNat_add, hdistance]
    omega
  · rfl

theorem toLower_eq_iff {c l : Char} (hl : l.isLower = true) :
    c.toLower = l ↔ c = l ∨ c = l.toUpper := by
  have hrange : 97 ≤ l.toNat ∧ l.toNat ≤ 122 := by
    unfold Char.isLower at hl
    simpa [UInt32.le_iff_toNat_le] using hl
  simp only [← Char.toNat_inj, toNat_toLower, toNat_toUpper]
  split <;> omega

theorem anyCase_iff {word cs : List Char} (hword : ∀ l ∈ word, l.isLower = true) :
    AnyCase word cs ↔ cs.map Char.toLower = word := by
  induction word generalizing cs with
  | nil =>
    rw [List.map_eq_nil_iff]
    constructor
    · intro h
      cases h
      rfl
    · rintro rfl
      exact .nil
  | cons l word ih =>
    have hl := hword l List.mem_cons_self
    have hrest : ∀ cs, AnyCase word cs ↔ cs.map Char.toLower = word :=
      fun cs => ih fun k hk => hword k (List.mem_cons_of_mem l hk)
    constructor
    · intro h
      cases h with
      | lower h => rw [List.map_cons, (toLower_eq_iff hl).mpr (.inl rfl), (hrest _).mp h]
      | upper h => rw [List.map_cons, (toLower_eq_iff hl).mpr (.inr rfl), (hrest _).mp h]
    · intro h
      obtain ⟨c, cs, rfl, hc, hcs⟩ := List.map_eq_cons_iff.mp h
      have hany := (hrest cs).mpr hcs
      rcases (toLower_eq_iff hl).mp hc with rfl | rfl
      · exact .lower hany
      · exact .upper hany

theorem special?_eq_some_iff {cs : List Char} {w : Special} :
    special? cs = some w ↔ Names cs w := by
  have hinf : AnyCase ['i', 'n', 'f'] cs ↔ cs.map Char.toLower = "inf".toList :=
    anyCase_iff (List.all_eq_true.mp rfl)
  have hinfinity : AnyCase ['i', 'n', 'f', 'i', 'n', 'i', 't', 'y'] cs ↔
      cs.map Char.toLower = "infinity".toList := anyCase_iff (List.all_eq_true.mp rfl)
  have hnan : AnyCase ['n', 'a', 'n'] cs ↔ cs.map Char.toLower = "nan".toList :=
    anyCase_iff (List.all_eq_true.mp rfl)
  constructor
  · intro h
    unfold special? at h
    dsimp only at h
    split at h
    next heq =>
      obtain rfl := Option.some.inj h
      exact heq.elim (fun heq => .inf (hinf.mpr heq)) fun heq => .infinity (hinfinity.mpr heq)
    · split at h
      next heq =>
        obtain rfl := Option.some.inj h
        exact .nan (hnan.mpr heq)
      · cases h
  · intro h
    cases h with
    | inf h => rw [special?, hinf.mp h]; rfl
    | infinity h => rw [special?, hinfinity.mp h]; rfl
    | nan h => rw [special?, hnan.mp h]; rfl

/-- A word begins with one of two letters. -/
theorem Names.head {cs : List Char} {w : Special} (h : Names cs w) :
    ∃ c rest, cs = c :: rest ∧ c ∈ ['i', 'I', 'n', 'N'] := by
  cases h with
  | inf h | infinity h | nan h => cases h <;> exact ⟨_, _, rfl, by decide⟩

theorem Names.unsigned {cs : List Char} {w : Special} (h : Names cs w) : Unsigned cs := by
  obtain ⟨c, rest, rfl, hc⟩ := h.head
  refine noHead_cons _ ?_
  rintro (rfl | rfl) <;> exact absurd hc (by decide)

/-! ## Doubles -/

/-- The texts of doubles: a sign, then a word or a decimal. A decimal stands for the double
nearest to it. -/
inductive Written : List Char → Float → Prop where
  | word {mark cs : List Char} {s : Sign} {w : Special} (sign : SignMark mark s)
    (name : Names cs w) : Written (mark ++ cs) (w.toFloat s)
  | decimal {mark cs : List Char} {s : Sign} {d : Scaled} (sign : SignMark mark s)
    (number : Scientific cs d) : Written (mark ++ cs) (ofMagnitude s (magnitudeBits d))

/-- No decimal is a word. -/
theorem special?_of_scientific {cs : List Char} {d : Scaled} (h : Scientific cs d) :
    special? cs = none := by
  cases hw : special? cs with
  | none => rfl
  | some w =>
    obtain ⟨c, rest, rfl, hdigit⟩ := h.head
    obtain ⟨c', rest', heq, hletter⟩ := (special?_eq_some_iff.mp hw).head
    obtain ⟨rfl, -⟩ := List.cons.inj heq
    simp only [List.mem_cons, List.not_mem_nil, or_false] at hletter
    rcases hletter with rfl | rfl | rfl | rfl <;> exact absurd hdigit (by decide)

/-- **Reading a double.** The texts that are read are those of the grammar. -/
theorem ofText?_eq_some_iff {t : String} {x : Float} :
    ofText? t = some x ↔ Written t.toList x := by
  constructor
  · intro h
    cases hsign : splitSign t.toList with | mk s cs =>
    obtain ⟨mark, hmark, ht⟩ := splitSign_sound hsign
    rw [ht]
    cases hw : special? cs with
    | some w =>
      simp only [ofText?, hsign, hw, Option.some.injEq] at h
      subst h
      exact .word hmark (special?_eq_some_iff.mp hw)
    | none =>
      simp only [ofText?, hsign, hw] at h
      obtain ⟨d, hd, rfl⟩ := Option.map_eq_some_iff.mp h
      exact .decimal hmark (numeral?_eq_some_iff.mp hd)
  · intro h
    generalize hcs : t.toList = cs at h
    cases h with
    | word sign name =>
      have hsign := splitSign_of_unsigned sign name.unsigned
      simp only [ofText?, hcs, hsign, special?_eq_some_iff.mpr name]
    | decimal sign number =>
      have hsign := splitSign_of_unsigned sign number.unsigned
      simp only [ofText?, hcs, hsign, special?_of_scientific number,
        numeral?_eq_some_iff.mpr number, Option.map_some]

/-- An integer is a decimal without point and exponent. -/
theorem written_of_signed {cs : List Char} {i : Int} (h : Signed cs i) :
    ∃ s : Sign, s.apply i.natAbs = i ∧
      Written cs (ofMagnitude s (magnitudeBits ⟨i.natAbs, 0⟩)) := by
  obtain ⟨sign, digits⟩ := h
  next mark ds s n =>
  have hn : (s.apply n).natAbs = n := by cases s <;> simp [Sign.apply]
  have hnumber : Scientific ds ⟨n, 0⟩ := by
    simpa using Scientific.mk (.whole digits) .absent
  rw [hn]
  exact ⟨s, rfl, .decimal sign hnumber⟩

end Double

/-! ## Literals -/

namespace Literal

/-- The texts of literals. An integer is a long if there is such a long, and a double
otherwise. -/
inductive Written : String → Literal → Prop where
  | long {t : String} {n : Int64} (h : Decimal.Signed t.toList n.toInt) : Written t (.long n)
  | double {t : String} {x : Float} (hlong : ∀ n : Int64, ¬ Decimal.Signed t.toList n.toInt)
    (h : Double.Written t.toList x) : Written t (.double x)
  | boolean (b : Bool) : Written (if b then "true" else "false") (.boolean b)

/-! The literals of each type, by the conditions on their texts. -/

theorem exists_long_iff {cs : List Char} :
    (∃ n : Int64, Decimal.Signed cs n.toInt) ↔ ∃ i, Decimal.Signed cs i ∧ Long.InRange i := by
  constructor
  · rintro ⟨n, hn⟩
    exact ⟨n.toInt, hn, Long.inRange_toInt n⟩
  · rintro ⟨i, hi, hrange⟩
    have hlong : Long.ofInt? i = some (Int64.ofInt i) := if_pos hrange
    refine ⟨Int64.ofInt i, ?_⟩
    rwa [Long.ofInt?_eq_some_iff.mp hlong]

variable {t : String}

theorem written_long_iff {n : Int64} :
    Written t (.long n) ↔ ∃ i, Decimal.Signed t.toList i ∧ Long.InRange i ∧ n.toInt = i := by
  constructor
  · intro h
    cases h with
    | long h => exact ⟨_, h, Long.inRange_toInt n, rfl⟩
  · rintro ⟨_, h, -, rfl⟩
    exact .long h

theorem written_double_iff {x : Float} :
    Written t (.double x) ↔
      (¬ ∃ i, Decimal.Signed t.toList i ∧ Long.InRange i) ∧ Double.Written t.toList x := by
  rw [← exists_long_iff, not_exists]
  constructor
  · intro h
    cases h with
    | double hlong h => exact ⟨hlong, h⟩
  · rintro ⟨hlong, h⟩
    exact .double hlong h

theorem written_boolean_iff {b : Bool} :
    Written t (.boolean b) ↔ t = if b then "true" else "false" := by
  constructor
  · intro h
    cases h with
    | boolean b => rfl
  · rintro rfl
    exact .boolean b

/-- A text is no literal if no rule applies to it. -/
theorem not_written_iff :
    (∀ c, ¬ Written t c) ↔ (¬ ∃ i, Decimal.Signed t.toList i ∧ Long.InRange i) ∧
      (¬ ∃ x, Double.Written t.toList x) ∧ t ≠ "true" ∧ t ≠ "false" := by
  constructor
  · intro h
    have hlong : ¬ ∃ i, Decimal.Signed t.toList i ∧ Long.InRange i := by
      rw [← exists_long_iff]
      rintro ⟨n, hn⟩
      exact h _ (.long hn)
    refine ⟨hlong, ?_, ?_, ?_⟩
    · rintro ⟨x, hx⟩
      exact h _ (written_double_iff.mpr ⟨hlong, hx⟩)
    · intro ht
      exact h _ (written_boolean_iff (b := true) |>.mpr ht)
    · intro ht
      exact h _ (written_boolean_iff (b := false) |>.mpr ht)
  · rintro ⟨hlong, hdouble, htrue, hfalse⟩ c h
    cases h with
    | long h => exact hlong ⟨_, h, Long.inRange_toInt _⟩
    | double _ h => exact hdouble ⟨_, h⟩
    | boolean b => cases b <;> contradiction

/-- **Reading a literal.** -/
theorem ofText?_eq_some_iff {c : Literal} : ofText? t = some c ↔ Written t c := by
  constructor
  · intro h
    unfold ofText? at h
    cases hl : Long.ofText t with
    | ok n =>
      simp only [hl, Option.some.injEq] at h
      subst h
      exact .long (Long.ofText_eq_ok_iff.mp hl)
    | error e =>
      have hlong : ∀ n : Int64, ¬ Decimal.Signed t.toList n.toInt := fun n hn => by
        rw [Long.ofText_eq_ok_iff.mpr hn] at hl
        cases hl
      cases hd : Double.ofText? t with
      | some x =>
        simp only [hl, hd, Option.some.injEq] at h
        subst h
        exact .double hlong (Double.ofText?_eq_some_iff.mp hd)
      | none =>
        simp only [hl, hd] at h
        split at h
        next ht =>
          obtain rfl := Option.some.inj h
          exact ht ▸ .boolean true
        · split at h
          next ht =>
            obtain rfl := Option.some.inj h
            exact ht ▸ .boolean false
          · cases h
  · intro h
    cases h with
    | long h => simp only [ofText?, Long.ofText_eq_ok_iff.mpr h]
    | double hlong h =>
      cases hl : Long.ofText t with
      | ok n => exact absurd (Long.ofText_eq_ok_iff.mp hl) (hlong n)
      | error e => simp only [ofText?, hl, Double.ofText?_eq_some_iff.mpr h]
    | boolean b => cases b <;> rfl

/-- A text is that of one literal only, because it is read. -/
theorem Written.unique {c d : Literal} (hc : Written t c) (hd : Written t d) : c = d := by
  have hread := ofText?_eq_some_iff.mpr hc
  rw [ofText?_eq_some_iff.mpr hd] at hread
  exact (Option.some.inj hread).symm

end Literal

namespace CommandLine
variable {t : String}

theorem literal_eq_ok_iff {c : Literal} :
    literal t = .ok (.literal c) ↔ Literal.Written t c := by
  rw [← Literal.ofText?_eq_some_iff, literal]
  cases Literal.ofText? t <;> simp

theorem literal_eq_error_iff {e : SessionError} :
    literal t = .error e ↔ e = .invalidLiteral t ∧ ∀ c, ¬ Literal.Written t c := by
  simp only [← Literal.ofText?_eq_some_iff, literal]
  cases Literal.ofText? t <;> simp [eq_comm]

/-- **A literal is read by its grammar**, as a long before a double before a boolean. The text
of an integer in the range of longs is that long. Any other text of a double is that double,
in particular the text of an integer outside of the range. Two words are booleans. Every other
text is refused, and the error quotes it. -/
theorem literal_reads_grammar (t : String) :
    (∀ n : Int64, literal t = .ok (.literal (.long n)) ↔
      ∃ i, Decimal.Signed t.toList i ∧ Long.InRange i ∧ n.toInt = i) ∧
    (∀ x : Float, literal t = .ok (.literal (.double x)) ↔
      (¬ ∃ i, Decimal.Signed t.toList i ∧ Long.InRange i) ∧ Double.Written t.toList x) ∧
    (∀ b : Bool, literal t = .ok (.literal (.boolean b)) ↔ t = if b then "true" else "false") ∧
    (∀ e, literal t = .error e ↔ e = .invalidLiteral t ∧
      (¬ ∃ i, Decimal.Signed t.toList i ∧ Long.InRange i) ∧
      (¬ ∃ x, Double.Written t.toList x) ∧ t ≠ "true" ∧ t ≠ "false") ∧
    (SessionError.invalidLiteral t).message = "Invalid literal: '" ++ t ++ "'" ∧
    ∀ i, Decimal.Signed t.toList i → ¬ Long.InRange i →
      ∃ s : Decimal.Sign, s.apply i.natAbs = i ∧
        literal t = .ok (.literal (.double
          (Double.ofMagnitude s (Double.magnitudeBits ⟨i.natAbs, 0⟩)))) := by
  refine ⟨fun n => literal_eq_ok_iff.trans Literal.written_long_iff,
    fun x => literal_eq_ok_iff.trans Literal.written_double_iff,
    fun b => literal_eq_ok_iff.trans Literal.written_boolean_iff,
    fun e => literal_eq_error_iff.trans (and_congr_right fun _ => Literal.not_written_iff), rfl,
    fun i hi hout => ?_⟩
  obtain ⟨s, hs, hx⟩ := Double.written_of_signed hi
  have hlong : ¬ ∃ j, Decimal.Signed t.toList j ∧ Long.InRange j := by
    rintro ⟨j, hj, hrange⟩
    exact hout (hi.unique hj ▸ hrange)
  exact ⟨s, hs, literal_eq_ok_iff.mpr (Literal.written_double_iff.mpr ⟨hlong, hx⟩)⟩

/-- The greatest long is a long with zeros in front of it too, and one more is a double. -/
theorem literals_around_greatest_long :
    literal "+009223372036854775807" = .ok (.literal (.long 9223372036854775807)) ∧
      Decimal.Signed "9223372036854775808".toList 9223372036854775808 ∧
      ∃ x, literal "9223372036854775808" = .ok (.literal (.double x)) := by
  have hgreatest : Decimal.Signed "+009223372036854775807".toList 9223372036854775807 :=
    .mk .plus (Decimal.spells_iff.mpr
      ⟨by decide, List.all_eq_true.mp rfl,
        (rfl : Decimal.ofDigits "009223372036854775807".toList = _)⟩)
  have hbeyond : Decimal.Signed "9223372036854775808".toList 9223372036854775808 :=
    .mk .absent (Decimal.spells_iff.mpr
      ⟨by decide, List.all_eq_true.mp rfl,
        (rfl : Decimal.ofDigits "9223372036854775808".toList = _)⟩)
  obtain ⟨hlong, -⟩ := literal_reads_grammar "+009223372036854775807"
  obtain ⟨-, -, -, -, -, hdouble⟩ := literal_reads_grammar "9223372036854775808"
  obtain ⟨s, -, hx⟩ := hdouble _ hbeyond (by decide)
  exact ⟨(hlong _).mpr ⟨_, hgreatest, by decide, by decide⟩, hbeyond, _, hx⟩

end CommandLine

end TaggedSlots
