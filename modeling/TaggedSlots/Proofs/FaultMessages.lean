import TaggedSlots.Proofs.Attribution
import TaggedSlots.Proofs.LogLines
import TaggedSlots.Proofs.Numerals

/-! # A message identifies its fault

The message of a fault is a sentence: words with single blanks between them. The first word is
the label of the node with a colon behind it, and the others say the cause (`Fault.words`). In a
fault of an execution the parts that vary, numbers, slots and names, have no blanks in them,
so the words can be read off the message again (`Fault.message_eq_iff`).

The words of a cause tell the cause. Its form can be told by the first word, or by the third one
where a slot refused an access, and what varies is a word of its own, at most with a mark behind
it (`Cause.words_eq_iff`). Only the value of a mismatch is not told: the message names its type.
-/
namespace TaggedSlots

/-! ## Sentences -/

namespace Text

/-- A text without blanks. -/
def IsWord (t : String) : Prop := ' ' ∉ t.toList

instance (t : String) : Decidable (IsWord t) := inferInstanceAs (Decidable (¬ _))

@[simp] theorem isWord_append {t u : String} : IsWord (t ++ u) ↔ IsWord t ∧ IsWord u := by
  simp [IsWord]

@[simp] theorem isWord_longText (n : Int64) : IsWord (Long.text n) :=
  Long.not_mem_text (by decide) rfl n

@[simp] theorem isWord_natText (n : Nat) : IsWord (Decimal.natText n) := by
  intro h
  rw [Decimal.natText, String.toList_ofList] at h
  exact absurd (Decimal.isDigit_of_mem_digits h) (by decide)

@[simp] theorem isWord_slotText (s : SlotId) : IsWord s.text := by
  rw [SlotId.text, isWord_append]
  exact ⟨by decide, isWord_natText s.index⟩

/-- Words with blanks between them. -/
def sentence (ws : List String) : String := " ".intercalate ws

/-- The words of a sentence can be read off it. -/
theorem sentence_inj {ws vs : List String} (hws : ∀ w ∈ ws, IsWord w) (hvs : ∀ v ∈ vs, IsWord v)
    (hws' : ws ≠ []) (hvs' : vs ≠ []) : sentence ws = sentence vs ↔ ws = vs := by
  have hsplit : ∀ {us : List String}, (∀ u ∈ us, IsWord u) → us ≠ [] →
      (sentence us).toList.splitOn ' ' = us.map String.toList := fun {us} hus hne => by
    rw [sentence, String.toList_intercalate]
    refine List.splitOn_intercalate ' ' (fun l hl => ?_) (by simpa using hne)
    obtain ⟨u, hu, rfl⟩ := List.mem_map.mp hl
    exact hus u hu
  constructor
  · intro h
    have hmaps : ws.map String.toList = vs.map String.toList := by
      rw [← hsplit hws hws', h, hsplit hvs hvs']
    exact List.map_inj_right (fun _ _ => String.toList_inj.mp) |>.mp hmaps
  · rintro rfl
    rfl

end Text

/-! ## Names -/

@[simp] theorem Value.isWord_typeName (v : Value) : Text.IsWord v.typeName := by
  cases v <;> simp +decide only [typeName]

@[simp] theorem Operator.isWord_name (op : Operator) : Text.IsWord op.name := by
  cases op <;> decide

theorem Primitive.name_inj {p q : Primitive} : p.name = q.name ↔ p = q := by
  cases p <;> cases q <;> decide

theorem Kind.name_inj {a b : Kind} : a.name = b.name ↔ a = b := by
  let kinds := [illegal, .primitive .long, .primitive .double, .primitive .boolean, object]
  have hmem : ∀ k, k ∈ kinds := fun k => by
    cases k with
    | primitive p => cases p <;> decide
    | illegal => decide
    | object => decide
  have hkinds : ∀ k ∈ kinds, ∀ l ∈ kinds, k.name = l.name → k = l := by decide
  constructor
  · exact hkinds a (hmem a) b (hmem b)
  · rintro rfl
    rfl

theorem SlotId.text_inj {s t : SlotId} : s.text = t.text ↔ s = t := by
  constructor
  · intro h
    have hlist := congrArg String.toList h
    rw [toList_text, toList_text, List.cons.injEq, Decimal.digits_inj] at hlist
    exact congrArg SlotId.mk hlist.2
  · rintro rfl
    rfl

/-! ## The words of causes -/

namespace AccessError

/-- The slot that refused an access. -/
def slot : AccessError → SlotId
  | .invalidSlot s | .uninitialized s | .kindMismatch s .. | .narrowing s .. | .notAnArray s _ => s

/-- The words that say why a slot refused an access. -/
def reason : AccessError → List String
  | .invalidSlot _ => ["out", "of", "bounds"]
  | .uninitialized _ => ["read", "before", "initialization"]
  | .kindMismatch _ expected found =>
    ["of", "kind", found.name, "cannot", "be", "read", "as", expected.name]
  | .narrowing _ source target => ["cannot", "narrow", "from", source.name, "to", target.name]
  | .notAnArray _ found => ["holds", found ++ ",", "not", "an", "array"]

/-- The words that say which slot refused an access, and why. -/
def words (e : AccessError) : List String := "slot" :: e.slot.text :: e.reason

end AccessError

/-- The words that say a cause. -/
def Cause.words : Cause → List String
  | .mismatch m => ["expected", m.expected.name, "result,", "got", m.value.typeName]
  | .access e => e.words
  | .negativeArraySize size => ["negative", "array", "size", Long.text size]
  | .arraySizeTooLarge size max =>
    ["array", "size", Long.text size, "exceeds", "the", "maximum", "length", Decimal.natText max]
  | .allocationFailed length =>
    ["failed", "to", "allocate", "array", "of", "length", Decimal.natText length]
  | .indexOutOfBounds index length =>
    ["index", Long.text index, "out", "of", "bounds", "for", "length", Decimal.natText length]
  | .arithmeticOverflow op => ["integer", "overflow", "in", op]
  | .divisionByZero => ["division", "by", "zero"]
  | .unsupportedOperands op left right =>
    ["unsupported", "operands", "for", op ++ ":", left, "and", right]

theorem AccessError.message_eq (e : AccessError) : e.message = Text.sentence e.words := by
  apply String.toList_inj.mp
  rw [Text.sentence, String.toList_intercalate]
  cases e with
  | invalidSlot s =>
    change (_ ++ s.text ++ _).toList = _
    simp [words, slot, reason, List.intercalate_cons_cons]
  | uninitialized s =>
    change (_ ++ s.text ++ _).toList = _
    simp [words, slot, reason, List.intercalate_cons_cons]
  | kindMismatch s expected found =>
    change (_ ++ s.text ++ _ ++ found.name ++ _ ++ expected.name).toList = _
    simp [words, slot, reason, List.intercalate_cons_cons]
  | narrowing s source target =>
    change (_ ++ s.text ++ _ ++ source.name ++ _ ++ target.name).toList = _
    simp [words, slot, reason, List.intercalate_cons_cons]
  | notAnArray s found =>
    change (_ ++ s.text ++ _ ++ found ++ _).toList = _
    simp [words, slot, reason, List.intercalate_cons_cons]

theorem Cause.message_eq (c : Cause) : c.message = Text.sentence c.words := by
  apply String.toList_inj.mp
  rw [Text.sentence, String.toList_intercalate]
  cases c with
  | mismatch m =>
    change (_ ++ m.expected.name ++ _ ++ m.value.typeName).toList = _
    simp [words, List.intercalate_cons_cons]
  | access e =>
    have h := congrArg String.toList e.message_eq
    rwa [Text.sentence, String.toList_intercalate] at h
  | negativeArraySize size =>
    change (_ ++ Long.text size).toList = _
    simp [words, List.intercalate_cons_cons]
  | arraySizeTooLarge size max =>
    change (_ ++ Long.text size ++ _ ++ Decimal.natText max).toList = _
    simp [words, List.intercalate_cons_cons]
  | allocationFailed length =>
    change (_ ++ Decimal.natText length).toList = _
    simp [words, List.intercalate_cons_cons]
  | indexOutOfBounds index length =>
    change (_ ++ Long.text index ++ _ ++ Decimal.natText length).toList = _
    simp [words, List.intercalate_cons_cons]
  | arithmeticOverflow op =>
    change (_ ++ op).toList = _
    simp [words, List.intercalate_cons_cons]
  | divisionByZero => rfl
  | unsupportedOperands op left right =>
    change (_ ++ op ++ _ ++ left ++ _ ++ right).toList = _
    simp [words, List.intercalate_cons_cons]

/-- Two causes say the same: they are equal, or both are mismatches with a value of the same
type where the same type was expected. -/
def Cause.SaysSame : Cause → Cause → Prop
  | .mismatch m, .mismatch m' =>
    m.expected = m'.expected ∧ m.value.typeName = m'.value.typeName
  | c, c' => c = c'

/-- An access error can be told from its words. -/
theorem AccessError.words_inj {e e' : AccessError} : e.words = e'.words ↔ e = e' := by
  constructor
  · intro h
    obtain ⟨hslot, hreason⟩ : e.slot = e'.slot ∧ e.reason = e'.reason := by
      simpa [words, SlotId.text_inj] using h
    cases e with
    | invalidSlot s =>
      cases e' with
      | invalidSlot t => exact congrArg invalidSlot hslot
      | _ => simp [reason] at hreason
    | uninitialized s =>
      cases e' with
      | uninitialized t => exact congrArg uninitialized hslot
      | _ => simp [reason] at hreason
    | kindMismatch s expected found =>
      cases e' with
      | kindMismatch t expected' found' =>
        obtain ⟨rfl, rfl⟩ : found = found' ∧ expected = expected' := by
          simpa [reason, Kind.name_inj] using hreason
        exact congrArg (kindMismatch · expected found) hslot
      | _ => simp [reason] at hreason
    | narrowing s source target =>
      cases e' with
      | narrowing t source' target' =>
        obtain ⟨rfl, rfl⟩ : source = source' ∧ target = target' := by
          simpa [reason, Kind.name_inj] using hreason
        exact congrArg (narrowing · source target) hslot
      | _ => simp [reason] at hreason
    | notAnArray s found =>
      cases e' with
      | notAnArray t found' =>
        obtain rfl : found = found' := by simpa [reason] using hreason
        exact congrArg (notAnArray · found) hslot
      | _ => simp [reason] at hreason
  · rintro rfl
    rfl

namespace Cause
variable {c c' : Cause}

/-- **The words of a cause tell the cause**, up to the value of a mismatch. -/
theorem words_eq_iff : c.words = c'.words ↔ c.SaysSame c' := by
  constructor
  · intro h
    -- Each form of a cause has a first word of its own.
    cases c with
    | mismatch m =>
      cases c' with
      | mismatch m' => simpa [words, SaysSame, Primitive.name_inj] using h
      | _ => simp [words, AccessError.words] at h
    | access e =>
      cases c' with
      | access e' => exact congrArg access (AccessError.words_inj.mp h)
      | _ => simp [words, AccessError.words] at h
    | negativeArraySize size =>
      cases c' with
      | negativeArraySize size' => simpa [words, SaysSame, Long.text_inj] using h
      | _ => simp [words, AccessError.words] at h
    | arraySizeTooLarge size max =>
      cases c' with
      | arraySizeTooLarge size' max' =>
        simpa [words, SaysSame, Long.text_inj, Decimal.natText_inj] using h
      | _ => simp [words, AccessError.words] at h
    | allocationFailed length =>
      cases c' with
      | allocationFailed length' => simpa [words, SaysSame, Decimal.natText_inj] using h
      | _ => simp [words, AccessError.words] at h
    | indexOutOfBounds index length =>
      cases c' with
      | indexOutOfBounds index' length' =>
        simpa [words, SaysSame, Long.text_inj, Decimal.natText_inj] using h
      | _ => simp [words, AccessError.words] at h
    | arithmeticOverflow op =>
      cases c' with
      | arithmeticOverflow op' => simpa [words, SaysSame] using h
      | _ => simp [words, AccessError.words] at h
    | divisionByZero =>
      cases c' with
      | divisionByZero => rfl
      | _ => simp [words, AccessError.words] at h
    | unsupportedOperands op left right =>
      cases c' with
      | unsupportedOperands op' left' right' => simpa [words, SaysSame] using h
      | _ => simp [words, AccessError.words] at h
  · intro h
    unfold SaysSame at h
    split at h
    · simp only [words, h.1, h.2]
    · rw [h]

theorem words_ne_nil (c : Cause) : c.words ≠ [] := by
  cases c <;> simp [words, AccessError.words]

end Cause

/-! ## Labels -/

namespace NodeLabel

/-- A name that is a word without parentheses. -/
def IsPlain (name : String) : Prop := Text.IsWord name ∧ '(' ∉ name.toList

instance (name : String) : Decidable (IsPlain name) := inferInstanceAs (Decidable (_ ∧ _))

theorem isWord_text {l : NodeLabel} (h : IsPlain l.name) : Text.IsWord l.text := by
  unfold text
  split
  · exact h.1
  · simp +decide [h.1]

/-- A label can be told from its text: a parenthesis ends the name. -/
theorem text_inj {l l' : NodeLabel} (h : IsPlain l.name) (h' : IsPlain l'.name) :
    l.text = l'.text ↔ l = l' := by
  constructor
  · intro htext
    have hlist := congrArg String.toList htext
    obtain ⟨name, slot⟩ := l
    obtain ⟨name', slot'⟩ := l'
    cases slot with
    | none =>
      cases slot' with
      | none => exact congrArg (NodeLabel.mk · none) htext
      | some t =>
        refine absurd ?_ h.2
        simp only [text] at hlist
        simp [hlist]
    | some s =>
      cases slot' with
      | none =>
        refine absurd ?_ h'.2
        simp only [text] at hlist
        simp [← hlist]
      | some t =>
        replace hlist : name.toList ++ '(' :: (s.text ++ ")").toList =
            name'.toList ++ '(' :: (t.text ++ ")").toList := by
          simpa [text] using hlist
        have hsplit := congrArg (List.splitOn '(') hlist
        rw [List.splitOn_append_cons_self_of_not_mem h.2,
          List.splitOn_append_cons_self_of_not_mem h'.2, List.cons.injEq,
          String.toList_inj] at hsplit
        obtain ⟨rfl, -⟩ := hsplit
        rw [List.append_cancel_left_eq, List.cons.injEq, String.toList_inj,
          String.append_left_inj, SlotId.text_inj] at hlist
        rw [hlist.2]
  · rintro rfl
    rfl

end NodeLabel

/-- The names of nodes are plain. -/
theorem Node.isPlain_name (n : Node) : NodeLabel.IsPlain n.label.name := by
  have hname : n.label.name ∈ ["LongLiteral", "DoubleLiteral", "BooleanLiteral", "ReadLocal",
      "ArrayLength", "ReadArrayElement", "Binary", "WriteLocal", "CreateLocalLongArray",
      "WriteArrayElement", "Block"] := by
    cases n with
    | stmt c => cases c <;> simp [label, Stmt.label]
    | expr e =>
      cases e with
      | literal c =>
        obtain ⟨p, x⟩ := c
        cases p <;> simp [label, Expr.label, Literal.label]
      | _ => simp [label, Expr.label]
  revert hname
  generalize n.label.name = name
  revert name
  decide

/-! ## Faults -/

namespace Fault

/-- The words of a fault: the label of the node with a colon behind it, then the cause. -/
def words (r : Fault) : List String := (r.node.text ++ ":") :: r.cause.words

/-- A fault whose label is plain and whose cause is said in words without blanks. -/
structure IsLegible (r : Fault) : Prop where
  name : NodeLabel.IsPlain r.node.name
  cause : ∀ w ∈ r.cause.words, Text.IsWord w

theorem message_eq (r : Fault) : r.message = Text.sentence r.words := by
  rw [message, r.cause.message_eq, Text.sentence, Text.sentence, words,
    String.intercalate_cons_of_ne_nil r.cause.words_ne_nil]
  simp [String.append_assoc]

/-- A legible fault can be told from its message, up to the value of a mismatch. -/
theorem message_eq_iff {r r' : Fault} (h : r.IsLegible) (h' : r'.IsLegible) :
    r.message = r'.message ↔ r.node = r'.node ∧ r.cause.SaysSame r'.cause := by
  have hwords : ∀ {r : Fault}, r.IsLegible → ∀ w ∈ r.words, Text.IsWord w := by
    intro r hr w hw
    rcases List.mem_cons.mp hw with rfl | hw
    · exact Text.isWord_append.mpr ⟨NodeLabel.isWord_text hr.name, by decide⟩
    · exact hr.cause w hw
  rw [message_eq, message_eq, Text.sentence_inj (hwords h) (hwords h') (List.cons_ne_nil _ _)
    (List.cons_ne_nil _ _), words, words, List.cons.injEq, String.append_left_inj,
    NodeLabel.text_inj h.name h'.name, Cause.words_eq_iff]

end Fault

/-! ## Faults of executions -/

section Execution
variable {mem : Allocator} {f : Frame}

theorem AccessError.isWord_of_read {s : SlotId} {err : AccessError} (h : f.read s = .error err) :
    ∀ w ∈ (Cause.access err).words, Text.IsWord w := by
  rcases Frame.read_eq_error h with ⟨rfl, -⟩ | ⟨rfl, -⟩ <;>
    simp +decide [Cause.words, words, slot, reason]

/-- What varies in the cause of a fault has no blanks in it. -/
theorem Node.Raises.isWord {n : Node} {c : Cause} (h : n.Raises mem f c) :
    ∀ w ∈ c.words, Text.IsWord w := by
  cases h with
  | operand used value other => simp +decide [Cause.words]
  | array used refused =>
    rcases Frame.array_eq_error refused with hread | ⟨v, -, -, rfl⟩
    · exact AccessError.isWord_of_read hread
    · simp +decide [Cause.words, AccessError.words, AccessError.slot, AccessError.reason]
  | bounds used held index value outside => simp +decide [Cause.words]
  | read refused => exact AccessError.isWord_of_read refused
  | operator left right refused =>
    rcases Operator.apply_eq_error refused with rfl | rfl | rfl
    · simp +decide [Cause.words]
    · decide
    · simp +decide [Operator.unsupported, Cause.words]
  | written used missing =>
    simp +decide [Cause.words, AccessError.words, AccessError.slot, AccessError.reason]
  | size value refused =>
    rcases LongArray.lengthOfSize_eq_error refused with ⟨rfl, -⟩ | ⟨rfl, -⟩
    · simp +decide [Cause.words]
    · simp +decide [Cause.words]
  | memory value length short => simp +decide [Cause.words]

theorem Stmt.fault_legible {c : Stmt} {r : Fault} (h : (c.exec mem f).result = .error r) :
    r.IsLegible := by
  obtain ⟨n, -, hlabel, hraises⟩ := fault_originates h
  exact ⟨hlabel ▸ n.isPlain_name, hraises.isWord⟩

end Execution

/-- **A message identifies its fault.** Two faults of executions, of any statements on any
frames, have the same message exactly when they name the same node and their causes are equal,
but for the values of mismatches, of which only the type is told. -/
theorem message_identifies_fault (mem mem' : Allocator) (c c' : Stmt) (f f' : Frame)
    {r r' : Fault} (h : (c.exec mem f).result = .error r)
    (h' : (c'.exec mem' f').result = .error r') :
    r.message = r'.message ↔ r.node = r'.node ∧ r.cause.SaysSame r'.cause :=
  Fault.message_eq_iff (Stmt.fault_legible h) (Stmt.fault_legible h')

/-- The two booleans are refused as a size with the same message, though the causes differ. A
size of minus three is refused with another one. -/
theorem messages_of_refused_sizes :
    let a : SlotId := ⟨0⟩
    let f : Frame := ⟨[⟨.illegal, none⟩]⟩
    let node : NodeLabel := ⟨"CreateLocalLongArray", some a⟩
    let yes : Fault := ⟨node, .mismatch ⟨.long, .boolean true⟩⟩
    let no : Fault := ⟨node, .mismatch ⟨.long, .boolean false⟩⟩
    let negative : Fault := ⟨node, .negativeArraySize (-3)⟩
    (Stmt.exec .unlimited f (.create a (.literal (.boolean true)))).result = .error yes ∧
      (Stmt.exec .unlimited f (.create a (.literal (.boolean false)))).result = .error no ∧
      (Stmt.exec .unlimited f (.create a (.literal (.long (-3))))).result = .error negative ∧
      yes.cause ≠ no.cause ∧ yes.message = no.message ∧ yes.message ≠ negative.message := by
  intro a f node yes no negative
  have hyes : (Stmt.exec .unlimited f (.create a (.literal (.boolean true)))).result = .error yes :=
    rfl
  have hno : (Stmt.exec .unlimited f (.create a (.literal (.boolean false)))).result = .error no :=
    rfl
  have hnegative :
      (Stmt.exec .unlimited f (.create a (.literal (.long (-3))))).result = .error negative := rfl
  have hsame := (message_identifies_fault _ _ _ _ _ _ hyes hno).mpr ⟨rfl, rfl, rfl⟩
  refine ⟨hyes, hno, hnegative, fun h => ?_, hsame, fun h => ?_⟩
  · cases h
  · obtain ⟨-, hcause⟩ := (message_identifies_fault _ _ _ _ _ _ hyes hnegative).mp h
    cases hcause

end TaggedSlots
