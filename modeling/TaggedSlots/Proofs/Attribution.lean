import TaggedSlots.Proofs.Flattening

/-! # Every fault names its culprit

A fault consists of the label of a node and a cause. Faults and mismatches travel a
long way up the tree, through typed and generic evaluations, and a mismatch becomes a
fault of whichever node first has no use for it. Still the label is that of a node in
the program, and that node really has the cause on the frame that the execution
leaves behind (`fault_names_culprit`).

`Node.Raises` says which causes a node has on a frame: eight rules, each with what
must be the case for it. Evaluations and executions fail by these rules only
(`Expr.fault_originates`, `Stmt.step_fault_originates`). What a cause says about the
node and the frame is read off the rules: `Cause.raisers` lists the nodes that can
have a cause, and `Cause.HoldsAt` is what it says about the slot of the node. That a
read meets a slot of another kind, or that a slot would have to be narrowed, is never
the cause of a fault.
-/
namespace TaggedSlots

/-! ## Nodes -/

/-- What a node does, whatever stands below it. -/
inductive Role where
  | literal
  | read
  | length
  | element
  | binary
  | assign
  | create
  | store
  | block
deriving DecidableEq

/-- A node of a program, with everything below it. -/
inductive Node where
  | expr (e : Expr)
  | stmt (c : Stmt)

namespace Node

/-- How a node is referred to. -/
def label : Node → NodeLabel
  | .expr e => e.label
  | .stmt c => c.label

/-- The role of a node. -/
def role : Node → Role
  | .expr (.literal _) => .literal
  | .expr (.read _) => .read
  | .expr (.length _) => .length
  | .expr (.element ..) => .element
  | .expr (.binary ..) => .binary
  | .stmt (.assign ..) => .assign
  | .stmt (.create ..) => .create
  | .stmt (.store ..) => .store
  | .stmt (.block _) => .block

/-- The operands of which a node can only use longs. -/
def longOperands : Node → List Expr
  | .expr (.element _ i) => [i]
  | .stmt (.create _ e) => [e]
  | .stmt (.store _ i v) => [i, v]
  | _ => []

/-- The slot whose array a node works on. -/
def arraySlot? : Node → Option SlotId
  | .expr (.length s) | .expr (.element s _) | .stmt (.store s _ _) => some s
  | _ => none

/-- The index at which a node accesses its array. -/
def index? : Node → Option Expr
  | .expr (.element _ i) | .stmt (.store _ i _) => some i
  | _ => none

/-- The slot in which a node puts a new value. -/
def writtenSlot? : Node → Option SlotId
  | .stmt (.assign s _) | .stmt (.create s _) => some s
  | _ => none

end Node

/-- The nodes of an expression, each before those below it. -/
def Expr.nodes : Expr → List Node
  | .literal c => [.expr (.literal c)]
  | .read s => [.expr (.read s)]
  | .length s => [.expr (.length s)]
  | .element s i => .expr (.element s i) :: i.nodes
  | .binary op l r => .expr (.binary op l r) :: (l.nodes ++ r.nodes)

namespace Stmt

mutual

/-- The nodes of a statement, expressions included, each before those below it. -/
def nodes : Stmt → List Node
  | .assign s e => .stmt (.assign s e) :: e.nodes
  | .create s e => .stmt (.create s e) :: e.nodes
  | .store s i v => .stmt (.store s i v) :: (i.nodes ++ v.nodes)
  | .block body => .stmt (.block body) :: nodesAll body

/-- The nodes of a list of statements. -/
def nodesAll : List Stmt → List Node
  | [] => []
  | c :: rest => c.nodes ++ nodesAll rest

end

mutual

/-- The nodes of a step of a statement are nodes of the statement. -/
theorem mem_nodes_of_mem_steps :
    ∀ (c : Stmt) {d : Stmt} {n : Node}, d ∈ c.steps → n ∈ d.nodes → n ∈ c.nodes
  | .assign s e, d, n, hd, hn => by
    rw [steps, List.mem_singleton] at hd
    exact hd ▸ hn
  | .create s e, d, n, hd, hn => by
    rw [steps, List.mem_singleton] at hd
    exact hd ▸ hn
  | .store s i v, d, n, hd, hn => by
    rw [steps, List.mem_singleton] at hd
    exact hd ▸ hn
  | .block body, d, n, hd, hn => by
    rw [steps_block] at hd
    rw [nodes]
    exact List.mem_cons_of_mem _ (mem_nodesAll_of_mem_stepsAll body hd hn)

theorem mem_nodesAll_of_mem_stepsAll :
    ∀ (body : List Stmt) {d : Stmt} {n : Node}, d ∈ stepsAll body → n ∈ d.nodes → n ∈ nodesAll body
  | [], d, n, hd, hn => by
    rw [stepsAll] at hd
    cases hd
  | c :: rest, d, n, hd, hn => by
    rw [stepsAll, List.mem_append] at hd
    rw [nodesAll, List.mem_append]
    rcases hd with hd | hd
    · exact .inl (mem_nodes_of_mem_steps c hd hn)
    · exact .inr (mem_nodesAll_of_mem_stepsAll rest hd hn)

end

end Stmt

/-! ## What a node raises -/

/-- The causes that a node has on a frame, if its operands have values there. -/
inductive Node.Raises (mem : Allocator) (f : Frame) : Node → Cause → Prop where
  /-- An operand that has to be a long is something else. -/
  | operand {n : Node} {e : Expr} {v : Value} (used : e ∈ n.longOperands)
    (value : e.eval f = .ok v) (other : ∀ k, v ≠ .long k) :
    Raises mem f n (.mismatch ⟨.long, v⟩)
  /-- There is no array in the slot that should have one. -/
  | array {n : Node} {s : SlotId} {err : AccessError} (used : n.arraySlot? = some s)
    (refused : f.array s = .error err) : Raises mem f n (.access err)
  /-- The array has no such position. -/
  | bounds {n : Node} {s : SlotId} {a : LongArray} {i : Expr} {k : Int64}
    (used : n.arraySlot? = some s) (held : f.array s = .ok a) (index : n.index? = some i)
    (value : i.eval f = .ok (.long k)) (outside : k.toInt < 0 ∨ (a.length : Int) ≤ k.toInt) :
    Raises mem f n (.indexOutOfBounds k a.length)
  /-- The slot has no value, or does not exist. -/
  | read {s : SlotId} {err : AccessError} (refused : f.read s = .error err) :
    Raises mem f (.expr (.read s)) (.access err)
  /-- The operator has no result for its operands. -/
  | operator {op : Operator} {l r : Expr} {v w : Value} {c : Cause} (left : l.eval f = .ok v)
    (right : r.eval f = .ok w) (refused : op.apply v w = .error c) :
    Raises mem f (.expr (.binary op l r)) c
  /-- The slot for a new value does not exist. -/
  | written {n : Node} {s : SlotId} (used : n.writtenSlot? = some s) (missing : f.slot? s = none) :
    Raises mem f n (.access (.invalidSlot s))
  /-- No array has that size. -/
  | size {s : SlotId} {e : Expr} {k : Int64} {c : Cause} (value : e.eval f = .ok (.long k))
    (refused : LongArray.lengthOfSize k = .error c) : Raises mem f (.stmt (.create s e)) c
  /-- There is no memory for an array of that size. -/
  | memory {s : SlotId} {e : Expr} {k : Int64} {len : Nat} (value : e.eval f = .ok (.long k))
    (length : LongArray.lengthOfSize k = .ok len) (short : mem len = false) :
    Raises mem f (.stmt (.create s e)) (.allocationFailed len)

/-- A fault originates in some nodes: it has the label of one of them, and a cause that
this node raises. -/
def Fault.OriginatesIn (mem : Allocator) (f : Frame) (ns : List Node) (r : Fault) : Prop :=
  ∃ n ∈ ns, n.label = r.node ∧ n.Raises mem f r.cause

section Origins
variable {mem : Allocator} {f : Frame} {ns ms : List Node} {n : Node}

theorem Node.Raises.originates {c : Cause} (h : n.Raises mem f c) (hn : n ∈ ns) :
    Fault.OriginatesIn mem f ns ⟨n.label, c⟩ := ⟨n, hn, rfl, h⟩

theorem Fault.OriginatesIn.mono {r : Fault} (h : r.OriginatesIn mem f ns) (hsub : ns ⊆ ms) :
    r.OriginatesIn mem f ms := by
  obtain ⟨n, hn, hlabel, hraises⟩ := h
  exact ⟨n, hsub hn, hlabel, hraises⟩

/-- Where an operand has to be a long and is not, the fault originates in the operand if
that has no value, and in the node itself if it has a value of another type. -/
theorem Node.operand_fault_originates {e : Expr} {err : EvalError} (hn : n ∈ ns)
    (hused : e ∈ n.longOperands) (hvalue : ∀ r, e.eval f = .error r → r.OriginatesIn mem f ns)
    (h : e.evalAs .long f = .error err) : (err.toFault n.label).OriginatesIn mem f ns := by
  rw [Expr.evalAs_eq_expect] at h
  cases err with
  | fault r => exact hvalue r (Expr.expect_eq_fault_iff.mp h)
  | mismatch m =>
    obtain ⟨q, v⟩ := m
    obtain ⟨rfl, hv, hother⟩ := Expr.expect_eq_mismatch_iff.mp h
    exact (Node.Raises.operand hused hv hother).originates hn

end Origins

/-- An operand has been found to be a long only if that is its value. -/
theorem Expr.eval_of_evalAs_long {f : Frame} {e : Expr} {k : Int64}
    (h : e.evalAs .long f = .ok k) : e.eval f = .ok (.long k) := by
  rw [evalAs_eq_expect] at h
  exact expect_eq_ok_iff.mp h

/-! ## Expressions -/

/-- Making a value of a long adds no fault. -/
theorem Expr.error_of_map_long {x : Except Fault Int64} {r : Fault}
    (h : x.map Value.long = .error r) : x = .error r := by
  cases x with
  | error r' => exact congrArg _ (Except.error.inj h)
  | ok k => cases h

/-- An element cannot be read where there is no array or no such position. -/
theorem Frame.elementAt_eq_error {f : Frame} {node : NodeLabel} {s : SlotId} {k : Int64}
    {r : Fault} (h : f.elementAt node s k = .error r) :
    (∃ err, f.array s = .error err ∧ r = ⟨node, .access err⟩) ∨
      ∃ a, f.array s = .ok a ∧ (k.toInt < 0 ∨ (a.length : Int) ≤ k.toInt) ∧
        r = ⟨node, .indexOutOfBounds k a.length⟩ := by
  unfold elementAt at h
  cases ha : f.array s with
  | error err =>
    simp only [ha, Except.error.injEq] at h
    exact .inl ⟨err, rfl, h.symm⟩
  | ok a =>
    cases hk : (Long.toIndex? k).bind a.get? with
    | some m => simp [ha, hk] at h
    | none =>
      simp only [ha, hk, Except.error.injEq] at h
      have hout := (Long.bind_toIndex?_eq_none_iff fun _ => LongArray.get?_eq_none_iff).mp hk
      exact .inr ⟨a, rfl, hout, h.symm⟩

/-- An operator has no value where an operand has none, or where it has no result for
the operands. -/
theorem Expr.combine_eq_error {op : Operator} {node : NodeLabel} {x y : Except Fault Value}
    {r : Fault} (h : combine op node x y = .error r) :
    x = .error r ∨ (∃ v, x = .ok v ∧ y = .error r) ∨
      ∃ v w c, x = .ok v ∧ y = .ok w ∧ op.apply v w = .error c ∧ r = ⟨node, c⟩ := by
  cases x with
  | error r' => exact .inl h
  | ok v =>
    cases y with
    | error r' => exact .inr (.inl ⟨v, rfl, h⟩)
    | ok w =>
      cases hu : op.apply v w with
      | ok u => simp [combine, hu] at h
      | error c =>
        simp only [combine, hu, Except.error.injEq] at h
        exact .inr (.inr ⟨v, w, c, rfl, rfl, hu, h.symm⟩)

/-- **Evaluation fails by the rules**: a fault of an expression originates in one of its
nodes. -/
theorem Expr.fault_originates (mem : Allocator) {f : Frame} {e : Expr} {r : Fault}
    (h : e.eval f = .error r) : r.OriginatesIn mem f e.nodes := by
  induction e generalizing r with
  | literal c => cases h
  | read s =>
    rw [eval, Frame.readLocal] at h
    cases hs : f.read s with
    | ok v => simp [hs] at h
    | error err =>
      simp only [hs, Except.error.injEq] at h
      subst h
      exact (Node.Raises.read hs).originates List.mem_cons_self
  | length s =>
    rw [eval] at h
    have hlen := error_of_map_long h
    unfold Frame.arrayLength at hlen
    cases hs : f.array s with
    | ok a => simp [hs] at hlen
    | error err =>
      simp only [hs, Except.error.injEq] at hlen
      subst hlen
      exact (Node.Raises.array rfl hs).originates List.mem_cons_self
  | element s i ih =>
    have hself : Node.expr (.element s i) ∈ (Expr.element s i).nodes := List.mem_cons_self
    have hindex : ∀ r, i.eval f = .error r → r.OriginatesIn mem f (Expr.element s i).nodes :=
      fun r hr => (ih hr).mono (List.subset_cons_self _ _)
    rw [eval, show i.evalLong f = i.evalAs .long f from rfl] at h
    have hread := error_of_map_long h
    cases hi : i.evalAs .long f with
    | error err =>
      -- A fault of the index stays with its node; a mismatch becomes a fault of this one.
      rw [hi, elementOf, Except.error.injEq] at hread
      subst hread
      exact Node.operand_fault_originates hself List.mem_cons_self hindex hi
    | ok k =>
      have hk := eval_of_evalAs_long hi
      rw [hi, elementOf] at hread
      rcases Frame.elementAt_eq_error hread with ⟨err, ha, rfl⟩ | ⟨a, ha, hout, rfl⟩
      · exact (Node.Raises.array rfl ha).originates hself
      · exact (Node.Raises.bounds rfl ha rfl hk hout).originates hself
  | binary op left right ihl ihr =>
    rw [eval] at h
    rcases combine_eq_error h with hl | ⟨v, -, hr⟩ | ⟨v, w, c, hl, hr, hu, rfl⟩
    · exact (ihl hl).mono fun n hn => List.mem_cons_of_mem _ (List.mem_append_left _ hn)
    · exact (ihr hr).mono fun n hn => List.mem_cons_of_mem _ (List.mem_append_right _ hn)
    · exact (Node.Raises.operator hl hr hu).originates List.mem_cons_self

/-! ## Statements -/

namespace Stmt
variable {mem : Allocator} {f : Frame} {s : SlotId}

/-- An array cannot be provided where its size is no long or no size, or where there is
no memory for it. -/
theorem createdArray_eq_error {e : Expr} {r : Fault} (h : createdArray mem f s e = .error r) :
    (∃ err, e.evalAs .long f = .error err ∧ r = err.toFault (Stmt.create s e).label) ∨
    (∃ k c, e.evalAs .long f = .ok k ∧ LongArray.lengthOfSize k = .error c ∧
      r = ⟨(Stmt.create s e).label, c⟩) ∨
    ∃ k len, e.evalAs .long f = .ok k ∧ LongArray.lengthOfSize k = .ok len ∧ mem len = false ∧
      r = ⟨(Stmt.create s e).label, .allocationFailed len⟩ := by
  unfold createdArray at h
  cases he : e.evalAs .long f with
  | error err =>
    simp only [he, Except.error.injEq] at h
    exact .inl ⟨err, rfl, h.symm⟩
  | ok k =>
    cases hn : LongArray.lengthOfSize k with
    | error c =>
      simp only [he, hn, Except.error.injEq] at h
      exact .inr (.inl ⟨k, c, rfl, hn, h.symm⟩)
    | ok len =>
      cases hm : mem len with
      | true => simp [he, hn, Allocator.zeroed?, hm] at h
      | false =>
        simp only [he, hn, Allocator.zeroed?, hm, Bool.false_eq_true, if_false,
          Except.error.injEq] at h
        exact .inr (.inr ⟨k, len, rfl, hn, hm, h.symm⟩)

/-- An element cannot be stored where the index or the value is no long, where there is no
array, or where the array has no such position. -/
theorem storedArray_eq_error {i v : Expr} {r : Fault} (h : storedArray f s i v = .error r) :
    (∃ e ∈ [i, v], ∃ err, e.evalAs .long f = .error err ∧
      r = err.toFault (Stmt.store s i v).label) ∨
    (∃ err, f.array s = .error err ∧ r = ⟨(Stmt.store s i v).label, .access err⟩) ∨
    ∃ k a, i.evalAs .long f = .ok k ∧ f.array s = .ok a ∧
      (k.toInt < 0 ∨ (a.length : Int) ≤ k.toInt) ∧
      r = ⟨(Stmt.store s i v).label, .indexOutOfBounds k a.length⟩ := by
  unfold storedArray at h
  cases hi : i.evalAs .long f with
  | error err =>
    simp only [hi, Except.error.injEq] at h
    exact .inl ⟨i, by simp, err, hi, h.symm⟩
  | ok k =>
    cases hv : v.evalAs .long f with
    | error err =>
      simp only [hi, hv, Except.error.injEq] at h
      exact .inl ⟨v, by simp, err, hv, h.symm⟩
    | ok m =>
      cases ha : f.array s with
      | error err =>
        simp only [hi, hv, ha, Except.error.injEq] at h
        exact .inr (.inl ⟨err, rfl, h.symm⟩)
      | ok a =>
        cases hb : (Long.toIndex? k).bind fun j => a.set? j m with
        | some b => simp [hi, hv, ha, hb] at h
        | none =>
          simp only [hi, hv, ha, hb, Except.error.injEq] at h
          have hout := (Long.bind_toIndex?_eq_none_iff fun _ => LongArray.set?_eq_none_iff).mp hb
          exact .inr (.inr ⟨k, a, rfl, rfl, hout, h.symm⟩)

theorem createdArray_fault_originates {e : Expr} {r : Fault}
    (h : createdArray mem f s e = .error r) : r.OriginatesIn mem f (Stmt.create s e).nodes := by
  have hself : Node.stmt (.create s e) ∈ (Stmt.create s e).nodes := by simp [nodes]
  have hsize : ∀ r, e.eval f = .error r → r.OriginatesIn mem f (Stmt.create s e).nodes :=
    fun r hr => (Expr.fault_originates mem hr).mono (by simp [nodes])
  rcases createdArray_eq_error h with
    ⟨err, he, rfl⟩ | ⟨k, c, he, hn, rfl⟩ | ⟨k, len, he, hn, hm, rfl⟩
  · exact Node.operand_fault_originates hself List.mem_cons_self hsize he
  · exact (Node.Raises.size (Expr.eval_of_evalAs_long he) hn).originates hself
  · exact (Node.Raises.memory (Expr.eval_of_evalAs_long he) hn hm).originates hself

theorem storedArray_fault_originates {i v : Expr} {r : Fault}
    (h : storedArray f s i v = .error r) : r.OriginatesIn mem f (Stmt.store s i v).nodes := by
  have hself : Node.stmt (.store s i v) ∈ (Stmt.store s i v).nodes := by simp [nodes]
  rcases storedArray_eq_error h with
    ⟨e, he, err, herr, rfl⟩ | ⟨err, ha, rfl⟩ | ⟨k, a, hi, ha, hout, rfl⟩
  · refine Node.operand_fault_originates hself he (fun r hr => ?_) herr
    have hsub : e.nodes ⊆ (Stmt.store s i v).nodes := by
      simp only [List.mem_cons, List.not_mem_nil, or_false] at he
      rcases he with rfl | rfl <;> simp [nodes]
    exact (Expr.fault_originates mem hr).mono hsub
  · exact (Node.Raises.array rfl ha).originates hself
  · exact (Node.Raises.bounds rfl ha rfl (Expr.eval_of_evalAs_long hi) hout).originates hself

/-- **Execution fails by the rules**: a fault of a single statement originates in one of
its nodes. -/
theorem step_fault_originates {d : Stmt} {r : Fault} (hd : d.target? = some s)
    (h : (d.exec mem f).result = .error r) : r.OriginatesIn mem f d.nodes := by
  rw [← Outcome.result_quiet] at h
  cases d with
  | assign t e =>
    -- By its rule an assignment is never refused for the kind of its slot.
    rw [exec, execAssign_quiet] at h
    cases hs : f.slot? t with
    | none =>
      simp only [hs, Outcome.fail, Except.error.injEq] at h
      subst h
      exact (Node.Raises.written (n := .stmt (.assign t e)) rfl hs).originates (by simp [nodes])
    | some old =>
      cases he : e.eval f with
      | ok v => simp [hs, he, Outcome.done] at h
      | error r' =>
        simp only [hs, he, Outcome.fail, Except.error.injEq] at h
        subst h
        exact (Expr.fault_originates mem he).mono (by simp [nodes])
  | create t e =>
    rw [exec, execCreate_quiet] at h
    cases ha : createdArray mem f t e with
    | error r' =>
      simp only [ha, Outcome.fail, Except.error.injEq] at h
      subst h
      exact createdArray_fault_originates ha
    | ok a =>
      cases hs : f.slot? t with
      | some old => simp [ha, hs, Outcome.done] at h
      | none =>
        simp only [ha, hs, Outcome.fail, Except.error.injEq] at h
        subst h
        exact (Node.Raises.written (n := .stmt (.create t e)) rfl hs).originates (by simp [nodes])
  | store t i v =>
    rw [exec, execStore_quiet] at h
    cases hb : storedArray f t i v with
    | ok b => simp [hb, Outcome.done] at h
    | error r' =>
      simp only [hb, Outcome.fail, Except.error.injEq] at h
      subst h
      exact storedArray_fault_originates hb
  | block body => cases hd

/-- A fault of a statement originates in one of its nodes, on the frame that is left
behind. -/
theorem fault_originates {c : Stmt} {r : Fault} (h : (c.exec mem f).result = .error r) :
    r.OriginatesIn mem (c.exec mem f).frame c.nodes := by
  obtain ⟨d, hd, hfault⟩ := exists_faulting_step h
  obtain ⟨s, hs⟩ := c.target?_of_mem_steps hd
  exact (step_fault_originates hs hfault).mono fun n hn => c.mem_nodes_of_mem_steps hd hn

end Stmt

/-! ## How accesses, sizes and operators are refused -/

/-- A read is refused because the slot does not exist or has no value. -/
theorem Frame.read_eq_error {f : Frame} {s : SlotId} {err : AccessError}
    (h : f.read s = .error err) :
    (err = .invalidSlot s ∧ f.size ≤ s.index) ∨
      (err = .uninitialized s ∧ ∃ k, f.slot? s = some ⟨k, none⟩) := by
  cases hs : f.slot? s with
  | none =>
    simp only [read, hs, Except.error.injEq] at h
    exact .inl ⟨h.symm, slot?_eq_none_iff.mp hs⟩
  | some e =>
    obtain ⟨k, v⟩ := e
    cases v with
    | some v => simp [read, hs] at h
    | none =>
      simp only [read, hs, Except.error.injEq] at h
      exact .inr ⟨h.symm, k, rfl⟩

/-- An array is missing because the slot cannot be read or holds something else. -/
theorem Frame.array_eq_error {f : Frame} {s : SlotId} {err : AccessError}
    (h : f.array s = .error err) :
    f.read s = .error err ∨
      ∃ v, f.read s = .ok v ∧ (∀ a, v ≠ .array a) ∧ err = .notAnArray s v.typeName := by
  unfold array at h
  cases hr : f.read s with
  | error err' =>
    simp only [hr, Except.error.injEq] at h
    exact .inl (congrArg _ h)
  | ok v =>
    cases v with
    | array a => simp [hr, Value.array?] at h
    | _ =>
      simp only [hr, Value.array?, Except.error.injEq] at h
      exact .inr ⟨_, rfl, by simp, h.symm⟩

/-- A size is refused because it is negative or too large. -/
theorem LongArray.lengthOfSize_eq_error {size : Int64} {c : Cause}
    (h : lengthOfSize size = .error c) :
    (c = .negativeArraySize size ∧ size.toInt < 0) ∨
      (c = .arraySizeTooLarge size maxLength ∧ (maxLength : Int) < size.toInt) := by
  unfold lengthOfSize Long.toIndex? at h
  by_cases hneg : size.toInt < 0
  · simp only [hneg, if_true, Except.error.injEq] at h
    exact .inl ⟨h.symm, hneg⟩
  · by_cases hmax : size.toInt.toNat ≤ maxLength
    · simp only [hneg, if_false, hmax, if_true] at h
      cases h
    · simp only [hneg, hmax, if_false, Except.error.injEq] at h
      exact .inr ⟨h.symm, by omega⟩

namespace Operator

theorem fit_eq_error {op : Operator} {i : Int} {c : Cause} (h : op.fit i = .error c) :
    c = .arithmeticOverflow op.name := by
  unfold fit at h
  split at h
  · cases h
  · exact (Except.error.inj h).symm

theorem onLongs_eq_error {op : Operator} {m n : Int64} {c : Cause}
    (h : op.onLongs m n = .error c) : c = .arithmeticOverflow op.name ∨ c = .divisionByZero := by
  cases op with
  | add => exact .inl (fit_eq_error h)
  | sub => exact .inl (fit_eq_error h)
  | mul => exact .inl (fit_eq_error h)
  | div =>
    simp only [onLongs] at h
    split at h
    · exact .inr (Except.error.inj h).symm
    · exact .inl (fit_eq_error h)
  | lt => cases h
  | eq => cases h

/-- An operator has no result because the exact one is no long, because of a division by
zero, or because it is not defined for such operands. -/
theorem apply_eq_error {op : Operator} {v w : Value} {c : Cause} (h : op.apply v w = .error c) :
    c = .arithmeticOverflow op.name ∨ c = .divisionByZero ∨ c = op.unsupported v w := by
  unfold apply at h
  split at h
  · exact (onLongs_eq_error h).imp_right .inl
  · cases h
  · split at h
    · cases h
    · exact .inr (.inr (Except.error.inj h).symm)
  · exact .inr (.inr (Except.error.inj h).symm)

end Operator

/-! ## What a cause says -/

namespace Cause

/-- The nodes that can have a cause, by their roles. -/
def raisers : Cause → List Role
  | .mismatch _ => [.element, .create, .store]
  | .access (.invalidSlot _) => [.read, .length, .element, .assign, .create, .store]
  | .access (.uninitialized _) => [.read, .length, .element, .store]
  | .access (.notAnArray ..) => [.length, .element, .store]
  | .access (.kindMismatch ..) | .access (.narrowing ..) => []
  | .negativeArraySize _ | .arraySizeTooLarge .. | .allocationFailed _ => [.create]
  | .indexOutOfBounds .. => [.element, .store]
  | .arithmeticOverflow _ | .divisionByZero | .unsupportedOperands .. => [.binary]

theorem block_not_mem_raisers (c : Cause) : Role.block ∉ c.raisers := by
  unfold raisers
  split <;> simp

theorem literal_not_mem_raisers (c : Cause) : Role.literal ∉ c.raisers := by
  unfold raisers
  split <;> simp

/-- What a cause says about the numbers in it and about the frame, for a node with the
given slot. -/
def HoldsAt (mem : Allocator) (f : Frame) (slot : Option SlotId) : Cause → Prop
  | .mismatch m => m.expected = .long ∧ ∀ k, m.value ≠ .long k
  | .access (.invalidSlot s) => slot = some s ∧ f.size ≤ s.index
  | .access (.uninitialized s) => slot = some s ∧ ∃ k, f.slot? s = some ⟨k, none⟩
  | .access (.notAnArray s found) =>
    slot = some s ∧ ∃ v, f.read s = .ok v ∧ (∀ a, v ≠ .array a) ∧ v.typeName = found
  | .access (.kindMismatch ..) | .access (.narrowing ..) => False
  | .negativeArraySize size => size.toInt < 0
  | .arraySizeTooLarge size max => max = 2147483647 ∧ (max : Int) < size.toInt
  | .allocationFailed len => len ≤ 2147483647 ∧ mem len = false
  | .indexOutOfBounds index len => (index.toInt < 0 ∨ (len : Int) ≤ index.toInt) ∧
    ∃ s a, slot = some s ∧ f.read s = .ok (.array a) ∧ a.length = len
  | .arithmeticOverflow _ | .divisionByZero | .unsupportedOperands .. => slot = none

end Cause

namespace Node
variable {n : Node}

theorem role_of_longOperand {e : Expr} (h : e ∈ n.longOperands) :
    n.role ∈ [Role.element, .create, .store] := by
  unfold longOperands at h
  split at h <;> simp_all [role]

theorem role_of_index {i : Expr} (h : n.index? = some i) : n.role ∈ [Role.element, .store] := by
  unfold index? at h
  split at h <;> simp_all [role]

theorem role_of_arraySlot {s : SlotId} (h : n.arraySlot? = some s) :
    n.role ∈ [Role.length, .element, .store] ∧ n.label.slot = some s := by
  unfold arraySlot? at h
  split at h <;> simp_all [role, label, Expr.label, Stmt.label]

theorem role_of_writtenSlot {s : SlotId} (h : n.writtenSlot? = some s) :
    n.role ∈ [Role.assign, .create] ∧ n.label.slot = some s := by
  unfold writtenSlot? at h
  split at h <;> simp_all [role, label, Stmt.label]

end Node

section Soundness
variable {mem : Allocator} {f : Frame}

theorem Cause.sound_of_read {s : SlotId} {err : AccessError} {role : Role}
    (hrole : role ∈ [Role.read, .length, .element, .store]) (h : f.read s = .error err) :
    role ∈ (Cause.access err).raisers ∧ (Cause.access err).HoldsAt mem f (some s) := by
  rcases Frame.read_eq_error h with ⟨rfl, hsize⟩ | ⟨rfl, hempty⟩
  · refine ⟨?_, rfl, hsize⟩
    simp only [List.mem_cons, List.not_mem_nil, or_false] at hrole
    rcases hrole with rfl | rfl | rfl | rfl <;> simp [Cause.raisers]
  · exact ⟨hrole, rfl, hempty⟩

/-- **The rules are sound.** A node that raises a cause is one of those that can have it,
and what the cause says is true. -/
theorem Node.Raises.sound {n : Node} {c : Cause} (h : n.Raises mem f c) :
    n.role ∈ c.raisers ∧ c.HoldsAt mem f n.label.slot := by
  cases h with
  | operand used value other => exact ⟨Node.role_of_longOperand used, rfl, other⟩
  | array used refused =>
    obtain ⟨hrole, hslot⟩ := Node.role_of_arraySlot used
    rw [hslot]
    rcases Frame.array_eq_error refused with hread | ⟨v, hread, hother, rfl⟩
    · exact Cause.sound_of_read (List.mem_cons_of_mem _ hrole) hread
    · exact ⟨hrole, rfl, v, hread, hother, rfl⟩
  | bounds used held index value outside =>
    have hread := Frame.read_eq_ok_iff.mpr (Frame.array_eq_ok_iff.mp held)
    exact ⟨Node.role_of_index index, outside, _, _, (Node.role_of_arraySlot used).2, hread, rfl⟩
  | read refused => exact Cause.sound_of_read List.mem_cons_self refused
  | operator left right refused =>
    rcases Operator.apply_eq_error refused with rfl | rfl | rfl
    · exact ⟨List.mem_cons_self, rfl⟩
    · exact ⟨List.mem_cons_self, rfl⟩
    · exact ⟨List.mem_cons_self, rfl⟩
  | written used missing =>
    obtain ⟨hrole, hslot⟩ := Node.role_of_writtenSlot used
    refine ⟨?_, hslot, Frame.slot?_eq_none_iff.mp missing⟩
    simp only [List.mem_cons, List.not_mem_nil, or_false] at hrole
    rcases hrole with hrole | hrole <;> simp [Cause.raisers, hrole]
  | size value refused =>
    rcases LongArray.lengthOfSize_eq_error refused with ⟨rfl, hneg⟩ | ⟨rfl, hmax⟩
    · exact ⟨List.mem_cons_self, hneg⟩
    · exact ⟨List.mem_cons_self, rfl, hmax⟩
  | memory value length short =>
    exact ⟨List.mem_cons_self, (LongArray.lengthOfSize_eq_ok_iff.mp length).2, short⟩

end Soundness

/-- **Every fault names its culprit.** When a statement faults, the fault has the label of
a node of the statement, which is no block and no literal and is one of those that can
have the cause. What the cause says about its numbers and about the node's slot is true
of the frame that is left behind, and so are the reasons by which the node raises it. -/
theorem fault_names_culprit (mem : Allocator) (c : Stmt) (f : Frame) {r : Fault}
    (h : (c.exec mem f).result = .error r) :
    ∃ n ∈ c.nodes, n.label = r.node ∧ n.role ≠ .block ∧ n.role ≠ .literal ∧
      n.role ∈ r.cause.raisers ∧ r.cause.HoldsAt mem (c.exec mem f).frame r.node.slot ∧
      n.Raises mem (c.exec mem f).frame r.cause := by
  obtain ⟨n, hn, hlabel, hraises⟩ := Stmt.fault_originates h
  obtain ⟨hrole, hholds⟩ := hraises.sound
  refine ⟨n, hn, hlabel, fun hb => ?_, fun hl => ?_, hrole, hlabel ▸ hholds, hraises⟩
  · rw [hb] at hrole
    exact r.cause.block_not_mem_raisers hrole
  · rw [hl] at hrole
    exact r.cause.literal_not_mem_raisers hrole

/-- An array of three elements is created in a nested block, and a store behind it takes
its index from position 7 of that array: the culprit is the element that is read, not the
store that asked for it. -/
theorem fault_names_read_inside_index :
    let a : SlotId := ⟨0⟩
    let f : Frame := ⟨[⟨.primitive .boolean, none⟩]⟩
    let c := Stmt.block [.block [.create a (.literal (.long 3))],
      .store a (.element a (.literal (.long 7))) (.literal (.long 1))]
    let r : Fault := ⟨⟨"ReadArrayElement", some a⟩, .indexOutOfBounds 7 3⟩
    (c.exec .unlimited f).result = .error r ∧
      ∃ n ∈ c.nodes, n.label = r.node ∧ n.role ∈ [Role.element, .store] ∧
        ∃ b, (c.exec .unlimited f).frame.read a = .ok (.array b) ∧ b.length = 3 := by
  intro a f c r
  have hresult : (c.exec .unlimited f).result = .error r := rfl
  obtain ⟨n, hn, hlabel, -, -, hrole, ⟨-, s, b, hs, hread, hlen⟩, -⟩ :=
    fault_names_culprit .unlimited c f hresult
  obtain rfl : a = s := Option.some.inj hs
  exact ⟨hresult, n, hn, hlabel, hrole, b, hread, hlen⟩

end TaggedSlots
