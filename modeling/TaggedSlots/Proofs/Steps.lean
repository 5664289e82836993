import TaggedSlots.Proofs.Effect

/-! # A statement is its steps

Blocks group statements and mean nothing else: executing a statement has the
result and the frame of executing its single statements in a row until one of
them faults (`Stmt.exec_eq_steps`). With that, a fact about results and frames
needs no induction over statement trees of its own: it is proved for single
statements and carried over by one of two lemmas about lists.

* `Stmt.exec_related`: a reflexive and transitive relation between frames that
  every step respects holds between the frames before and after an execution,
  whether it succeeds or faults. Invariants are relations of this kind.
* `Stmt.exec_matches`: if every step has the same result on frames that are
  related, and leaves related frames, then so does the whole statement.
-/
namespace TaggedSlots

/-- Two outcomes match, as far as a relation of frames can tell: they have the
same result, and their frames are related. -/
def Outcome.Matches {ε : Type} (R : Frame → Frame → Prop) (o o' : Outcome ε) : Prop :=
  o.result = o'.result ∧ R o.frame o'.frame

theorem Outcome.Matches.andThen {ε : Type} {R : Frame → Frame → Prop} {o o' : Outcome ε}
    {next next' : Frame → Outcome ε} (h : o.Matches R o')
    (hnext : ∀ f g, R f g → (next f).Matches R (next' g)) :
    (o.andThen next).Matches R (o'.andThen next') := by
  obtain ⟨r, f, log⟩ := o
  obtain ⟨r', f', log'⟩ := o'
  obtain ⟨rfl, hf⟩ : r = r' ∧ R f f' := h
  cases r with
  | error e => exact ⟨rfl, hf⟩
  | ok u => exact hnext f f' hf

namespace Stmt

/-! ## Flattening -/

mutual

/-- Every step of a statement is a single statement, with a slot of its own. -/
theorem target?_of_mem_steps : ∀ (c : Stmt) {d : Stmt}, d ∈ c.steps → ∃ s, d.target? = some s
  | .assign s e, d, h => by
    rw [steps, List.mem_singleton] at h
    exact ⟨s, by rw [h]; rfl⟩
  | .create s e, d, h => by
    rw [steps, List.mem_singleton] at h
    exact ⟨s, by rw [h]; rfl⟩
  | .store s i v, d, h => by
    rw [steps, List.mem_singleton] at h
    exact ⟨s, by rw [h]; rfl⟩
  | .block body, d, h => by
    rw [steps_block] at h
    exact target?_of_mem_stepsAll body h

theorem target?_of_mem_stepsAll :
    ∀ (body : List Stmt) {d : Stmt}, d ∈ stepsAll body → ∃ s, d.target? = some s
  | [], d, h => by
    rw [stepsAll] at h
    cases h
  | c :: rest, d, h => by
    rw [stepsAll, List.mem_append] at h
    rcases h with h | h
    · exact target?_of_mem_steps c h
    · exact target?_of_mem_stepsAll rest h

end

/-- Executing two lists in a row is executing the second after the first. -/
theorem execAll_append (mem : Allocator) (f : Frame) (xs ys : List Stmt) :
    execAll mem f (xs ++ ys) = (execAll mem f xs).andThen fun g => execAll mem g ys := by
  induction xs generalizing f with
  | nil => simp [execAll]
  | cons c rest ih =>
    simp only [List.cons_append, execAll, Outcome.after_andThen, Outcome.andThen_assoc, ih]

/-- Behind a success the rest is executed on the frame that was left. -/
theorem execAll_cons_of_ok {mem : Allocator} {f : Frame} {c : Stmt}
    (h : (c.exec mem f).result = .ok ()) (rest : List Stmt) :
    (execAll mem f (c :: rest)).quiet = (execAll mem (c.exec mem f).frame rest).quiet := by
  simp only [execAll, Outcome.quiet_after, Outcome.andThen, h]
  rfl

/-- Behind a fault nothing is executed any more. -/
theorem execAll_cons_of_error {mem : Allocator} {f : Frame} {c : Stmt} {r : Fault}
    (h : (c.exec mem f).result = .error r) (rest : List Stmt) :
    (execAll mem f (c :: rest)).quiet = .fail r (c.exec mem f).frame := by
  simp only [execAll, Outcome.quiet_after, Outcome.andThen, h]
  exact Outcome.quiet_eq_fail_iff.mpr ⟨h, rfl⟩

theorem execAll_singleton_quiet (mem : Allocator) (f : Frame) (c : Stmt) :
    (execAll mem f [c]).quiet = (c.exec mem f).quiet := by
  simp only [execAll, Outcome.quiet_after]
  rw [show (fun g => Outcome.done g : Frame → Outcome Fault) = Outcome.done from rfl,
    Outcome.andThen_done]

mutual

/-- **Nesting does not matter.** A statement has the result and the frame of its
steps, executed in a row. -/
theorem exec_eq_steps (mem : Allocator) (f : Frame) :
    ∀ c : Stmt, (c.exec mem f).quiet = (execAll mem f c.steps).quiet
  | .assign s e => by rw [steps, execAll_singleton_quiet]
  | .create s e => by rw [steps, execAll_singleton_quiet]
  | .store s i v => by rw [steps, execAll_singleton_quiet]
  | .block body => by rw [exec, steps_block, execAll_eq_steps mem f body]

theorem execAll_eq_steps (mem : Allocator) (f : Frame) :
    ∀ body : List Stmt, (execAll mem f body).quiet = (execAll mem f (stepsAll body)).quiet
  | [] => by rw [stepsAll]
  | c :: rest => by
    -- The announcement of `c` is dropped with the rest of the log.
    rw [stepsAll, execAll_append, execAll, Outcome.quiet_after, Outcome.quiet_andThen,
      Outcome.quiet_andThen, exec_eq_steps mem f c]
    congr 1
    funext g
    exact execAll_eq_steps mem g rest

end

/-! ## From steps to statements -/

section Runs
variable {mem : Allocator} {R : Frame → Frame → Prop}

theorem execAll_related (hrefl : ∀ f, R f f) (htrans : ∀ f g h, R f g → R g h → R f h)
    {ds : List Stmt} (hstep : ∀ d ∈ ds, ∀ f, R f (d.exec mem f).frame) (f : Frame) :
    R f (execAll mem f ds).frame := by
  induction ds generalizing f with
  | nil => exact hrefl f
  | cons d rest ih =>
    have hd := hstep d List.mem_cons_self f
    have hrest := ih fun d' hd' => hstep d' (List.mem_cons_of_mem d hd')
    simp only [execAll, Outcome.after, Outcome.andThen]
    -- Behind a fault nothing happens any more, so the first step is the whole run.
    cases hr : (d.exec mem f).result with
    | error r => exact hd
    | ok u => exact htrans _ _ _ hd (hrest _)

/-- What every step respects, every execution respects. -/
theorem exec_related (hrefl : ∀ f, R f f) (htrans : ∀ f g h, R f g → R g h → R f h) (c : Stmt)
    (hstep : ∀ d ∈ c.steps, ∀ f, R f (d.exec mem f).frame) (f : Frame) :
    R f (c.exec mem f).frame := by
  rw [← Outcome.frame_quiet, exec_eq_steps, Outcome.frame_quiet]
  exact execAll_related hrefl htrans hstep f

theorem execAll_matches {ds : List Stmt}
    (hstep : ∀ d ∈ ds, ∀ f g, R f g → (d.exec mem f).Matches R (d.exec mem g)) {f g : Frame}
    (h : R f g) : (execAll mem f ds).Matches R (execAll mem g ds) := by
  induction ds generalizing f g with
  | nil => exact ⟨rfl, h⟩
  | cons d rest ih =>
    have hrest := fun f' g' => @ih (fun d' hd' => hstep d' (List.mem_cons_of_mem d hd')) f' g'
    exact (hstep d List.mem_cons_self f g h).andThen hrest

/-- Steps that match on related frames make statements that match. -/
theorem exec_matches (c : Stmt)
    (hstep : ∀ d ∈ c.steps, ∀ f g, R f g → (d.exec mem f).Matches R (d.exec mem g)) {f g : Frame}
    (h : R f g) : (c.exec mem f).Matches R (c.exec mem g) := by
  have hsteps := execAll_matches hstep h
  have hf := exec_eq_steps mem f c
  have hg := exec_eq_steps mem g c
  unfold Outcome.Matches at hsteps ⊢
  rw [← Outcome.result_quiet, ← Outcome.result_quiet (c.exec mem g), ← Outcome.frame_quiet,
    ← Outcome.frame_quiet (c.exec mem g), hf, hg]
  exact hsteps

end Runs

end Stmt

end TaggedSlots
