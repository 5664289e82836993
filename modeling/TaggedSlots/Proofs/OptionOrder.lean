import Mathlib.Data.List.Nodup
import TaggedSlots.CommandLine.Session
import TaggedSlots.Proofs.Numerals

/-! # Options in any order

A command line gives some of the options, each once, in some order. Each is written as two
arguments or as one (`Setting.arguments`). The request that the scan makes of it depends on
what is given only (`options_in_any_order`), whatever the values look like.

Two arguments leave a value held, and the scan goes on before that value is entered. So the
draft of the scan lags behind the options that were met. The draft once the held value is settled
does not: one option more takes it to the draft with that option put in (`scan_setting`).
-/
namespace TaggedSlots.CommandLine

/-! ## What is given -/

/-- A long and one of its texts. -/
structure WrittenLong where
  value : Int64
  text : String
  spelled : Decimal.Signed text.toList value.toInt

namespace WrittenLong

/-- A long in its usual text. -/
def ofLong (n : Int64) : WrittenLong := ⟨n, Long.text n, Long.signed_text n⟩

theorem readLong_text (n : WrittenLong) (k : Key) : Draft.readLong k n.text = .ok n.value := by
  rw [Draft.readLong, Long.ofText_eq_ok_iff.mpr n.spelled]
  rfl

end WrittenLong

/-- An option and what it is given. -/
inductive Given where
  | size (t : String)
  | initial (t : String)
  | fill (n : WrittenLong)
  | index (n : WrittenLong)

namespace Given

def key : Given → Key
  | .size _ => .size
  | .initial _ => .initial
  | .fill _ => .fill
  | .index _ => .index

/-- The value of an option, as written on the command line. -/
def text : Given → String
  | .size t => t
  | .initial t => t
  | .fill n => n.text
  | .index n => n.text

/-- The options that are given: the size always, each other one if it is there. -/
def all (size : String) (initial : Option String) (fill index : Option WrittenLong) :
    List Given :=
  .size size :: (initial.map .initial).toList ++ (fill.map .fill).toList
    ++ (index.map .index).toList

theorem nodup_keys_all (size : String) (initial : Option String)
    (fill index : Option WrittenLong) : ((all size initial fill index).map key).Nodup := by
  cases initial <;> cases fill <;> cases index <;> simp [all, key]

end Given

/-! ## Drafts -/

namespace Draft

/-- The draft with one option set. -/
def put (d : Draft) : Given → Draft
  | .size t => { d with size := some t }
  | .initial t => { d with initial := some t }
  | .fill n => { d with fill := some n.value }
  | .index n => { d with index := some n.value }

theorem has_put (d : Draft) (g : Given) (k : Key) :
    (d.put g).has k = (decide (g.key = k) || d.has k) := by
  cases g <;> cases k <;> rfl

theorem put_comm (d : Draft) {g g' : Given} (h : g.key ≠ g'.key) :
    (d.put g).put g' = (d.put g').put g := by
  cases g <;> cases g' <;> first | rfl | exact absurd rfl h

/-- An option that was not met yet is entered with what it is given. -/
theorem enter_given {d : Draft} {g : Given} (h : d.has g.key = false) :
    d.enter g.key g.text = .ok (d.put g) := by
  unfold enter
  rw [h, if_neg Bool.false_ne_true]
  cases g with
  | size t => rfl
  | initial t => rfl
  | fill n =>
    change (readLong .fill n.text).map _ = _
    rw [n.readLong_text]
    rfl
  | index n =>
    change (readLong .index n.text).map _ = _
    rw [n.readLong_text]
    rfl

/-- The order in which different options are put in does not matter. -/
theorem foldl_put_perm {gs gs' : List Given} (h : gs.Perm gs') (hkeys : (gs.map Given.key).Nodup)
    (d : Draft) : gs.foldl put d = gs'.foldl put d := by
  apply h.foldl_eq'
  intro g hg g' hg' d'
  by_cases hk : g.key = g'.key
  · rw [List.inj_on_of_nodup_map hkeys hg hg' hk]
  · exact d'.put_comm hk

end Draft

/-! ## Arguments -/

/-- How an option stands on the command line: apart from its value, or joined to it. -/
inductive Form where
  | apart
  | joined

/-- An option as it stands on the command line. -/
structure Setting where
  given : Given
  form : Form

/-- The arguments that make up an option. -/
def Setting.arguments (s : Setting) : List String :=
  match s.form with
  | .apart => ["--" ++ s.given.key.name, s.given.text]
  | .joined => ["--" ++ s.given.key.name ++ "=" ++ s.given.text]

theorem Key.ofName?_name (k : Key) : ofName? k.name = some k := by
  cases k <;> rfl

namespace Argument

theorem classify_apart (k : Key) : classify ("--" ++ k.name) = .option k none := by
  cases k <;> rfl

/-- The first equals sign is the one behind the name: no name has one. -/
theorem splitEquals_name (k : Key) (v : List Char) :
    splitEquals (k.name.toList ++ '=' :: v) = (k.name, some (String.ofList v)) := by
  have hname : ∀ c ∈ k.name.toList, decide (c ≠ '=') = true := by
    rw [← List.all_eq_true]
    cases k <;> rfl
  rw [splitEquals, List.takeWhile_append_of_pos hname, List.dropWhile_append_of_pos hname]
  simp

theorem classify_joined (k : Key) (v : String) :
    classify ("--" ++ k.name ++ "=" ++ v) = .option k (some v) := by
  have hchars : ("--" ++ k.name ++ "=" ++ v).toList
      = '-' :: '-' :: (k.name.toList ++ '=' :: v.toList) := by
    simp
  have hlong : ofLong (k.name.toList ++ '=' :: v.toList) = .option k (some v) := by
    simp [ofLong, splitEquals_name, Key.ofName?_name]
  rw [← hlong]
  unfold classify
  rw [hchars]
  cases k <;> rfl

end Argument

namespace Request

/-- **One option more.** Where the draft settles to `d'`, the arguments of an option that was
not met yet lead to a draft that settles to `d'` with the option put in. -/
theorem scan_setting {d d' : Draft} {held : Option (Key × String)} (s : Setting)
    (hd : d.settle held = .ok d') (hnew : d'.has s.given.key = false) (rest : List String) :
    ∃ e held', scan d held (s.arguments ++ rest) = scan e held' rest ∧
      e.settle held' = .ok (d'.put s.given) := by
  have henter := Draft.enter_given hnew
  obtain ⟨g, _ | _⟩ := s
  · -- The value is held and not entered yet: it is settled with what follows.
    refine ⟨d', some (g.key, g.text), ?_, henter⟩
    change scan d held (("--" ++ g.key.name) :: g.text :: rest) = _
    rw [scan, Argument.classify_apart]
    simp only [hd]
  · refine ⟨d'.put g, none, ?_, rfl⟩
    change scan d held (("--" ++ g.key.name ++ "=" ++ g.text) :: rest) = _
    rw [scan.eq_def]
    simp only [Argument.classify_joined, hd, Except.bind, henter]

/-- **A whole line.** Different options that were not met yet are all put in, from left to
right. -/
theorem scan_settings {d d' : Draft} {held : Option (Key × String)} (line : List Setting)
    (hd : d.settle held = .ok d') (hnew : ∀ s ∈ line, d'.has s.given.key = false)
    (hkeys : ((line.map Setting.given).map Given.key).Nodup) :
    scan d held (line.flatMap Setting.arguments)
      = ofDraft (.ok ((line.map Setting.given).foldl Draft.put d')) := by
  induction line generalizing d d' held with
  | nil => rw [List.flatMap_nil, scan, hd, List.map_nil, List.foldl_nil]
  | cons s line ih =>
    obtain ⟨hs, hline⟩ := List.nodup_cons.mp hkeys
    obtain ⟨e, held', hscan, he⟩ := scan_setting s hd (hnew s List.mem_cons_self)
      (line.flatMap Setting.arguments)
    have hstill : ∀ s' ∈ line, (d'.put s.given).has s'.given.key = false := by
      intro s' hs'
      have hne : s.given.key ≠ s'.given.key := fun h =>
        hs (h ▸ List.mem_map_of_mem (List.mem_map_of_mem hs'))
      rw [Draft.has_put, hnew s' (List.mem_cons_of_mem s hs'), decide_eq_false hne]
      rfl
    rw [List.flatMap_cons, hscan, ih he hstill hline, List.map_cons, List.foldl_cons]

end Request

/-! ## The request -/

/-- **Options in any order.** A command line that gives each of some options once, in any
order and each in either form, is accepted, and is the request for just these options. So all
such command lines have one report, which has the exit code, the output and the log. -/
theorem options_in_any_order (size : String) (initial : Option String)
    (fill index : Option WrittenLong) (line : List Setting)
    (h : (line.map Setting.given).Perm (Given.all size initial fill index)) :
    let asked : Options :=
      ⟨size, initial, fill.map WrittenLong.value, (index.map WrittenLong.value).getD 0⟩
    Request.ofArguments (line.flatMap Setting.arguments) = .run asked ∧
      ∀ mem, session mem (line.flatMap Setting.arguments) = asked.perform mem := by
  intro asked
  have hkeys : ((line.map Setting.given).map Given.key).Nodup :=
    (h.map Given.key).nodup_iff.mpr (Given.nodup_keys_all size initial fill index)
  have hnew : ∀ s ∈ line, ({} : Draft).has s.given.key = false := by
    intro s _
    cases s.given.key <;> rfl
  have hdraft : (line.map Setting.given).foldl Draft.put {}
      = ⟨some size, initial, fill.map WrittenLong.value, index.map WrittenLong.value⟩ := by
    rw [Draft.foldl_put_perm h hkeys]
    cases initial <;> cases fill <;> cases index <;> rfl
  have hrun : Request.ofArguments (line.flatMap Setting.arguments) = .run asked := by
    rw [Request.ofArguments, Request.scan_settings line rfl hnew hkeys, hdraft]
    rfl
  refine ⟨hrun, fun mem => ?_⟩
  rw [session, hrun]
  rfl

/-- Here the value of one option is the name of the next, and that of the last would end the
options where an option may stand. -/
theorem values_that_look_like_options :
    let args := ["--index=+1", "--fill", "-5", "--initial", "--size", "--size", "--"]
    let asked : Options := ⟨"--", some "--size", some (-5), 1⟩
    Request.ofArguments args = .run asked ∧ ∀ mem, session mem args = asked.perform mem := by
  let index : WrittenLong := ⟨1, "+1", Long.ofText_eq_ok_iff.mp (by decide)⟩
  let fill := WrittenLong.ofLong (-5)
  exact options_in_any_order "--" (some "--size") (some fill) (some index)
    [⟨.index index, .joined⟩, ⟨.fill fill, .apart⟩, ⟨.initial "--size", .apart⟩,
      ⟨.size "--", .apart⟩]
    (List.reverse_perm (Given.all "--" (some "--size") (some fill) (some index)))

end TaggedSlots.CommandLine
