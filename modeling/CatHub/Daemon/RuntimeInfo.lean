/-
# CatHub.Daemon.RuntimeInfo — the file that says where a daemon listens.

Every daemon that is started with the same path publishes its endpoints there, and takes them away when it
exits.  Nothing keeps two of them apart: `announcing` is the machine of any number of processes, cut at every
file operation, each of which may fail, and any process may be stopped anywhere.

`announcement_whole`: a reader of the file finds a whole announcement or none, and none of a process that has
left.  `exit_spares`: what an exit takes away is its own, as long as nobody publishes between its look at the
file and the removal; `exit_takes` is a run where somebody does.
-/
import CatHub.Systems.Execution
import CatHub.Radio.Ts590
import Mathlib.Logic.Function.Basic

namespace CatHub.Daemon

open Systems
open Radio.Ts590 (ascii parseU64)

/-! ## The processes -/

/-- `n` processes that publish at one path: their ids, the text that each of them writes, and the id that is
read back from a text. -/
structure RuntimeTexts (n : Nat) where
  pid : Fin n → Nat
  distinct : Function.Injective pid
  toVec : Fin n → List UInt8
  fromSlice : List UInt8 → Option Nat
  pid_toVec : ∀ i, fromSlice (toVec i) = some (pid i)

theorem RuntimeTexts.toVec_inj {n : Nat} (texts : RuntimeTexts n) {i j : Fin n}
    (same : texts.toVec i = texts.toVec j) : i = j := by
  have read := congrArg texts.fromSlice same
  rw [texts.pid_toVec, texts.pid_toVec] at read
  exact texts.distinct (Option.some.inj read)

/-- The operation that a process is about to do: those of `publish`, and those of the drop of its lease. -/
inductive Publisher where
  | absent
  | write
  | look
  | remove
  | rename
  | published
  | read
  | unlink
  /-- It has found another announcement, or has taken its own away. -/
  | left
  /-- An operation failed, or it was stopped. -/
  | gone
  deriving DecidableEq, Repr

/-- Its temporary file is written. -/
def Publisher.prepared : Publisher → Bool
  | .look | .remove | .rename => true
  | _ => false

/-- What one process sees of the files, and how far it is. -/
structure View where
  phase : Publisher
  file : Option (List UInt8)
  temporary : Option (List UInt8)
  deriving DecidableEq, Repr

/-- The next operation.  A fault makes it fail; a write that fails leaves anything in its target. -/
def View.advance {n : Nat} (texts : RuntimeTexts n) (i : Fin n) (fault : Option (List UInt8)) (d : View) :
    Option View :=
  match d.phase with
  | .absent => some { d with phase := .write }
  | .write =>
      match fault with
      | none => some { d with phase := .look, temporary := some (texts.toVec i) }
      | some torn => some { d with phase := .gone, temporary := some torn }
  | .look => some { d with phase := if fault.isNone && d.file.isSome then .remove else .rename }
  | .remove =>
      if fault.isNone && d.file.isSome then some { d with phase := .rename, file := none }
      else some { d with phase := .gone }
  | .rename =>
      if fault.isNone && d.temporary.isSome then
        some { phase := .published, file := d.temporary, temporary := none }
      else some { d with phase := .gone }
  | .published => some { d with phase := .read }
  | .read =>
      if fault.isNone then
        some { d with phase := if d.file.bind texts.fromSlice = some (texts.pid i) then .unlink else .left }
      else some { d with phase := .gone }
  | .unlink =>
      if fault.isNone then some { d with phase := .left, file := none }
      else some { d with phase := .gone }
  | .left | .gone => none

/-! ## All of them -/

structure Announcements (n : Nat) where
  file : Option (List UInt8) := none
  temporary : Fin n → Option (List UInt8) := fun _ => none
  phase : Fin n → Publisher := fun _ => .absent

namespace Announcements

variable {n : Nat}

def view (s : Announcements n) (i : Fin n) : View := ⟨s.phase i, s.file, s.temporary i⟩

def put (s : Announcements n) (i : Fin n) (d : View) : Announcements n where
  file := d.file
  temporary := Function.update s.temporary i d.temporary
  phase := Function.update s.phase i d.phase

theorem view_put (s : Announcements n) (i : Fin n) (d : View) : (s.put i d).view i = d := by
  simp [view, put]

theorem view_put_ne (s : Announcements n) {i j : Fin n} (apart : j ≠ i) (d : View) :
    (s.put i d).view j = { s.view j with file := d.file } := by
  simp [view, put, Function.update_of_ne apart]

end Announcements

inductive AnnounceInput (n : Nat) where
  | go (i : Fin n) (fault : Option (List UInt8))
  | stop (i : Fin n)
  deriving DecidableEq, Repr

def announcing {n : Nat} (texts : RuntimeTexts n) : Machine (Announcements n) (AnnounceInput n) Unit where
  step s
  | .go i fault => ((s.view i).advance texts i fault).map fun d => (s.put i d, ())
  | .stop i =>
      if s.phase i = .absent then none
      else some (s.put i { s.view i with phase := .gone }, ())

abbrev AnnounceStep (n : Nat) := Transition (Announcements n) (AnnounceInput n) Unit

/-! ## One step -/

section
variable {n : Nat} {texts : RuntimeTexts n} {i : Fin n} {fault : Option (List UInt8)} {d d' : View}

/-- What a process may do to the file: leave it, take it away, or put its own text there. -/
inductive Touches (texts : RuntimeTexts n) (i : Fin n) (d d' : View) : Prop
  | leaves : d'.file = d.file → Touches texts i d d'
  | removes : d.phase = .remove → d'.file = none → Touches texts i d d'
  | unlinks : d.phase = .unlink → d'.file = none → Touches texts i d d'
  | renames : d.phase = .rename → d'.phase = .published → d'.file = some (texts.toVec i) →
      Touches texts i d d'

/-- How far a process is, and what it then knows. -/
structure View.Sound (texts : RuntimeTexts n) (i : Fin n) (d : View) : Prop where
  prepared : d.phase.prepared = true → d.temporary = some (texts.toVec i)
  left : d.phase = .left → d.file ≠ some (texts.toVec i)

/-- What an operation does. -/
structure View.Moves (texts : RuntimeTexts n) (i : Fin n) (d d' : View) : Prop where
  sound : d'.Sound texts i
  touches : Touches texts i d d'
  unlink : d'.phase = .unlink → d'.file = d.file ∧ d.file.bind texts.fromSlice = some (texts.pid i)

/-- Who is gone leaves the files, and knows nothing. -/
theorem moves_gone (ended : d'.phase = .gone) (same : d'.file = d.file) : d.Moves texts i d' where
  sound := by
    constructor
    · intro prepared
      rw [ended] at prepared
      cases prepared
    · intro left
      cases ended.symm.trans left
  touches := .leaves same
  unlink unlinks := by cases ended.symm.trans unlinks

theorem advance_moves (sound : d.Sound texts i) (next : d.advance texts i fault = some d') :
    d.Moves texts i d' := by
  obtain ⟨phase, file, temporary⟩ := d
  cases phase with
  | absent =>
      cases next
      exact ⟨⟨nofun, nofun⟩, .leaves rfl, nofun⟩
  | write =>
      cases fault with
      | none =>
          cases next
          exact ⟨⟨fun _ => rfl, nofun⟩, .leaves rfl, nofun⟩
      | some torn =>
          cases next
          exact moves_gone rfl rfl
  | look =>
      cases next
      split
      · exact ⟨⟨fun _ => sound.prepared rfl, nofun⟩, .leaves rfl, nofun⟩
      · exact ⟨⟨fun _ => sound.prepared rfl, nofun⟩, .leaves rfl, nofun⟩
  | remove =>
      unfold View.advance at next
      dsimp only at next
      split at next
      · cases next
        exact ⟨⟨fun _ => sound.prepared rfl, nofun⟩, .removes rfl rfl, nofun⟩
      · cases next
        exact moves_gone rfl rfl
  | rename =>
      unfold View.advance at next
      dsimp only at next
      split at next
      · cases next
        exact ⟨⟨nofun, nofun⟩, .renames rfl rfl (sound.prepared rfl), nofun⟩
      · cases next
        exact moves_gone rfl rfl
  | published =>
      cases next
      exact ⟨⟨nofun, nofun⟩, .leaves rfl, nofun⟩
  | read =>
      unfold View.advance at next
      dsimp only at next
      split at next
      · cases next
        -- It leaves the file when the id in there is another one; its own text has its own id.
        by_cases own : file.bind texts.fromSlice = some (texts.pid i)
        · rw [if_pos own]
          exact ⟨⟨nofun, nofun⟩, .leaves rfl, fun _ => ⟨rfl, own⟩⟩
        · rw [if_neg own]
          refine ⟨⟨nofun, fun _ same => own ?_⟩, .leaves rfl, nofun⟩
          obtain rfl : file = some (texts.toVec i) := same
          exact texts.pid_toVec i
      · cases next
        exact moves_gone rfl rfl
  | unlink =>
      unfold View.advance at next
      dsimp only at next
      split at next
      · cases next
        exact ⟨⟨nofun, nofun⟩, .unlinks rfl rfl, nofun⟩
      · cases next
        exact moves_gone rfl rfl
  | left | gone => cases next

variable {s t : Announcements n} {input : AnnounceInput n} {o : Unit} {history : List (AnnounceStep n)}

/-- A step is an operation of one process; only its own operation renames. -/
theorem step_moves (each : ∀ i, (s.view i).Sound texts i)
    (step : (announcing texts).step s input = some (t, o)) :
    ∃ i d, t = s.put i d ∧ (s.view i).Moves texts i d ∧
      (d.phase = .published → ∃ fault, input = .go i fault) := by
  cases input with
  | go i fault =>
      obtain ⟨d, next, same⟩ := Option.map_eq_some_iff.mp step
      exact ⟨i, d, (congrArg Prod.fst same).symm, advance_moves (each i) next, fun _ => ⟨fault, rfl⟩⟩
  | stop i =>
      simp only [announcing] at step
      split at step
      · cases step
      · cases step
        exact ⟨i, _, rfl, moves_gone rfl rfl, nofun⟩

/-! ## Every interleaving -/

/-- How far everybody is, and whose the file is. -/
structure Announcements.Sound (texts : RuntimeTexts n) (history : List (AnnounceStep n))
    (s : Announcements n) : Prop where
  each : ∀ i, (s.view i).Sound texts i
  whole : ∀ text, s.file = some text →
    ∃ i, text = texts.toVec i ∧ ∃ e ∈ history, e.after.phase i = .published

theorem sound_start : ({} : Announcements n).Sound texts [] :=
  ⟨fun _ => ⟨nofun, nofun⟩, nofun⟩

theorem sound_step (sound : s.Sound texts history)
    (step : (announcing texts).step s input = some (t, o)) :
    t.Sound texts (history ++ [⟨s, input, o, t⟩]) := by
  obtain ⟨i, d, rfl, moves, -⟩ := step_moves sound.each step
  constructor
  · intro j
    by_cases own : j = i
    · subst own
      rw [Announcements.view_put]
      exact moves.sound
    · rw [Announcements.view_put_ne s own]
      refine ⟨(sound.each j).prepared, fun left same => ?_⟩
      cases moves.touches with
      | leaves kept => exact (sound.each j).left left (kept ▸ same)
      | removes _ none => cases none.symm.trans same
      | unlinks _ none => cases none.symm.trans same
      | renames _ _ mine => exact own (texts.toVec_inj (Option.some.inj (same.symm.trans mine)))
  · intro text there
    cases moves.touches with
    | leaves kept =>
        obtain ⟨j, same, e, mem, published⟩ := sound.whole text (kept.symm.trans there)
        exact ⟨j, same, e, List.mem_append_left _ mem, published⟩
    | removes _ none => cases none.symm.trans there
    | unlinks _ none => cases none.symm.trans there
    | renames _ published mine =>
        refine ⟨i, Option.some.inj (there.symm.trans mine), _,
          List.mem_append_right _ List.mem_cons_self, ?_⟩
        exact (congrArg View.phase (Announcements.view_put s i d)).trans published

/-- What a process with the id `digits` writes that has no endpoints. -/
def announcementOf (digits : List Char) : List UInt8 :=
  ascii (
    ['{', '\n', ' ', ' ', '"', 's', 'c', 'h', 'e', 'm', 'a', '_', 'v', 'e', 'r', 's', 'i', 'o', 'n', '"',
     ':', ' ', '1', ',', '\n', ' ', ' ', '"', 'p', 'i', 'd', '"', ':', ' '] ++ digits ++
    [',', '\n', ' ', ' ', '"', 'w', 'i', 'n', 'k', 'e', 'y', 'e', 'r', '_', 'e', 'n', 'd', 'p', 'o', 'i',
     'n', 't', '"', ':', ' ', 'n', 'u', 'l', 'l', ',', '\n', ' ', ' ', '"', 'h', 'a', 'm', 'l', 'i', 'b',
     '_', 'e', 'n', 'd', 'p', 'o', 'i', 'n', 't', 's', '"', ':', ' ', '[', ']', '\n', '}'])

def twoTexts : RuntimeTexts 2 where
  pid i := if i = 0 then 4711 else 4712
  distinct := by
    intro i j
    revert i j
    decide
  toVec i := announcementOf (if i = 0 then ['4', '7', '1', '1'] else ['4', '7', '1', '2'])
  fromSlice text := parseU64 ((text.drop 34).takeWhile (· != 0x2C))
  pid_toVec := by decide

/-- **Whole announcements.**  However the processes interleave, fail and stop, a reader finds at the path
nothing or the whole text of a process that has published it, and never that of one that has left. -/
theorem announcement_whole (run : (announcing texts).Execution {} history t) :
    (∀ text, t.file = some text →
      ∃ i, text = texts.toVec i ∧ ∃ e ∈ history, e.after.phase i = .published) ∧
    ∀ i, t.phase i = .left → t.file ≠ some (texts.toVec i) := by
  have sound := run.invariant (I := fun history t => t.Sound texts history) sound_start
    (fun _ _ _ _ _ _ sound step => sound_step sound step)
  exact ⟨sound.whole, fun i => (sound.each i).left⟩

/-- One process has published, and the write of another fails. -/
theorem announcement_whole_torn : ∃ (history : List (AnnounceStep 2)) (t : Announcements 2),
    (announcing twoTexts).Execution {} history t ∧ t.temporary 1 = some [0x7B] ∧
      ∃ text, t.file = some text ∧
        ∃ i, text = twoTexts.toVec i ∧ ∃ e ∈ history, e.after.phase i = .published := by
  have run := (announcing twoTexts).execution_exec {}
    [.go 0 none, .go 0 none, .go 0 none, .go 0 none, .go 1 none, .go 1 (some [0x7B])] (by decide)
  exact ⟨_, _, run, by decide, twoTexts.toVec 0, by decide, (announcement_whole run).1 _ (by decide)⟩

/-! ## Leaving -/

/-- Nobody publishes while another one is about to take its announcement away. -/
def undisturbed (e : AnnounceStep n) : Bool :=
  match e.input with
  | .go i _ => e.before.phase i != .rename || decide (∀ j, e.before.phase j ≠ .unlink)
  | .stop _ => true

/-- Who is about to take an announcement away would take its own. -/
def Announcements.Owning (texts : RuntimeTexts n) (s : Announcements n) : Prop :=
  ∀ i, s.phase i = .unlink → s.file = none ∨ s.file = some (texts.toVec i)

theorem owning_step (sound : s.Sound texts history) (owning : s.Owning texts)
    (step : (announcing texts).step s input = some (t, o)) (calm : undisturbed ⟨s, input, o, t⟩ = true) :
    t.Owning texts := by
  obtain ⟨i, d, rfl, moves, acts⟩ := step_moves sound.each step
  intro j unlinks
  by_cases own : j = i
  -- It has just read the file, which is whole, so that the id in there says whose it is.
  · subst own
    have here := Announcements.view_put s j d
    obtain ⟨kept, mine⟩ := moves.unlink ((congrArg View.phase here).symm.trans unlinks)
    obtain ⟨text, there, read⟩ := Option.bind_eq_some_iff.mp mine
    obtain ⟨k, rfl, -⟩ := sound.whole text there
    rw [texts.pid_toVec, Option.some.injEq] at read
    exact .inr (kept.trans (texts.distinct read ▸ there))
  · have waits : s.phase j = .unlink :=
      (congrArg View.phase (Announcements.view_put_ne s own d)).symm.trans unlinks
    cases moves.touches with
    | leaves kept =>
        rcases owning j waits with empty | mine
        · exact .inl (kept.trans empty)
        · exact .inr (kept.trans mine)
    | removes _ none => exact .inl none
    | unlinks _ none => exact .inl none
    | renames renames published =>
        obtain ⟨fault, rfl⟩ := acts published
        have renames : s.phase i = .rename := renames
        simp only [undisturbed, renames, bne_self_eq_false, Bool.false_or, decide_eq_true_eq] at calm
        exact absurd waits (calm j)

/-- **An exit spares the others.**  Where nobody publishes between the look of an exiting process at the file
and the removal, what it removes is its own announcement. -/
theorem exit_spares (run : (announcing texts).Execution {} history t)
    (calm : ∀ e ∈ history, undisturbed e = true) :
    ∀ e ∈ history, ∀ i fault, e.input = .go i fault → e.before.phase i = .unlink →
      e.before.file = none ∨ e.before.file = some (texts.toVec i) := by
  have kept := run.guarded (G := fun e => undisturbed e = true)
    (I := fun history t => (t.Sound texts history ∧ t.Owning texts) ∧ ∀ e ∈ history, ∀ i fault,
      e.input = .go i fault → e.before.phase i = .unlink →
        e.before.file = none ∨ e.before.file = some (texts.toVec i))
    ⟨⟨sound_start, nofun⟩, nofun⟩ ?_ calm
  · exact kept.2
  · rintro history s input o t - ⟨⟨sound, owning⟩, past⟩ step calm
    refine ⟨⟨sound_step sound step, owning_step sound owning step calm⟩, fun e mem => ?_⟩
    rcases List.mem_append.mp mem with mem | mem
    · exact past e mem
    · rw [List.mem_singleton.mp mem]
      exact fun i _ _ unlinks => owning i unlinks

/-- One process publishes and leaves, before another one looks. -/
theorem exit_spares_alone : ∃ (history : List (AnnounceStep 2)) (e : AnnounceStep 2) (t : Announcements 2),
    (announcing twoTexts).Execution {} (history ++ [e]) t ∧ e.before.phase 0 = .unlink ∧
      e.before.file.isSome = true ∧ e.after.file = none ∧
      (e.before.file = none ∨ e.before.file = some (twoTexts.toVec 0)) := by
  have run := ((announcing twoTexts).execution_exec {}
    [.go 1 none, .go 0 none, .go 0 none, .go 0 none, .go 0 none, .go 0 none, .go 0 none]
    (by decide)).goOn (.go 0 none) (by decide)
  exact ⟨_, _, _, run, by decide, by decide, by decide,
    exit_spares run (by decide) _ (List.mem_append_right _ List.mem_cons_self) 0 none rfl (by decide)⟩

/-- The other one publishes between the look and the removal, and is no longer announced. -/
theorem exit_takes : ∃ (history : List (AnnounceStep 2)) (e : AnnounceStep 2) (t : Announcements 2),
    (announcing twoTexts).Execution {} (history ++ [e]) t ∧ e.input = .go 0 none ∧
      e.before.file = some (twoTexts.toVec 1) ∧ e.after.file = none ∧ e.after.phase 1 = .published := by
  have run := ((announcing twoTexts).execution_exec {}
    [.go 0 none, .go 0 none, .go 0 none, .go 0 none, .go 0 none, .go 0 none,
      .go 1 none, .go 1 none, .go 1 none, .go 1 none, .go 1 none] (by decide)).goOn (.go 0 none) (by decide)
  exact ⟨_, _, _, run, rfl, by decide, by decide, by decide⟩

end

end CatHub.Daemon
