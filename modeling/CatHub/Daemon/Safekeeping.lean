/-
# CatHub.Daemon.Safekeeping — what a migration leaves of the files it works on.

Wherever the process stops, the bytes of a file are *held* when they can be read at its path or at the
path of its backup.  `secured_atomicWrite` is the specification of the one operation that replaces a
file: it touches a path, its backup and its temporary file, it never touches a backup that is there, and
it has made a backup before it removes anything.  `migration_keeps` puts two of them together.

A stale backup is where this fails: `atomic_write` takes it for the backup of what it is about to
remove.
-/
import CatHub.Daemon.Migration

namespace CatHub.Daemon

open CatHub.Systems
open CatHub.Radio.Ts590 (ascii)

variable {δ : Type}

/-! ## Three names -/

theorem splitAtDot_none {name stem : List UInt8} (h : splitAtDot name = (stem, none)) :
    stem = name := by
  unfold splitAtDot at h
  split at h <;> cases h <;> rfl

theorem splitAtDot_some {name stem extension : List UInt8}
    (h : splitAtDot name = (stem, some extension)) :
    name = stem ++ 0x2E :: extension ∧ 0x2E ∉ extension := by
  unfold splitAtDot at h
  split at h
  · cases h
  · cases h
  · rename_i dot before _ dropped
    cases h
    have isDot : dot = 0x2E := by
      have head := List.head?_dropWhile_not (· != 0x2E) name.reverse
      simpa [dropped] using head
    refine ⟨?_, ?_⟩
    · have whole := congrArg List.reverse
        (List.takeWhile_append_dropWhile (p := (· != 0x2E)) (l := name.reverse))
      rw [dropped, isDot] at whole
      simpa using whole.symm
    · intro mem
      have solid := List.all_eq_true.mp List.all_takeWhile _ (List.mem_reverse.mp mem)
      simp at solid

namespace Path

variable (p q : Path δ)

theorem backup_ne : p.backup ≠ p := by
  intro same
  have len := congrArg (fun r => r.name.length) same
  simp [backup] at len

theorem temporary_ne_backup : p.temporary ≠ q.backup := by
  intro same
  have last := congrArg (fun r => r.name.reverse.head?) same
  simp [backup, temporary] at last

theorem backup_inj {p q : Path δ} (h : p.backup = q.backup) : p = q := by
  obtain ⟨directory, name⟩ := p
  obtain ⟨directory', name'⟩ := q
  simp [backup] at h
  simp [h]

theorem temporary_ne : p.temporary ≠ p := by
  intro same
  have names : p.temporary.name = p.name := congrArg Path.name same
  unfold temporary at names
  rcases cut : splitAtDot p.name with ⟨stem, _ | extension⟩
  · have len := congrArg List.length names
    rw [cut, splitAtDot_none cut] at len
    simp at len
  · obtain ⟨whole, solid⟩ := splitAtDot_some cut
    rw [cut, whole] at names
    have behind := (List.cons.inj (List.append_cancel_left names)).2
    exact solid (behind ▸ by simp)

theorem temporary_backup_ne : p.backup.temporary ≠ p := by
  intro same
  have len := congrArg (fun r => r.name.length) same
  have cut : (splitAtDot p.backup.name).1 = p.backup.name ∨
      splitAtDot p.backup.name = (p.name, some [0x62, 0x61, 0x6B]) := by
    have rev : p.backup.name.reverse = 0x6B :: 0x61 :: 0x62 :: 0x2E :: p.name.reverse := by
      simp [backup]
    unfold splitAtDot
    rw [rev]
    rcases form : p.name.reverse with _ | ⟨last, front⟩
    · exact .inl rfl
    · refine .inr (Prod.ext ?_ rfl)
      have whole := congrArg List.reverse form
      rw [List.reverse_reverse] at whole
      exact whole.symm
  unfold temporary at len
  rcases cut with whole | cut
  · rw [whole] at len
    simp [backup] at len
  · rw [cut] at len
    simp at len

end Path

/-! ## Operations -/

/-- One operation, none of whose queries fails. -/
def Step [DecidableEq δ] (fs : FileSystem δ) (op : FileOp δ) (answer : op.Answer)
    (after : FileSystem δ) : Prop :=
  op.Effect fs answer after ∧ op.Truthful fs answer

section Operations

variable [DecidableEq δ] {fs : FileSystem δ} {S : FileSystem δ → Prop} {α : Type}

theorem secured_settle {done : Bool} {P : Unit → FileSystem δ → Prop} (here : S fs)
    (ends : done = true → P () fs) : Program.SecuresOk Step S P (settle done : FileCall δ Unit) fs := by
  cases done with
  | false => exact .throw here
  | true => exact .pure here (ends rfl)

theorem secured_pathExists {path : Path δ} {P : Bool → FileSystem δ → Prop} (here : S fs)
    (ends : P (fs path).isSome fs) : Program.SecuresOk Step S P (pathExists path) fs := by
  refine .perform here (fun answer after step => ?_)
  obtain ⟨⟨rfl, -⟩, truthful⟩ := step
  have same : answer = (after path).isSome := truthful
  exact ⟨here, same ▸ ends⟩

theorem secured_readToString {path : Path δ} {P : List UInt8 → FileSystem δ → Prop} (here : S fs)
    (ends : ∀ text, fs path = some (.file text) → P text fs) :
    Program.SecuresOk Step S P (readToString path) fs := by
  refine .bind (.perform here (fun answer after step => ?_))
  obtain ⟨⟨rfl, read⟩, -⟩ := step
  refine ⟨here, ?_⟩
  cases answer with
  | none => exact .throw here
  | some text => exact .pure here (ends text (read text rfl))

theorem secured_createDirAll {directory : δ} {P : Unit → FileSystem δ → Prop} (here : S fs)
    (ends : ∀ after : FileSystem δ, (∀ q b, fs q = some (.file b) → after q = some (.file b)) →
      (∀ q, q.directory = directory → after q = fs q) → S after ∧ P () after) :
    Program.SecuresOk Step S P (createDirAll directory) fs := by
  refine .bind (.perform here (fun done after step => ?_))
  obtain ⟨grown, -⟩ := step
  have files : ∀ q b, fs q = some (.file b) → after q = some (.file b) := by
    intro q b file
    rcases grown q with same | ⟨missing, -, -⟩
    · rw [same, file]
    · rw [missing] at file
      cases file
  have inside : ∀ q, q.directory = directory → after q = fs q := by
    intro q here
    rcases grown q with same | ⟨-, -, outside⟩
    · exact same
    · exact absurd here outside
  obtain ⟨stop, goesOn⟩ := ends after files inside
  exact ⟨stop, secured_settle stop (fun _ => goesOn)⟩

/-- Only `path` is touched. -/
def OnlyAt (path : Path δ) (fs after : FileSystem δ) : Prop := ∀ q, q ≠ path → after q = fs q

theorem onlyAt_update (path : Path δ) (node : Option Node) :
    OnlyAt path fs (Function.update fs path node) :=
  fun _ other => Function.update_of_ne other node fs

theorem secured_write {path : Path δ} {contents : List UInt8} {P : Unit → FileSystem δ → Prop}
    (here : S fs) (ends : ∀ after, OnlyAt path fs after → S after ∧ P () after) :
    Program.SecuresOk Step S P (write path contents) fs := by
  refine .bind (.perform here (fun done after step => ?_))
  have only : OnlyAt path fs after := by
    cases done with
    | true => exact step.1 ▸ onlyAt_update path _
    | false => exact step.1
  obtain ⟨stop, goesOn⟩ := ends after only
  exact ⟨stop, secured_settle stop (fun _ => goesOn)⟩

theorem secured_copy {source target : Path δ} {P : Unit → FileSystem δ → Prop} (here : S fs)
    (fails : ∀ after, OnlyAt target fs after → S after)
    (ends : ∀ b, fs source = some (.file b) →
      P () (Function.update fs target (some (.file b)))) :
    Program.SecuresOk Step S P (copy source target) fs := by
  refine .bind (.perform here (fun done after step => ?_))
  cases done with
  | true =>
      obtain ⟨⟨b, file, rfl⟩, -⟩ := step
      have stop := fails _ (onlyAt_update target (some (.file b)))
      exact ⟨stop, secured_settle stop (fun _ => ends b file)⟩
  | false =>
      have stop : S after := by
        rcases step.1 with rfl | ⟨-, only⟩
        · exact here
        · exact fails after only
      exact ⟨stop, secured_settle stop (fun done => by cases done)⟩

theorem secured_removeFile {path : Path δ} {P : Unit → FileSystem δ → Prop} (here : S fs)
    (ends : S (Function.update fs path none) ∧ P () (Function.update fs path none)) :
    Program.SecuresOk Step S P (removeFile path) fs := by
  refine .bind (.perform here (fun done after step => ?_))
  cases done with
  | true =>
      obtain ⟨rfl, -⟩ := step
      exact ⟨ends.1, secured_settle ends.1 (fun _ => ends.2)⟩
  | false =>
      obtain ⟨rfl, -⟩ := step
      exact ⟨here, secured_settle here (fun done => by cases done)⟩

end Operations

/-! ## The replacement of a file -/

/-- What stays wherever a replacement of `path` stops. -/
structure Preserved (path : Path δ) (replace : Bool) (fs after : FileSystem δ) : Prop where
  elsewhere : ∀ q b, q ≠ path → q ≠ path.backup → q ≠ path.temporary →
    fs q = some (.file b) → after q = some (.file b)
  backup : ∀ node, fs path.backup = some node → after path.backup = some node
  held : replace = true → fs path.backup = none → ∀ b, fs path = some (.file b) →
    after path = some (.file b) ∨ after path.backup = some (.file b)

/-- What holds once nothing more is needed of what stood at `path`. -/
structure BackedUp (path : Path δ) (replace : Bool) (fs after : FileSystem δ) : Prop where
  elsewhere : ∀ q b, q ≠ path → q ≠ path.backup → q ≠ path.temporary →
    fs q = some (.file b) → after q = some (.file b)
  backup : ∀ node, fs path.backup = some node → after path.backup = some node
  copied : replace = true → fs path.backup = none → ∀ b, fs path = some (.file b) →
    after path.backup = some (.file b)

section Replacement

variable {path : Path δ} {replace : Bool} {fs after later : FileSystem δ}

theorem BackedUp.preserved (h : BackedUp path replace fs after) : Preserved path replace fs after :=
  ⟨h.elsewhere, h.backup, fun asked free b file => .inr (h.copied asked free b file)⟩

/-- The path itself and its temporary file are of no more use. -/
theorem BackedUp.of_same (h : BackedUp path replace fs after)
    (same : ∀ q, q ≠ path → q ≠ path.temporary → later q = after q) :
    BackedUp path replace fs later := by
  have saved : later path.backup = after path.backup :=
    same _ path.backup_ne (path.temporary_ne_backup path).symm
  refine ⟨fun q b other apart aside file => ?_, ?_, ?_⟩
  · rw [same q other aside]
    exact h.elsewhere q b other apart aside file
  · rw [saved]
    exact h.backup
  · rw [saved]
    exact h.copied

/-- Only the temporary file is touched, and directories are made elsewhere. -/
structure Untouched (path : Path δ) (fs after : FileSystem δ) : Prop where
  elsewhere : ∀ q b, q ≠ path.temporary → fs q = some (.file b) → after q = some (.file b)
  backup : after path.backup = fs path.backup
  here : after path = fs path

theorem Untouched.preserved (h : Untouched path fs after) : Preserved path replace fs after :=
  ⟨fun q b _ _ aside file => h.elsewhere q b aside file, fun _ there => h.backup.trans there,
    fun _ _ _ file => .inl (h.here.trans file)⟩

/-- Nothing has to be backed up where nothing is replaced, nothing stands, or a backup is there. -/
theorem Untouched.backedUp (h : Untouched path fs after)
    (needless : replace = false ∨ fs path = none ∨ fs path.backup ≠ none) :
    BackedUp path replace fs after := by
  refine ⟨fun q b _ _ aside file => h.elsewhere q b aside file,
    fun _ there => h.backup.trans there, fun asked free b file => ?_⟩
  rcases needless with not | missing | saved
  · rw [asked] at not
    cases not
  · rw [missing] at file
    cases file
  · exact absurd free saved

variable [DecidableEq δ]

theorem Untouched.copied {b : List UInt8} (h : Untouched path fs after)
    (file : fs path = some (.file b)) (free : fs path.backup = none) :
    BackedUp path replace fs (Function.update after path.backup (some (.file b))) := by
  refine ⟨fun q b' _ apart aside there => ?_, fun _ there => ?_, fun _ _ _ file' => ?_⟩
  · rw [Function.update_of_ne apart]
    exact h.elsewhere q b' aside there
  · rw [free] at there
    cases there
  · rw [Function.update_self, ← file, file']

theorem secured_makeRoom {S : FileSystem δ → Prop} {P : Unit → FileSystem δ → Prop}
    (untouched : Untouched path fs after)
    (stop : ∀ t, Preserved path true fs t → S t) (ends : ∀ t, BackedUp path true fs t → P () t) :
    Program.SecuresOk Step S P (makeRoom path) after := by
  have remove {g : FileSystem δ} (backedUp : BackedUp path true fs g) :
      Program.SecuresOk Step S P (removeFile path) g := by
    have gone : BackedUp path true fs (Function.update g path none) :=
      backedUp.of_same (fun q other _ => Function.update_of_ne other _ _)
    exact secured_removeFile (stop g backedUp.preserved) ⟨stop _ gone.preserved, ends _ gone⟩
  refine .bind (secured_pathExists (stop _ untouched.preserved) ?_)
  rw [untouched.backup]
  cases saved : fs path.backup with
  | some node =>
      refine .bind (.pure (stop _ untouched.preserved) (remove (untouched.backedUp ?_)))
      exact .inr (.inr (by rw [saved]; exact Option.some_ne_none node))
  | none =>
      refine .bind (secured_copy (stop _ untouched.preserved) (fun t only => stop t ?_)
        (fun b file => remove (untouched.copied (untouched.here ▸ file) saved)))
      refine ⟨fun q b other apart aside file => ?_, fun node there => ?_, fun _ _ b file => .inl ?_⟩
      · rw [only q apart]
        exact untouched.elsewhere q b aside file
      · rw [saved] at there
        cases there
      · rw [only path path.backup_ne.symm, untouched.here, file]

/-- The specification of the replacement of a file. -/
theorem secured_atomicWrite {contents : List UInt8} {S : FileSystem δ → Prop}
    {P : Unit → FileSystem δ → Prop} (stop : ∀ t, Preserved path replace fs t → S t)
    (ends : ∀ t, BackedUp path replace fs t → P () t) :
    Program.SecuresOk Step S P (atomicWrite path contents replace) fs := by
  have start : Untouched path fs fs := ⟨fun _ _ _ file => file, rfl, rfl⟩
  have finish {g : FileSystem δ} (backedUp : BackedUp path replace fs g) :
      Program.SecuresOk Step S P (do
        let renamed : Bool ← operate (FileOp.rename path.temporary path)
        if renamed then pure ()
        else
          let _ ← operate (FileOp.removeFile path.temporary)
          throw .io) g := by
    refine .bind (.perform (stop g backedUp.preserved) (fun renamed t step => ?_))
    cases renamed with
    | true =>
        obtain ⟨⟨node, -, rfl⟩, -⟩ := step
        have done : BackedUp path replace fs
            (Function.update (Function.update g path.temporary none) path (some node)) :=
          backedUp.of_same (fun q other aside => by
            rw [Function.update_of_ne other, Function.update_of_ne aside])
        exact ⟨stop _ done.preserved, .pure (stop _ done.preserved) (ends _ done)⟩
    | false =>
        obtain ⟨rfl, -⟩ := step
        refine ⟨stop _ backedUp.preserved,
          .bind (.perform (stop _ backedUp.preserved) (fun removed u step => ?_))⟩
        have same : ∀ q, q ≠ path → q ≠ path.temporary → u q = t q := by
          intro q _ aside
          cases removed with
          | true =>
              obtain ⟨rfl, -⟩ := step
              exact Function.update_of_ne aside _ _
          | false =>
              obtain ⟨rfl, -⟩ := step
              rfl
        have left := stop u (backedUp.of_same same).preserved
        exact ⟨left, .throw left⟩
  refine .bind (secured_createDirAll (stop _ start.preserved) (fun g files inside => ?_))
  have made : Untouched path fs g := ⟨fun q b _ file => files q b file, inside _ rfl, inside _ rfl⟩
  refine ⟨stop g made.preserved, .bind (secured_write (stop g made.preserved) (fun h only => ?_))⟩
  have written : Untouched path fs h :=
    ⟨fun q b aside file => (only q aside).trans (made.elsewhere q b aside file),
      (only _ (path.temporary_ne_backup path).symm).trans made.backup,
      (only _ path.temporary_ne.symm).trans made.here⟩
  refine ⟨stop h written.preserved, .bind ?_⟩
  cases replace with
  | false => exact .pure (stop h written.preserved) (finish (written.backedUp (.inl rfl)))
  | true =>
      refine .bind (secured_pathExists (stop h written.preserved) ?_)
      rw [written.here]
      cases there : fs path with
      | none => exact .pure (stop h written.preserved) (finish (written.backedUp (.inr (.inl there))))
      | some node => exact secured_makeRoom written stop (fun t backedUp => finish backedUp)

end Replacement

/-! ## The migration -/

/-- The bytes that `path` had can be read there or at its backup. -/
def Held (path : Path δ) (fs after : FileSystem δ) : Prop :=
  ∀ b, fs path = some (.file b) →
    after path = some (.file b) ∨ after path.backup = some (.file b)

section Migration

variable (toml : Toml) (source destination : Path δ) (force removeSourceSection : Bool)

/-- The checks of the migration let it go on to write. -/
structure PastChecks (fs : FileSystem δ) : Prop where
  free : force = true ∨ fs destination = none
  unsaved : removeSourceSection = true → fs source.backup = none
  unified : ∃ text config document standalone, fs source = some (.file text) ∧
    toml.parseDocument text = .ok config ∧ toml.fromStr text = .ok document ∧
    (toml.get document).isSome = true ∧ toml.toStringPretty config = .ok standalone

/-- No file of the run stands in the way of another. -/
structure Spared (fs : FileSystem δ) : Prop where
  /-- The backup of the destination is not there yet; or it holds what the destination holds, and is
  not the source that is going to be edited. -/
  backup : ∀ b, fs destination = some (.file b) → fs destination.backup = none ∨
    fs destination.backup = some (.file b) ∧
      ¬ (removeSourceSection = true ∧ destination.backup = source)
  /-- The source is not the temporary file of the destination, unless its backup holds the same. -/
  temporary : destination.temporary = source → fs source.backup = fs source
  /-- A source that is to be edited is not the destination. -/
  apart : removeSourceSection = true → destination ≠ source

variable {toml source destination force removeSourceSection} {fs t : FileSystem δ}

theorem held_destination (past : PastChecks toml source destination force removeSourceSection fs)
    (spared : Spared source destination removeSourceSection fs)
    (preserved : Preserved destination force fs t) : Held destination fs t := by
  intro b file
  have asked : force = true := past.free.resolve_right (by rw [file]; exact Option.some_ne_none _)
  rcases spared.backup b file with missing | ⟨saved, -⟩
  · exact preserved.held asked missing b file
  · exact .inr (preserved.backup _ saved)

theorem held_source (past : PastChecks toml source destination force removeSourceSection fs)
    (spared : Spared source destination removeSourceSection fs)
    (preserved : Preserved destination force fs t) : Held source fs t := by
  intro b file
  by_cases same : source = destination
  · subst same
    exact held_destination past spared preserved b file
  by_cases saving : source = destination.backup
  · subst saving
    exact .inl (preserved.backup _ file)
  by_cases writing : source = destination.temporary
  · have saved : fs source.backup = some (.file b) := (spared.temporary writing.symm).trans file
    refine .inr (preserved.elsewhere _ b ?_ ?_ ?_ saved)
    · intro here
      exact source.temporary_backup_ne (here ▸ writing.symm)
    · exact fun here => same (Path.backup_inj here)
    · exact (destination.temporary_ne_backup source).symm
  · exact .inl (preserved.elsewhere source b same saving writing file)

/-- Where the source is to be edited, it is as it was after the destination was written. -/
theorem source_kept (past : PastChecks toml source destination force true fs)
    (spared : Spared source destination true fs) (preserved : Preserved destination force fs t)
    {b : List UInt8} (file : fs source = some (.file b)) : t source = some (.file b) := by
  by_cases saving : source = destination.backup
  · subst saving
    exact preserved.backup _ file
  by_cases writing : source = destination.temporary
  · have saved := spared.temporary writing.symm
    rw [past.unsaved rfl, file] at saved
    cases saved
  · exact preserved.elsewhere source b (spared.apart rfl).symm saving writing file

/-- What the destination had is in its backup then, which is none of the files of the edit. -/
theorem destination_saved (past : PastChecks toml source destination force true fs)
    (spared : Spared source destination true fs) (backedUp : BackedUp destination force fs t)
    {text b : List UInt8} (original : fs source = some (.file text))
    (file : fs destination = some (.file b)) :
    t destination.backup = some (.file b) ∧ destination.backup ≠ source ∧
      destination.backup ≠ source.backup ∧ destination.backup ≠ source.temporary := by
  have asked : force = true := past.free.resolve_right (by rw [file]; exact Option.some_ne_none _)
  have elsewhere : destination.backup ≠ source.backup :=
    fun same => spared.apart rfl (Path.backup_inj same)
  have aside : destination.backup ≠ source.temporary :=
    (source.temporary_ne_backup destination).symm
  rcases spared.backup b file with missing | ⟨saved, other⟩
  · refine ⟨backedUp.copied asked missing b file, ?_, elsewhere, aside⟩
    intro same
    rw [same, original] at missing
    cases missing
  · exact ⟨backedUp.backup _ saved, fun same => other ⟨rfl, same⟩, elsewhere, aside⟩

variable [DecidableEq δ]

theorem secured_result {α : Type} {result : Except ConfigError α} {S : FileSystem δ → Prop}
    {P : α → FileSystem δ → Prop} (here : S t) (ends : ∀ a, result = .ok a → P a t) :
    Program.SecuresOk Step S P (ExceptT.mk (.done result) : FileCall δ α) t :=
  ⟨here, ends⟩

/-- The edit of the source keeps what the destination had and what the source had. -/
theorem secured_removeSection {text : List UInt8}
    (past : PastChecks toml source destination force true fs)
    (spared : Spared source destination true fs) (backedUp : BackedUp destination force fs t)
    (original : fs source = some (.file text)) :
    Program.SecuresOk Step (fun u => Held destination fs u ∧ Held source fs u) (fun _ _ => True)
      (removeSection toml source text) t := by
  have there := source_kept past spared backedUp.preserved original
  have saved {b : List UInt8} (file : fs destination = some (.file b)) :=
    destination_saved past spared backedUp original file
  have heldSource {u : FileSystem δ}
      (kept : u source = some (.file text) ∨ u source.backup = some (.file text)) :
      Held source fs u := by
    intro b file
    rw [original] at file
    cases file
    exact kept
  have start : Held destination fs t ∧ Held source fs t :=
    ⟨fun b file => .inr (saved file).1, heldSource (.inl there)⟩
  refine .bind (secured_result start (fun editable _ => .bind (secured_copy start ?_ ?_)))
  · intro u only
    refine ⟨fun b file => .inr ?_, heldSource (.inl ?_)⟩
    · obtain ⟨copied, -, elsewhere, -⟩ := saved file
      rw [only _ elsewhere, copied]
    · rw [only _ source.backup_ne.symm, there]
  · intro b file
    rw [there] at file
    cases file
    refine secured_atomicWrite (fun u preserved => ⟨fun b file => .inr ?_, heldSource (.inr ?_)⟩)
      (fun _ _ => trivial)
    · obtain ⟨copied, other, elsewhere, aside⟩ := saved file
      refine preserved.elsewhere _ b other elsewhere aside ?_
      rw [Function.update_of_ne elsewhere, copied]
    · exact preserved.backup _ (Function.update_self _ _ _)

/-- Wherever a migration of spared files stops, it has destroyed neither the destination nor the
source. -/
theorem migration_keeps (display : Path δ → String)
    (spared : PastChecks toml source destination force removeSourceSection fs →
      Spared source destination removeSourceSection fs)
    {after : FileSystem δ} (visits : Program.Visits Step
      (migrateToStandalone toml display source destination force removeSourceSection).run fs after) :
    Held destination fs after ∧ Held source fs after := by
  have start : Held destination fs fs ∧ Held source fs fs :=
    ⟨fun _ file => .inl file, fun _ file => .inl file⟩
  suffices secured : Program.SecuresOk Step
      (fun u => Held destination fs u ∧ Held source fs u) (fun _ _ => True)
      (migrateToStandalone toml display source destination force removeSourceSection) fs from
    secured.visits visits
  refine .bind (secured_readToString start (fun text original => ?_))
  refine .bind (secured_result start (fun config parsed => ?_))
  refine .bind (secured_result start (fun document read => .bind ?_))
  by_cases section_ : (toml.get document).isNone = true
  · rw [if_pos section_]
    exact .throw start
  rw [if_neg section_]
  refine .pure start (.bind (secured_pathExists start (.bind ?_)))
  by_cases open_ : ((fs destination).isSome && !force) = true
  · rw [if_pos open_]
    exact .throw start
  rw [if_neg open_]
  have write (unsaved : removeSourceSection = true → fs source.backup = none) :
      Program.SecuresOk Step (fun u => Held destination fs u ∧ Held source fs u) (fun _ _ => True)
        (do
          let standalone ← ExceptT.mk (.done (toml.toStringPretty config))
          atomicWrite destination standalone force
          if removeSourceSection then removeSection toml source text else pure ()) fs := by
    refine .bind (secured_result start (fun standalone printed => .bind ?_))
    have past : PastChecks toml source destination force removeSourceSection fs := by
      refine ⟨?_, unsaved, text, config, document, standalone, original, parsed, read, ?_, printed⟩
      · cases force with
        | true => exact .inl rfl
        | false => exact .inr (by simpa using open_)
      · simpa [Option.isSome_iff_ne_none] using section_
    have stop (t : FileSystem δ) (preserved : Preserved destination force fs t) :=
      And.intro (held_destination past (spared past) preserved)
        (held_source past (spared past) preserved)
    refine secured_atomicWrite stop (fun t backedUp => ?_)
    cases removeSourceSection with
    | false => exact .pure (stop t backedUp.preserved) trivial
    | true => exact secured_removeSection past (spared past) backedUp original
  refine .pure start (.bind ?_)
  cases removeSourceSection with
  | false => exact .pure start (write nofun)
  | true =>
      refine .bind (secured_pathExists start ?_)
      by_cases saved : (fs source.backup).isSome = true
      · rw [if_pos saved]
        exact .throw start
      · rw [if_neg saved]
        exact .pure start (write (fun _ => by simpa using saved))

end Migration

/-! ## Two migrations

Both are forced onto a destination that is there, and stop after it was removed. -/

/-- The unified configuration of the source's test. -/
def unifiedText : List UInt8 := ascii ("[cat_hub.radio]\nbackend = \"loopback\"\n" ++
  "[[cat_hub.hamlib_net]]\nname = \"engine\"\nbind = \"127.0.0.1:4532\"\n").toList

/-- Its effective configuration in standalone form. -/
def standaloneText : List UInt8 := ascii ("serial_endpoint = []\nwinkeyer_endpoint = []\n\n" ++
  "[radio]\nbackend = \"loopback\"\nmodel = \"\"\ntransport = \"serial\"\nport = \"\"\n" ++
  "baud = 4800\nhost = \"127.0.0.1\"\ntcp_port = 4532\ncertified = false\n" ++
  "reply_timeout_ms = 1000\n\n[poll]\nbaseline_ms = 250\nheartbeat_ms = 3000\n\n" ++
  "[ptt]\nmax_tx_ms = 300000\n\n[events]\nnative_push = true\n\n" ++
  "[[hamlib_net]]\nname = \"engine\"\nbind = \"127.0.0.1:4532\"\nperms = []\n" ++
  "single_vfo = false\n").toList

/-- The TOML library on that configuration. -/
def unifiedToml : Toml where
  Value := Bool
  Config := Unit
  fromStr _ := .ok true
  get _ := some false
  tryInto _ := .ok ()
  validate _ := .ok ()
  toStringPretty _ := .ok standaloneText
  remove _ := .ok []

def keepText : List UInt8 := ascii ['k', 'e', 'e', 'p']

def configPath : Path Unit :=
  ⟨(), ascii ['c', 'o', 'n', 'f', 'i', 'g', '.', 't', 'o', 'm', 'l']⟩

def cathubPath : Path Unit :=
  ⟨(), ascii ['c', 'a', 't', 'h', 'u', 'b', '.', 't', 'o', 'm', 'l']⟩

/-- A destination that holds `keep`, and perhaps a backup of it from earlier on. -/
def filesWith (saved : Option Node) : FileSystem Unit := fun path =>
  if path = configPath then some (.file unifiedText)
  else if path = cathubPath then some (.file keepText)
  else if path = cathubPath.backup then saved
  else none

/-- The migration of `configPath` to `cathubPath`, forced, which leaves the source as it is. -/
def forced : Program (FileOp Unit) FileOp.Answer (Except ConfigError Unit) :=
  (migrateToStandalone unifiedToml (fun _ => "cathub.toml") configPath cathubPath true false).run

/-- The temporary file is written. -/
def written (saved : Option Node) : FileSystem Unit :=
  Function.update (filesWith saved) cathubPath.temporary (some (.file standaloneText))

/-- The destination is removed. -/
def removed (saved : Option Node) : FileSystem Unit :=
  Function.update (written saved) cathubPath none

theorem filesWith_config (saved : Option Node) :
    filesWith saved configPath = some (.file unifiedText) := if_pos rfl

theorem filesWith_cathub (saved : Option Node) :
    filesWith saved cathubPath = some (.file keepText) :=
  (if_neg (by decide)).trans (if_pos rfl)

theorem filesWith_backup (saved : Option Node) : filesWith saved cathubPath.backup = saved :=
  (if_neg (by decide)).trans ((if_neg cathubPath.backup_ne).trans (if_pos rfl))

theorem written_cathub (saved : Option Node) : written saved cathubPath = some (.file keepText) :=
  (Function.update_of_ne cathubPath.temporary_ne.symm _ _).trans (filesWith_cathub saved)

theorem written_backup (saved : Option Node) : written saved cathubPath.backup = saved :=
  (Function.update_of_ne (cathubPath.temporary_ne_backup cathubPath).symm _ _).trans
    (filesWith_backup saved)

section Steps

variable {fs : FileSystem Unit} {path : Path Unit}

theorem step_readToString {text : List UInt8} (file : fs path = some (.file text)) :
    Step fs (.readToString path) (some text) fs := by
  refine ⟨⟨rfl, fun other same => ?_⟩, trivial⟩
  cases same
  exact file

theorem step_pathExists {found : Bool} (here : (fs path).isSome = found) :
    Step fs (.pathExists path) found fs :=
  ⟨⟨rfl, fun yes => here.trans yes⟩, here.symm⟩

theorem step_createDirAll {directory : Unit} : Step fs (.createDirAll directory) true fs :=
  ⟨fun _ => .inl rfl, trivial⟩

theorem step_write {text : List UInt8} :
    Step fs (.write path text) true (Function.update fs path (some (.file text))) := ⟨rfl, trivial⟩

theorem step_copy {target : Path Unit} {text : List UInt8} (file : fs path = some (.file text)) :
    Step fs (.copy path target) true (Function.update fs target (some (.file text))) :=
  ⟨⟨text, file, rfl⟩, trivial⟩

theorem step_removeFile : Step fs (.removeFile path) true (Function.update fs path none) :=
  ⟨rfl, trivial⟩

end Steps

/-- Up to the question whether there is a backup. -/
theorem visits_forced {saved : Option Node} {after : FileSystem Unit}
    (rest : Program.Visits Step (makeRoom cathubPath).run (written saved) after) :
    Program.Visits Step forced (filesWith saved) after := by
  refine .later (step_readToString (filesWith_config saved)) ?_
  refine .later (step_pathExists (congrArg Option.isSome (filesWith_cathub saved))) ?_
  refine .later step_createDirAll (.later step_write ?_)
  refine .later (step_pathExists (congrArg Option.isSome (written_cathub saved))) ?_
  exact (rest.bind _).bind _

theorem saves_keep :
    let after := Function.update (Function.update (written none) cathubPath.backup
      (some (.file keepText))) cathubPath none
    Held cathubPath (filesWith none) after ∧ Held configPath (filesWith none) after := by
  intro after
  have visits : Program.Visits Step forced (filesWith none) after := by
    refine visits_forced (.later (step_pathExists (congrArg Option.isSome (written_backup none))) ?_)
    refine .later (step_copy (written_cathub none)) ?_
    exact .later step_removeFile (.now _ _)
  refine migration_keeps (fun _ => "cathub.toml") (fun _ => ⟨fun _ _ => .inl ?_, fun same => ?_, ?_⟩)
    visits
  · exact filesWith_backup none
  · exact absurd same (by decide)
  · intro asked
    cases asked

/-- A backup from earlier on is taken for one of `keep`, which is lost. -/
theorem loses_keep :
    ∃ after, Program.Visits Step forced (filesWith (some (.file []))) after ∧
      ¬ Held cathubPath (filesWith (some (.file []))) after := by
  refine ⟨removed (some (.file [])), ?_, fun held => ?_⟩
  · refine visits_forced (.later (step_pathExists (congrArg Option.isSome (written_backup _))) ?_)
    exact .later step_removeFile (.now _ _)
  · rcases held keepText (filesWith_cathub _) with here | saved
    · rw [removed, Function.update_self] at here
      cases here
    · rw [removed, Function.update_of_ne cathubPath.backup_ne, written_backup] at saved
      cases saved

end CatHub.Daemon
