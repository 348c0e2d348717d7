/-
# CatHub.Daemon.Migration — moving the `[cat_hub]` section into a file of its own.

`migrateToStandalone` is a program over file operations.  Each of them may fail, and a write or a copy
that fails may leave anything in its target; between two of them the process may stop.  The TOML
library and the conversion of its documents enter through `Toml`.

A path is a directory and a file name, so that the paths of a run that name one file are equal.  The
names of the backup and the temporary file are made from the file name as the source makes them.
-/
import Mathlib.Logic.Function.Basic
import CatHub.Systems.Program
import CatHub.Daemon.Config

namespace CatHub.Daemon

open CatHub.Systems
open CatHub.Radio.Ts590 (fromUtf8)

/-! ## Paths -/

structure Path (δ : Type) where
  directory : δ
  name : List UInt8
  deriving DecidableEq

/-- The file name before and behind its last dot.  A name that only starts with a dot has no
extension. -/
def splitAtDot (name : List UInt8) : List UInt8 × Option (List UInt8) :=
  match name.reverse.dropWhile (· != 0x2E) with
  | [] => (name, none)
  | [_] => (name, none)
  | _ :: before => (before.reverse, some (name.reverse.takeWhile (· != 0x2E)).reverse)

namespace Path

variable {δ : Type}

/-- `path` with `.bak` behind it. -/
def backup (path : Path δ) : Path δ := { path with name := path.name ++ [0x2E, 0x62, 0x61, 0x6B] }

/-- `path` with `.tmp` behind its extension, which is `toml` where there is none that is text. -/
def temporary (path : Path δ) : Path δ :=
  let extension := ((splitAtDot path.name).2.filter (fun e => (fromUtf8 e).isSome)).getD
    [0x74, 0x6F, 0x6D, 0x6C]
  { path with name := (splitAtDot path.name).1 ++ 0x2E :: (extension ++ [0x2E, 0x74, 0x6D, 0x70]) }

end Path

/-! ## The file system -/

inductive Node where
  | file (contents : List UInt8)
  | directory
  deriving DecidableEq

abbrev FileSystem (δ : Type) := Path δ → Option Node

inductive FileOp (δ : Type) where
  | readToString (path : Path δ)
  | pathExists (path : Path δ)
  | createDirAll (directory : δ)
  | write (path : Path δ) (contents : List UInt8)
  | copy (source target : Path δ)
  | removeFile (path : Path δ)
  | rename (source target : Path δ)

/-- The text that was read, whether the path is there, or whether the operation was done. -/
def FileOp.Answer {δ : Type} : FileOp δ → Type
  | .readToString _ => Option (List UInt8)
  | _ => Bool

/-- What an operation may do and answer.  A failed query says that nothing is there; a failed write or
copy leaves anything in its target; what else fails changes nothing. -/
def FileOp.Effect {δ : Type} [DecidableEq δ] (fs : FileSystem δ) :
    (op : FileOp δ) → op.Answer → FileSystem δ → Prop
  | .readToString path, answer, after =>
      after = fs ∧ ∀ text, answer = some text → fs path = some (.file text)
  | .pathExists path, answer, after => after = fs ∧ (answer = true → (fs path).isSome = true)
  | .createDirAll directory, _, after =>
      ∀ path, after path = fs path ∨
        fs path = none ∧ after path = some .directory ∧ path.directory ≠ directory
  | .write path contents, true, after => after = Function.update fs path (some (.file contents))
  | .write path _, false, after => ∀ other, other ≠ path → after other = fs other
  | .copy source target, true, after =>
      ∃ contents, fs source = some (.file contents) ∧
        after = Function.update fs target (some (.file contents))
  | .copy source target, false, after =>
      after = fs ∨ (∃ contents, fs source = some (.file contents)) ∧
        ∀ other, other ≠ target → after other = fs other
  | .removeFile path, true, after => after = Function.update fs path none
  | .removeFile _, false, after => after = fs
  | .rename source target, true, after =>
      ∃ node, fs source = some node ∧
        after = Function.update (Function.update fs source none) target (some node)
  | .rename _ _, false, after => after = fs

/-- A query that does not fail. -/
def FileOp.Truthful {δ : Type} (fs : FileSystem δ) : (op : FileOp δ) → op.Answer → Prop
  | .pathExists path, answer => answer = (fs path).isSome
  | _, _ => True

/-! ## The migration -/

/-- The TOML library and the conversion of its documents. -/
structure Toml where
  Value : Type
  Config : Type
  fromStr : List UInt8 → Except ConfigError Value
  /-- The top-level `cat_hub` table. -/
  get : Value → Option Value
  tryInto : Value → Except ConfigError Config
  validate : Config → Except ConfigError Unit
  toStringPretty : Config → Except ConfigError (List UInt8)
  /-- The text without its `cat_hub` table. -/
  remove : List UInt8 → Except ConfigError (List UInt8)

variable {δ : Type}

abbrev FileCall (δ α : Type) := ExceptT ConfigError (Program (FileOp δ) FileOp.Answer) α

def operate (op : FileOp δ) : FileCall δ op.Answer := ExceptT.lift (Program.perform op)

/-- Fail as an input or output error where an operation was not done. -/
def settle (done : Bool) : FileCall δ Unit := if done then pure () else throw .io

def readToString (path : Path δ) : FileCall δ (List UInt8) := do
  let answer : Option (List UInt8) ← operate (FileOp.readToString path)
  match answer with
  | some text => pure text
  | none => throw .io

def pathExists (path : Path δ) : FileCall δ Bool := operate (FileOp.pathExists path)

def createDirAll (directory : δ) : FileCall δ Unit := do
  settle (← operate (FileOp.createDirAll directory))

def write (path : Path δ) (contents : List UInt8) : FileCall δ Unit := do
  settle (← operate (FileOp.write path contents))

def copy (source target : Path δ) : FileCall δ Unit := do
  settle (← operate (FileOp.copy source target))

def removeFile (path : Path δ) : FileCall δ Unit := do
  settle (← operate (FileOp.removeFile path))

/-- The part of `atomicWrite` that backs up and removes what stands at `path`. -/
def makeRoom (path : Path δ) : FileCall δ Unit := do
  let saved ← pathExists path.backup
  (if saved then pure () else copy path path.backup)
  removeFile path

def atomicWrite (path : Path δ) (contents : List UInt8) (replace : Bool) : FileCall δ Unit := do
  createDirAll path.directory
  write path.temporary contents
  (if replace then do
    let there ← pathExists path
    (if there then makeRoom path else pure ())
  else pure ())
  let renamed : Bool ← operate (FileOp.rename path.temporary path)
  if renamed then pure ()
  else
    let _ ← operate (FileOp.removeFile path.temporary)
    throw .io

namespace Toml

variable (toml : Toml)

def parseDocument (text : List UInt8) : Except ConfigError toml.Config := do
  let document ← toml.fromStr text
  let config ← toml.tryInto ((toml.get document).getD document)
  toml.validate config
  return config

end Toml

/-- The part of the migration that takes the section out of the source. -/
def removeSection (toml : Toml) (source : Path δ) (sourceText : List UInt8) : FileCall δ Unit := do
  let editable ← ExceptT.mk (.done (toml.remove sourceText))
  copy source source.backup
  atomicWrite source editable true

/-- Extract a unified `[cat_hub]` section into a standalone file. -/
def migrateToStandalone (toml : Toml) (display : Path δ → String) (source destination : Path δ)
    (force removeSourceSection : Bool) : FileCall δ Unit := do
  let sourceText ← readToString source
  let config ← ExceptT.mk (.done (toml.parseDocument sourceText))
  let document ← ExceptT.mk (.done (toml.fromStr sourceText))
  (if (toml.get document).isNone then
    throw (.invalid "migration source does not contain a top-level [cat_hub] section")
  else pure ())
  let there ← pathExists destination
  (if there && !force then
    throw (.invalid ("migration destination already exists: " ++ display destination))
  else pure ())
  (if removeSourceSection then do
    let saved ← pathExists source.backup
    (if saved then throw (.invalid ("source backup already exists: " ++ display source.backup))
    else pure ())
  else pure ())
  let standalone ← ExceptT.mk (.done (toml.toStringPretty config))
  atomicWrite destination standalone force
  if removeSourceSection then removeSection toml source sourceText else pure ()

end CatHub.Daemon
