/-
# CatHub.Systems.Typestate — programs that keep to a protocol.

A protocol has phases.  It says which question may be asked in a phase and to which phase the answer leads.
A program follows it when, whatever it is told, it asks only what its phase allows, and ends with a result
that fits the phase it has come to.  Where several such programs take turns at one state, an invariant of the
state needs to know of each of them no more than its phase.
-/
import CatHub.Systems.Program

namespace CatHub.Systems

variable {ι φ : Type} {ω : ι → Type} {α β ε : Type}

/-- The phases `φ` of a protocol for the questions `ι`. -/
structure Typestate (ι : Type) (ω : ι → Type) (φ : Type) where
  allows : φ → ι → Prop
  after : φ → (question : ι) → ω question → φ

namespace Program

/-- From the phase on, the program keeps to the protocol, and `Q` holds where it ends. -/
def Follows (protocol : Typestate ι ω φ) (Q : α → φ → Prop) : φ → Program ι ω α → Prop
  | phase, .done a => Q a phase
  | phase, .ask q next =>
      protocol.allows phase q ∧ ∀ answer, (next answer).Follows protocol Q (protocol.after phase q answer)

variable {protocol : Typestate ι ω φ} {Q : α → φ → Prop} {K : β → φ → Prop} {phase : φ}

@[simp] theorem follows_done {a : α} :
    (Program.done a : Program ι ω α).Follows protocol Q phase ↔ Q a phase := Iff.rfl

@[simp] theorem follows_ask {q : ι} {next : ω q → Program ι ω α} :
    (Program.ask q next).Follows protocol Q phase ↔ protocol.allows phase q ∧
      ∀ answer, (next answer).Follows protocol Q (protocol.after phase q answer) := Iff.rfl

theorem Follows.bind {program : Program ι ω α} {f : α → Program ι ω β}
    (first : program.Follows protocol Q phase)
    (rest : ∀ a phase, Q a phase → (f a).Follows protocol K phase) :
    (program >>= f).Follows protocol K phase := by
  induction program generalizing phase with
  | done a => exact rest a phase first
  | ask q next ih => exact ⟨first.1, fun answer => ih answer (first.2 answer)⟩

/-- A program that fails has nothing more to do. -/
theorem Follows.bindExcept {program : ExceptT ε (Program ι ω) α} {f : α → ExceptT ε (Program ι ω) β}
    {Q : Except ε α → φ → Prop} {K : Except ε β → φ → Prop} (first : program.run.Follows protocol Q phase)
    (fails : ∀ e phase, Q (.error e) phase → K (.error e) phase)
    (rest : ∀ a phase, Q (.ok a) phase → (f a).run.Follows protocol K phase) :
    (program >>= f).run.Follows protocol K phase := by
  rw [ExceptT.run_bind]
  refine first.bind ?_
  rintro (e | a) phase ends
  · exact fails e phase ends
  · exact rest a phase ends

end Program

end CatHub.Systems
