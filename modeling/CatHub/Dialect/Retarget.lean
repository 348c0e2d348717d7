/-
# CatHub.Dialect.Retarget — no client of a foreign dialect moves a VFO.

`FR` and `FT` frames select the receive and the transmit VFO; a program that sends them while it only
polls makes the radio swing between A and B.  The native backend sends them for a selected VFO and for
split alone.  A TS-2000 session never asks for either, nor does a Hamlib one outside `set_split_vfo`, and
neither forwards native commands, so that nothing selects a VFO however their requests and the polls
interleave.
-/
import CatHub.Dialect.Desk
import CatHub.Dialect.RawKeying

namespace CatHub.Dialect

open Systems Radio Ptt

open Radio.Ts590 (ascii splitFrame_freq freqVerb)

/-! ## Bytes and operations that select no VFO -/

/-- A verb that selects a VFO, in either case. -/
def Selects (verb : List UInt8) : Prop :=
  verb.map toAsciiUppercase = ascii ['F', 'R'] ∨ verb.map toAsciiUppercase = ascii ['F', 'T']

instance (verb : List UInt8) : Decidable (Selects verb) := inferInstanceAs (Decidable (_ ∨ _))

/-- No command of the byte string selects a VFO. -/
def Stays (bytes : List UInt8) : Prop := ∀ verb ∈ verbs bytes, ¬ Selects verb

instance (bytes : List UInt8) : Decidable (Stays bytes) :=
  inferInstanceAs (Decidable (∀ verb ∈ verbs bytes, ¬ Selects verb))

/-- A poll, or a write that selects no VFO. -/
def StaysPut : OpKind → Prop
  | .poll => True
  | .apply (.setRxVfo _) | .apply (.setSplit ..) => False
  | .apply _ => True
  | .passthrough _ => False

/-- The verbs of a modeled write. -/
def writeVerbs : StateMutation → List (List UInt8)
  | .setRxVfo _ | .setSplit .. => [ascii ['F', 'R'], ascii ['F', 'T']]
  | .setVfoFreq vfo _ => [freqVerb vfo]
  | .setMode .. => [ascii ['M', 'D']]
  | .setDataMode .. => [ascii ['D', 'A']]
  | .setPtt .. => [ascii ['T', 'X'], ascii ['R', 'X']]
  | .setRit .. => [ascii ['R', 'T']]
  | .setXit .. => [ascii ['X', 'T']]

theorem verbs_freqSet (vfo : Vfo) (hz : Nat) :
    verbs (Radio.Ts590.freqSet vfo hz) = [freqVerb vfo, []] :=
  verbs_delivered (Radio.Ts590.freqVerb_closed vfo hz) (splitFrame_freq vfo hz (.inr rfl))

theorem verbs_applyBytes (snap : Snapshot) (mutation : StateMutation) :
    ∀ verb ∈ verbs (Radio.Ts590.applyBytes snap mutation),
      verb ∈ [] :: writeVerbs mutation := by
  have selects : ∀ v w, ∀ verb ∈ verbs (Radio.Ts590.rxVfoSet v ++ Radio.Ts590.txVfoSet w),
      verb ∈ [[], ascii ['F', 'R'], ascii ['F', 'T']] := by
    intro v w
    cases v <;> cases w <;> decide
  cases mutation with
  | setVfoFreq vfo hz =>
      intro verb mem
      rw [Radio.Ts590.applyBytes, verbs_freqSet] at mem
      simpa [writeVerbs, or_comm] using mem
  | setRxVfo vfo => exact selects vfo _
  | setSplit enabled txVfo =>
      cases enabled
      · exact selects .a .a
      · exact selects .a _
  | setMode vfo mode =>
      have alone : ∀ mode, ∀ verb ∈ verbs (Radio.Ts590.applyBytes {} (.setMode .a mode)),
          verb ∈ [[], ascii ['M', 'D']] := by
        intro mode
        cases mode <;> decide
      exact alone mode
  | setDataMode vfo on =>
      have alone : ∀ on, ∀ verb ∈ verbs (Radio.Ts590.applyBytes {} (.setDataMode .a on)),
          verb ∈ [[], ascii ['D', 'A']] := by decide
      exact alone on
  | setPtt keyed source =>
      have alone : ∀ keyed source, ∀ verb ∈ verbs (Radio.Ts590.applyBytes {} (.setPtt keyed source)),
          verb ∈ [[], ascii ['T', 'X'], ascii ['R', 'X']] := by
        intro keyed source
        cases keyed <;> cases source <;> decide
      exact alone keyed source
  | setRit offset enabled =>
      have alone : ∀ enabled, ∀ verb ∈ verbs (Radio.Ts590.applyBytes {} (.setRit 0 enabled)),
          verb ∈ [[], ascii ['R', 'T']] := by decide
      exact alone enabled
  | setXit offset enabled =>
      have alone : ∀ enabled, ∀ verb ∈ verbs (Radio.Ts590.applyBytes {} (.setXit 0 enabled)),
          verb ∈ [[], ascii ['X', 'T']] := by decide
      exact alone enabled

/-- The native backend selects a VFO only where that is what is asked of it. -/
theorem stays_applyBytes {mutation : StateMutation} (put : StaysPut (.apply mutation))
    (snap : Snapshot) : Stays (Radio.Ts590.applyBytes snap mutation) := by
  have none : ∀ verb ∈ [] :: writeVerbs mutation, ¬ Selects verb := by
    cases mutation with
    | setRxVfo | setSplit => exact put.elim
    | setVfoFreq vfo hz =>
        dsimp only [writeVerbs]
        cases vfo <;> decide
    | _ =>
        dsimp only [writeVerbs]
        decide
  exact fun verb mem => none verb (verbs_applyBytes snap mutation verb mem)

theorem carries_stays : Carries ts590Backend StaysPut Stays where
  operation kind put := by
    refine asks_execute ?_
    cases kind with
    | poll => decide
    | apply mutation => exact stays_applyBytes put
    | passthrough raw => exact put.elim
  poll := trivial
  receive := trivial
  enable bytes enable := by
    obtain rfl := Option.some.inj enable
    decide

/-! ## Requests that select no VFO -/

section
variable {ctx : Context}

theorem asks_applyModeled_submits {mutation : StateMutation} {cls : CommandClass}
    (put : StaysPut (.apply mutation)) :
    (applyModeled ctx mutation cls).Asks (Question.Submits StaysPut) :=
  asks_applyModeled_of (fun _ => submits_of_not_submit) (fun _ _ _ => put)

theorem covers_stays (ctx : Context) :
    Covers ctx (fun session => session.Asks (Question.Submits StaysPut)) where
  done _ := trivial
  ask {q} _ harmless rest := by
    refine ⟨?_, rest⟩
    cases q with
    | tryKey | unkey | submit => exact harmless.elim
    | _ => trivial
  written {mutation} writable := by
    refine (asks_applyModeled_submits ?_).bind (fun _ => trivial)
    cases mutation with
    | setVfoFreq | setMode | setPtt => trivial
    | _ => exact writable.elim

end

namespace HamlibNet

open Radio.Ts590 (trim isWhitespace)

variable {ctx : Context}

/-- The word of a line that names its command. -/
def commandWord (line : List UInt8) : Option (List Char) :=
  match splitErp (trim (requestText line)) with
  | some (_, rest) => (words isWhitespace rest).head?
  | none => (words isWhitespace (requestText line)).head?

/-- The line asks for a split. -/
def SetsSplit (line : List UInt8) : Prop := (commandWord line).bind Command.parse = some .setSplitVfo

theorem commandWord_eq (line : List UInt8) : commandWord line = (lineWords line).head? := by
  unfold commandWord lineWords
  cases splitErp (trim (requestText line)) <;> rfl

/-- Only `set_split_vfo` asks for a VFO. -/
theorem staysPut_of_asksFor {line : List UInt8} {mutation : StateMutation} (other : ¬ SetsSplit line)
    (asks : AsksFor line mutation) : StaysPut (.apply mutation) := by
  obtain ⟨word, args, command, text, parsed, requested⟩ := asks
  cases mutation with
  | setRxVfo vfo => cases command <;> exact requested.elim
  | setSplit enabled txVfo =>
      cases command with
      | setSplitVfo =>
          refine absurd ?_ other
          rw [SetsSplit, commandWord_eq, text, List.head?_cons, Option.bind_some, parsed]
      | _ => exact requested.elim
  | _ => trivial

theorem asks_handle {line : List UInt8} (other : ¬ SetsSplit line) :
    (handle line ctx).Asks (Question.Submits StaysPut) :=
  LetsThrough.handle ⟨fun _ => submits_of_not_submit,
    fun _ asks _ _ => staysPut_of_asksFor other asks⟩

end HamlibNet

/-! ## Every run -/

/-- A request to a TS-2000 endpoint, or one other than `set_split_vfo` to a Hamlib endpoint. -/
def Foreign (endpoint : FrontEnd × Context) (bytes : List UInt8) : Prop :=
  endpoint.1 = .ts2000 ∨ endpoint.1 = .hamlibNet ∧ ¬ HamlibNet.SetsSplit bytes

theorem asks_foreign {endpoint : FrontEnd × Context} {bytes : List UInt8}
    (foreign : Foreign endpoint bytes) :
    (endpoint.1.handle bytes endpoint.2).Asks (Question.Submits StaysPut) := by
  obtain ⟨front, ctx⟩ := endpoint
  rcases foreign with rfl | ⟨rfl, other⟩
  · exact (covers_stays ctx).ts2000
  · exact (HamlibNet.asks_handle other).bind (fun _ => trivial)

/-- **No VFO is ever selected.**  Whatever TS-2000 and Hamlib clients send, however it interleaves with
polls, with the radio's own reports, with disconnects and with the watchdog, the native backend submits
no `FR` and no `FT`. -/
theorem never_retargets {endpoint : Nat → FrontEnd × Context} {start stop : Desk}
    {history : List (Transition Desk DeskInput (Option (List UInt8)))} (fresh : start.Fresh)
    (run : (desk ts590Backend endpoint).Execution start history stop)
    (foreign : ∀ e ∈ history, ∀ sessionId bytes, e.input = .request sessionId bytes →
      Foreign (endpoint sessionId) bytes) :
    ∀ bytes ∈ stop.wire, Stays bytes :=
  confined_run carries_stays fresh run
    (fun e mem sessionId bytes request => asks_foreign (foreign e mem sessionId bytes request))

/-- A TS-2000 client that may do anything sets the mode, and the write goes out. -/
theorem never_retargets_mode : ∃ (endpoint : Nat → FrontEnd × Context)
    (history : List (Transition Desk DeskInput (Option (List UInt8)))) (stop : Desk),
    (desk ts590Backend endpoint).Execution { ptt := { maxTx := 0 } } history stop ∧
      stop.wire = [ascii ['M', 'D', '3', ';']] ∧ ∀ bytes ∈ stop.wire, Stays bytes := by
  let endpoint : Nat → FrontEnd × Context := fun sessionId =>
    (.ts2000, ⟨sessionId, ⟨true, true, true, true, true⟩, true, true, false, []⟩)
  let inputs : List DeskInput :=
    [.request 1 (ascii ['M', 'D', '3', ';']), .go (.session 1), .go (.session 1), .go (.session 1),
      .select, .work, .link (.ok []), .work, .finish, .go (.session 1)]
  have enabled : ((desk ts590Backend endpoint).exec { ptt := { maxTx := 0 } } inputs).isSome := rfl
  have run := Machine.execution_exec (desk ts590Backend endpoint) { ptt := { maxTx := 0 } } inputs enabled
  refine ⟨endpoint, _, _, run, rfl, never_retargets ⟨fun _ => rfl, rfl, rfl, rfl⟩ run ?_⟩
  exact fun _ _ _ _ _ => .inl rfl

end CatHub.Dialect
