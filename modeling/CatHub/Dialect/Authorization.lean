/-
# CatHub.Dialect.Authorization — nothing reaches the scheduler that its endpoint may not send.

`Authorized` says what an endpoint may submit: a modeled write that its permissions allow, a bare
query with `read`, and any other native command with `config_write`.  A refusal is an error reply that
neither a failure of the radio nor an answer of it accounts for.  `Permitted` joins the two halves of
the law for a part of a session; it passes through questions, writes and relays, so that each front
end is settled along its own text.
-/
import CatHub.Dialect.HamlibNet
import CatHub.Dialect.Kenwood
import Mathlib.Data.List.TakeWhile

namespace CatHub.Dialect

open Systems Radio Ptt

open Radio.Ts590 (ascii terminator splitFrame isAsciiAlphabetic)

/-! ## What may be submitted -/

/-- A native command that is nothing but a verb and the terminator. -/
def BareVerb (raw : List UInt8) : Prop :=
  ∃ verb, (∀ byte ∈ verb, isAsciiAlphabetic byte = true) ∧ raw = verb ++ [terminator]

/-- What an endpoint may submit. -/
def Authorized (perms : EndpointPermissions) : Question → Prop
  | .submit _ _ (.apply mutation) => perms.allowsMutation (classOf mutation) mutation = true
  | .submit _ _ (.passthrough raw) =>
      (BareVerb raw → perms.read = true) ∧ (¬ BareVerb raw → perms.configWrite = true)
  | .submit _ _ .poll => False
  | _ => True

/-- A key or unkey needs the permission to transmit, and the frequency permission alone admits
frequencies only. -/
def Admits (perms : EndpointPermissions) : StateMutation → Prop
  | .setPtt .. => perms.ptt = true
  | .setVfoFreq .. => perms.write = true ∨ perms.frequencyWrite = true
  | _ => perms.write = true

theorem allowsMutation_classOf {perms : EndpointPermissions} {mutation : StateMutation} :
    perms.allowsMutation (classOf mutation) mutation = true ↔ Admits perms mutation := by
  cases mutation <;>
    simp [EndpointPermissions.allowsMutation, EndpointPermissions.allows, classOf, isSetPtt, Admits]

/-! ## Refusals -/

abbrev Step := Program.Exchange Question Question.Answer World

/-- What the radio said in an exchange, if it was asked. -/
def fromRadio : Step → Option (Except BackendError (List UInt8))
  | ⟨_, .submit _ _ _, answer, _⟩ => some answer
  | _ => none

/-- The exchange submitted nothing and left the lease alone. -/
def Idle (e : Step) : Prop := fromRadio e = none ∧ e.after.ptt = e.before.ptt

/-- The radio accounts for the reply: it failed, or it gave that very reply. -/
def Accounts (reply : List UInt8) (e : Step) : Prop :=
  (∃ fault, fromRadio e = some (.error fault)) ∨ fromRadio e = some (.ok reply)

/-- A part of a session submits only what its endpoint may, and nothing where it ends in a reply of
`errors` that the radio does not account for. -/
structure Permitted (perms : EndpointPermissions) (errors : List UInt8 → Prop)
    (session : Session (List UInt8)) : Prop where
  asks : session.Asks (Authorized perms)
  refusal : ∀ {trace reply}, Runs session trace reply → errors reply →
    (∀ e ∈ trace, ¬ Accounts reply e) → ∀ e ∈ trace, Idle e

namespace Permitted

variable {ctx : Context} {perms : EndpointPermissions} {errors : List UInt8 → Prop}

theorem done (reply : List UInt8) : Permitted perms errors (.done reply) where
  asks := trivial
  refusal run _ _ := by
    obtain ⟨rfl, -⟩ := Program.run_done run
    exact List.forall_mem_nil _

theorem ite {c : Prop} [Decidable c] {a b : Session (List UInt8)}
    (yes : c → Permitted perms errors a) (no : ¬ c → Permitted perms errors b) :
    Permitted perms errors (if c then a else b) := by
  split
  · exact yes ‹_›
  · exact no ‹_›

/-- A question that leaves the lease alone. -/
theorem ask {q : Question} {next : q.Answer → Session (List UInt8)} (harmless : q.Harmless)
    (rest : ∀ answer, Permitted perms errors (next answer)) :
    Permitted perms errors (.ask q next) where
  asks := by
    refine ⟨?_, fun answer => (rest answer).asks⟩
    cases q <;> trivial
  refusal run refused unaccounted := by
    obtain ⟨before, answer, after, trace, step, later, rfl⟩ := Program.run_ask run
    rw [List.forall_mem_cons] at unaccounted ⊢
    refine ⟨?_, (rest answer).refusal later refused unaccounted.2⟩
    cases q with
    | setAi on =>
        obtain rfl := step
        exact ⟨rfl, rfl⟩
    | snapshot | isRedundant _ | aiOn | owner =>
        obtain ⟨-, rfl⟩ := step
        exact ⟨rfl, rfl⟩
    | tryKey | unkey | submit => exact harmless.elim

end Permitted

/-! ## Writes and relays -/

theorem asks_applyModeled {ctx : Context} {mutation : StateMutation} {cls : CommandClass}
    (fits : cls = classOf mutation) :
    (applyModeled ctx mutation cls).Asks (Authorized ctx.perms) := by
  subst fits
  refine asks_applyModeled_of (fun q other => ?_) (fun allowed _ _ => allowed)
  cases q with
  | submit id priority kind => exact absurd rfl (other id priority kind)
  | _ => trivial

/-- How a modeled write ends: denied at once, done, refused by the lease, or failed by the radio. -/
inductive WriteEnd (ctx : Context) (mutation : StateMutation) (cls : CommandClass) (trace : Trace) :
    ApplyOutcome → Prop
  | denied (h : ctx.perms.allowsMutation cls mutation = false) (nothing : trace = []) :
      WriteEnd ctx mutation cls trace .denied
  | ok (h : ctx.perms.allowsMutation cls mutation = true) : WriteEnd ctx mutation cls trace .ok
  | refused {outcome : ApplyOutcome} (keys : isSetPtt mutation = true) (idle : ∀ e ∈ trace, Idle e) :
      WriteEnd ctx mutation cls trace outcome
  | failed {outcome : ApplyOutcome} {e : Step} {fault : BackendError} (mem : e ∈ trace)
      (h : fromRadio e = some (.error fault)) : WriteEnd ctx mutation cls trace outcome

theorem runs_applyModeled {ctx : Context} {mutation : StateMutation} {cls : CommandClass}
    {trace : Trace} {outcome : ApplyOutcome} (fits : cls = classOf mutation)
    (run : Runs (applyModeled ctx mutation cls) trace outcome) :
    WriteEnd ctx mutation cls trace outcome := by
  subst fits
  unfold applyModeled at run
  cases allowed : ctx.perms.allowsMutation (classOf mutation) mutation with
  | false =>
      rw [allowed] at run
      obtain ⟨rfl, rfl⟩ := Program.run_done run
      exact .denied allowed rfl
  | true =>
      rw [allowed] at run
      obtain ⟨before, redundant, after, rest, step, goesOn, rfl⟩ := Program.run_ask run
      obtain ⟨-, rfl⟩ := step
      have first : Idle ⟨after, .isRedundant mutation, redundant, after⟩ := ⟨rfl, rfl⟩
      cases redundant with
      | true =>
          obtain ⟨rfl, rfl⟩ := Program.run_done goesOn
          exact .ok allowed
      | false =>
          cases mutation with
          | setPtt keyed source =>
              cases keyed with
              | false =>
                  obtain ⟨_, result, _, _, -, unkeys, rfl⟩ := Program.run_ask goesOn
                  obtain ⟨_, _, _, _, -, ends, rfl⟩ := Program.run_ask unkeys
                  obtain ⟨rfl, rfl⟩ := Program.run_done ends
                  cases result with
                  | ok bytes => exact .ok allowed
                  | error fault => exact .failed (List.mem_cons_of_mem _ List.mem_cons_self) rfl
              | true =>
                  obtain ⟨_, key, _, _, took, later, rfl⟩ := Program.run_ask goesOn
                  rcases key with denied | _
                  · -- a refused key leaves the lease as it is
                    have kept := PttManager.tryKey_error took.1.symm
                    cases denied <;>
                    · obtain ⟨rfl, rfl⟩ := Program.run_done later
                      refine .refused rfl ?_
                      rw [List.forall_mem_cons, List.forall_mem_singleton]
                      exact ⟨first, rfl, kept⟩
                  · obtain ⟨_, result, _, _, -, ends, rfl⟩ := Program.run_ask later
                    cases result with
                    | ok bytes =>
                        obtain ⟨rfl, rfl⟩ := Program.run_done ends
                        exact .ok allowed
                    | error fault =>
                        exact .failed (List.mem_cons_of_mem _ (List.mem_cons_of_mem _
                          List.mem_cons_self)) rfl
          | _ =>
              obtain ⟨_, result, _, _, -, ends, rfl⟩ := Program.run_ask goesOn
              obtain ⟨rfl, rfl⟩ := Program.run_done ends
              cases result with
              | ok bytes => exact .ok allowed
              | error fault => exact .failed (List.mem_cons_of_mem _ List.mem_cons_self) rfl

namespace Permitted

variable {ctx : Context} {perms : EndpointPermissions} {errors : List UInt8 → Prop}

/-- A modeled write whose success is no error reply. -/
theorem applied {mutation : StateMutation} {cls : CommandClass} {f : ApplyOutcome → List UInt8}
    (fits : cls = classOf mutation) (success : ¬ errors (f .ok)) :
    Permitted ctx.perms errors (applyModeled ctx mutation cls >>= fun outcome => .done (f outcome)) where
  asks := (asks_applyModeled fits).bind (fun _ => trivial)
  refusal run refused unaccounted := by
    obtain ⟨trace, outcome, rest, wrote, ends, rfl⟩ := Program.run_bind run
    obtain ⟨rfl, rfl⟩ := Program.run_done ends
    rw [List.append_nil] at unaccounted ⊢
    cases runs_applyModeled fits wrote with
    | denied _ nothing => exact nothing ▸ List.forall_mem_nil _
    | ok => exact absurd refused success
    | refused _ idle => exact idle
    | failed mem failed => exact absurd (.inl ⟨_, failed⟩) (unaccounted _ mem)

/-- A native command that fits its class is forwarded. -/
theorem forwarded {raw : List UInt8} {cls : CommandClass}
    (fits : ctx.perms.allows cls = true → Authorized ctx.perms (.submit 0 .read (.passthrough raw))) :
    Permitted ctx.perms errors (passthrough ctx raw cls) := by
  unfold passthrough
  cases allowed : ctx.perms.allows cls with
  | false => exact done errReply
  | true =>
      constructor
      · refine ⟨fits allowed, fun result => ?_⟩
        cases result <;> trivial
      · intro trace reply run _ unaccounted
        obtain ⟨_, result, _, _, -, ends, rfl⟩ := Program.run_ask run
        -- whatever the radio answered accounts for the reply
        refine absurd ?_ (unaccounted _ List.mem_cons_self)
        cases result with
        | error fault => exact .inl ⟨fault, rfl⟩
        | ok bytes =>
            obtain ⟨-, rfl⟩ := Program.run_done ends
            exact .inr rfl

end Permitted

/-! ## The Kenwood front ends -/

/-- A delivered frame is a bare verb exactly when no payload is split off it. -/
theorem bareVerb_iff {body verb payload : List UInt8} (closed : terminator ∉ body)
    (split : splitFrame (body ++ [terminator]) = some (verb, payload)) :
    BareVerb (body ++ [terminator]) ↔ payload.isEmpty = true := by
  have whole : (body ++ [terminator]).takeWhile (· != terminator) = body := by
    rw [List.takeWhile_append_of_pos]
    · simp
    · intro byte mem
      have ne : byte ≠ terminator := fun same => closed (same ▸ mem)
      simpa using ne
  rw [splitFrame, whole] at split
  split at split
  · cases split
  · simp only [Option.some.injEq, Prod.mk.injEq] at split
    obtain ⟨-, rfl⟩ := split
    rw [List.isEmpty_iff, List.dropWhile_eq_nil_iff]
    constructor
    · rintro ⟨verb, letters, same⟩
      rw [List.append_cancel_right same]
      exact letters
    · intro letters
      exact ⟨body, letters, rfl⟩

namespace Permitted

variable {ctx : Context} {perms : EndpointPermissions}

theorem covers : Covers ctx (Permitted ctx.perms (· = errReply)) where
  done := done
  ask := ask
  written _ := applied rfl (by decide)

theorem forward {body verb payload : List UInt8} (closed : terminator ∉ body)
    (split : splitFrame (body ++ [terminator]) = some (verb, payload)) :
    Permitted ctx.perms (· = errReply) (forward ctx (body ++ [terminator]) payload) := by
  refine forwarded (fun allowed => ?_)
  have bare := bareVerb_iff closed split
  cases empty : payload.isEmpty with
  | true =>
      rw [empty] at allowed bare
      exact ⟨fun _ => allowed, fun other => absurd (bare.mpr rfl) other⟩
  | false =>
      rw [empty] at allowed bare
      exact ⟨fun verb => absurd (bare.mp verb) (by decide), fun _ => allowed⟩

end Permitted

/-! ## The Hamlib front end -/

/-- A status other than success at the end of a reply. -/
def HamlibNet.Refusing (reply : List UInt8) : Prop :=
  HamlibNet.rprtEinval <:+ reply ∨ HamlibNet.rprtEnavail <:+ reply

/-- A reply that ends in success does not end in a refusal. -/
theorem not_refusing {reply : List UInt8} (ok : HamlibNet.rprtOk <:+ reply) :
    ¬ HamlibNet.Refusing reply := by
  rintro (einval | enavail)
  · exact absurd (List.suffix_of_suffix_length_le ok einval (by decide)) (by decide)
  · exact absurd (List.suffix_of_suffix_length_le ok enavail (by decide)) (by decide)

namespace Permitted

open HamlibNet

variable {ctx : Context} {errors : List UInt8 → Prop} {wrap : List UInt8 → List UInt8}

theorem write {mutation : StateMutation} {cls : CommandClass} (fits : cls = classOf mutation)
    (success : ¬ errors (wrap rprtOk)) :
    Permitted ctx.perms errors (write ctx mutation cls >>= fun bytes => .done (wrap bytes)) := by
  rw [HamlibNet.write, Program.bind_assoc]
  exact applied fits success

/-- The two writes of a mode need the same permission, so the second one is not refused. -/
theorem setMode (rxVfo : Vfo) (token : List Char) (success : ¬ errors (wrap rprtOk)) :
    Permitted ctx.perms errors
      (HamlibNet.setMode ctx rxVfo token >>= fun bytes => .done (wrap bytes)) := by
  unfold HamlibNet.setMode
  dsimp only
  split
  · exact done _
  · rw [Program.bind_assoc]
    constructor
    · refine (asks_applyModeled rfl).bind (fun outcome => ?_)
      split
      · exact (write rfl success).asks
      · trivial
    · intro trace reply run refused unaccounted
      obtain ⟨first, outcome, second, wrote, goesOn, rfl⟩ := Program.run_bind run
      obtain ⟨here, there⟩ := List.forall_mem_append.mp unaccounted
      have base := runs_applyModeled rfl wrote
      split at goesOn
      · rename_i ok
        have allowed : ctx.perms.write = true := by
          cases base with
          | denied => cases ok
          | ok h => exact allowsMutation_classOf.mp h
          | refused keys _ => cases keys
          | failed mem failed => exact absurd (.inl ⟨_, failed⟩) (here _ mem)
        rw [HamlibNet.write, Program.bind_assoc] at goesOn
        obtain ⟨second, outcome', last, wrote', ends, rfl⟩ := Program.run_bind goesOn
        obtain ⟨rfl, rfl⟩ := Program.run_done ends
        rw [List.append_nil] at there
        cases runs_applyModeled rfl wrote' with
        | denied h _ =>
            refine absurd (h.symm.trans (allowsMutation_classOf.mpr ?_)) (by decide)
            exact allowed
        | ok => exact absurd refused success
        | refused keys _ => cases keys
        | failed mem failed => exact absurd (.inl ⟨_, failed⟩) (there _ mem)
      · rename_i notOk
        obtain ⟨rfl, rfl⟩ := Program.run_done goesOn
        rw [List.append_nil]
        cases base with
        | denied _ nothing => exact nothing ▸ List.forall_mem_nil _
        | ok => exact absurd rfl notOk
        | refused keys _ => cases keys
        | failed mem failed => exact absurd (.inl ⟨_, failed⟩) (here _ mem)

theorem setOffset {available : Bool} {args : List (List Char)} {mutation : Int → Bool → StateMutation}
    (fits : ∀ offset enabled, .modeledWrite = classOf (mutation offset enabled))
    (success : ¬ errors (wrap rprtOk)) :
    Permitted ctx.perms errors
      (HamlibNet.setOffset ctx available args mutation >>= fun bytes => .done (wrap bytes)) := by
  unfold HamlibNet.setOffset
  cases available with
  | false => exact done _
  | true =>
      cases args.head?.bind parseI32 with
      | none => exact done _
      | some offset => exact write (fits _ _) success

theorem hamlibSet (snapshot : Snapshot) (args : List (List Char)) (command : Command)
    (success : ¬ errors (wrap rprtOk)) :
    Permitted ctx.perms errors
      (HamlibNet.set ctx snapshot args command >>= fun bytes => .done (wrap bytes)) := by
  cases command with
  | setFreq =>
      unfold HamlibNet.set
      cases args.head?.bind parseFreqHz with
      | none => exact done _
      | some hz => exact write rfl success
  | setMode =>
      unfold HamlibNet.set
      cases args.head? with
      | none => exact done _
      | some token => exact setMode _ token success
  | setSplitVfo =>
      unfold HamlibNet.set
      dsimp only
      split
      · exact done _
      · split
        · exact done _
        · exact write rfl success
  | setPtt =>
      unfold HamlibNet.set
      exact write rfl success
  | setVfo => exact done _
  | setRit => exact setOffset (fun _ _ => rfl) success
  | setXit => exact setOffset (fun _ _ => rfl) success
  | _ => exact done _

/-- A plain command, whatever is made of its reply. -/
theorem dispatchPlain (cmd : List Char) (args : List (List Char))
    {f : LineResult → Session (List UInt8)} (finish : LineResult → List UInt8)
    (ends : ∀ result, f result = .done (finish result)) (success : ¬ errors (finish (.reply rprtOk))) :
    Permitted ctx.perms errors (HamlibNet.dispatchPlain cmd args ctx >>= f) := by
  obtain rfl := funext ends
  refine ask trivial (fun snapshot => ?_)
  dsimp only [Program.bind]
  split
  · exact done _
  · cases parsed : Command.parse cmd with
    | none => exact done _
    | some command =>
        dsimp only
        cases read : readReply ctx snapshot args command with
        | some bytes => exact done _
        | none =>
            have whole := Program.bind_assoc (HamlibNet.set ctx snapshot args command)
              (fun bytes => .done (LineResult.reply bytes)) (fun result => .done (finish result))
            refine Eq.mpr (congrArg (Permitted ctx.perms errors) whole) ?_
            exact @hamlibSet ctx errors (fun bytes => finish (.reply bytes)) snapshot args command
              success

end Permitted

/-- An extended block around a status ends in that status. -/
theorem suffix_plainRecords (sep : Char) (echo : List Char) (outcome : ApplyOutcome) :
    HamlibNet.outcomeRprt outcome <:+ HamlibNet.erpRecords sep
      (HamlibNet.plainRecords echo (HamlibNet.outcomeRprt outcome)) := by
  have block : ∀ (bytes : List UInt8) (text : List Char),
      HamlibNet.fromUtf8Lossy bytes = text ++ ['\n'] → bytes = HamlibNet.encode (text ++ ['\n']) →
      text ≠ [] → (∀ c ∈ text, (c == '\n') = false) → ['R', 'P', 'R', 'T'].isPrefixOf text = true →
      bytes <:+ HamlibNet.erpRecords sep (HamlibNet.plainRecords echo bytes) := by
    intro bytes text decoded encoded some_ solid status
    have records : HamlibNet.plainRecords echo bytes = [echo, text] := by
      rw [HamlibNet.plainRecords, decoded, words_first rfl some_ solid, words_nil]
      simp [status]
    refine ⟨HamlibNet.encode (echo ++ [sep]), ?_⟩
    rw [records, HamlibNet.erpRecords, encoded]
    simp [HamlibNet.encode, List.intercalate]
  have refused := block HamlibNet.rprtEinval ['R', 'P', 'R', 'T', ' ', '-', '1'] (by decide)
    (by decide) (by simp) (by simp) (by decide)
  have done := block HamlibNet.rprtOk HamlibNet.erpOk (by decide) (by decide)
    (by simp [HamlibNet.erpOk]) (by simp [HamlibNet.erpOk]) (by decide)
  cases outcome with
  | ok => exact done
  | _ => exact refused

/-- What an extended request is answered with after the plain command. -/
def extendedReply (sep : Char) (echo : List Char) : HamlibNet.LineResult → List UInt8
  | .quit => []
  | .reply bytes => HamlibNet.erpRecords sep (HamlibNet.plainRecords echo bytes)

namespace Permitted

variable {ctx : Context}

theorem handleExt (sep : Char) (rest : List Char) :
    Permitted ctx.perms HamlibNet.Refusing (HamlibNet.handleExt sep rest ctx) := by
  unfold HamlibNet.handleExt
  split
  · exact done _
  · rename_i cmd args _
    refine ask trivial (fun snapshot => ?_)
    dsimp only
    refine ite (fun _ => done _) (fun _ => ite (fun _ => done _) (fun _ => ?_))
    split
    · exact done _
    · refine dispatchPlain cmd args (extendedReply sep (HamlibNet.extEcho cmd args)) ?_ ?_
      · rintro (bytes | _) <;> rfl
      · exact not_refusing (suffix_plainRecords sep _ .ok)

theorem hamlibNet (line : List UInt8) :
    Permitted ctx.perms HamlibNet.Refusing
      (HamlibNet.handle line ctx >>= fun result => .done (HamlibNet.sent result)) := by
  unfold HamlibNet.handle HamlibNet.handleLine
  split
  · rename_i sep rest _
    rw [Program.bind_assoc]
    exact (Program.bind_done (HamlibNet.handleExt sep rest ctx)).symm ▸ handleExt sep rest
  · split
    · exact done _
    · rename_i cmd args _
      exact dispatchPlain cmd args HamlibNet.sent (fun _ => rfl) (not_refusing (List.suffix_refl _))

end Permitted

/-! ## All front ends -/

/-- The dialects that a client may be served in. -/
inductive FrontEnd where
  | ts590
  | ts2000
  | transparent
  | hamlibNet
  deriving DecidableEq, Repr

namespace FrontEnd

/-- The requests that a front end takes out of what its client sends. -/
def requests : FrontEnd → List UInt8 → List (List UInt8)
  | .hamlibNet, stream => HamlibNet.requestLines stream []
  | _, stream => requestFrames stream

/-- Handle one request; what is returned is sent to the client. -/
def handle : FrontEnd → List UInt8 → Context → Session (List UInt8)
  | .ts590, request, ctx => ts590Dialect.handle request ctx
  | .ts2000, request, ctx => ts2000Dialect.handle request ctx
  | .transparent, request, ctx => transparentTs590Dialect.handle request ctx
  | .hamlibNet, line, ctx => do
      let result ← HamlibNet.handle line ctx
      return HamlibNet.sent result

/-- The error replies of a front end. -/
def Errs : FrontEnd → List UInt8 → Prop
  | .hamlibNet => HamlibNet.Refusing
  | _ => (· = errReply)

/-- An error reply that the radio does not account for. -/
def Refused (front : FrontEnd) (trace : Trace) (reply : List UInt8) : Prop :=
  front.Errs reply ∧ ∀ e ∈ trace, ¬ Accounts reply e

theorem permitted (front : FrontEnd) {stream request : List UInt8} (ctx : Context)
    (delivered : request ∈ front.requests stream) :
    Permitted ctx.perms front.Errs (front.handle request ctx) := by
  cases front with
  | hamlibNet => exact Permitted.hamlibNet request
  | ts2000 => exact Permitted.covers.ts2000
  | ts590 =>
      obtain ⟨body, closed, rfl⟩ := requestFrames_closed delivered
      exact Permitted.covers.ts590 (fun _ _ split _ _ => Permitted.forward closed split)
  | transparent =>
      obtain ⟨body, closed, rfl⟩ := requestFrames_closed delivered
      exact Permitted.covers.transparent (fun _ _ split _ _ => Permitted.forward closed split)

/-- Whatever a client sends, its session submits only what the endpoint may, and a refused request
submits nothing and leaves the lease alone. -/
theorem authorization_sound (front : FrontEnd) (ctx : Context) {stream request reply : List UInt8}
    {trace : Trace} (delivered : request ∈ front.requests stream)
    (run : Runs (front.handle request ctx) trace reply) :
    (∀ e ∈ trace, Authorized ctx.perms e.question) ∧
      (∀ e ∈ trace, ∀ sessionId priority mutation,
        e.question = .submit sessionId priority (.apply mutation) → Admits ctx.perms mutation) ∧
      (front.Refused trace reply → ∀ e ∈ trace, Idle e) := by
  have permitted := front.permitted ctx delivered
  have authorized := run.asked permitted.asks
  refine ⟨authorized, ?_, fun refused => permitted.refusal run refused.1 refused.2⟩
  intro e mem sessionId priority mutation asked
  have ok := authorized e mem
  rw [asked] at ok
  exact allowsMutation_classOf.mp ok

/-- An endpoint that may only look. -/
def onlyReads : EndpointPermissions := ⟨true, false, false, false, false⟩

/-- A mirror that may only look asks for the power, and the radio is asked for it. -/
theorem authorization_sound_query :
    Authorized onlyReads (.submit 0 .read (.passthrough (ascii ['P', 'C', ';']))) := by
  let ctx : Context := ⟨0, onlyReads, true, true, false, []⟩
  let w : World := ⟨{}, { maxTx := 0 }, false, 0⟩
  have run : Runs (FrontEnd.transparent.handle (ascii ['P', 'C', ';']) ctx)
      [⟨w, .submit 0 .read (.passthrough (ascii ['P', 'C', ';'])), .ok (ascii ['P', 'C', ';']), w⟩]
      (ascii ['P', 'C', ';']) := .ask trivial (.done _)
  have sound := @authorization_sound .transparent ctx (ascii ['P', 'C', ';']) _ _ _ (by decide) run
  exact sound.1 _ List.mem_cons_self

end FrontEnd

end CatHub.Dialect
