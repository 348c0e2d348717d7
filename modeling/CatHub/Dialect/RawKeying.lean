/-
# CatHub.Dialect.RawKeying — native commands that key the radio behind the lease.

The radio reads a verb in either case, while the native dialects compare it byte for byte.  A session is
`Mediated` when it forwards no command that keys or unkeys, and submits a key only while it holds the
lease.  `Covers` settles everything but what is forwarded, and there the verb decides: a `TX` or `RX`
in another case reaches the radio exactly when the endpoint may forward it.
-/
import CatHub.Dialect.Kenwood

namespace CatHub.Dialect

open Systems Radio Ptt

open Radio.Ts590 (ascii terminator splitFrame isAsciiAlphabetic)

/-! ## Verbs as the radio reads them -/

def toAsciiUppercase (byte : UInt8) : UInt8 :=
  if 0x61 ≤ byte ∧ byte ≤ 0x7A then byte - 0x20 else byte

/-- The verb of a command that keys or unkeys, in either case. -/
def PttVerb (verb : List UInt8) : Prop :=
  verb.map toAsciiUppercase = ascii ['T', 'X'] ∨ verb.map toAsciiUppercase = ascii ['R', 'X']

instance (verb : List UInt8) : Decidable (PttVerb verb) := inferInstanceAs (Decidable (_ ∨ _))

/-- The verbs of the commands in a byte string. -/
def verbs (bytes : List UInt8) : List (List UInt8) :=
  (bytes.splitOnP (· == terminator)).map (List.takeWhile isAsciiAlphabetic)

/-- Some command of the byte string keys or unkeys. -/
def Keying (bytes : List UInt8) : Prop := ∃ verb ∈ verbs bytes, PttVerb verb

/-- A closed command has one verb. -/
theorem verbs_command {body : List UInt8} (closed : terminator ∉ body) :
    verbs (body ++ [terminator]) = [body.takeWhile isAsciiAlphabetic, []] := by
  have plain : ∀ byte ∈ body, (byte == terminator) = false := by
    intro byte mem
    exact beq_false_of_ne (fun same => closed (same ▸ mem))
  have parts : (body ++ [terminator]).splitOnP (· == terminator) = [body, []] := by
    rw [List.splitOnP_append_cons_of_forall_mem plain terminator (beq_self_eq_true terminator)]
    rfl
  rw [verbs, parts]
  rfl

/-- The one command of a delivered frame is the one that the dialects look at. -/
theorem verbs_delivered {body verb payload : List UInt8} (closed : terminator ∉ body)
    (split : splitFrame (body ++ [terminator]) = some (verb, payload)) :
    verbs (body ++ [terminator]) = [verb, []] := by
  have whole : (body ++ [terminator]).takeWhile (· != terminator) = body := by
    rw [List.takeWhile_append_of_pos]
    · simp
    · intro byte mem
      exact bne_iff_ne.mpr (fun same => closed (same ▸ mem))
  rw [splitFrame, whole] at split
  split at split
  · cases split
  · obtain ⟨rfl, -⟩ := Prod.mk.inj (Option.some.inj split)
    exact verbs_command closed

theorem keying_iff {body verb payload : List UInt8} (closed : terminator ∉ body)
    (split : splitFrame (body ++ [terminator]) = some (verb, payload)) :
    Keying (body ++ [terminator]) ↔ PttVerb verb := by
  have empty : ¬ PttVerb [] := by decide
  rw [Keying, verbs_delivered closed split]
  simp [empty]

/-! ## Sessions that key through the lease -/

/-- Whether the session holds the lease after an exchange, as far as its own exchanges tell. -/
def holds (sessionId : Nat) (held : Bool) :
    Program.Exchange Question Question.Answer World → Bool
  | ⟨_, .tryKey id _, .ok _, _⟩ => held || id == sessionId
  | ⟨_, .unkey id, _, _⟩ => held && id != sessionId
  | _ => held

/-- The exchange submits a key. -/
def Keys (q : Question) : Prop :=
  ∃ sessionId priority source, q = .submit sessionId priority (.apply (.setPtt true source))

/-- A key is submitted only while the lease is held. -/
def Leased (sessionId : Nat) : Bool → Trace → Prop
  | _, [] => True
  | held, e :: trace => (Keys e.question → held = true) ∧ Leased sessionId (holds sessionId held e) trace

/-- Nothing that keys or unkeys is forwarded, and keys go through the lease. -/
structure Mediated (sessionId : Nat) (trace : Trace) : Prop where
  raw : ∀ e ∈ trace, ∀ id priority bytes,
    e.question = .submit id priority (.passthrough bytes) → ¬ Keying bytes
  leased : Leased sessionId false trace

/-- All runs of a part of a session are mediated. -/
def Safe (sessionId : Nat) (session : Session (List UInt8)) : Prop :=
  ∀ trace reply, Runs session trace reply → Mediated sessionId trace

theorem Leased.none {sessionId : Nat} {held : Bool} {trace : Trace}
    (nothing : ∀ e ∈ trace, ¬ Keys e.question) : Leased sessionId held trace := by
  induction trace generalizing held with
  | nil => trivial
  | cons e trace ih =>
      obtain ⟨here, later⟩ := List.forall_mem_cons.mp nothing
      exact ⟨fun keys => absurd keys here, ih later⟩

/-- A question that is no relay of such a command and no key. -/
def Quiet (q : Question) : Prop :=
  (∀ id priority bytes, q = .submit id priority (.passthrough bytes) → ¬ Keying bytes) ∧ ¬ Keys q

theorem quiet_of_not_submit {q : Question}
    (other : ∀ sessionId priority kind, q ≠ .submit sessionId priority kind) : Quiet q :=
  ⟨fun _ _ _ same => absurd same (other _ _ _), fun ⟨_, _, _, same⟩ => absurd same (other _ _ _)⟩

theorem quiet_of_harmless {q : Question} (harmless : q.Harmless) : Quiet q := by
  refine quiet_of_not_submit ?_
  rintro sessionId priority kind rfl
  exact harmless.elim

theorem safe_of_asks {sessionId : Nat} {session : Session (List UInt8)}
    (asks : session.Asks Quiet) : Safe sessionId session := by
  intro trace reply run
  have quiet := run.asked asks
  exact ⟨fun e mem => (quiet e mem).1, Leased.none (fun e mem => (quiet e mem).2)⟩

theorem quiet_apply {sessionId : Nat} {priority : Priority} {mutation : StateMutation}
    (other : ∀ source, mutation ≠ .setPtt true source) :
    Quiet (.submit sessionId priority (.apply mutation)) := by
  refine ⟨(fun _ _ _ h => nomatch h), ?_⟩
  rintro ⟨_, _, source, same⟩
  cases same
  exact other source rfl

theorem asks_applyModeled_quiet {ctx : Context} {mutation : StateMutation}
    (other : ∀ source, mutation ≠ .setPtt true source) :
    (applyModeled ctx mutation (classOf mutation)).Asks Quiet :=
  asks_applyModeled_of (fun _ => quiet_of_not_submit) (fun _ _ _ => quiet_apply other)

/-- A key asks for the lease first, and gives it back when the radio does not take the key. -/
theorem mediated_key {ctx : Context} {source : PttSource} {trace : Trace} {outcome : ApplyOutcome}
    (run : Runs (applyModeled ctx (.setPtt true source) .pttWrite) trace outcome) :
    Mediated ctx.sessionId trace := by
  unfold applyModeled at run
  cases allowed : ctx.perms.allowsMutation .pttWrite (.setPtt true source) with
  | false =>
      rw [allowed] at run
      obtain ⟨rfl, -⟩ := Program.run_done run
      exact ⟨List.forall_mem_nil _, trivial⟩
  | true =>
      rw [allowed] at run
      obtain ⟨_, redundant, _, rest, -, goesOn, rfl⟩ := Program.run_ask run
      cases redundant with
      | true =>
          obtain ⟨rfl, -⟩ := Program.run_done goesOn
          exact ⟨by simp, by simp [Leased, Keys]⟩
      | false =>
          obtain ⟨_, key, _, _, -, later, rfl⟩ := Program.run_ask goesOn
          rcases key with denied | _
          · cases denied <;>
            · obtain ⟨rfl, -⟩ := Program.run_done later
              exact ⟨by simp, by simp [Leased, Keys]⟩
          · obtain ⟨_, result, _, _, -, settles, rfl⟩ := Program.run_ask later
            cases result with
            | ok bytes =>
                obtain ⟨rfl, -⟩ := Program.run_done settles
                exact ⟨by simp, by simp [Leased, holds, Keys]⟩
            | error fault =>
                obtain ⟨_, _, _, _, -, ends, rfl⟩ := Program.run_ask settles
                obtain ⟨rfl, -⟩ := Program.run_done ends
                exact ⟨by simp, by simp [Leased, holds, Keys]⟩

theorem covers_safe (ctx : Context) : Covers ctx (Safe ctx.sessionId) where
  done reply := safe_of_asks trivial
  ask harmless rest := by
    intro trace reply run
    obtain ⟨before, answer, after, trace, -, later, rfl⟩ := Program.run_ask run
    have quiet := quiet_of_harmless harmless
    have ⟨raw, leased⟩ := rest answer trace reply later
    refine ⟨List.forall_mem_cons.mpr ⟨quiet.1, raw⟩, fun keys => absurd keys quiet.2, ?_⟩
    cases ‹Question› with
    | tryKey | unkey | submit => exact harmless.elim
    | _ => exact leased
  written := by
    intro mutation writable
    by_cases key : ∃ source, mutation = .setPtt true source
    · obtain ⟨source, rfl⟩ := key
      intro trace reply run
      obtain ⟨first, outcome, rest, wrote, ends, rfl⟩ := Program.run_bind run
      obtain ⟨rfl, -⟩ := Program.run_done ends
      rw [List.append_nil]
      exact mediated_key wrote
    · have other : ∀ source, mutation ≠ .setPtt true source := fun source same => key ⟨source, same⟩
      exact safe_of_asks ((asks_applyModeled_quiet other).bind (fun _ => trivial))

/-! ## What is forwarded -/

/-- Whether an endpoint may forward a command with this payload. -/
def mayForward (perms : EndpointPermissions) (payload : List UInt8) : Bool :=
  perms.allows (if payload.isEmpty then .passthroughRead else .configWrite)

theorem safe_forward_iff {ctx : Context} {body verb payload : List UInt8}
    (closed : terminator ∉ body)
    (split : splitFrame (body ++ [terminator]) = some (verb, payload)) :
    Safe ctx.sessionId (forward ctx (body ++ [terminator]) payload) ↔
      (PttVerb verb → mayForward ctx.perms payload = false) := by
  have keying := keying_iff closed split
  unfold forward passthrough
  change _ ↔ (_ → ctx.perms.allows (if payload.isEmpty then .passthroughRead else .configWrite) = _)
  cases ctx.perms.allows (if payload.isEmpty then .passthroughRead else .configWrite) with
  | false => exact iff_of_true (safe_of_asks trivial) (fun _ => rfl)
  | true =>
      constructor
      · intro safe ptt
        -- the radio takes the command and says nothing
        let w : World := ⟨{}, { maxTx := 0 }, false, 0⟩
        have mediated := safe
          [⟨w, .submit ctx.sessionId .read (.passthrough (body ++ [terminator])), .ok [], w⟩] []
          (.ask trivial (.done []))
        exact absurd (keying.mpr ptt) (mediated.raw _ List.mem_cons_self _ _ _ rfl)
      · intro other
        have quiet : Quiet (.submit ctx.sessionId .read (.passthrough (body ++ [terminator]))) := by
          refine ⟨?_, (fun ⟨_, _, _, h⟩ => nomatch h)⟩
          rintro _ _ _ ⟨⟩ keys
          exact absurd (other (keying.mp keys)) (by decide)
        refine safe_of_asks ⟨quiet, fun result => ?_⟩
        cases result <;> trivial

/-- A verb that the radio would take for `TX` or `RX` and that is neither is no other verb either. -/
theorem ne_of_pttVerb {verb name : List UInt8} (ptt : PttVerb verb) (other : ¬ PttVerb name) :
    verb ≠ name := fun same => other (same ▸ ptt)

theorem transparent_forwards {ctx : Context} {request verb payload : List UInt8}
    (split : splitFrame request = some (verb, payload)) (ptt : PttVerb verb)
    (noTx : verb ≠ ascii ['T', 'X']) (noRx : verb ≠ ascii ['R', 'X']) :
    TransparentTs590Dialect.handle request ctx = forward ctx request payload := by
  have noAi : verb ≠ ascii ['A', 'I'] := ne_of_pttVerb ptt (by decide)
  have noId : verb ≠ ascii ['I', 'D'] := ne_of_pttVerb ptt (by decide)
  have noPs : verb ≠ ascii ['P', 'S'] := ne_of_pttVerb ptt (by decide)
  simp only [TransparentTs590Dialect.handle, split, noTx, noRx, noAi, noId, noPs, false_and, if_false]

theorem ts590_forwards {ctx : Context} {request verb payload : List UInt8}
    (split : splitFrame request = some (verb, payload)) (ptt : PttVerb verb)
    (noTx : verb ≠ ascii ['T', 'X']) (noRx : verb ≠ ascii ['R', 'X']) :
    Ts590Dialect.handle request ctx = Session.snapshot >>= fun _ => forward ctx request payload := by
  have noFa : verb ≠ ascii ['F', 'A'] := ne_of_pttVerb ptt (by decide)
  have noFb : verb ≠ ascii ['F', 'B'] := ne_of_pttVerb ptt (by decide)
  have noFr : verb ≠ ascii ['F', 'R'] := ne_of_pttVerb ptt (by decide)
  have noFt : verb ≠ ascii ['F', 'T'] := ne_of_pttVerb ptt (by decide)
  have noMd : verb ≠ ascii ['M', 'D'] := ne_of_pttVerb ptt (by decide)
  have noAi : verb ≠ ascii ['A', 'I'] := ne_of_pttVerb ptt (by decide)
  have noId : verb ≠ ascii ['I', 'D'] := ne_of_pttVerb ptt (by decide)
  have noPs : verb ≠ ascii ['P', 'S'] := ne_of_pttVerb ptt (by decide)
  have noIf : verb ≠ ascii ['I', 'F'] := ne_of_pttVerb ptt (by decide)
  simp only [Ts590Dialect.handle, split, noFa, noFb, noFr, noFt, noMd, noTx, noRx, noAi, noId, noPs,
    noIf, false_and, if_false]

/-- Looking at the snapshot first changes nothing. -/
theorem safe_look_iff {ctx : Context} {session : Session (List UInt8)} :
    Safe ctx.sessionId (Session.snapshot >>= fun _ => session) ↔ Safe ctx.sessionId session := by
  constructor
  · intro safe trace reply run
    let w : World := ⟨{}, { maxTx := 0 }, false, 0⟩
    have mediated := safe (⟨w, .snapshot, w.state.snapshot, w⟩ :: trace) reply (.ask ⟨rfl, rfl⟩ run)
    exact ⟨(List.forall_mem_cons.mp mediated.raw).2, mediated.leased.2⟩
  · intro safe
    exact @Covers.ask _ _ (covers_safe ctx) .snapshot _ trivial (fun _ => safe)

/-- A native endpoint keys the radio only through the lease, whatever it is sent, exactly when `TX` and
`RX` come in capitals or may not be forwarded. -/
theorem no_raw_keying_iff {dialect : ClientDialect}
    (native : dialect = ts590Dialect ∨ dialect = transparentTs590Dialect) (ctx : Context)
    {stream request : List UInt8} (delivered : request ∈ requestFrames stream) :
    (∀ trace reply, Runs (dialect.handle request ctx) trace reply → Mediated ctx.sessionId trace) ↔
      ∀ verb payload, splitFrame request = some (verb, payload) → PttVerb verb →
        verb = ascii ['T', 'X'] ∨ verb = ascii ['R', 'X'] ∨ mayForward ctx.perms payload = false := by
  obtain ⟨body, closed, rfl⟩ := requestFrames_closed delivered
  have forwarded : ∀ verb payload, splitFrame (body ++ [terminator]) = some (verb, payload) →
      Safe ctx.sessionId (forward ctx (body ++ [terminator]) payload) →
      PttVerb verb → mayForward ctx.perms payload = false :=
    fun verb payload split => (safe_forward_iff closed split).mp
  constructor
  · intro safe verb payload split ptt
    by_cases noTx : verb = ascii ['T', 'X']
    · exact .inl noTx
    by_cases noRx : verb = ascii ['R', 'X']
    · exact .inr (.inl noRx)
    refine .inr (.inr (forwarded verb payload split ?_ ptt))
    rcases native with rfl | rfl
    · exact safe_look_iff.mp ((ts590_forwards split ptt noTx noRx) ▸ safe)
    · exact (transparent_forwards split ptt noTx noRx) ▸ safe
  · intro capitals
    have rest : ∀ verb payload, splitFrame (body ++ [terminator]) = some (verb, payload) →
        verb ≠ ascii ['T', 'X'] → verb ≠ ascii ['R', 'X'] →
        Safe ctx.sessionId (forward ctx (body ++ [terminator]) payload) := by
      intro verb payload split noTx noRx
      refine (safe_forward_iff closed split).mpr (fun ptt => ?_)
      rcases capitals verb payload split ptt with tx | rx | denied
      · exact absurd tx noTx
      · exact absurd rx noRx
      · exact denied
    rcases native with rfl | rfl
    · exact (covers_safe ctx).ts590 rest
    · exact (covers_safe ctx).transparent rest

/-- A mirror that may only look. -/
def lookingMirror : Context :=
  ⟨0, ⟨true, false, false, false, false⟩, true, true, false, []⟩

/-- `TX` in capitals does not get past the lease. -/
theorem no_raw_keying_capitals :
    ascii ['T', 'X', ';'] ∈ requestFrames (ascii ['T', 'X', ';']) ∧
      ∀ trace reply, Runs (transparentTs590Dialect.handle (ascii ['T', 'X', ';']) lookingMirror) trace
        reply → Mediated 0 trace := by
  have delivered : ascii ['T', 'X', ';'] ∈ requestFrames (ascii ['T', 'X', ';']) := by decide
  refine ⟨delivered, ?_⟩
  refine (no_raw_keying_iff (.inr rfl) lookingMirror delivered).mpr (fun verb payload split _ => ?_)
  have parts : splitFrame (ascii ['T', 'X', ';']) = some (ascii ['T', 'X'], []) := by decide
  rw [parts] at split
  obtain ⟨rfl, -⟩ := Prod.mk.inj (Option.some.inj split)
  exact .inl rfl

/-- In small letters it does, on an endpoint that may not even write: the frame is forwarded as a
query. -/
theorem small_tx_keys : ∃ trace reply,
    ascii ['t', 'x', ';'] ∈ requestFrames (ascii ['t', 'x', ';']) ∧
      Runs (transparentTs590Dialect.handle (ascii ['t', 'x', ';']) lookingMirror) trace reply ∧
      ¬ Mediated lookingMirror.sessionId trace := by
  let w : World := ⟨{}, { maxTx := 0 }, false, 0⟩
  refine ⟨[⟨w, .submit 0 .read (.passthrough (ascii ['t', 'x', ';'])), .ok [], w⟩], [], by decide,
    .ask trivial (.done []), fun mediated => ?_⟩
  refine mediated.raw _ List.mem_cons_self _ _ _ rfl ⟨ascii ['t', 'x'], ?_, by decide⟩
  have closed : terminator ∉ ascii ['t', 'x'] := by decide
  have parts := @verbs_delivered (ascii ['t', 'x']) (ascii ['t', 'x']) [] closed (by decide)
  exact parts ▸ List.mem_cons_self

end CatHub.Dialect
