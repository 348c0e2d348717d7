/-
# CatHub.Dialect.Cascade — hubs behind hubs.

The TS-590 endpoint of a hub can serve another hub as its radio, and that one's endpoint a third.  An endpoint
answers the polls of the hub behind it as a radio would that holds the snapshot of its own hub, and passes
on what it does not model.  So a hub that polls an endpoint learns what the hub in front knows, and
`cascade_settles`: once the hubs of a cascade were polled from the radio outwards, each of them agrees with the
radio, whatever they held before and whatever else they polled meanwhile.

What an endpoint announces of its own while its auto-information is on is not modelled.
-/
import CatHub.Dialect.Polling
import CatHub.Radio.Framer
import CatHub.Radio.Transport

namespace CatHub.Dialect

open Systems Radio Ptt

open Radio.Ts590 (ascii terminator decimal splitFrame pollCommands recordEvent isAsciiAlphabetic)
open Radio.Transport (frameMatches Link)

/-! ## Lines -/

/-- Whoever is at the other end of a line: what is sent there comes back as frames. -/
abbrev Peer (ρ : Type) : Type := List UInt8 → ρ → List (List UInt8) × ρ

def lineConfig : Transport.Config (List UInt8) := { bytes := id }

/-- The transport takes frames off the line. -/
def takeFrames (link : Link (List UInt8)) : List (List UInt8) → List (Transport.Event (List UInt8))
  | [] => []
  | frame :: frames =>
      match link.pending with
      | none => .routed frame :: takeFrames link frames
      | some p =>
          let (link, events) := link.offer lineConfig p frame
          events ++ takeFrames link frames

def answerIn : Transport.Event (List UInt8) → Option (Except BackendError (List UInt8))
  | .answered _ result => some (result.map List.flatten)
  | _ => none

def routedIn : Transport.Event (List UInt8) → Option (List UInt8)
  | .routed frame => some frame
  | _ => none

/-- A link to a peer that answers at once, in front of a state that nobody else changes.  A frame that is no
answer is routed to the state; what is not answered times out. -/
def linked {ρ : Type} (peer : Peer ρ) : (q : LinkQuestion) → StateHandle × ρ → q.Answer × (StateHandle × ρ)
  | .submit bytes expect, (h, r) =>
      let (frames, r) := peer bytes r
      let (link, written) := (Transport.opened lineConfig).await ⟨0, bytes, expect⟩
      let events := written ++ takeFrames link frames
      ((events.findSome? answerIn).getD (.error .timeout),
        (recordFrames h (events.filterMap routedIn) .nativePush, r))
  | .snapshot, (h, r) => (h.snapshot, (h, r))
  | .record change source, (h, r) => ((), (h.record change source, r))

/-- The radio takes what is no query without an answer. -/
def Panel.peer : Peer Panel := fun bytes p =>
  match p.answers.lookup bytes with
  | some frame => ([frame], p)
  | none => ([], { p with radio := p.radio.execute none bytes })

/-! ## Endpoints -/

/-- A TS-590 session serves requests in order. -/
def serve (ctx : Context) : List (List UInt8) → Session (List (List UInt8))
  | [] => return []
  | request :: rest => do
      let reply ← Ts590Dialect.handle request ctx
      let replies ← serve ctx rest
      return reply :: replies

section
variable {ρ : Type} (ctx : Context) (peer : Peer ρ)

/-- The surroundings of a session that is alone with a hub in front of `peer`. -/
def answerInFront : (q : Question) → World × ρ → q.Answer × (World × ρ)
  | .submit _ _ kind, (w, r) =>
      let (result, state, r) := (Radio.execute ts590Backend kind).run.exec (linked peer) (w.state, r)
      (result, ({ w with state }, r))
  | q, (w, r) =>
      let (answer, w) := answerAlone (fun _ w => (.error .timeout, w)) q w
      (answer, (w, r))

/-- The TS-590 endpoint of a hub in front of `peer`. -/
def endpoint : Peer (World × ρ) := fun bytes s =>
  let (replies, s) := (serve ctx (requestFrames bytes)).exec (answerInFront peer) s
  (Framer.frames terminator { limit := maxRadioFrameLen } replies.flatten, s)

/-- The scheduler of a hub in front of `peer` runs a poll. -/
def pollHub (s : World × ρ) : World × ρ :=
  let (_, state, r) := (Radio.execute ts590Backend .poll).run.exec (linked peer) (s.1.state, s.2)
  ({ s.1 with state }, r)

end

/-! ## The cascade -/

/-- A radio with `n` hubs in front of it, each at the endpoint of the one before. -/
def Stack : Nat → Type
  | 0 => Panel
  | n + 1 => World × Stack n

namespace Stack

/-- The other end for whoever stands behind `n` hubs; `ctx k` is the session at the endpoint of hub `k`. -/
def peer (ctx : Nat → Context) : (n : Nat) → Peer (Stack n)
  | 0 => Panel.peer
  | n + 1 => endpoint (ctx n) (peer ctx n)

def panel : (n : Nat) → Stack n → Panel
  | 0, p => p
  | n + 1, (_, below) => panel n below

def hubs : (n : Nat) → Stack n → List World
  | 0, _ => []
  | n + 1, (w, below) => w :: hubs n below

/-- Hub `level` polls. -/
def poll (ctx : Nat → Context) (level : Nat) : (n : Nat) → Stack n → Stack n
  | 0, p => p
  | n + 1, (w, below) => if level = n then pollHub (peer ctx n) (w, below) else (w, poll ctx level n below)

def turn (panel : Panel) : (n : Nat) → Stack n → Stack n
  | 0, _ => panel
  | n + 1, (w, below) => (w, turn panel n below)

/-- Anything else happens to hub `level`. -/
def upset (level : Nat) (world : World) : (n : Nat) → Stack n → Stack n
  | 0, p => p
  | n + 1, (w, below) => if level = n then (world, below) else (w, upset level world n below)

end Stack

inductive CascadeInput where
  | poll (level : Nat)
  | turn (panel : Panel)
  | upset (level : Nat) (world : World)
  deriving DecidableEq, Repr

def cascade (ctx : Nat → Context) (n : Nat) : Machine (Stack n) CascadeInput Unit where
  step s
  | .poll level => some (s.poll ctx level n, ())
  | .turn panel => some (Stack.turn panel n s, ())
  | .upset level world => some (Stack.upset level world n s, ())

/-! ## What an endpoint shows -/

/-- The peer answers the queries of a poll as the radio `p` does, and nothing changes. -/
def Shows {ρ : Type} (peer : Peer ρ) (r : ρ) (p : Panel) : Prop :=
  ∀ q ∈ p.answers, peer q.1 r = ([q.2], r)

/-- The radio that a hub shows at its endpoint: its snapshot, and what it passes on. -/
def shown (s : Snapshot) (below : Panel) : Panel where
  radio :=
    let operating := (below.radio.vfo below.radio.rx).data
    { a := ⟨s.a.freqHz, s.a.mode.toKenwoodDigit, operating⟩
      b := ⟨s.b.freqHz, s.b.mode.toKenwoodDigit, operating⟩
      rx := s.rxVfo
      tx := if s.split then s.rxVfo.other else s.rxVfo
      keyed := s.ptt }
  watts := below.watts

section Showing

variable {ρ : Type} {peer : Peer ρ} {r : ρ} {p : Panel}

theorem shows_radio (p : Panel) : Shows Panel.peer p p := by
  intro q mem
  have found : p.answers.lookup q.1 = some q.2 := by
    simp only [Panel.answers, List.mem_cons, List.not_mem_nil, or_false] at mem
    rcases mem with rfl | rfl | rfl | rfl | rfl | rfl <;> rfl
  rw [Panel.peer, found]

/-- An answer on the line is the reply to the query that awaits it. -/
theorem linked_answer {bytes frame verb : List UInt8} {r' : ρ} (answered : peer bytes r = ([frame], r'))
    (fits : verb.isPrefixOf frame = true) (h : StateHandle) :
    linked peer (.submit bytes (.reply [verb])) (h, r) = (.ok frame, (h, r')) := by
  have matched : frameMatches frame [verb] = true := by simpa [frameMatches] using fits
  simp [linked, answered, Link.await, takeFrames, Link.offer, lineConfig, matched, answerIn, recordFrames,
    Except.map]
  rfl

/-- Reading an answer submits nothing, so it does not matter what the link leads to. -/
theorem exec_recordReply_linked (frame : List UInt8) (source : RadioEventSource) (h : StateHandle) (r : ρ) :
    (Ts590.recordReply frame source).run.exec (linked peer) (h, r) =
      (.ok (), ((recordEvent h frame source).1, r)) := by
  have silent : ∀ q, LinkQuestion.Submits (fun _ => False) q → ∀ s,
      linked peer q s = behind (fun _ r => (.ok [], r)) q s := by
    intro q quiet s
    cases q with
    | submit => exact quiet.elim
    | snapshot | record => rfl
  rw [(Ts590.asks_recordReply frame source).exec_congr _ silent]
  exact exec_recordReply_behind _ frame source h r

theorem answers_head : ∀ q ∈ p.answers, (q.1.take 2).isPrefixOf q.2 = true := by
  simp only [Panel.answers, List.forall_mem_cons, List.not_mem_nil, false_imp_iff, implies_true, and_true]
  exact ⟨rfl, rfl, rfl, rfl, rfl, rfl⟩

theorem exec_queries_linked (h : StateHandle) (queries : List (List UInt8 × List UInt8))
    (answered : ∀ q ∈ queries, peer q.1 r = ([q.2], r) ∧ (q.1.take 2).isPrefixOf q.2 = true) :
    ((queries.map Prod.fst).forM query : BackendCall Unit).run.exec (linked peer) (h, r) =
      (.ok (), (recordFrames h (queries.map Prod.snd) .pollDiff, r)) := by
  induction queries generalizing h with
  | nil => rfl
  | cons asked queries ih =>
      obtain ⟨⟨here, head⟩, later⟩ := List.forall_mem_cons.mp answered
      have submitted : (BackendCall.submit asked.1 (.reply [asked.1.take 2])).run.exec (linked peer) (h, r) =
          (.ok asked.2, (h, r)) := linked_answer here head h
      have turned : (query asked.1).run.exec (linked peer) (h, r) =
          (.ok (), ((recordEvent h asked.2 .pollDiff).1, r)) := by
        unfold query
        rw [ExceptT.run_bind, Program.exec_bind, submitted]
        exact exec_recordReply_linked asked.2 .pollDiff h r
      show (query asked.1 >>= fun _ => (queries.map Prod.fst).forM query).run.exec _ _ = _
      rw [ExceptT.run_bind, Program.exec_bind, turned]
      exact ih _ later

/-- A poll of a peer that shows a radio records what that radio answers. -/
theorem exec_poll_linked (shows : Shows peer r p) (h : StateHandle) :
    (Radio.execute ts590Backend .poll).run.exec (linked peer) (h, r) =
      (.ok [], (recordFrames h (p.answers.map Prod.snd) .pollDiff, r)) := by
  have polled : Ts590.poll.run.exec (linked peer) (h, r) =
      (.ok (), (recordFrames h (p.answers.map Prod.snd) .pollDiff, r)) := by
    unfold Ts590.poll
    rw [← p.asked]
    exact exec_queries_linked h p.answers (fun q mem => ⟨shows q mem, answers_head q mem⟩)
  unfold Radio.execute
  rw [ExceptT.run_bind, Program.exec_bind, show ts590Backend.poll = Ts590.poll from rfl, polled]
  rfl

/-- What is passed on is answered as the peer answers it. -/
theorem exec_passthrough_linked {bytes frame verb : List UInt8} {r' : ρ}
    (answered : peer bytes r = ([frame], r')) (asks : splitFrame bytes = some (verb, []))
    (fits : verb.isPrefixOf frame = true) (h : StateHandle) :
    (Radio.execute ts590Backend (.passthrough bytes)).run.exec (linked peer) (h, r) = (.ok frame, (h, r')) := by
  have asked : Ts590.passthrough bytes = BackendCall.submit bytes (.reply [verb]) := by
    simp [Ts590.passthrough, Ts590.isQuery, asks]
  show (Ts590.passthrough bytes).run.exec (linked peer) (h, r) = _
  rw [asked]
  exact linked_answer answered fits h

end Showing

/-! ### The frames of an answer -/

/-- A frame that goes over a line as it is: ended by its only terminator, and short enough. -/
def WholeFrame (frame : List UInt8) : Prop :=
  ∃ body, frame = body ++ [terminator] ∧ terminator ∉ body ∧ body.length < maxRadioFrameLen

/-- Whoever takes a whole frame off a line gets that frame. -/
theorem frames_whole {frame : List UInt8} (whole : WholeFrame frame) :
    Framer.frames terminator { limit := maxRadioFrameLen } frame = [frame] := by
  obtain ⟨body, rfl, closed, short⟩ := whole
  have filled := @Framer.frames_fits _ _ terminator maxRadioFrameLen body [] closed
    (by simpa using Nat.le_of_lt short) [terminator]
  rw [filled, List.nil_append, Framer.frames, Framer.push, if_neg (Nat.not_le.mpr short), if_pos rfl]
  rfl

theorem length_decimal_le {width n digits : Nat} (narrow : n < 10 ^ digits) :
    (decimal width n).length ≤ max width digits := by
  rw [decimal, List.length_map, Radio.Ts590.length_paddedDigits]
  exact max_le_max_left width ((Nat.digits_length_le_iff (by decide) n).mpr narrow)

/-- A verb and a payload of neither letters nor terminators make a whole frame. -/
theorem whole_frame {verb payload : List UInt8} (letters : verb.all isAsciiAlphabetic = true)
    (inner : ∀ byte ∈ payload, Inner byte) (short : (verb ++ payload).length < maxRadioFrameLen) :
    WholeFrame (verb ++ payload ++ [terminator]) := by
  refine ⟨_, rfl, fun mem => ?_, short⟩
  cases List.mem_append.mp mem with
  | inl inVerb => exact absurd (List.all_eq_true.mp letters _ inVerb) (by decide)
  | inr inRest => exact (inner _ inRest).1 rfl

/-- The answers of a radio in its format are whole frames. -/
theorem answers_whole {p : Panel} (sound : p.Sound) (short : p.trail.length ≤ 100) :
    ∀ q ∈ p.answers, WholeFrame q.2 := by
  have figures : ∀ {width n : Nat}, ∀ byte ∈ decimal width n, Inner byte := fun _ => Radio.Ts590.decimal_figures
  have freq : ∀ v, (decimal 11 (p.radio.vfo v).freqHz).length ≤ 11 :=
    fun v => length_decimal_le (sound.narrow v)
  have freqA := freq .a
  have freqB := freq .b
  have operating := freq p.radio.rx
  have watts : (decimal 3 p.watts).length ≤ 10 := @length_decimal_le 3 p.watts 10 (sound.watts.trans (by decide))
  have fill := sound.fill.1
  have size : maxRadioFrameLen = 4096 := rfl
  obtain ⟨mode, known⟩ := sound.known p.radio.rx
  have modeFrame : WholeFrame (ascii ['M', 'D'] ++ [mode.toKenwoodDigit] ++ [terminator]) := by
    refine whole_frame (by decide) ?_ (show 3 < 4096 by decide)
    exact List.forall_mem_singleton.mpr (inner_modeDigit mode)
  have dataFrame : ∀ on, WholeFrame (ascii ['D', 'A'] ++ [Panel.flagDigit on] ++ [terminator]) := by
    intro on
    refine whole_frame (by decide) ?_ (show 3 < 4096 by decide)
    cases on <;> exact List.forall_mem_singleton.mpr (by decide)
  simp only [Panel.answers, List.forall_mem_cons, List.not_mem_nil, false_imp_iff, implies_true, and_true]
  refine ⟨whole_frame (by decide) figures ?_, whole_frame (by decide) figures ?_,
    whole_frame (by decide) sound.ifInner ?_, known ▸ modeFrame, dataFrame _,
    whole_frame (by decide) figures ?_⟩
  · show (ascii ['F', 'A'] ++ decimal 11 (p.radio.vfo .a).freqHz).length < _
    simp only [List.length_append, ascii, List.length_map, List.length_cons, List.length_nil]
    omega
  · show (ascii ['F', 'B'] ++ decimal 11 (p.radio.vfo .b).freqHz).length < _
    simp only [List.length_append, ascii, List.length_map, List.length_cons, List.length_nil]
    omega
  · simp only [Panel.ifPayload, List.length_append, ascii, List.length_map, List.length_cons, List.length_nil]
    omega
  · simp only [List.length_append, ascii, List.length_map, List.length_cons, List.length_nil]
    omega

/-! ### The endpoint -/

/-- An endpoint that shows both VFOs and lets its client ask the radio. -/
structure Context.Relays (ctx : Context) : Prop where
  dual : ctx.singleVfo = false
  read : ctx.perms.read = true

section Endpoint

variable {ρ : Type} {peer : Peer ρ} {r : ρ} {p : Panel} {ctx : Context} {w : World}

theorem endpoint_reply {bytes frame : List UInt8} {s' : World × ρ} (single : requestFrames bytes = [bytes])
    (whole : WholeFrame frame)
    (handled : (Ts590Dialect.handle bytes ctx).exec (answerInFront peer) (w, r) = (frame, s')) :
    endpoint ctx peer bytes (w, r) = ([frame], s') := by
  have served : (serve ctx [bytes]).exec (answerInFront peer) (w, r) = ([frame], s') := by
    rw [serve, Program.exec_bind, handled]
    rfl
  rw [endpoint, single, served]
  show (Framer.frames terminator _ ([frame].flatten), s') = _
  rw [List.flatten_singleton, frames_whole whole]

/-- What an endpoint does not model, it passes on. -/
theorem endpoint_forwards {bytes frame verb : List UInt8} (relays : ctx.Relays)
    (single : requestFrames bytes = [bytes])
    (unmodeled : (Ts590Dialect.handle bytes ctx).exec (answerInFront peer) (w, r) =
      (forward ctx bytes []).exec (answerInFront peer) (w, r))
    (asks : splitFrame bytes = some (verb, [])) (fits : verb.isPrefixOf frame = true)
    (whole : WholeFrame frame) (answered : peer bytes r = ([frame], r)) :
    endpoint ctx peer bytes (w, r) = ([frame], (w, r)) := by
  have allowed : ctx.perms.allows .passthroughRead = true := relays.read
  have passed := exec_passthrough_linked answered asks fits w.state
  have forwarded : (forward ctx bytes []).exec (answerInFront peer) (w, r) = (frame, (w, r)) := by
    simp [forward, passthrough, allowed, answerInFront, passed]
  exact endpoint_reply single whole (unmodeled.trans forwarded)

/-- The peer answers the queries that no dialect models as the radio `p` does. -/
def Passes {ρ : Type} (peer : Peer ρ) (r : ρ) (p : Panel) : Prop :=
  ∀ q ∈ p.answers.drop 4, WholeFrame q.2 ∧ peer q.1 r = ([q.2], r)

theorem shown_unmodeled (s : Snapshot) (p : Panel) : (shown s p).answers.drop 4 = p.answers.drop 4 := by
  obtain ⟨a, b, rx⟩ := s
  cases rx <;> rfl

theorem endpoint_passes (relays : ctx.Relays) (passes : Passes peer r p) (s : Snapshot) :
    Passes (endpoint ctx peer) (w, r) (shown s p) := by
  rw [Passes, shown_unmodeled]
  intro q mem
  obtain ⟨whole, answered⟩ := passes q mem
  have head := answers_head q (List.mem_of_mem_drop mem)
  simp only [Panel.answers, List.drop_succ_cons, List.drop_zero, List.mem_cons, List.not_mem_nil,
    or_false] at mem
  refine ⟨whole, ?_⟩
  rcases mem with rfl | rfl
  · exact endpoint_forwards relays rfl rfl rfl head whole answered
  · exact endpoint_forwards relays rfl rfl rfl head whole answered

theorem shown_sound {s : Snapshot} (sound : p.Sound) (narrow : ∀ v, (s.vfo v).freqHz < 10 ^ 11) :
    (shown s p).Sound where
  narrow v := by
    cases v
    exacts [narrow .a, narrow .b]
  known v := by cases v <;> exact ⟨_, rfl⟩
  fill := ⟨rfl, show ∀ byte ∈ ({} : Panel).fill, Inner byte from each_of_all (by decide)⟩
  scan := show Inner ({} : Panel).scan by decide
  trail := show ∀ byte ∈ ({} : Panel).trail, Inner byte from each_of_all (by decide)
  watts := sound.watts

theorem shown_split (s : Snapshot) : (shown s p).radio.split = s.split := by
  obtain ⟨a, b, rx, tx, split⟩ := s
  cases rx <;> cases split <;> rfl

theorem modeFrame_shown (s : Snapshot) (p : Panel) :
    modeFrame (s.vfo s.rxVfo).mode =
      ascii ['M', 'D'] ++ [((shown s p).radio.vfo (shown s p).radio.rx).modeDigit, terminator] := by
  obtain ⟨a, b, rx⟩ := s
  cases rx <;> rfl

/-- The status that a dialect writes is the one that the radio would answer. -/
theorem synthIf_shown (s : Snapshot) (p : Panel) :
    synthIf s false = ascii ['I', 'F'] ++ (shown s p).ifPayload ++ [terminator] := by
  have split := shown_split (p := p) s
  have freq : ((shown s p).radio.vfo (shown s p).radio.rx).freqHz = (s.vfo s.rxVfo).freqHz := by
    obtain ⟨a, b, rx⟩ := s
    cases rx <;> rfl
  have digit : ((shown s p).radio.vfo (shown s p).radio.rx).modeDigit = (s.vfo s.rxVfo).mode.toKenwoodDigit := by
    obtain ⟨a, b, rx⟩ := s
    cases rx <;> rfl
  have written : synthIf s false = ascii ['I', 'F'] ++ decimal 11 (s.vfo s.rxVfo).freqHz ++
      ifTail s.ptt (s.vfo s.rxVfo).mode s.rxVfo s.split := rfl
  have tail : ∀ ptt mode rxVfo split, ifTail ptt mode rxVfo split =
      ({} : Panel).fill ++ [Panel.flagDigit ptt, mode.toKenwoodDigit, Radio.Ts590.vfoDigit rxVfo, ({} : Panel).scan,
        Panel.flagDigit split] ++ ({} : Panel).trail ++ [terminator] := fun _ _ _ _ => rfl
  rw [written, tail, Panel.ifPayload]
  simp only [freq, digit, split, List.append_assoc]
  rfl

/-- The queries that are modeled are answered from the snapshot. -/
theorem exec_modeled (relays : ctx.Relays) (p : Panel) :
    ∀ q ∈ (shown w.state.snapshot p).answers.take 4, requestFrames q.1 = [q.1] ∧
      (Ts590Dialect.handle q.1 ctx).exec (answerInFront peer) (w, r) = (q.2, (w, r)) := by
  set s := w.state.snapshot with here
  simp only [Panel.answers, List.take_succ_cons, List.take_zero, List.forall_mem_cons, List.not_mem_nil,
    false_imp_iff, implies_true, and_true]
  refine ⟨⟨rfl, ?_⟩, ⟨rfl, ?_⟩, ⟨rfl, ?_⟩, ⟨rfl, ?_⟩⟩
  · rw [Ts590Dialect.handle, show splitFrame (ascii ['F', 'A', ';']) = some (ascii ['F', 'A'], []) from rfl]
    simp [relays.dual, answerInFront, answerAlone, ← here]
    rfl
  · rw [Ts590Dialect.handle, show splitFrame (ascii ['F', 'B', ';']) = some (ascii ['F', 'B'], []) from rfl]
    simp [relays.dual, answerInFront, answerAlone, ← here]
    rfl
  · rw [Ts590Dialect.handle, show splitFrame (ascii ['I', 'F', ';']) = some (ascii ['I', 'F'], []) from rfl,
      ← synthIf_shown]
    simp [relays.dual, answerInFront, answerAlone, ← here]
    rfl
  · rw [Ts590Dialect.handle, show splitFrame (ascii ['M', 'D', ';']) = some (ascii ['M', 'D'], []) from rfl,
      ← modeFrame_shown]
    simp [relays.dual, answerInFront, answerAlone, ← here]
    rfl

/-- An endpoint shows the snapshot of its hub, and what the peer behind it shows. -/
theorem endpoint_shows (relays : ctx.Relays) (passes : Passes peer r p) (sound : p.Sound)
    (narrow : ∀ v, (w.state.snapshot.vfo v).freqHz < 10 ^ 11) :
    Shows (endpoint ctx peer) (w, r) (shown w.state.snapshot p) := by
  intro q mem
  rw [← List.take_append_drop 4 (shown w.state.snapshot p).answers, List.mem_append] at mem
  cases mem with
  | inl modeled =>
      obtain ⟨single, handled⟩ := exec_modeled relays p q modeled
      have whole := answers_whole (shown_sound sound narrow) (by decide : 4 ≤ 100) q (List.mem_of_mem_take modeled)
      exact endpoint_reply single whole handled
  | inr unmodeled => exact (endpoint_passes relays passes w.state.snapshot q unmodeled).2

/-- Whatever its hub holds, a poll changes nothing behind the endpoint. -/
theorem endpoint_still (relays : ctx.Relays) (passes : Passes peer r p) :
    ∀ cmd ∈ pollCommands, (endpoint ctx peer cmd (w, r)).2 = (w, r) := by
  rw [← (shown w.state.snapshot p).asked, List.forall_mem_map]
  intro q mem
  rw [← List.take_append_drop 4 (shown w.state.snapshot p).answers, List.mem_append] at mem
  cases mem with
  | inl modeled =>
      obtain ⟨single, handled⟩ := exec_modeled relays p q modeled
      rw [endpoint, single, serve, Program.exec_bind, handled]
      rfl
  | inr unmodeled =>
      rw [(endpoint_passes relays passes w.state.snapshot q unmodeled).2]

end Endpoint

/-! ## Levels -/

/-- The DATA flag that a radio answers. -/
def Panel.operatingData (p : Panel) : Bool := (p.radio.vfo p.radio.rx).data

theorem shown_data (s : Snapshot) (p : Panel) : (shown s p).operatingData = p.operatingData := by
  obtain ⟨a, b, rx⟩ := s
  cases rx <;> rfl

/-- What agrees with the endpoint of a hub agrees with the radio, if that hub does. -/
theorem agrees_shown {p below : Panel} {s s' : Snapshot} (data : below.operatingData = p.operatingData)
    (agrees : Agrees p.radio s) (again : Agrees (shown s below).radio s') : Agrees p.radio s' := by
  have rx : s'.rxVfo = s.rxVfo := again.rx
  refine ⟨rx.trans agrees.rx, ?_, ?_, fun v => ?_, ?_, ?_, again.ptt.trans agrees.ptt⟩
  · rw [again.tx]
    show (if s.split then s.rxVfo.other else s.rxVfo) = p.radio.tx
    rw [agrees.split, agrees.rx, Transceiver.split]
    cases p.radio.rx <;> cases p.radio.tx <;> rfl
  · exact again.split.trans ((shown_split s).trans agrees.split)
  · refine (again.freq v).trans (Eq.trans ?_ (agrees.freq v))
    cases v <;> rfl
  · refine again.mode.trans (Eq.trans ?_ agrees.mode)
    show ((shown s below).radio.vfo s.rxVfo).modeDigit = _
    cases s.rxVfo <;> rfl
  · exact again.data.trans ((shown_data s below).trans data)

namespace Stack

variable {ctx : Nat → Context} {n m level : Nat}

/-- The lowest `m` hubs agree with the radio. -/
def Settled (m : Nat) : (n : Nat) → Stack n → Prop
  | 0, _ => True
  | n + 1, (w, below) =>
      Settled m n below ∧ (n < m → Agrees (panel n below).radio w.state.snapshot)

theorem settled_all {s : Stack n} (settled : Settled m n s) (all : n ≤ m) :
    ∀ w ∈ hubs n s, Agrees (panel n s).radio w.state.snapshot := by
  induction n with
  | zero => simp [hubs]
  | succ n ih =>
      intro w mem
      cases List.mem_cons.mp mem with
      | inl top => exact top ▸ settled.2 all
      | inr lower => exact @ih s.2 settled.1 (Nat.le_of_succ_le all) w lower

theorem settled_more {s : Stack n} {k : Nat} (settled : Settled m n s) (all : n ≤ m) : Settled k n s := by
  induction n with
  | zero => trivial
  | succ n ih => exact ⟨@ih s.2 settled.1 (Nat.le_of_succ_le all), fun _ => settled.2 all⟩

theorem settled_none (s : Stack n) : Settled 0 n s := by
  induction n with
  | zero => trivial
  | succ n ih => exact ⟨ih s.2, fun none => absurd none (Nat.not_lt_zero n)⟩

/-- The radio that whoever stands behind the hubs sees. -/
def face : (n : Nat) → Stack n → Panel
  | 0, p => p
  | n + 1, (w, below) => shown w.state.snapshot (face n below)

theorem face_data (s : Stack n) : (face n s).operatingData = (panel n s).operatingData := by
  induction n with
  | zero => rfl
  | succ n ih => exact (shown_data _ _).trans (ih s.2)

theorem relays_below (relays : ∀ k < n + 1, (ctx k).Relays) : ∀ k < n, (ctx k).Relays :=
  fun k lt => relays k (Nat.lt_succ_of_lt lt)

/-- What is not modeled goes through any cascade. -/
theorem passes_face (relays : ∀ k < n, (ctx k).Relays) {s : Stack n} (sound : (panel n s).Sound)
    (short : (panel n s).trail.length ≤ 100) : Passes (peer ctx n) s (face n s) := by
  induction n with
  | zero =>
      intro q mem
      have asked := List.mem_of_mem_drop mem
      exact ⟨answers_whole sound short q asked, shows_radio s q asked⟩
  | succ n ih =>
      have below := @ih (relays_below relays) s.2 sound short
      exact endpoint_passes (relays n (Nat.lt_succ_self n)) below _

theorem peer_still (relays : ∀ k < n, (ctx k).Relays) {s : Stack n} (sound : (panel n s).Sound)
    (short : (panel n s).trail.length ≤ 100) : ∀ cmd ∈ pollCommands, (peer ctx n cmd s).2 = s := by
  cases n with
  | zero =>
      rw [← Panel.asked s, List.forall_mem_map]
      intro q mem
      exact congrArg Prod.snd (shows_radio s q mem)
  | succ n =>
      have below := @passes_face ctx n (relays_below relays) s.2 sound short
      exact endpoint_still (relays n (Nat.lt_succ_self n)) below

/-- Hubs that agree with the radio show it at their endpoints. -/
theorem face_shows (relays : ∀ k < n, (ctx k).Relays) {s : Stack n} (sound : (panel n s).Sound)
    (short : (panel n s).trail.length ≤ 100) (settled : Settled m n s) (all : n ≤ m) :
    Shows (peer ctx n) s (face n s) ∧ (face n s).Sound := by
  induction n with
  | zero => exact ⟨shows_radio s, sound⟩
  | succ n ih =>
      obtain ⟨-, soundFace⟩ := @ih (relays_below relays) s.2 sound short settled.1 (Nat.le_of_succ_le all)
      have agrees := settled.2 all
      have narrow : ∀ v, (s.1.state.snapshot.vfo v).freqHz < 10 ^ 11 := by
        intro v
        rw [agrees.freq v]
        exact sound.narrow v
      have passes := @passes_face ctx n (relays_below relays) s.2 sound short
      exact ⟨endpoint_shows (relays n (Nat.lt_succ_self n)) passes soundFace narrow,
        shown_sound soundFace narrow⟩

/-- What agrees with their last endpoint agrees with the radio. -/
theorem agrees_face {s : Stack n} {snapshot : Snapshot} (settled : Settled m n s) (all : n ≤ m)
    (agrees : Agrees (face n s).radio snapshot) : Agrees (panel n s).radio snapshot := by
  cases n with
  | zero => exact agrees
  | succ n => exact agrees_shown (face_data s.2) (settled.2 all) agrees

/-- The scheduler of a hub runs a poll; what is in front of the hub stays as it is. -/
theorem poll_still (relays : ∀ k < n, (ctx k).Relays) {below : Stack n} (sound : (panel n below).Sound)
    (short : (panel n below).trail.length ≤ 100) (h : StateHandle) :
    ((Radio.execute ts590Backend .poll).run.exec (linked (peer ctx n)) (h, below)).2.2 = below := by
  have asks : (Radio.execute ts590Backend .poll).run.Asks (LinkQuestion.Submits (· ∈ pollCommands)) :=
    @asks_execute _ .poll (fun _ mem => mem)
  refine asks.exec_keeps _ (I := fun s : StateHandle × Stack n => s.2 = below) ?_ rfl
  rintro q submits ⟨h, r⟩ rfl
  cases q with
  | submit bytes expect => exact peer_still relays sound short bytes submits
  | snapshot | record => rfl

/-- A poll of any hub keeps what is settled, and a poll of the next one settles it. -/
theorem poll_settles (relays : ∀ k < n, (ctx k).Relays) {s : Stack n} (sound : (panel n s).Sound)
    (short : (panel n s).trail.length ≤ 100) (settled : Settled m n s) (level : Nat) :
    panel n (poll ctx level n s) = panel n s ∧ Settled m n (poll ctx level n s) ∧
      (level = m → Settled (m + 1) n (poll ctx level n s)) := by
  induction n with
  | zero => exact ⟨rfl, trivial, fun _ => trivial⟩
  | succ n ih =>
      obtain ⟨w, below⟩ := s
      have relays' := relays_below relays
      have sound : (panel n below).Sound := sound
      have short : (panel n below).trail.length ≤ 100 := short
      obtain ⟨lower, here⟩ := settled
      by_cases top : level = n
      -- The last hub polls the endpoint of the one before, which shows the radio if those agree with it.
      · have polled : poll ctx level (n + 1) (w, below) = pollHub (peer ctx n) (w, below) := if_pos top
        obtain ⟨state, after, agrees⟩ : ∃ state, pollHub (peer ctx n) (w, below) = ({ w with state }, below) ∧
            (n ≤ m → Agrees (panel n below).radio state.snapshot) := by
          refine ⟨((Radio.execute ts590Backend .poll).run.exec (linked (peer ctx n)) (w.state, below)).2.1,
            Prod.ext rfl (poll_still relays' sound short w.state), fun all => ?_⟩
          obtain ⟨shows, soundFace⟩ := face_shows relays' sound short lower all
          rw [exec_poll_linked shows]
          exact agrees_face lower all (polled_agrees soundFace w.state .pollDiff)
        rw [polled, after]
        refine ⟨rfl, ⟨lower, fun lt => agrees (Nat.le_of_lt lt)⟩, fun next => ?_⟩
        exact ⟨settled_more lower (top ▸ next.le), fun _ => agrees (top ▸ next.le)⟩
      · obtain ⟨same, kept, more⟩ := @ih relays' below sound short lower
        have polled : poll ctx level (n + 1) (w, below) = (w, poll ctx level n below) := if_neg top
        rw [polled]
        refine ⟨same, ⟨kept, fun lt => ?_⟩, fun next => ⟨more next, fun lt => ?_⟩⟩
        · exact same ▸ here lt
        · have lt : n < m := by omega
          exact same ▸ here lt

end Stack

/-! ## Runs -/

section Runs

variable {ctx : Nat → Context} {n m : Nat} {s t : Stack n}
  {history : List (Transition (Stack n) CascadeInput Unit)}

open Stack

theorem settles_from (relays : ∀ k < n, (ctx k).Relays) (sound : (panel n s).Sound)
    (short : (panel n s).trail.length ≤ 100) (settled : Settled m n s)
    (run : (cascade ctx n).Execution s history t) (quiet : ∀ e ∈ history, ∃ level, e.input = .poll level)
    {levels : Nat} (outwards : ((List.range' m levels).map CascadeInput.poll).Sublist (history.map (·.input))) :
    panel n t = panel n s ∧ Settled (m + levels) n t := by
  induction history generalizing s m levels with
  | nil =>
      obtain rfl := run.stays
      obtain rfl : levels = 0 := by simpa using outwards
      exact ⟨rfl, settled⟩
  | cons e history ih =>
      obtain ⟨-, step, rest⟩ := run.uncons
      obtain ⟨polled, later⟩ := List.forall_mem_cons.mp quiet
      obtain ⟨level, polled⟩ := polled
      have after : e.after = Stack.poll ctx level n s := by
        rw [polled] at step
        exact (congrArg Prod.fst (Option.some.inj step)).symm
      obtain ⟨same, kept, more⟩ := poll_settles relays sound short settled level
      rw [after] at rest
      rw [← same] at sound short ⊢
      rw [List.map_cons, List.sublist_cons_iff] at outwards
      -- This poll is beside the ones that go outwards, or the next one of them.
      rcases outwards with aside | ⟨others, next, outwards⟩
      · exact ih sound short kept rest later aside
      · cases levels with
        | zero => cases next
        | succ levels =>
            rw [List.range'_succ, List.map_cons, List.cons.injEq, polled, CascadeInput.poll.injEq] at next
            obtain ⟨first, rfl⟩ := next
            have settles := ih sound short (more first.symm) rest later outwards
            rwa [Nat.add_assoc, Nat.add_comm 1] at settles

/-- **A cascade settles.**  Whatever its hubs hold, once they have polled from the radio outwards, each of them
agrees with the radio, in whatever order they polled otherwise. -/
theorem cascade_settles (relays : ∀ k < n, (ctx k).Relays) (sound : (panel n s).Sound)
    (short : (panel n s).trail.length ≤ 100) (run : (cascade ctx n).Execution s history t)
    (quiet : ∀ e ∈ history, ∃ level, e.input = .poll level)
    (outwards : ((List.range n).map CascadeInput.poll).Sublist (history.map (·.input))) :
    panel n t = panel n s ∧ ∀ w ∈ hubs n t, Agrees (panel n t).radio w.state.snapshot := by
  rw [List.range_eq_range'] at outwards
  obtain ⟨same, settled⟩ := settles_from relays sound short (settled_none s) run quiet outwards
  exact ⟨same, settled_all settled (Nat.le_add_left n 0)⟩

/-- A session that may only look, on a hub that knows nothing. -/
private def window : Context := { sessionId := 1, perms := ⟨true, false, false, false, false⟩ }

private def blankHub : World := { state := {}, ptt := { maxTx := 0 }, ai := false, clock := 0 }

private def pair : Stack 2 := (blankHub, blankHub, splitPanel)

/-- The outer one of two hubs polls too early, and again after the inner one. -/
theorem cascade_settles_pair :
    let s₁ := Stack.poll (fun _ => window) 1 2 pair
    let s₂ := Stack.poll (fun _ => window) 0 2 s₁
    let s₃ := Stack.poll (fun _ => window) 1 2 s₂
    panel 2 s₃ = splitPanel ∧ ∀ w ∈ hubs 2 s₃, Agrees (panel 2 s₃).radio w.state.snapshot := by
  intro s₁ s₂ s₃
  have early : (cascade (fun _ => window) 2).step pair (.poll 1) = some (s₁, ()) := rfl
  have inner : (cascade (fun _ => window) 2).step s₁ (.poll 0) = some (s₂, ()) := rfl
  have outer : (cascade (fun _ => window) 2).step s₂ (.poll 1) = some (s₃, ()) := rfl
  have run : (cascade (fun _ => window) 2).Execution pair
      [⟨pair, .poll 1, (), s₁⟩, ⟨s₁, .poll 0, (), s₂⟩, ⟨s₂, .poll 1, (), s₃⟩] s₃ :=
    ((Machine.Execution.start.next early).next inner).next outer
  have relays : window.Relays := ⟨rfl, rfl⟩
  have sound : (panel 2 pair).Sound := splitPanel_sound
  refine cascade_settles (fun _ _ => relays) sound (by decide) run ?_ ?_
  · simp
  · exact .cons _ (.refl _)

end Runs

end CatHub.Dialect
