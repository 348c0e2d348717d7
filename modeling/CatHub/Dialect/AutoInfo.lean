/-
# CatHub.Dialect.AutoInfo — auto-information clients end on the hub's state.

A serial session takes the changes out of the ring, as late as it likes, and formats each against the
snapshot of that moment; where the ring has overrun it, it replays the whole snapshot.  `feed` is that
session next to a recorder, and the library settles it for every `Gauge`, a value that a client reads off
the frames it is sent.  A dual-VFO TS-590 client reads its values off `IF`, the others off `FA` and `MD`.

Requests and the native frames that the hub does not model are left out.  Frequencies are read off an
`IF` by its tail, so that they may have more than eleven figures.
-/
import CatHub.Dialect.SingleVfo
import CatHub.Radio.Broadcast
import CatHub.Systems.Feed

namespace CatHub.Dialect

open Systems Radio

open Radio.Ts590 (ascii terminator decimal decimalValue vfoDigit)

/-! ## The session -/

/-- The changes of the snapshot, and what a session makes of them. -/
def feed (dialect : ClientDialect) (ctx : Context) : Source Snapshot StateChange (List UInt8) where
  apply := Snapshot.applyChange
  restore := Snapshot.asChanges
  render := dialect.formatNotification ctx

/-! ## Reading frames -/

/-- The commands of a byte string, and what follows the last one. -/
def commands (bytes : List UInt8) : List (List UInt8) := bytes.splitOnP (· == terminator)

/-- What a client reads off a single command, if that is one that it looks at. -/
abbrev Gauge (ν : Type) := List UInt8 → Option ν

def figures (digits : List UInt8) : Nat := decimalValue (digits.map (·.toNat - 48))

/-- Read the payload of the commands with one verb. -/
def onVerb {ν : Type} (verb : List UInt8) (read : List UInt8 → Option ν) : Gauge ν := fun command =>
  if command.take 2 = verb then read (command.drop 2) else none

def faFreq : Gauge Nat := onVerb (ascii ['F', 'A']) fun payload => some (figures payload)

def mdDigit : Gauge UInt8 := onVerb (ascii ['M', 'D']) fun payload => payload[0]?

/-- The length of what follows the frequency in an `IF`. -/
def ifTailLen : Nat := 24

def ifFreq : Gauge Nat := onVerb (ascii ['I', 'F']) fun payload =>
  some (figures (payload.take (payload.length - ifTailLen)))

def ifMode : Gauge UInt8 := onVerb (ascii ['I', 'F']) fun payload => payload.reverse[7]?

def ifRxVfo : Gauge UInt8 := onVerb (ascii ['I', 'F']) fun payload => payload.reverse[6]?

section
variable {ν : Type} {gauge : Gauge ν}

/-- Everything that a client reads off what it was sent, in order. -/
def reported (gauge : Gauge ν) (bytes : List UInt8) : List ν := (commands bytes).filterMap gauge

theorem commands_append (front back : List UInt8) :
    commands (front ++ [terminator] ++ back) = commands front ++ commands back := by
  rw [List.append_assoc, List.singleton_append]
  exact List.splitOnP_append_cons front back (beq_self_eq_true terminator)

theorem reported_nil (blank : gauge [] = none) : reported gauge [] = [] := by
  simp [reported, commands, blank]

theorem reported_append (front back : List UInt8) :
    reported gauge (front ++ [terminator] ++ back) = reported gauge front ++ reported gauge back := by
  rw [reported, commands_append, List.filterMap_append]
  rfl

theorem reported_command {body : List UInt8} (closed : terminator ∉ body) :
    reported gauge body = (gauge body).toList := by
  have single : commands body = [body] := by
    refine List.splitOnP_eq_singleton (fun byte mem => ?_)
    exact beq_false_of_ne (fun same => closed (same ▸ mem))
  rw [reported, single]
  cases read : gauge body <;> simp [read]

end

/-! ## The frames -/

/-- An `IF` without its terminator. -/
def status (snapshot : Snapshot) (singleVfo : Bool) : List UInt8 :=
  let operating := snapshot.vfo snapshot.rxVfo
  ascii ['I', 'F'] ++ decimal 11 operating.freqHz ++
    (ascii ['0', '0', '0', '0', '+', '0', '0', '0', '0', '0', '0', '0', '0', '0', '0'] ++
      [if snapshot.ptt then 0x31 else 0x30, operating.mode.toKenwoodDigit,
        vfoDigit (if singleVfo then .a else snapshot.rxVfo), 0x30,
        if !singleVfo && snapshot.split then 0x31 else 0x30] ++ ascii ['0', '0', '0', '0'])

theorem synthIf_eq (snapshot : Snapshot) (singleVfo : Bool) :
    synthIf snapshot singleVfo = status snapshot singleVfo ++ [terminator] := by
  simp [synthIf, status, ifTail, ascii, terminator]

theorem modeFrame_eq (mode : Mode) :
    modeFrame mode = ascii ['M', 'D'] ++ [mode.toKenwoodDigit] ++ [terminator] := by
  simp [modeFrame]

theorem decimal_closed {width n : Nat} : terminator ∉ decimal width n :=
  fun mem => (Radio.Ts590.decimal_figures mem).1 rfl

theorem modeDigit_closed (mode : Mode) : mode.toKenwoodDigit ≠ terminator := by
  cases mode <;> decide

theorem status_closed (snapshot : Snapshot) (singleVfo : Bool) :
    terminator ∉ status snapshot singleVfo := by
  have mode := modeDigit_closed (snapshot.vfo snapshot.rxVfo).mode
  have vfo : ∀ v, vfoDigit v ≠ terminator := by
    intro v
    cases v <;> decide
  have flag : ∀ b : Bool, (if b then 0x31 else 0x30 : UInt8) ≠ terminator := by decide
  simp only [status, List.mem_append, not_or]
  refine ⟨⟨by decide, decimal_closed⟩, ⟨by decide, ?_⟩, by decide⟩
  simp only [List.mem_cons, List.not_mem_nil, or_false, not_or]
  exact ⟨(flag _).symm, mode.symm, (vfo _).symm, by decide, (flag _).symm⟩

theorem figures_decimal (width n : Nat) : figures (decimal width n) = n := by
  have digits : ∀ d < 10, (d + 48).toUInt8.toNat - 48 = d := by decide
  have same : (decimal width n).map (·.toNat - 48) = Radio.Ts590.paddedDigits width n := by
    rw [decimal, List.map_map]
    refine (List.map_congr_left ?_).trans (List.map_id _)
    intro d mem
    exact digits d (Radio.Ts590.lt_ten_of_mem_paddedDigits mem)
  rw [figures, same, Radio.Ts590.decimalValue_paddedDigits]

/-! ## What is read off them -/

section
variable {ν : Type} {verb other : List UInt8} {read : List UInt8 → Option ν}

theorem onVerb_same (two : verb.length = 2) (payload : List UInt8) :
    onVerb verb read (verb ++ payload) = read payload := by
  rw [onVerb, List.take_left' two, List.drop_left' two, if_pos rfl]

theorem onVerb_other (two : other.length = 2) (differs : other ≠ verb) (payload : List UInt8) :
    onVerb verb read (other ++ payload) = none := by
  rw [onVerb, List.take_left' two, if_neg differs]

end

theorem faFreq_fa (hz : Nat) : faFreq (ascii ['F', 'A'] ++ decimal 11 hz) = some hz := by
  rw [faFreq, onVerb_same rfl, figures_decimal]

theorem mdDigit_md (digit : UInt8) : mdDigit (ascii ['M', 'D'] ++ [digit]) = some digit :=
  onVerb_same rfl _

section
variable (s : Snapshot)

theorem ifFreq_status : ifFreq (status s false) = some (s.vfo s.rxVfo).freqHz := by
  rw [ifFreq, status, List.append_assoc, onVerb_same rfl]
  simp [ifTailLen, ascii, figures_decimal]

theorem ifMode_status : ifMode (status s false) = some (s.vfo s.rxVfo).mode.toKenwoodDigit := by
  rw [ifMode, status, List.append_assoc, onVerb_same rfl]
  simp [ascii]

theorem ifRxVfo_status : ifRxVfo (status s false) = some (vfoDigit s.rxVfo) := by
  rw [ifRxVfo, status, List.append_assoc, onVerb_same rfl]
  simp [ascii]

end

/-! ## What changes tell -/

section
variable {ν φ : Type} {gauge : Gauge ν} {dialect : ClientDialect} {ctx : Context}
  {fact : Snapshot → φ} {figure : φ → ν}

/-- The last value that a client reads off what it is sent at once. -/
def newest (gauge : Gauge ν) (bytes : List UInt8) : Option ν := (reported gauge bytes).getLast?

theorem rxVfo_after {c : StateChange} (other : ∀ v, c ≠ .rxVfo v) (s : Snapshot) :
    (s.after c).rxVfo = s.rxVfo := by
  cases c with
  | rxVfo v => exact absurd rfl (other v)
  | freq v | mode v | dataMode v => cases v <;> rfl
  | _ => rfl

/-- Changes of other values leave the operating VFO as it is. -/
theorem operating_after {s : Snapshot} {c : StateChange} (other : ∀ v, c ≠ .rxVfo v)
    (noFreq : ∀ hz, c ≠ .freq s.rxVfo hz) (noMode : ∀ mode, c ≠ .mode s.rxVfo mode) :
    ((s.after c).vfo (s.after c).rxVfo).freqHz = (s.vfo s.rxVfo).freqHz ∧
      ((s.after c).vfo (s.after c).rxVfo).mode = (s.vfo s.rxVfo).mode := by
  rw [rxVfo_after other]
  cases c with
  | rxVfo v => exact absurd rfl (other v)
  | freq v hz =>
      have apart : v ≠ s.rxVfo := fun same => noFreq hz (same ▸ rfl)
      cases v <;> cases rx : s.rxVfo <;> first | exact ⟨rfl, rfl⟩ | exact absurd rx.symm apart
  | mode v mode =>
      have apart : v ≠ s.rxVfo := fun same => noMode mode (same ▸ rfl)
      cases v <;> cases rx : s.rxVfo <;> first | exact ⟨rfl, rfl⟩ | exact absurd rx.symm apart
  | dataMode v on => cases v <;> cases s.rxVfo <;> exact ⟨rfl, rfl⟩
  | _ => exact ⟨rfl, rfl⟩

/-- What is told of a fact by the fact and the operating VFO alone is told as the feed needs it. -/
theorem reports_of (tells : φ → Vfo → StateChange → Option ν)
    (is : ∀ s d, (dialect.formatNotification ctx true s d).bind (newest gauge) =
      tells (fact s) s.rxVfo d)
    (switch : ∀ f rx v, tells f rx (.rxVfo v) = some (figure f))
    (own : ∀ s c, (∀ v, c ≠ .rxVfo v) →
      tells (fact (s.after c)) s.rxVfo c = some (figure (fact (s.after c))) ∨
        (tells (fact (s.after c)) s.rxVfo c = none ∧ fact (s.after c) = fact s))
    (seen : ∀ s t : Snapshot, s.rxVfo = t.rxVfo →
      (s.vfo s.rxVfo).freqHz = (t.vfo t.rxVfo).freqHz →
      (s.vfo s.rxVfo).mode = (t.vfo t.rxVfo).mode → fact s = fact t) :
    Reports (feed dialect ctx) (newest gauge) fact figure where
  told s c _ := by
    change (dialect.formatNotification ctx true (s.after c) c).bind _ = _ ∨
      ((dialect.formatNotification ctx true (s.after c) c).bind _ = _ ∧ fact (s.after c) = _ ∧
        ∀ d, (dialect.formatNotification ctx true (s.after c) d).bind _ = _)
    by_cases other : ∃ v, c = .rxVfo v
    · obtain ⟨v, rfl⟩ := other
      exact .inl ((is _ _).trans (switch _ _ v))
    · have other : ∀ v, c ≠ .rxVfo v := fun v same => other ⟨v, same⟩
      have rx := rxVfo_after other s
      rcases own s c other with told | ⟨untold, same⟩
      · rw [is, rx]
        exact .inl told
      · refine .inr ⟨?_, same, fun d => ?_⟩
        · rw [is, rx]
          exact untold
        · rw [is, rx, same]
          exact (is s d).symm
  untold s c unchanged := by
    change fact (s.after c) = _ ∧
      ∀ d, (dialect.formatNotification ctx true (s.after c) d).bind _ = _
    have values := values_unchanged s c unchanged
    have rx : (s.after c).values.rxVfo = s.values.rxVfo := congrArg Snapshot.rxVfo values
    change (s.after c).rxVfo = s.rxVfo at rx
    have freq : ∀ t v, (Snapshot.vfo t v).freqHz = (t.values.vfo v).freqHz := by
      intro t v
      cases v <;> rfl
    have mode : ∀ t v, (Snapshot.vfo t v).mode = (t.values.vfo v).mode := by
      intro t v
      cases v <;> rfl
    have same : fact (s.after c) = fact s := by
      refine seen _ _ rx ?_ ?_
      · rw [freq (s.after c), values, rx, ← freq]
      · rw [mode (s.after c), values, rx, ← mode]
    refine ⟨same, fun d => ?_⟩
    rw [is, rx, same]
    exact (is s d).symm
  restores s := by
    refine ⟨s.asChanges.dropLast, .rxVfo s.rxVfo, rfl, fun t => ?_⟩
    exact (is t _).trans (switch _ _ _)

theorem reported_frame {body : List UInt8} (closed : terminator ∉ body) (back : List UInt8) :
    reported gauge (body ++ [terminator] ++ back) = (gauge body).toList ++ reported gauge back := by
  rw [reported_append, reported_command closed]

theorem reported_freqFrame {verb : List UInt8} (closed : terminator ∉ verb) (hz : Nat)
    (back : List UInt8) :
    reported gauge (freqFrame verb hz ++ back) =
      (gauge (verb ++ decimal 11 hz)).toList ++ reported gauge back := by
  refine reported_frame ?_ back
  rw [List.mem_append, not_or]
  exact ⟨closed, decimal_closed⟩

theorem reported_modeFrame (mode : Mode) (back : List UInt8) :
    reported gauge (modeFrame mode ++ back) =
      (gauge (ascii ['M', 'D'] ++ [mode.toKenwoodDigit])).toList ++ reported gauge back := by
  rw [modeFrame_eq]
  refine reported_frame ?_ back
  rw [List.mem_append, not_or]
  exact ⟨by decide, fun mem => modeDigit_closed mode (List.mem_singleton.mp mem).symm⟩

theorem reported_synthIf (s : Snapshot) (singleVfo : Bool) (back : List UInt8) :
    reported gauge (synthIf s singleVfo ++ back) =
      (gauge (status s singleVfo)).toList ++ reported gauge back := by
  rw [synthIf_eq]
  exact reported_frame (status_closed s singleVfo) back

end

/-! ## Clients that look at `IF` -/

section
variable {ν φ : Type} {gauge : Gauge ν} {ctx : Context} {fact : Snapshot → φ} {figure : φ → ν}

/-- What the changes tell a dual-VFO TS-590 client that reads a fact off `IF`. -/
def statusTells (figure : φ → ν) (f : φ) (rx : Vfo) : StateChange → Option ν
  | .freq vfo _ | .mode vfo _ => if vfo = rx then some (figure f) else none
  | .rxVfo _ => some (figure f)
  | _ => none

theorem reports_status (dual : ctx.singleVfo = false) {read : List UInt8 → Option ν}
    (is : gauge = onVerb (ascii ['I', 'F']) read)
    (shows : ∀ s, gauge (status s false) = some (figure (fact s)))
    (seen : ∀ s t : Snapshot, s.rxVfo = t.rxVfo →
      (s.vfo s.rxVfo).freqHz = (t.vfo t.rxVfo).freqHz →
      (s.vfo s.rxVfo).mode = (t.vfo t.rxVfo).mode → fact s = fact t) :
    Reports (feed ts590Dialect ctx) (newest gauge) fact figure := by
  have blank : gauge [] = none := by
    rw [is]
    rfl
  have freq : ∀ verb hz, verb = ascii ['F', 'A'] ∨ verb = ascii ['F', 'B'] →
      gauge (verb ++ decimal 11 hz) = none := by
    rintro _ hz (rfl | rfl) <;> rw [is, onVerb_other rfl (by decide)]
  have mode : ∀ digit, gauge (ascii ['M', 'D'] ++ [digit]) = none := by
    intro digit
    rw [is, onVerb_other rfl (by decide)]
  have status_only : ∀ s, reported gauge (synthIf s false) = [figure (fact s)] := by
    intro s
    have whole := @reported_synthIf _ gauge s false []
    rw [List.append_nil, shows, reported_nil blank] at whole
    exact whole
  have freq_only : ∀ verb hz, verb = ascii ['F', 'A'] ∨ verb = ascii ['F', 'B'] → ∀ back,
      reported gauge (freqFrame verb hz ++ back) = reported gauge back := by
    intro verb hz known back
    have closed : terminator ∉ verb := by
      rcases known with rfl | rfl <;> decide
    rw [reported_freqFrame closed, freq verb hz known]
    rfl
  refine reports_of (statusTells figure) ?_ (fun _ _ _ => rfl) ?_ seen
  · intro s d
    cases d with
    | freq vfo hz =>
        have shown : ∀ verb, verb = ascii ['F', 'A'] ∨ verb = ascii ['F', 'B'] →
            newest gauge (if vfo = s.rxVfo then freqFrame verb hz ++ synthIf s false
              else freqFrame verb hz) = statusTells figure (fact s) s.rxVfo (.freq vfo hz) := by
          intro verb known
          have alone := freq_only verb hz known []
          rw [List.append_nil, reported_nil blank] at alone
          by_cases active : vfo = s.rxVfo
          · simp [active, newest, freq_only verb hz known, status_only, statusTells]
          · simp [active, newest, alone, statusTells]
        cases vfo with
        | a =>
            have here := shown _ (.inl rfl)
            simpa [ts590Dialect, Ts590Dialect.formatNotification, dual] using here
        | b =>
            have here := shown _ (.inr rfl)
            simpa [ts590Dialect, Ts590Dialect.formatNotification, dual] using here
    | mode vfo m =>
        by_cases active : vfo = s.rxVfo
        · simp [ts590Dialect, Ts590Dialect.formatNotification, dual, active, newest, statusTells,
            reported_modeFrame, mode, status_only]
        · simp [ts590Dialect, Ts590Dialect.formatNotification, dual, active, statusTells]
    | rxVfo v =>
        simp [ts590Dialect, Ts590Dialect.formatNotification, dual, newest, status_only, statusTells]
    | _ => simp [ts590Dialect, Ts590Dialect.formatNotification, dual, statusTells]
  · intro s c other
    have kept : (∀ hz, c ≠ .freq s.rxVfo hz) → (∀ m, c ≠ .mode s.rxVfo m) →
        fact (s.after c) = fact s := fun noFreq noMode =>
      have same := operating_after other noFreq noMode
      seen _ _ (rxVfo_after other s) same.1 same.2
    cases c with
    | rxVfo v => exact absurd rfl (other v)
    | freq vfo hz =>
        by_cases active : vfo = s.rxVfo
        · exact .inl (if_pos active)
        · refine .inr ⟨if_neg active, kept ?_ (fun _ absurd => by cases absurd)⟩
          rintro _ ⟨⟩
          exact active rfl
    | mode vfo m =>
        by_cases active : vfo = s.rxVfo
        · exact .inl (if_pos active)
        · refine .inr ⟨if_neg active, kept (fun _ absurd => by cases absurd) ?_⟩
          rintro _ ⟨⟩
          exact active rfl
    | _ =>
        exact .inr ⟨rfl, kept (fun _ absurd => by cases absurd) (fun _ absurd => by cases absurd)⟩

end

/-! ## Clients that look at `FA` and `MD` -/

section
variable {ctx : Context} {family : Modeled}

def faTells (f : Nat) (rx : Vfo) : StateChange → Option Nat
  | .freq vfo hz => if vfo = rx then some hz else none
  | .rxVfo _ => some f
  | _ => none

def mdTells (f : Mode) (rx : Vfo) : StateChange → Option UInt8
  | .mode vfo mode => if vfo = rx then some mode.toKenwoodDigit else none
  | .rxVfo _ => some f.toKenwoodDigit
  | _ => none

theorem faFreq_mode (digit : UInt8) : faFreq (ascii ['M', 'D'] ++ [digit]) = none :=
  onVerb_other rfl (by decide) _

theorem mdDigit_fa (hz : Nat) : mdDigit (ascii ['F', 'A'] ++ decimal 11 hz) = none :=
  onVerb_other rfl (by decide) _

theorem onVerb_status {ν : Type} {verb : List UInt8} {read : List UInt8 → Option ν}
    (differs : ascii ['I', 'F'] ≠ verb) (s : Snapshot) (singleVfo : Bool) :
    onVerb verb read (status s singleVfo) = none := by
  rw [status, List.append_assoc, onVerb_other rfl differs]

/-- An `FA` or `MD` client is one that is shown a single VFO, or a TS-2000 one. -/
def FollowsOne (family : Modeled) (ctx : Context) : Prop :=
  family = .ts2000 ∨ ctx.singleVfo = true

/-- The `IF` at the end of a notification. -/
def afterChange (family : Modeled) (s : Snapshot) : List UInt8 :=
  match family with
  | .ts590 => synthIf s true
  | .ts2000 => []

def afterSwitch (family : Modeled) (s : Snapshot) : List UInt8 :=
  match family with
  | .ts590 => synthIf s true
  | .ts2000 => synthIf s false

theorem notification_eq (one : FollowsOne family ctx) (s : Snapshot) (d : StateChange) :
    family.dialect.formatNotification ctx true s d =
      match d with
      | .freq vfo hz =>
          if vfo = s.rxVfo then some (freqFrame (ascii ['F', 'A']) hz ++ afterChange family s)
          else none
      | .mode vfo mode =>
          if vfo = s.rxVfo then some (modeFrame mode ++ afterChange family s) else none
      | .rxVfo _ =>
          some (freqFrame (ascii ['F', 'A']) (s.vfo s.rxVfo).freqHz ++
            (modeFrame (s.vfo s.rxVfo).mode ++ afterSwitch family s))
      | _ => none := by
  cases family with
  | ts2000 =>
      cases d <;> simp [Modeled.dialect, ts2000Dialect, Ts2000Dialect.formatNotification, afterChange,
        afterSwitch, Ts2000Dialect.synthIf]
  | ts590 =>
      have single : ctx.singleVfo = true := one.resolve_left (by decide)
      cases d <;> simp [Modeled.dialect, ts590Dialect, Ts590Dialect.formatNotification, single,
        Ts590Dialect.singleVfoNotification, afterChange, afterSwitch]

section
variable {ν : Type} {verb : List UInt8} {read : List UInt8 → Option ν}

/-- Nothing but an `IF` follows, and that says nothing to a client that looks elsewhere. -/
theorem reported_afterChange (named : verb ≠ []) (differs : ascii ['I', 'F'] ≠ verb)
    (family : Modeled) (s : Snapshot) :
    reported (onVerb verb read) (afterChange family s) = [] ∧
      reported (onVerb verb read) (afterSwitch family s) = [] := by
  have blank : onVerb verb read [] = none := if_neg named.symm
  have silent : ∀ b, reported (onVerb verb read) (synthIf s b) = [] := by
    intro b
    have whole := @reported_synthIf _ (onVerb verb read) s b []
    rw [List.append_nil, onVerb_status differs, reported_nil blank] at whole
    exact whole
  cases family with
  | ts590 => exact ⟨silent true, silent true⟩
  | ts2000 => exact ⟨reported_nil blank, silent false⟩

end

theorem faFreq_tells (one : FollowsOne family ctx) (s : Snapshot) (d : StateChange) :
    (family.dialect.formatNotification ctx true s d).bind (newest faFreq) =
      faTells (s.vfo s.rxVfo).freqHz s.rxVfo d := by
  obtain ⟨change, switch⟩ : reported faFreq (afterChange family s) = [] ∧
      reported faFreq (afterSwitch family s) = [] :=
    reported_afterChange (by decide) (by decide) family s
  have closed : terminator ∉ ascii ['F', 'A'] := by decide
  rw [notification_eq one]
  cases d with
  | freq vfo hz =>
      by_cases active : vfo = s.rxVfo
      · simp [active, newest, reported_freqFrame closed, faFreq_fa, change, faTells]
      · simp [active, faTells]
  | mode vfo mode =>
      by_cases active : vfo = s.rxVfo
      · simp [active, newest, reported_modeFrame, faFreq_mode, change, faTells]
      · simp [active, faTells]
  | rxVfo vfo =>
      simp [newest, reported_freqFrame closed, reported_modeFrame, faFreq_fa, faFreq_mode, switch,
        faTells]
  | _ => rfl

theorem mdDigit_tells (one : FollowsOne family ctx) (s : Snapshot) (d : StateChange) :
    (family.dialect.formatNotification ctx true s d).bind (newest mdDigit) =
      mdTells (s.vfo s.rxVfo).mode s.rxVfo d := by
  obtain ⟨change, switch⟩ : reported mdDigit (afterChange family s) = [] ∧
      reported mdDigit (afterSwitch family s) = [] :=
    reported_afterChange (by decide) (by decide) family s
  have closed : terminator ∉ ascii ['F', 'A'] := by decide
  rw [notification_eq one]
  cases d with
  | freq vfo hz =>
      by_cases active : vfo = s.rxVfo
      · simp [active, newest, reported_freqFrame closed, mdDigit_fa, change, mdTells]
      · simp [active, mdTells]
  | mode vfo mode =>
      by_cases active : vfo = s.rxVfo
      · simp [active, newest, reported_modeFrame, mdDigit_md, change, mdTells]
      · simp [active, mdTells]
  | rxVfo vfo =>
      simp [newest, reported_freqFrame closed, reported_modeFrame, mdDigit_fa, mdDigit_md, switch,
        mdTells]
  | _ => rfl

/-- Every change of an operating frequency is told with it. -/
theorem reports_faFreq (one : FollowsOne family ctx) :
    Reports (feed family.dialect ctx) (newest faFreq) (fun s => (s.vfo s.rxVfo).freqHz) id := by
  refine reports_of faTells (faFreq_tells one) (fun _ _ _ => rfl) ?_ (fun _ _ _ freq _ => freq)
  intro s c other
  by_cases own : ∃ hz, c = .freq s.rxVfo hz
  · obtain ⟨hz, rfl⟩ := own
    refine .inl ((if_pos rfl).trans (congrArg some ?_))
    rw [rxVfo_after other]
    cases s.rxVfo <;> rfl
  · by_cases mode : ∃ m, c = .mode s.rxVfo m
    · obtain ⟨m, rfl⟩ := mode
      refine .inr ⟨rfl, ?_⟩
      rw [rxVfo_after other]
      cases s.rxVfo <;> rfl
    · have kept := operating_after other (fun hz same => own ⟨hz, same⟩)
        (fun m same => mode ⟨m, same⟩)
      refine .inr ⟨?_, kept.1⟩
      cases c with
      | freq vfo hz => exact if_neg (fun same : vfo = s.rxVfo => own ⟨hz, same ▸ rfl⟩)
      | rxVfo v => exact absurd rfl (other v)
      | _ => rfl

theorem reports_mdDigit (one : FollowsOne family ctx) :
    Reports (feed family.dialect ctx) (newest mdDigit) (fun s => (s.vfo s.rxVfo).mode)
      Mode.toKenwoodDigit := by
  refine reports_of mdTells (mdDigit_tells one) (fun _ _ _ => rfl) ?_ (fun _ _ _ _ mode => mode)
  intro s c other
  by_cases own : ∃ m, c = .mode s.rxVfo m
  · obtain ⟨m, rfl⟩ := own
    refine .inl ((if_pos rfl).trans (congrArg (some ∘ Mode.toKenwoodDigit) ?_))
    rw [rxVfo_after other]
    cases s.rxVfo <;> rfl
  · by_cases freq : ∃ hz, c = .freq s.rxVfo hz
    · obtain ⟨hz, rfl⟩ := freq
      refine .inr ⟨rfl, ?_⟩
      rw [rxVfo_after other]
      cases s.rxVfo <;> rfl
    · have kept := operating_after other (fun hz same => freq ⟨hz, same⟩)
        (fun m same => own ⟨m, same⟩)
      refine .inr ⟨?_, kept.2⟩
      cases c with
      | mode vfo m => exact if_neg (fun same : vfo = s.rxVfo => own ⟨m, same ▸ rfl⟩)
      | rxVfo v => exact absurd rfl (other v)
      | _ => rfl

end

/-! ## What a session is sent in all -/

section
variable {ν φ : Type} {gauge : Gauge ν}

/-- Bytes that end with a whole command. -/
def Whole (bytes : List UInt8) : Prop := [terminator] <:+ bytes

theorem Whole.append {bytes : List UInt8} (whole : Whole bytes) (front : List UInt8) :
    Whole (front ++ bytes) := List.IsSuffix.trans whole (List.suffix_append front bytes)

theorem reported_flatten (blank : gauge [] = none) {chunks : List (List UInt8)}
    (whole : ∀ chunk ∈ chunks, Whole chunk) :
    reported gauge chunks.flatten = chunks.flatMap (reported gauge) := by
  induction chunks with
  | nil => exact reported_nil blank
  | cons chunk chunks ih =>
      obtain ⟨⟨front, rfl⟩, later⟩ := List.forall_mem_cons.mp whole
      have alone := @reported_append _ gauge front []
      rw [List.append_nil, reported_nil blank, List.append_nil] at alone
      rw [List.flatten_cons, List.flatMap_cons, reported_append, ih later, alone]

theorem getLast?_flatMap {α : Type} (f : α → List ν) (items : List α) :
    (items.flatMap f).getLast? = (items.filterMap fun item => (f item).getLast?).getLast? := by
  induction items with
  | nil => rfl
  | cons item items ih =>
      rw [List.flatMap_cons, List.getLast?_append, ih]
      cases last : (f item).getLast? with
      | none => simp [last]
      | some v => simp [last, List.getLast?_cons]

/-- The last value that is read off several answers is the last one that any of them tells. -/
theorem newest_flatten (blank : gauge [] = none) {chunks : List (List UInt8)}
    (whole : ∀ chunk ∈ chunks, Whole chunk) :
    newest gauge chunks.flatten = (chunks.filterMap (newest gauge)).getLast? := by
  rw [newest, reported_flatten blank whole, getLast?_flatMap]
  rfl

end

theorem whole_freqFrame (verb : List UInt8) (hz : Nat) : Whole (freqFrame verb hz) :=
  List.suffix_append _ _

theorem whole_modeFrame (mode : Mode) : Whole (modeFrame mode) := by
  rw [modeFrame_eq]
  exact List.suffix_append _ _

theorem whole_synthIf (s : Snapshot) (singleVfo : Bool) : Whole (synthIf s singleVfo) := by
  rw [synthIf_eq]
  exact List.suffix_append _ _

theorem whole_afterChange {front : List UInt8} (whole : Whole front) (family : Modeled) (s : Snapshot) :
    Whole (front ++ afterChange family s) := by
  cases family with
  | ts590 => exact (whole_synthIf s true).append front
  | ts2000 => exact (List.append_nil front).symm ▸ whole

theorem whole_afterSwitch (family : Modeled) (s : Snapshot) : Whole (afterSwitch family s) := by
  cases family with
  | ts590 => exact whole_synthIf s true
  | ts2000 => exact whole_synthIf s false

/-- A notification is made of whole commands. -/
theorem whole_notification {family : Modeled} {ctx : Context} {ai : Bool} {s : Snapshot}
    {d : StateChange} {bytes : List UInt8}
    (sent : family.dialect.formatNotification ctx ai s d = some bytes) : Whole bytes := by
  cases ai with
  | false => cases family <;> cases sent
  | true =>
      by_cases one : FollowsOne family ctx
      · rw [notification_eq one] at sent
        cases d with
        | freq vfo hz =>
            obtain ⟨-, ⟨⟩⟩ := Option.ite_none_right_eq_some.mp sent
            exact whole_afterChange (whole_freqFrame _ hz) family s
        | mode vfo mode =>
            obtain ⟨-, ⟨⟩⟩ := Option.ite_none_right_eq_some.mp sent
            exact whole_afterChange (whole_modeFrame mode) family s
        | rxVfo vfo =>
            cases sent
            exact ((whole_afterSwitch family s).append _).append _
        | _ => cases sent
      · obtain ⟨foreign, dual⟩ := not_or.mp one
        cases family with
        | ts2000 => exact absurd rfl foreign
        | ts590 =>
            rw [Bool.not_eq_true] at dual
            have shown := whole_synthIf s false
            cases d with
            | freq vfo hz =>
                simp only [Modeled.dialect, ts590Dialect, Ts590Dialect.formatNotification, dual,
                  Bool.not_true, Bool.false_eq_true, if_false, Option.some.injEq] at sent
                rw [← sent]
                split
                · exact shown.append _
                · exact whole_freqFrame _ hz
            | mode vfo mode =>
                simp only [Modeled.dialect, ts590Dialect, Ts590Dialect.formatNotification, dual,
                  Bool.not_true, Bool.false_eq_true, if_false] at sent
                obtain ⟨-, ⟨⟩⟩ := Option.ite_none_right_eq_some.mp sent
                exact shown.append _
            | rxVfo vfo =>
                simp only [Modeled.dialect, ts590Dialect, Ts590Dialect.formatNotification, dual,
                  Bool.not_true, Bool.false_eq_true, if_false, Option.some.injEq] at sent
                exact sent ▸ shown
            | _ =>
                simp [Modeled.dialect, ts590Dialect, Ts590Dialect.formatNotification, dual] at sent

/-- What a session wrote to its client in a run. -/
def sent (history : List (Transition (Feed Snapshot StateChange) (FeedInput StateChange)
    (Option (List UInt8)))) : List UInt8 := (Feed.rendered history).flatten

section
variable {ν φ : Type} {gauge : Gauge ν} {family : Modeled} {ctx : Context}
  {start mid stop : Feed Snapshot StateChange}
  {earlier later : List (Transition (Feed Snapshot StateChange) (FeedInput StateChange)
    (Option (List UInt8)))}

/-- Where a fact has changed in a run, the last value that the client read of it is its figure in the
final snapshot. -/
def Told (gauge : Gauge ν) (fact : Snapshot → φ) (figure : φ → ν)
    (history : List (Transition (Feed Snapshot StateChange) (FeedInput StateChange)
      (Option (List UInt8)))) (stop : Feed Snapshot StateChange) : Prop :=
  (∃ e ∈ history, fact e.after.state ≠ fact e.before.state) →
    newest gauge (sent history) = some (figure (fact stop.state))

theorem told_of_reports {fact : Snapshot → φ} {figure : φ → ν} (blank : gauge [] = none)
    (reports : Reports (feed family.dialect ctx) (newest gauge) fact figure)
    (fresh : start.Consumed)
    (first : (feed family.dialect ctx).machine.Execution start earlier mid)
    (second : (feed family.dialect ctx).machine.Execution mid later stop)
    (listening : ∀ e ∈ later, e.before.listening = true ∧ e.after.listening = true)
    (consumed : stop.Consumed) : Told gauge fact figure later stop := by
  intro changed
  have whole : ∀ chunk ∈ Feed.rendered later, Whole chunk := by
    intro chunk mem
    obtain ⟨on, s, d, rendered⟩ := Feed.exists_of_mem_rendered second mem
    exact whole_notification rendered
  rw [sent, newest_flatten blank whole]
  exact Feed.converges reports fresh first second listening changed consumed

/-- **Auto-information converges.**  A client whose auto-information is on throughout and who has been
sent everything has read the final snapshot's values last, of the facts that changed: a dual-VFO TS-590
client off `IF`, the others off `FA` and `MD`. -/
theorem auto_info_converges (fresh : start.Consumed)
    (first : (feed family.dialect ctx).machine.Execution start earlier mid)
    (second : (feed family.dialect ctx).machine.Execution mid later stop)
    (listening : ∀ e ∈ later, e.before.listening = true ∧ e.after.listening = true)
    (consumed : stop.Consumed) :
    (family = .ts590 ∧ ctx.singleVfo = false →
      Told ifFreq (fun s => (s.vfo s.rxVfo).freqHz) id later stop ∧
        Told ifMode (fun s => (s.vfo s.rxVfo).mode) Mode.toKenwoodDigit later stop ∧
        Told ifRxVfo Snapshot.rxVfo vfoDigit later stop) ∧
    (family = .ts2000 ∨ ctx.singleVfo = true →
      Told faFreq (fun s => (s.vfo s.rxVfo).freqHz) id later stop ∧
        Told mdDigit (fun s => (s.vfo s.rxVfo).mode) Mode.toKenwoodDigit later stop) := by
  constructor
  · rintro ⟨rfl, dual⟩
    have freq : Reports (feed Modeled.ts590.dialect ctx) (newest ifFreq)
        (fun s => (s.vfo s.rxVfo).freqHz) id :=
      reports_status dual rfl ifFreq_status (fun _ _ _ freq _ => freq)
    have mode : Reports (feed Modeled.ts590.dialect ctx) (newest ifMode)
        (fun s => (s.vfo s.rxVfo).mode) Mode.toKenwoodDigit :=
      reports_status dual rfl ifMode_status (fun _ _ _ _ mode => mode)
    have rxVfo : Reports (feed Modeled.ts590.dialect ctx) (newest ifRxVfo) Snapshot.rxVfo vfoDigit :=
      reports_status dual rfl ifRxVfo_status (fun _ _ rx _ _ => rx)
    exact ⟨told_of_reports rfl freq fresh first second listening consumed,
      told_of_reports rfl mode fresh first second listening consumed,
      told_of_reports rfl rxVfo fresh first second listening consumed⟩
  · intro one
    exact ⟨told_of_reports rfl (reports_faFreq one) fresh first second listening consumed,
      told_of_reports rfl (reports_mdDigit one) fresh first second listening consumed⟩

end

/-- An operator switches to B, and the client is told so. -/
theorem auto_info_switch : ∃ ctx history stop,
    (feed ts590Dialect ctx).machine.Execution { state := {}, listening := true } history stop ∧
      newest ifRxVfo (sent history) = some (vfoDigit .b) := by
  let ctx : Context := ⟨0, ⟨true, false, false, false, false⟩, true, true, false, []⟩
  let onB : Snapshot := { rxVfo := .b }
  let f₀ : Feed Snapshot StateChange := { state := {}, listening := true }
  let f₁ : Feed Snapshot StateChange := { f₀ with state := onB, inflight := some (.rxVfo .b) }
  let f₂ : Feed Snapshot StateChange := { f₀ with state := onB, unread := [.rxVfo .b] }
  let f₃ : Feed Snapshot StateChange := { f₀ with state := onB }
  let M := (feed ts590Dialect ctx).machine
  have updated : M.step f₀ (.update (.rxVfo .b)) = some (f₁, none) := rfl
  have published : M.step f₁ .publish = some (f₂, none) := rfl
  have read : M.step f₂ .read = some (f₃, some (synthIf onB false)) := rfl
  have run : M.Execution f₀
      [⟨f₀, .update (.rxVfo .b), none, f₁⟩, ⟨f₁, .publish, none, f₂⟩,
        ⟨f₂, .read, some (synthIf onB false), f₃⟩] f₃ :=
    ((Machine.Execution.start.next updated).next published).next read
  have converges := @auto_info_converges .ts590 ctx f₀ f₀ f₃ [] _ ⟨rfl, rfl, rfl⟩ .start run
    (by simp [f₀, f₁, f₂, f₃]) ⟨rfl, rfl, rfl⟩
  refine ⟨ctx, _, f₃, run, (converges.1 ⟨rfl, rfl⟩).2.2 ⟨_, List.mem_cons_self, ?_⟩⟩
  exact fun same => nomatch same

end CatHub.Dialect
