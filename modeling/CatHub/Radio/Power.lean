/-
# CatHub.Radio.Power — the transmit power at every relative level.

The hub keeps one power reading, the milliwatts at a relative level, and converts other levels for its
clients.  A native radio gives milliwatts and the maximum, and the level is cut off from them; a downstream
`rigctld` gives milliwatts and the level, and the maximum is rounded from them.  `Observation` is either of
the two.  `Converts` says what a client may rely on.

The code computes over 64-bit words that saturate, the model over numbers.  The definitions `..In` follow the
code over any arithmetic; `power_conversion` says that they come out the same, with no product or sum too
large for a word.
-/
import CatHub.Radio.Rigctld
import CatHub.Systems.FixedPoint

namespace CatHub.Radio

open Systems

namespace TxPower

/-! ## Over words -/

section
variable {m : Type → Type} [Monad m] (u64 : Arithmetic m)

/-- `u32::try_from`. -/
def toU32 (n : Nat) : Option Nat := if n < 2 ^ 32 then some n else none

def fromMilliwattsIn (milliwatts maxMilliwatts : Nat) : m TxPower := do
  let relativeMillionths ←
    if maxMilliwatts = 0 then pure 0
    else do
      let product ← u64.mul milliwatts relativeScale
      let scaled := product / maxMilliwatts
      pure ((toU32 (min scaled relativeScale)).getD relativeScale)
  pure { relativeMillionths, milliwatts, maxMilliwatts := some maxMilliwatts }

def fromRelativeMillionthsIn (relativeMillionths milliwatts : Nat) : m (Option TxPower) := do
  if relativeScale < relativeMillionths then pure none
  else
    let maxMilliwatts ←
      if relativeMillionths = 0 then pure none
      else do
        let product ← u64.mul milliwatts relativeScale
        let numerator ← u64.add product (relativeMillionths / 2)
        pure (toU32 (numerator / relativeMillionths))
    pure (some { relativeMillionths, milliwatts, maxMilliwatts })

def milliwattsForRelativeIn (power : TxPower) (relativeMillionths : Nat) : m (Option Nat) :=
  if relativeScale < relativeMillionths then pure none
  else if relativeMillionths = power.relativeMillionths then pure (some power.milliwatts)
  else if relativeMillionths = 0 then pure (some 0)
  else
    match power.maxMilliwatts with
    | none => pure none
    | some maxMilliwatts => do
        let product ← u64.mul maxMilliwatts relativeMillionths
        let numerator ← u64.add product (relativeScale / 2)
        pure (toU32 (numerator / relativeScale))

end

theorem relativeScale_pos : 0 < relativeScale := by decide

/-- The largest product and the largest sum of the code. -/
theorem scaled_lt {n k : Nat} (word : n < 2 ^ 32) (le : k ≤ relativeScale) :
    n * relativeScale + k < 2 ^ 64 := by
  rw [relativeScale] at le ⊢
  omega

section
variable {m : Type → Type} [Monad m] [LawfulMonad m] {u64 : Arithmetic m}

theorem fromMilliwattsIn_eq (faithful : u64.Faithful (2 ^ 64)) {milliwatts : Nat}
    (word : milliwatts < 2 ^ 32) (maxMilliwatts : Nat) :
    fromMilliwattsIn u64 milliwatts maxMilliwatts = pure (fromMilliwatts milliwatts maxMilliwatts) := by
  have fits := scaled_lt word (Nat.zero_le relativeScale)
  rw [Nat.add_zero] at fits
  have cut : ∀ n, (toU32 (min n relativeScale)).getD relativeScale = min n relativeScale := by
    intro n
    have small : min n relativeScale < 2 ^ 32 := (min_le_right _ _).trans_lt (by decide)
    rw [toU32, if_pos small]
    rfl
  unfold fromMilliwattsIn fromMilliwatts
  by_cases zero : maxMilliwatts = 0
  · simp only [zero, if_true, pure_bind]
  · simp only [zero, if_false, faithful.mul fits, pure_bind, cut]

theorem fromRelativeMillionthsIn_eq (faithful : u64.Faithful (2 ^ 64)) {milliwatts : Nat}
    (word : milliwatts < 2 ^ 32) (relativeMillionths : Nat) :
    fromRelativeMillionthsIn u64 relativeMillionths milliwatts =
      pure (fromRelativeMillionths relativeMillionths milliwatts) := by
  unfold fromRelativeMillionthsIn fromRelativeMillionths
  by_cases beyond : relativeScale < relativeMillionths
  · rw [if_pos beyond, if_pos beyond]
  · rw [if_neg beyond, if_neg beyond]
    by_cases zero : relativeMillionths = 0
    · simp only [zero, if_true, pure_bind]
    · have half : relativeMillionths / 2 ≤ relativeScale :=
        (Nat.div_le_self _ 2).trans (Nat.le_of_not_lt beyond)
      have numerator := scaled_lt word half
      have product := (Nat.le_add_right _ _).trans_lt numerator
      simp only [zero, if_false, faithful.mul product, faithful.add numerator, pure_bind, toU32]

theorem milliwattsForRelativeIn_eq (faithful : u64.Faithful (2 ^ 64)) {power : TxPower}
    (word : ∀ full ∈ power.maxMilliwatts, full < 2 ^ 32) (relativeMillionths : Nat) :
    power.milliwattsForRelativeIn u64 relativeMillionths =
      pure (power.milliwattsForRelative relativeMillionths) := by
  unfold milliwattsForRelativeIn milliwattsForRelative
  by_cases beyond : relativeScale < relativeMillionths
  · rw [if_pos beyond, if_pos beyond]
  rw [if_neg beyond, if_neg beyond]
  by_cases here : relativeMillionths = power.relativeMillionths
  · rw [if_pos here, if_pos here]
  rw [if_neg here, if_neg here]
  by_cases zero : relativeMillionths = 0
  · rw [if_pos zero, if_pos zero]
  rw [if_neg zero, if_neg zero]
  cases known : power.maxMilliwatts with
  | none => rfl
  | some full =>
      have numerator : full * relativeMillionths + relativeScale / 2 < 2 ^ 64 := by
        have in_scale := Nat.mul_le_mul_left full (Nat.le_of_not_lt beyond)
        exact (Nat.add_le_add_right in_scale _).trans_lt
          (scaled_lt (word full known) (Nat.div_le_self relativeScale 2))
      have product := (Nat.le_add_right _ _).trans_lt numerator
      show (u64.mul full relativeMillionths >>= fun product =>
        u64.add product (relativeScale / 2) >>= fun numerator =>
          pure (toU32 (numerator / relativeScale))) = _
      rw [faithful.mul product, pure_bind, faithful.add numerator, pure_bind, Option.bind_eq_bind,
        Option.bind_some, toU32]

end

/-! ## Every level -/

section
variable {power : TxPower} {full relativeMillionths milliwatts : Nat}

/-- With the maximum known, a level is read off the scale. -/
theorem milliwattsForRelative_known (known : power.maxMilliwatts = some full) (word : full < 2 ^ 32)
    (in_scale : relativeMillionths ≤ relativeScale) :
    power.milliwattsForRelative relativeMillionths =
      some (reading relativeScale full power.relativeMillionths power.milliwatts relativeMillionths) := by
  rw [milliwattsForRelative, if_neg (Nat.not_lt.mpr in_scale)]
  by_cases here : relativeMillionths = power.relativeMillionths
  · rw [if_pos here, here, reading_level]
  rw [if_neg here, reading_of_ne here]
  by_cases zero : relativeMillionths = 0
  · rw [if_pos zero, zero, Nat.mul_zero, roundDiv_zero relativeScale_pos]
  · -- no level is above the maximum, which is a word
    have fits : roundDiv (full * relativeMillionths) relativeScale < 2 ^ 32 :=
      (roundDiv_le_full relativeScale_pos in_scale).trans_lt word
    rw [roundDiv] at fits
    rw [if_neg zero, known, Option.bind_eq_bind, Option.bind_some, if_pos fits, roundDiv]

/-- With the maximum unknown, there are the observed level and silence. -/
theorem milliwattsForRelative_unknown (unknown : power.maxMilliwatts = none)
    (converted : power.milliwattsForRelative relativeMillionths = some milliwatts) :
    (relativeMillionths = power.relativeMillionths ∧ milliwatts = power.milliwatts) ∨
      (relativeMillionths = 0 ∧ milliwatts = 0) := by
  rw [milliwattsForRelative, unknown] at converted
  split_ifs at converted with beyond here zero
  · exact .inl ⟨here, (Option.some.inj converted).symm⟩
  · exact .inr ⟨zero, (Option.some.inj converted).symm⟩
  · cases converted

theorem level_of_milliwattsForRelative
    (converted : power.milliwattsForRelative relativeMillionths = some milliwatts) :
    relativeMillionths ≤ relativeScale := by
  by_contra beyond
  rw [milliwattsForRelative, if_pos (Nat.lt_of_not_le beyond)] at converted
  cases converted

/-- The level of a reading is on the scale, and the scale meets it if the maximum is known. -/
structure Sound (power : TxPower) : Prop where
  level : power.relativeMillionths ≤ relativeScale
  word : ∀ full ∈ power.maxMilliwatts, full < 2 ^ 32
  meets : ∀ full ∈ power.maxMilliwatts,
    Meets relativeScale full power.relativeMillionths power.milliwatts

theorem sound_fromMilliwatts (pos : 0 < full) (word : full < 2 ^ 32) :
    (fromMilliwatts milliwatts full).Sound where
  level := by
    unfold fromMilliwatts
    dsimp only
    split_ifs
    · exact Nat.zero_le _
    · exact min_le_right _ _
  word := by
    rintro _ ⟨⟩
    exact word
  meets := by
    rintro _ ⟨⟩
    unfold fromMilliwatts
    dsimp only
    rw [if_neg pos.ne']
    exact meets_floor pos

/-- What a downstream `rigctld` told is kept. -/
theorem fromRelativeMillionths_fields
    (built : fromRelativeMillionths relativeMillionths milliwatts = some power) :
    relativeMillionths ≤ relativeScale ∧ power.relativeMillionths = relativeMillionths ∧
      power.milliwatts = milliwatts := by
  unfold fromRelativeMillionths at built
  split at built
  · cases built
  · rename_i in_scale
    obtain rfl := Option.some.inj built
    exact ⟨Nat.le_of_not_lt in_scale, rfl, rfl⟩

/-- The maximum that is inferred is rounded from the level, and fits into a word. -/
theorem fromRelativeMillionths_known
    (built : fromRelativeMillionths relativeMillionths milliwatts = some power)
    (known : power.maxMilliwatts = some full) :
    0 < relativeMillionths ∧ full < 2 ^ 32 ∧
      full = roundDiv (milliwatts * relativeScale) relativeMillionths := by
  unfold fromRelativeMillionths at built
  split at built
  · cases built
  · obtain rfl := Option.some.inj built
    dsimp only at known
    split_ifs at known with zero fits
    obtain rfl := Option.some.inj known
    exact ⟨Nat.pos_of_ne_zero zero, fits, rfl⟩

theorem fromRelativeMillionths_stored
    (built : fromRelativeMillionths relativeMillionths milliwatts = some power)
    (sounds : relativeMillionths ≠ 0)
    (word : roundDiv (milliwatts * relativeScale) relativeMillionths < 2 ^ 32) :
    power.maxMilliwatts = some (roundDiv (milliwatts * relativeScale) relativeMillionths) := by
  unfold fromRelativeMillionths at built
  split at built
  · cases built
  · obtain rfl := Option.some.inj built
    exact if_pos word

theorem sound_fromRelativeMillionths
    (built : fromRelativeMillionths relativeMillionths milliwatts = some power) : power.Sound := by
  obtain ⟨in_scale, level, observed⟩ := fromRelativeMillionths_fields built
  refine ⟨level ▸ in_scale, ?_, ?_⟩
  · intro full known
    exact (fromRelativeMillionths_known built known).2.1
  · intro full known
    obtain ⟨pos, -, rfl⟩ := fromRelativeMillionths_known built known
    rw [level, observed]
    exact meets_round pos in_scale

/-- What a client may rely on, when the hub was told of `milliwatts` at `level` and could tell the
maximum. -/
structure Converts (power : TxPower) (level milliwatts : Nat) (maximum : Option Nat) : Prop where
  /-- The observation is given back. -/
  observed : power.milliwattsForRelative level = some milliwatts
  /-- More is never less. -/
  monotone : ∀ {l l' m m'}, l ≤ l' → power.milliwattsForRelative l = some m →
    power.milliwattsForRelative l' = some m' → m ≤ m'
  /-- With a maximum that fits into a word every level from 0 through 1 is converted. -/
  defined : ∀ full ∈ maximum, full < 2 ^ 32 →
    ∀ l, (power.milliwattsForRelative l).isSome = true ↔ l ≤ relativeScale

theorem Sound.converts {maximum : Option Nat} (sound : power.Sound)
    (stored : ∀ full ∈ maximum, full < 2 ^ 32 → power.maxMilliwatts = some full) :
    power.Converts power.relativeMillionths power.milliwatts maximum where
  observed := by
    rw [milliwattsForRelative, if_neg (Nat.not_lt.mpr sound.level), if_pos rfl]
  monotone {l l' m m'} le converted converted' := by
    cases known : power.maxMilliwatts with
    | some full =>
        have word := sound.word full known
        have in_scale := level_of_milliwattsForRelative converted
        have in_scale' := level_of_milliwattsForRelative converted'
        rw [milliwattsForRelative_known known word in_scale] at converted
        rw [milliwattsForRelative_known known word in_scale'] at converted'
        obtain rfl := Option.some.inj converted
        obtain rfl := Option.some.inj converted'
        exact (sound.meets full known).monotoneOn relativeScale_pos in_scale in_scale' le
    | none =>
        rcases milliwattsForRelative_unknown known converted with ⟨rfl, rfl⟩ | ⟨rfl, rfl⟩
        · rcases milliwattsForRelative_unknown known converted' with ⟨-, rfl⟩ | ⟨rfl, rfl⟩
          · exact le_rfl
          · -- the level is 0, so that both conversions are of the same
            rw [Nat.le_zero.mp le] at converted
            exact (Option.some.inj (converted.symm.trans converted')).le
        · exact Nat.zero_le m'
  defined full mem word l := by
    constructor
    · intro converted
      obtain ⟨m, converted⟩ := Option.isSome_iff_exists.mp converted
      exact level_of_milliwattsForRelative converted
    · intro in_scale
      rw [milliwattsForRelative_known (stored full mem word) word in_scale]
      rfl

end

end TxPower

/-! ## Observations -/

/-- What the radio tells of its power. -/
inductive Observation where
  /-- A native radio knows its maximum. -/
  | native (milliwatts maxMilliwatts : UInt32) (nonzero : maxMilliwatts ≠ 0)
  /-- A downstream `rigctld` knows the level. -/
  | downstream (relativeMillionths milliwatts : UInt32)

namespace Observation

open TxPower

/-- The reading that the hub makes of it. -/
def built : Observation → Option TxPower
  | .native milliwatts maxMilliwatts _ =>
      some (fromMilliwatts milliwatts.toNat maxMilliwatts.toNat)
  | .downstream relativeMillionths milliwatts =>
      fromRelativeMillionths relativeMillionths.toNat milliwatts.toNat

def builtIn {m : Type → Type} [Monad m] (u64 : Arithmetic m) : Observation → m (Option TxPower)
  | .native milliwatts maxMilliwatts _ =>
      some <$> fromMilliwattsIn u64 milliwatts.toNat maxMilliwatts.toNat
  | .downstream relativeMillionths milliwatts =>
      fromRelativeMillionthsIn u64 relativeMillionths.toNat milliwatts.toNat

/-- The observed level. -/
def level : Observation → Nat
  | .native milliwatts maxMilliwatts _ =>
      (fromMilliwatts milliwatts.toNat maxMilliwatts.toNat).relativeMillionths
  | .downstream relativeMillionths _ => relativeMillionths.toNat

/-- The observed milliwatts. -/
def observed : Observation → Nat
  | .native milliwatts .. | .downstream _ milliwatts => milliwatts.toNat

/-- The maximum, of any size.  Silence tells nothing of it. -/
def maximum : Observation → Option Nat
  | .native _ maxMilliwatts _ => some maxMilliwatts.toNat
  | .downstream relativeMillionths milliwatts =>
      if relativeMillionths.toNat = 0 then none
      else some (roundDiv (milliwatts.toNat * relativeScale) relativeMillionths.toNat)

section
variable {o : Observation} {power : TxPower}

theorem builtIn_eq {m : Type → Type} [Monad m] [LawfulMonad m] {u64 : Arithmetic m}
    (faithful : u64.Faithful (2 ^ 64)) (o : Observation) : o.builtIn u64 = pure o.built := by
  cases o with
  | native milliwatts maxMilliwatts nonzero =>
      rw [builtIn, fromMilliwattsIn_eq faithful milliwatts.toNat_lt, map_pure]
      rfl
  | downstream relativeMillionths milliwatts =>
      exact fromRelativeMillionthsIn_eq faithful milliwatts.toNat_lt _

theorem sound (built : o.built = some power) : power.Sound := by
  cases o with
  | native milliwatts maxMilliwatts nonzero =>
      obtain rfl := Option.some.inj built
      refine sound_fromMilliwatts (Nat.pos_of_ne_zero ?_) maxMilliwatts.toNat_lt
      intro zero
      exact nonzero (UInt32.toNat_inj.mp zero)
  | downstream relativeMillionths milliwatts => exact sound_fromRelativeMillionths built

theorem converts (built : o.built = some power) :
    power.Converts o.level o.observed o.maximum := by
  have sound := o.sound built
  cases o with
  | native milliwatts maxMilliwatts nonzero =>
      obtain rfl := Option.some.inj built
      refine sound.converts ?_
      intro full known word
      exact known
  | downstream relativeMillionths milliwatts =>
      obtain ⟨in_scale, level, observed⟩ := fromRelativeMillionths_fields built
      have converts := @Sound.converts power (maximum (.downstream relativeMillionths milliwatts)) sound ?_
      · rwa [level, observed] at converts
      · intro full known word
        rw [maximum] at known
        split_ifs at known with zero
        · cases known
        · obtain rfl := Option.some.inj known
          exact fromRelativeMillionths_stored built zero word

end

/-- **The conversion of power.**  Every reading gives back what was observed, rises with the level, and
is defined from 0 through 1 if the maximum fits into a word.  Neither building it nor converting a level
comes upon a product or a sum that does not fit into 64 bits, and saturating ones make no difference. -/
theorem power_conversion (o : Observation) :
    o.builtIn (.checked (2 ^ 64)) = some o.built ∧
      o.builtIn (.saturating (2 ^ 64)) = pure o.built ∧
      ∀ power, o.built = some power →
        power.Converts o.level o.observed o.maximum ∧
          ∀ l, power.milliwattsForRelativeIn (.checked (2 ^ 64)) l =
              some (power.milliwattsForRelative l) ∧
            power.milliwattsForRelativeIn (.saturating (2 ^ 64)) l =
              pure (power.milliwattsForRelative l) := by
  have checked := Arithmetic.faithful_checked (2 ^ 64)
  have saturating := Arithmetic.faithful_saturating (2 ^ 64)
  refine ⟨builtIn_eq checked o, builtIn_eq saturating o, ?_⟩
  intro power built
  have word := (sound built).word
  exact ⟨converts built, fun l =>
    ⟨milliwattsForRelativeIn_eq checked word l, milliwattsForRelativeIn_eq saturating word l⟩⟩

/-- Fifty watts at one half. -/
theorem power_conversion_half :
    (TxPower.mk 500000 50000 (some 100000)).Converts 500000 50000 (some 100000) :=
  ((power_conversion (.downstream 500000 50000)).2.2 _ (by decide)).1

end Observation

/-! ## The readings of the hub -/

/-- A reading that was made of an observation. -/
def Observed (power : TxPower) : Prop := ∃ o : Observation, o.built = some power

section
variable {power : TxPower} {milliwatts full : Nat}

end

end CatHub.Radio
