/-
# CatHub.Systems.Bytes — fixed-width little-endian words and slices of a byte string.

`toLe width n` writes the low `width` bytes of `n`, least significant first; `ofLe` reads any byte
string as a number.  The two are inverse on the numbers and the byte strings of one width.  `slice`
is the checked range access of a byte string.  `slice_of_drop` and `drop_of_slice` say where its result
stands, so that a string is read, and put together again, one word after the other.
-/
import Mathlib.Data.Nat.Digits.Lemmas
import Mathlib.Tactic.Ring

namespace CatHub.Systems

/-! ## Little-endian words -/

def toLe : Nat → Nat → List UInt8
  | 0, _ => []
  | width + 1, n => UInt8.ofNat n :: toLe width (n / 256)

def ofLe (bytes : List UInt8) : Nat := Nat.ofDigits 256 (bytes.map UInt8.toNat)

@[simp] theorem length_toLe (width n : Nat) : (toLe width n).length = width := by
  induction width generalizing n with
  | zero => rfl
  | succ width ih => rw [toLe, List.length_cons, ih]

theorem ofLe_cons (b : UInt8) (bytes : List UInt8) :
    ofLe (b :: bytes) = b.toNat + 256 * ofLe bytes := Nat.ofDigits_cons

theorem ofLe_lt (bytes : List UInt8) : ofLe bytes < 256 ^ bytes.length := by
  have digits : ∀ d ∈ bytes.map UInt8.toNat, d < 256 := by
    rintro d mem
    obtain ⟨b, -, rfl⟩ := List.mem_map.mp mem
    exact b.toNat_lt
  have bound := Nat.ofDigits_lt_base_pow_length (by decide) digits
  rwa [List.length_map] at bound

theorem ofLe_toLe {width n : Nat} (fits : n < 256 ^ width) : ofLe (toLe width n) = n := by
  induction width generalizing n with
  | zero =>
      rw [pow_zero, Nat.lt_one_iff] at fits
      rw [fits]
      rfl
  | succ width ih =>
      have high : n / 256 < 256 ^ width :=
        Nat.div_lt_of_lt_mul (by rwa [← pow_succ'])
      have low : (UInt8.ofNat n).toNat = n % 256 := UInt8.toNat_ofNat'
      rw [toLe, ofLe_cons, ih high, low]
      exact Nat.mod_add_div n 256

theorem toLe_ofLe (bytes : List UInt8) : toLe bytes.length (ofLe bytes) = bytes := by
  induction bytes with
  | nil => rfl
  | cons b bytes ih =>
      have low : UInt8.ofNat (b.toNat + 256 * ofLe bytes) = b := by
        apply UInt8.toNat_inj.mp
        rw [UInt8.toNat_ofNat', Nat.add_mul_mod_self_left]
        exact Nat.mod_eq_of_lt b.toNat_lt
      have high : (b.toNat + 256 * ofLe bytes) / 256 = ofLe bytes := by
        rw [Nat.add_mul_div_left _ _ (by decide), Nat.div_eq_of_lt b.toNat_lt, Nat.zero_add]
      rw [List.length_cons, toLe, ofLe_cons, low, high, ih]

/-! ## Slices -/

/-- The bytes from `start` up to `stop`, where there are that many. -/
def slice (bytes : List UInt8) (start stop : Nat) : Option (List UInt8) :=
  if start ≤ stop ∧ stop ≤ bytes.length then some ((bytes.drop start).take (stop - start)) else none

theorem slice_eq_some {bytes word : List UInt8} {start stop : Nat} :
    slice bytes start stop = some word ↔
      (start ≤ stop ∧ stop ≤ bytes.length) ∧ (bytes.drop start).take (stop - start) = word := by
  unfold slice
  split
  · rename_i inside
    rw [Option.some_inj, and_iff_right inside]
  · rename_i outside
    simp [outside]

theorem length_of_slice {bytes word : List UInt8} {start stop : Nat}
    (read : slice bytes start stop = some word) : word.length = stop - start := by
  obtain ⟨inside, rfl⟩ := slice_eq_some.mp read
  rw [List.length_take, List.length_drop]
  exact Nat.min_eq_left (Nat.sub_le_sub_right inside.2 start)

/-- A slice stands in front of what follows it. -/
theorem drop_of_slice {bytes word : List UInt8} {start stop : Nat}
    (read : slice bytes start stop = some word) :
    bytes.drop start = word ++ bytes.drop stop := by
  obtain ⟨inside, rfl⟩ := slice_eq_some.mp read
  have whole := List.take_append_drop (stop - start) (bytes.drop start)
  rw [List.drop_drop, Nat.add_sub_cancel' inside.1] at whole
  exact whole.symm

theorem slice_of_drop {bytes word rest : List UInt8} {start width : Nat}
    (here : bytes.drop start = word ++ rest) (filled : 0 < width) (len : word.length = width) :
    slice bytes start (start + width) = some word := by
  have size := congrArg List.length here
  rw [List.length_drop, List.length_append, len] at size
  refine slice_eq_some.mpr ⟨⟨Nat.le_add_right _ _, by omega⟩, ?_⟩
  rw [here, Nat.add_sub_cancel_left, ← len, List.take_left]

/-- Behind a word stands what follows it. -/
theorem drop_behind {bytes word rest : List UInt8} {start width : Nat}
    (here : bytes.drop start = word ++ rest) (len : word.length = width) :
    bytes.drop (start + width) = rest := by
  rw [← List.drop_drop, here, ← len, List.drop_left]

end CatHub.Systems
