import Mathlib.Algebra.Order.Ring.Nat
import PackGuard.Chip.Checksum

/-!
What the checksum detects. It is linear in exclusive or, so a message that arrives differs from what
was sent by an error whose own checksum decides. As polynomials, no error of up to eight bits in a
row is a multiple of the divisor.
-/

namespace PackGuard.Chip.Checksum

variable {a b r : UInt8} {message : List UInt8}

section Shift

theorem highest_cases : ∀ r : UInt8, r &&& 0x80 = 0 ∨ r &&& 0x80 = 0x80 := by
  rintro ⟨v⟩
  revert v
  decide

theorem shift_of_lt : ∀ r : UInt8, r.toNat < 128 → (shift r).toNat = 2 * r.toNat := by
  rintro ⟨v⟩
  revert v
  decide

theorem shift_ne_zero : ∀ r : UInt8, r ≠ 0 → shift r ≠ 0 := by
  rintro ⟨v⟩
  revert v
  decide

theorem shift_xor (a b : UInt8) : shift (a ^^^ b) = shift a ^^^ shift b := by
  have high : (a ^^^ b) &&& 0x80 = (a &&& 0x80) ^^^ (b &&& 0x80) := by
    apply UInt8.toNat_inj.mp
    simp only [UInt8.toNat_and, UInt8.toNat_xor, Nat.and_xor_distrib_right]
  unfold shift
  rw [high, UInt8.shiftLeft_xor]
  rcases highest_cases a with ha | ha <;> rcases highest_cases b with hb | hb <;> rw [ha, hb]
  · simp
  · simp [UInt8.xor_assoc]
  · simp
    ac_rfl
  · -- both highest bits leave the byte, and what they leave behind cancels
    have cancel : a <<< 1 ^^^ polynomial ^^^ (b <<< 1 ^^^ polynomial) = a <<< 1 ^^^ b <<< 1 := by
      rw [UInt8.xor_comm (b <<< 1), UInt8.xor_assoc, ← UInt8.xor_assoc polynomial,
        UInt8.xor_self, UInt8.zero_xor]
    simpa using cancel.symm

theorem repeat_shift_xor (k : ℕ) (a b : UInt8) :
    Nat.repeat shift k (a ^^^ b) = Nat.repeat shift k a ^^^ Nat.repeat shift k b := by
  induction k with
  | zero => rfl
  | succ k ih => rw [Nat.repeat, Nat.repeat, Nat.repeat, ih, shift_xor]

theorem repeat_shift_ne_zero {k : ℕ} (some : r ≠ 0) : Nat.repeat shift k r ≠ 0 := by
  induction k with
  | zero => exact some
  | succ k ih => exact shift_ne_zero _ ih

theorem repeat_shift_inj {k : ℕ} (same : Nat.repeat shift k a = Nat.repeat shift k b) : a = b := by
  by_contra differ
  refine repeat_shift_ne_zero (k := k) (fun zero => differ (UInt8.xor_eq_zero_iff.mp zero)) ?_
  rw [repeat_shift_xor, same, UInt8.xor_self]

theorem repeat_shift_add (j k : ℕ) (r : UInt8) :
    Nat.repeat shift (j + k) r = Nat.repeat shift j (Nat.repeat shift k r) := by
  induction j with
  | zero => rw [Nat.zero_add, Nat.repeat]
  | succ j ih => rw [Nat.succ_add, Nat.repeat, Nat.repeat, ih]

theorem toNat_repeat_shift {k : ℕ} (small : r.toNat * 2 ^ k < 256) :
    (Nat.repeat shift k r).toNat = r.toNat * 2 ^ k := by
  induction k with
  | zero => rw [Nat.repeat, pow_zero, mul_one]
  | succ k ih =>
    rw [pow_succ, ← mul_assoc] at small ⊢
    have before := ih (by omega)
    rw [Nat.repeat, shift_of_lt _ (by omega), before, mul_comm]

end Shift

section Linear

theorem ofBytes_singleton (a : UInt8) : ofBytes [a] = Nat.repeat shift 8 a := by
  simp [ofBytes, absorb]

theorem ofBytes_pair (a b : UInt8) :
    ofBytes [a, b] = Nat.repeat shift 8 (Nat.repeat shift 8 a ^^^ b) := by
  simp [ofBytes, absorb]

theorem absorb_xor (r s a b : UInt8) : absorb (r ^^^ s) (a ^^^ b) = absorb r a ^^^ absorb s b := by
  rw [absorb, absorb, absorb, ← repeat_shift_xor]
  congr 1
  ac_rfl

theorem foldl_absorb_xor {error : List UInt8} (same : message.length = error.length)
    (r s : UInt8) :
    (List.zipWith (· ^^^ ·) message error).foldl absorb (r ^^^ s) =
      message.foldl absorb r ^^^ error.foldl absorb s := by
  induction message generalizing error r s with
  | nil =>
    rw [List.eq_nil_of_length_eq_zero same.symm]
    rfl
  | cons a rest ih =>
    cases error with
    | nil => cases same
    | cons b others =>
      rw [List.zipWith_cons_cons, List.foldl_cons, absorb_xor]
      exact ih (Nat.succ.inj same) (absorb r a) (absorb s b)

theorem ofBytes_xor {error : List UInt8} (same : message.length = error.length) :
    ofBytes (List.zipWith (· ^^^ ·) message error) = ofBytes message ^^^ ofBytes error := by
  have zero : (0 : UInt8) ^^^ 0 = 0 := rfl
  rw [ofBytes, ← zero]
  exact foldl_absorb_xor same 0 0

theorem ofBytes_concat_eq_zero_iff (message : List UInt8) (checksum : UInt8) :
    ofBytes (message ++ [checksum]) = 0 ↔ ofBytes message = checksum := by
  rw [ofBytes_concat, absorb]
  constructor
  · intro zero
    by_contra differ
    exact repeat_shift_ne_zero (fun same => differ (UInt8.xor_eq_zero_iff.mp same)) zero
  · intro same
    rw [same, UInt8.xor_self]
    rfl

theorem ofBytes_concat_xor (message : List UInt8) (byte error : UInt8) :
    ofBytes (message ++ [byte ^^^ error]) = ofBytes (message ++ [byte]) ^^^ ofBytes [error] := by
  rw [ofBytes_concat, ofBytes_concat, absorb, absorb, ← UInt8.xor_assoc, repeat_shift_xor,
    ofBytes_singleton]

end Linear

section Burst

/-- A bit of a message, counted from the one that is sent first. -/
def bit (message : List UInt8) (i : ℕ) : Bool := (message.getD (i / 8) 0).toNat.testBit (7 - i % 8)

/-- The bits that are set lie within eight in a row. -/
def Burst (error : List UInt8) : Prop :=
  ∃ first, ∀ i, bit error i = true → first ≤ i ∧ i < first + 8

theorem bit_cons_add (a : UInt8) (error : List UInt8) (i : ℕ) :
    bit (a :: error) (i + 8) = bit error i := by
  simp [bit]

theorem bit_cons_of_lt (a : UInt8) (error : List UInt8) {i : ℕ} (first : i < 8) :
    bit (a :: error) i = a.toNat.testBit (7 - i) := by
  simp [bit, Nat.div_eq_of_lt first, Nat.mod_eq_of_lt first]

theorem bit_of_zeros {error : List UInt8} (zeros : ∀ b ∈ error, b = 0) (i : ℕ) :
    bit error i = false := by
  rw [bit, List.getD_eq_getElem?_getD]
  cases found : error[i / 8]? with
  | none => simp
  | some b => simp [zeros b (List.mem_of_getElem? found)]

theorem Burst.of_bits {error : List UInt8} (first : ℕ)
    (within : ∀ i < 8 * error.length, bit error i = true → first ≤ i ∧ i < first + 8) :
    Burst error := by
  refine ⟨first, fun i set => within i ?_ set⟩
  by_contra! behind
  have none : error[i / 8]? = Option.none := List.getElem?_eq_none (by omega)
  simp [bit, List.getD_eq_getElem?_getD, none] at set

theorem Burst.of_one (h : a = 0 ∨ b = 0) : Burst [a, b] := by
  rcases h with rfl | rfl
  · refine ⟨8, fun i set => ⟨?_, ?_⟩⟩ <;> by_contra outside
    · rw [bit_cons_of_lt 0 [b] (by omega)] at set
      simp at set
    · obtain ⟨j, rfl⟩ := Nat.exists_eq_add_of_le' (show 16 ≤ i by omega)
      have none := @bit_of_zeros [] (by simp) j
      rw [← bit_cons_add b, ← bit_cons_add 0] at none
      exact absurd set (Bool.eq_false_iff.mp none)
  · refine ⟨0, fun i set => ⟨i.zero_le, ?_⟩⟩
    by_contra outside
    obtain ⟨j, rfl⟩ := Nat.exists_eq_add_of_le' (show 8 ≤ i by omega)
    rw [bit_cons_add, bit_of_zeros (by simp)] at set
    cases set

theorem lt_two_pow_of_bits {k : ℕ} (clear : ∀ i < k, a.toNat.testBit (7 - i) = false) :
    a.toNat < 2 ^ (8 - k) := by
  refine Nat.lt_pow_two_of_testBit _ fun j above => ?_
  rcases Nat.lt_or_ge j 8 with inside | beyond
  · have := clear (7 - j) (by omega)
    rwa [Nat.sub_sub_self (by omega)] at this
  · exact Nat.testBit_lt_two_pow (a.toNat_lt.trans_le (Nat.pow_le_pow_right two_pos beyond))

theorem two_pow_dvd_of_bits {k : ℕ}
    (clear : ∀ i, k ≤ i → i < 8 → b.toNat.testBit (7 - i) = false) : 2 ^ (8 - k) ∣ b.toNat := by
  refine Nat.dvd_of_mod_eq_zero (Nat.eq_of_testBit_eq fun j => ?_)
  rw [Nat.testBit_mod_two_pow, Nat.zero_testBit, Bool.and_eq_false_iff, decide_eq_false_iff_not]
  refine or_iff_not_imp_left.mpr fun below => ?_
  have := clear (7 - j) (by omega) (by omega)
  rwa [Nat.sub_sub_self (by omega)] at this

theorem eq_zero_of_bits {error : List UInt8} (clear : ∀ i, bit error i = false) :
    ∀ b ∈ error, b = 0 := by
  induction error with
  | nil => simp
  | cons a rest ih =>
    have first : a.toNat < 2 ^ (8 - 8) :=
      lt_two_pow_of_bits fun i inside => (bit_cons_of_lt a rest inside).symm.trans (clear i)
    refine List.forall_mem_cons.mpr ⟨UInt8.toNat_inj.mp (Nat.lt_one_iff.mp first), ih fun i => ?_⟩
    exact (bit_cons_add a rest i).symm.trans (clear (i + 8))

theorem Burst.tail {error : List UInt8} (h : Burst (a :: error)) : Burst error := by
  obtain ⟨first, within⟩ := h
  refine ⟨first - 8, fun i set => ?_⟩
  have := within (i + 8) ((bit_cons_add a error i).trans set)
  omega

/-- As polynomials of degree below eight, a nonzero multiple of `x ^ k` at the front is cancelled by
no multiple of `x ^ (8 - k)` behind it. -/
theorem ofBytes_pair_ne_zero {k : ℕ} (le : k ≤ 8) (some : a ≠ 0) (high : a.toNat * 2 ^ k < 256)
    (low : 2 ^ (8 - k) ∣ b.toNat) : ofBytes [a, b] ≠ 0 := by
  rw [ofBytes_pair]
  refine repeat_shift_ne_zero fun zero => ?_
  obtain ⟨c, multiple⟩ := low
  have split : 2 ^ (8 - k) * 2 ^ k = 256 := by
    rw [← pow_add, Nat.sub_add_cancel le]
    rfl
  have small : c < 2 ^ k := by
    have bound : 2 ^ (8 - k) * c < 2 ^ (8 - k) * 2 ^ k := by
      rw [← multiple, split]
      exact b.toNat_lt
    exact Nat.lt_of_mul_lt_mul_left bound
  have byte : (UInt8.ofNat c).toNat = c :=
    UInt8.toNat_ofNat_of_lt' (small.trans_le (Nat.pow_le_pow_right two_pos le))
  have behind : Nat.repeat shift (8 - k) (UInt8.ofNat c) = b := by
    apply UInt8.toNat_inj.mp
    rw [toNat_repeat_shift (by rw [byte, mul_comm, ← multiple]; exact b.toNat_lt), byte, multiple,
      mul_comm]
  have front : Nat.repeat shift k a = UInt8.ofNat c := by
    refine repeat_shift_inj (k := 8 - k) ?_
    rw [← repeat_shift_add, Nat.sub_add_cancel le, behind]
    exact UInt8.xor_eq_zero_iff.mp zero
  have doubled := toNat_repeat_shift high
  rw [front, byte] at doubled
  have none : a.toNat = 0 := by
    by_contra positive
    have := Nat.le_mul_of_pos_left (2 ^ k) (Nat.pos_of_ne_zero positive)
    omega
  exact some (UInt8.toNat_inj.mp none)

theorem foldl_absorb_ne_zero {rest : List UInt8} (some : r ≠ 0) (zeros : ∀ b ∈ rest, b = 0) :
    rest.foldl absorb r ≠ 0 := by
  induction rest generalizing r with
  | nil => exact some
  | cons b rest ih =>
    obtain ⟨zero, others⟩ := List.forall_mem_cons.mp zeros
    refine ih ?_ others
    rw [absorb, zero, UInt8.xor_zero]
    exact repeat_shift_ne_zero some

theorem ofBytes_ne_zero_of_burst {error : List UInt8} (burst : Burst error)
    (some : ∃ b ∈ error, b ≠ 0) : ofBytes error ≠ 0 := by
  induction error with
  | nil => simp at some
  | cons a rest ih =>
    by_cases zero : a = 0
    · subst zero
      have later : ∃ b ∈ rest, b ≠ 0 := by simpa using some
      exact ih burst.tail later
    obtain ⟨first, within⟩ := burst
    have clear : ∀ i, (first ≤ i → first + 8 ≤ i) → bit (a :: rest) i = false := by
      intro i outside
      by_contra set
      have := within i (eq_true_of_ne_false set)
      omega
    have start : first < 8 := by
      by_contra beyond
      have : a.toNat < 2 ^ (8 - 8) := lt_two_pow_of_bits fun i inside =>
        (bit_cons_of_lt a rest inside).symm.trans (clear i (by omega))
      exact zero (UInt8.toNat_inj.mp (Nat.lt_one_iff.mp this))
    have high : a.toNat < 2 ^ (8 - first) := lt_two_pow_of_bits fun i before =>
      (bit_cons_of_lt a rest (by omega)).symm.trans (clear i (by omega))
    have high : a.toNat * 2 ^ first < 256 := by
      have := Nat.mul_lt_mul_of_pos_right high (Nat.two_pow_pos first)
      rwa [← pow_add, Nat.sub_add_cancel start.le] at this
    cases rest with
    | nil =>
      rw [ofBytes_singleton]
      exact repeat_shift_ne_zero zero
    | cons b more =>
      have low : 2 ^ (8 - first) ∣ b.toNat := two_pow_dvd_of_bits fun i after inside => by
        rw [← bit_cons_of_lt b more inside, ← bit_cons_add a]
        exact clear _ (by omega)
      rw [show a :: b :: more = [a, b] ++ more from rfl, ofBytes, List.foldl_append]
      refine foldl_absorb_ne_zero (ofBytes_pair_ne_zero start.le zero high low)
        (eq_zero_of_bits fun i => ?_)
      rw [← bit_cons_add b, ← bit_cons_add a]
      exact clear _ (by omega)

theorem matches_iff_of_burst {byte : UInt8} (burst : Burst [a, b]) :
    ofBytes (message ++ [byte]) ^^^ b = ofBytes (message ++ [byte ^^^ a]) ↔ a = 0 ∧ b = 0 := by
  rw [ofBytes_concat_xor, UInt8.xor_right_inj]
  constructor
  · intro same
    have pair : ofBytes [a, b] = 0 := (ofBytes_concat_eq_zero_iff [a] b).mpr same.symm
    by_contra differ
    refine ofBytes_ne_zero_of_burst burst ?_ pair
    simpa [-not_and, not_and_or] using differ
  · rintro ⟨rfl, rfl⟩
    rfl

/-- A message that arrives with its checksum does not match it any more if a burst has hit them,
wherever it lies. -/
theorem bursts_detected (message : List UInt8) :
    ofBytes (message ++ [ofBytes message]) = 0 ∧
    (∀ other : List UInt8, message.length = other.length →
      ofBytes (List.zipWith (· ^^^ ·) message other) = ofBytes message ^^^ ofBytes other) ∧
    ∀ (error : List UInt8) (flips : UInt8), message.length = error.length →
      (∃ i, bit (error ++ [flips]) i = true) → Burst (error ++ [flips]) →
      ofBytes (List.zipWith (· ^^^ ·) message error) ≠ ofBytes message ^^^ flips := by
  refine ⟨(ofBytes_concat_eq_zero_iff _ _).mpr rfl, fun other => ofBytes_xor, ?_⟩
  intro error flips same ⟨i, set⟩ burst matched
  rw [ofBytes_xor same, UInt8.xor_right_inj] at matched
  refine ofBytes_ne_zero_of_burst burst ?_ ((ofBytes_concat_eq_zero_iff _ _).mpr matched)
  by_contra! zeros
  rw [bit_of_zeros zeros] at set
  cases set

theorem bursts_detected_straddling :
    (∃ i, bit ([0x00, 0x0F] ++ [0xF0]) i = true) ∧ Burst ([0x00, 0x0F] ++ [0xF0]) ∧
      ofBytes [0x12, 0x3B] ≠ ofBytes [0x12, 0x34] ^^^ 0xF0 := by
  have some : ∃ i, bit ([0x00, 0x0F] ++ [0xF0]) i = true := ⟨12, by decide⟩
  have burst : Burst ([0x00, 0x0F] ++ [0xF0]) := .of_bits 12 (by decide)
  exact ⟨some, burst, (bursts_detected [0x12, 0x34]).2.2 [0x00, 0x0F] 0xF0 rfl some burst⟩

end Burst

end PackGuard.Chip.Checksum
