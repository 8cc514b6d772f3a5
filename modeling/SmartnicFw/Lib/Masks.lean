import SmartnicFw.Lib.Mpz

/-!
This module contains the masks made of contiguous ones in the most significant bits of an `n` bit
word, what matching under such a mask means, and how bit scans recognize them.
-/

/--
The `n` bit word whose `p` most significant bits are set.
-/
def topOnes (n p : Nat) : Nat := 2 ^ n - 2 ^ (n - p)

/--
The `n` low bits of the two's complement representation.
-/
def lowWord (n : Nat) (x : Int) : Nat := (x % 2 ^ n).toNat

theorem topOnes_eq_mul {n p : Nat} (hp : p ≤ n) : topOnes n p = (2 ^ p - 1) * 2 ^ (n - p) := by
  have hsplit : 2 ^ n = 2 ^ p * 2 ^ (n - p) := by
    rw [← pow_add]
    congr 1
    omega
  rw [topOnes, hsplit, Nat.sub_mul, Nat.one_mul]

theorem topOnes_lt (n p : Nat) : topOnes n p < 2 ^ n := by
  have := Nat.two_pow_pos n
  have := Nat.two_pow_pos (n - p)
  unfold topOnes
  omega

@[simp]
theorem topOnes_zero (n : Nat) : topOnes n 0 = 0 := by
  simp [topOnes]

@[simp]
theorem topOnes_self (n : Nat) : topOnes n n = 2 ^ n - 1 := by
  simp [topOnes]

theorem testBit_topOnes {n p : Nat} (hp : p ≤ n) (i : Nat)
    : (topOnes n p).testBit i = (decide (n - p ≤ i) && decide (i < n)) := by
  rw [topOnes_eq_mul hp, Nat.testBit_mul_two_pow, Nat.testBit_two_pow_sub_one]
  by_cases hi : n - p ≤ i
  . have : i - (n - p) < p ↔ i < n := by omega
    simp [hi, this]
  . simp [hi]

theorem testBit_lowWord (n : Nat) (x : Int) (i : Nat)
    : (lowWord n x).testBit i = (decide (i < n) && x.testBit i) := by
  have hpow : ((2 : Int) ^ n) = ((2 ^ n : Nat) : Int) := by push_cast; rfl
  unfold lowWord
  cases x with
  | ofNat m =>
    have hcast : (Int.ofNat m % 2 ^ n).toNat = m % 2 ^ n := by
      rw [hpow, Int.ofNat_eq_natCast, ← Int.natCast_emod, Int.toNat_natCast]
    rw [hcast, Nat.testBit_mod_two_pow]
    rfl
  | negSucc m =>
    have hlt : m % 2 ^ n < 2 ^ n := Nat.mod_lt _ (Nat.two_pow_pos n)
    have hcast : (Int.negSucc m % 2 ^ n).toNat = 2 ^ n - (m % 2 ^ n + 1) := by
      rw [hpow, Int.negSucc_emod _ (by exact_mod_cast Nat.two_pow_pos n), ← Int.natCast_emod]
      omega
    rw [hcast, Nat.testBit_two_pow_sub_succ hlt, Nat.testBit_mod_two_pow]
    by_cases hi : i < n
    . simp [hi, Int.testBit]
    . simp [hi]

/--
There is no zero between the lowest one and bit `n` iff the low `n` bits are ones followed by
zeros. The scan for the lowest one answers `ulongMax` for zero, which then passes as well.
-/
theorem le_mpzScan0_mpzScan1_iff (x : Mpz) {n : Nat} (hn : n ≤ ulongMax)
    : n ≤ mpzScan0 x (mpzScan1 x 0) ↔ ∃ p ≤ n, lowWord n x = topOnes n p := by
  have hones : ∀ m ≤ ulongMax, m ≤ mpzScan1 x 0 ↔ ∀ i < m, x.testBit i = false := by
    intro m hm
    unfold mpzScan1
    rw [le_mpzScan_iff true x 0 hm]
    simp
  unfold mpzScan0
  rw [le_mpzScan_iff false x _ hn]
  constructor
  . intro hall
    refine ⟨n - mpzScan1 x 0, by omega, ?_⟩
    apply Nat.eq_of_testBit_eq
    intro i
    rw [testBit_lowWord, testBit_topOnes (by omega)]
    by_cases hi : i < n
    . by_cases hlow : mpzScan1 x 0 ≤ i
      . have hbit := hall i hlow hi
        have : n - (n - mpzScan1 x 0) ≤ i := by omega
        simpa [hi, this] using hbit
      . have hbit := (hones (i + 1) (by omega)).mp (by omega) i (by omega)
        have : ¬ n - (n - mpzScan1 x 0) ≤ i := by omega
        simp [hi, this, hbit]
    . simp [hi]
  . rintro ⟨p, hp, hword⟩ i hlow hi
    have hbits : ∀ j < n, x.testBit j = decide (n - p ≤ j) := by
      intro j hj
      have := congrArg (Nat.testBit · j) hword
      simpa [testBit_lowWord, testBit_topOnes hp, hj] using this
    have hstart : n - p ≤ mpzScan1 x 0 := by
      apply (hones (n - p) (by omega)).mpr
      intro j hj
      rw [hbits j (by omega)]
      exact decide_eq_false (by omega)
    have : n - p ≤ i := by omega
    simp [hbits i hi, this]

theorem and_ones {n v : Nat} (hv : v < 2 ^ n) : v &&& (2 ^ n - 1) = v := by
  rw [Nat.and_two_pow_sub_one_eq_mod, Nat.mod_eq_of_lt hv]

-- Equal under the mask of the top `p` of `n` bits means equal in each of these bits
theorem and_topOnes_eq_iff_testBit {n p v k : Nat} (hp : p ≤ n)
    : v &&& topOnes n p = k &&& topOnes n p ↔
        ∀ i, n - p ≤ i → i < n → v.testBit i = k.testBit i := by
  constructor
  . intro h i hi hin
    have hbit := congrArg (Nat.testBit · i) h
    simpa [testBit_topOnes hp, hi, hin] using hbit
  . intro h
    apply Nat.eq_of_testBit_eq
    intro i
    rw [Nat.testBit_and, Nat.testBit_and, testBit_topOnes hp]
    by_cases hi : n - p ≤ i ∧ i < n
    . rw [h i hi.1 hi.2]
    . have : (decide (n - p ≤ i) && decide (i < n)) = false := by simpa using hi
      rw [this, Bool.and_false, Bool.and_false]

-- The words that agree with one under a mask form the interval from it to the mask only when this
-- is the interval of the largest word
theorem masked_eq_interval_iff {n l u : Nat} (hl : l < 2 ^ n) (hu : u < 2 ^ n)
    : (∀ v < 2 ^ n, v &&& u = l &&& u ↔ l ≤ v ∧ v ≤ u) ↔ l = u ∧ u = 2 ^ n - 1 := by
  have hpos := Nat.two_pow_pos n
  constructor
  . intro h
    have hle : l ≤ u := ((h l hl).mp rfl).2
    have hself := (h u hu).mpr ⟨hle, le_refl u⟩
    have hlu : l = u := by
      have : l &&& u ≤ l := Nat.and_le_left
      rw [Nat.and_self] at hself
      omega
    have hones := h (2 ^ n - 1) (by omega)
    rw [hlu, Nat.and_comm, and_ones hu, Nat.and_self] at hones
    have := (hones.mp rfl).2
    exact ⟨hlu, by omega⟩
  . rintro ⟨rfl, rfl⟩ v hv
    rw [and_ones hv, Nat.and_self]
    omega

-- The words that share their top `p` bits with one form the interval from it to the mask of these
-- bits only when this is the interval of the largest word
theorem topBits_eq_interval_iff {n p k : Nat} (hp : p ≤ n) (hk : k ≤ topOnes n p)
    : (∀ v < 2 ^ n, (k ≤ v ∧ v ≤ topOnes n p) ↔ v &&& topOnes n p = k &&& topOnes n p) ↔
        p = n ∧ k = 2 ^ n - 1 := by
  have hpos := Nat.two_pow_pos n
  have htop := topOnes_lt n p
  constructor
  . intro h
    have hself := (h (topOnes n p) htop).mp ⟨hk, le_refl _⟩
    have hkeq : k = topOnes n p := by
      have : k &&& topOnes n p ≤ k := Nat.and_le_left
      rw [Nat.and_self] at hself
      omega
    have hones := h (2 ^ n - 1) (by omega)
    rw [Nat.and_comm, and_ones htop, hkeq, Nat.and_self] at hones
    have hmax := (hones.mpr rfl).2
    have hwidth : 2 ^ (n - p) = 1 := by
      have hpow := Nat.two_pow_pos (n - p)
      have hle : 2 ^ (n - p) ≤ 2 ^ n := Nat.pow_le_pow_right (by decide) (Nat.sub_le n p)
      unfold topOnes at hmax
      omega
    have hzero : n - p = 0 := by
      by_contra hne
      exact absurd hwidth (Nat.one_lt_two_pow hne).ne'
    exact ⟨by omega, by omega⟩
  . rintro ⟨rfl, rfl⟩ v hv
    rw [topOnes_self, and_ones hv, and_ones (by omega)]
    omega
