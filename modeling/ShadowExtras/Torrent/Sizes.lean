import Mathlib.Data.Rat.Floor
import Mathlib.Tactic.Linarith
import ShadowExtras.Foundation.Fallible
import ShadowExtras.Torrent.Client

/-!
# The sizes of a torrent client

`torrent_new` reads the size of the file and of the blocks from its arguments: a number, or a number
with the suffix `KB` or `MB`, which is multiplied with 1024 or 1024². `torrentClient_start` divides
for the number of blocks. All of it is done in `int`, and nothing is checked.

A multiplication or an addition that leaves the range of `int` and a division by zero are faults.
`exactSize` is what an argument says; `Sizable` says when the sizes and the number of blocks are
what they should be.
-/

namespace ShadowExtras.Torrent

open Foundation

/-! ## Integers -/

/-- What goes wrong in a computation with `int`. -/
inductive SizeFault
  | overflow
  | divisionByZero
  deriving DecidableEq, Repr

/-- The range of `int`. -/
def FitsInt (i : ℤ) : Prop := -2 ^ 31 ≤ i ∧ i < 2 ^ 31

instance (i : ℤ) : Decidable (FitsInt i) := by
  unfold FitsInt
  infer_instance

/-- The result of an operation on `int`. -/
def intResult (i : ℤ) : Except SizeFault ℤ := if FitsInt i then .ok i else .error .overflow

/-! ## Arguments -/

/-- The first token of `strtok` with one delimiter. -/
def strtok (delimiter : Byte) (s : Bytes) : Bytes :=
  (s.dropWhile (· == delimiter)).takeWhile (· != delimiter)

/-- `atoi(strtok(arg, "K")) * 1024`, and its siblings. -/
def parseSize (arg : Bytes) : Except SizeFault ℤ :=
  if ascii "KB" <:+: arg then intResult (atoi (strtok 75 arg) * 1024)
  else if ascii "MB" <:+: arg then
    match intResult (atoi (strtok 77 arg) * 1024) with
    | .error fault => .error fault
    | .ok size => intResult (size * 1024)
  else .ok (atoi arg)

/-- `(fileSize + downBlockSize - 1) / downBlockSize` -/
def countBlocks (fileSize downBlockSize : ℤ) : Except SizeFault ℤ :=
  match intResult (fileSize + downBlockSize) with
  | .error fault => .error fault
  | .ok sum =>
    match intResult (sum - 1) with
    | .error fault => .error fault
    | .ok sum => if downBlockSize = 0 then .error .divisionByZero
        else intResult (sum.tdiv downBlockSize)

/-- What a client is started with. -/
structure Sizes where
  fileSize : ℤ
  downBlockSize : ℤ
  upBlockSize : ℤ
  numBlocks : ℤ
  deriving DecidableEq, Repr

/-- The block sizes without an argument. -/
def defaultBlockSize : ℤ := 16 * 1024

/-- The block sizes of `torrent_new`, which are given both or not at all. -/
def parseBlockSizes : Option (Bytes × Bytes) → Except SizeFault (ℤ × ℤ)
  | none => .ok (defaultBlockSize, defaultBlockSize)
  | some (down, up) =>
    match parseSize down with
    | .error fault => .error fault
    | .ok downBlockSize => (parseSize up).map fun upBlockSize => (downBlockSize, upBlockSize)

/-- The sizes of `torrent_new` and `torrentClient_start`. -/
def startSizes (file : Bytes) (blocks : Option (Bytes × Bytes)) : Except SizeFault Sizes :=
  match parseSize file with
  | .error fault => .error fault
  | .ok fileSize =>
    match parseBlockSizes blocks with
    | .error fault => .error fault
    | .ok (downBlockSize, upBlockSize) =>
      (countBlocks fileSize downBlockSize).map fun numBlocks =>
        { fileSize := fileSize, downBlockSize := downBlockSize, upBlockSize := upBlockSize
          numBlocks := numBlocks }

/-! ## What the arguments say -/

/-- The number at the front of a text. -/
def numberIn (s : Bytes) : ℤ :=
  match s.dropWhile isSpace with
  | 45 :: ds => -(leadingNat 0 ds : ℤ)
  | 43 :: ds => leadingNat 0 ds
  | ds => leadingNat 0 ds

/-- The size that an argument says. -/
def exactSize (arg : Bytes) : ℤ :=
  if ascii "KB" <:+: arg then numberIn (strtok 75 arg) * 1024
  else if ascii "MB" <:+: arg then numberIn (strtok 77 arg) * 1024 * 1024
  else numberIn arg

/-- The size of the blocks that are downloaded. -/
def exactDown (blocks : Option (Bytes × Bytes)) : ℤ := blocks.elim defaultBlockSize fun sizes =>
    exactSize sizes.1

/-- The size of the blocks that are uploaded. -/
def exactUp (blocks : Option (Bytes × Bytes)) : ℤ := blocks.elim defaultBlockSize fun sizes =>
    exactSize sizes.2

/-- The sizes are those of the arguments, and the number of blocks is what the file takes. -/
def CountsBlocks (file : Bytes) (blocks : Option (Bytes × Bytes)) : Prop :=
  ∃ sizes, startSizes file blocks = .ok sizes ∧ sizes.fileSize = exactSize file ∧
    sizes.downBlockSize = exactDown blocks ∧ sizes.upBlockSize = exactUp blocks ∧
    sizes.numBlocks = ⌈(exactSize file : ℚ) / exactDown blocks⌉ ∧ 0 ≤ sizes.numBlocks

/-- Every size and the sum of the file and a block is in range, and a file of more than a negative
block is divided by blocks of a positive size. Blocks of a negative size give the right number for
some files. -/
structure Sizable (f d u : ℤ) : Prop where
  fileSize : FitsInt f
  downBlockSize : FitsInt d
  upBlockSize : FitsInt u
  sum : FitsInt (f + d)
  rounded : FitsInt (f + d - 1)
  divides : 0 < d ∧ -d < f ∨ d < 0 ∧ f < -d ∧ ¬d ∣ f ∧ ¬d ∣ f - 1

instance (f d u : ℤ) : Decidable (Sizable f d u) :=
  decidable_of_iff
    (FitsInt f ∧ FitsInt d ∧ FitsInt u ∧ FitsInt (f + d) ∧ FitsInt (f + d - 1) ∧
      (0 < d ∧ -d < f ∨ d < 0 ∧ f < -d ∧ ¬d ∣ f ∧ ¬d ∣ f - 1))
    ⟨fun ⟨file, down, up, sum, rounded, divides⟩ => ⟨file, down, up, sum, rounded, divides⟩,
      fun h => ⟨h.fileSize, h.downBlockSize, h.upBlockSize, h.sum, h.rounded, h.divides⟩⟩

variable {i : ℤ} {s arg file : Bytes} {blocks : Option (Bytes × Bytes)} {f d n : ℤ}

/-! ## Reading a size -/

theorem intResult_eq_ok : intResult i = .ok n ↔ FitsInt i ∧ n = i := by
  unfold intResult
  split <;> simp [*, eq_comm]

/-- `strtol` reads the number and stops at the ends of `long`. -/
theorem strtol_eq_clamp (s : Bytes) : strtol s = clampInt64 (numberIn s) := by
  unfold strtol numberIn
  generalize s.dropWhile isSpace = t
  split <;> simp_all

/-- A number that was cut to an `int` fits. -/
theorem fitsInt_toInt32 (i : ℤ) : FitsInt (toInt32 i) := by
  unfold FitsInt toInt32
  rw [Int.bmod_def]
  split_ifs <;> omega

/-- `atoi` gives the number exactly if it is in range. -/
theorem atoi_eq_numberIn_iff : atoi s = numberIn s ↔ FitsInt (numberIn s) := by
  unfold atoi
  rw [strtol_eq_clamp]
  constructor
  · intro h
    rw [← h]
    exact fitsInt_toInt32 _
  · rintro ⟨hlow, hhigh⟩
    have hclamp : clampInt64 (numberIn s) = numberIn s := by
      unfold clampInt64
      omega
    rw [hclamp, toInt32, Int.bmod_eq_of_le]
    · omega
    · omega

/-- A product is computed as the number says exactly if it is in range. -/
theorem intResult_mul_eq_iff {factor : ℤ} (hfactor : 1 ≤ factor) :
    intResult (atoi s * factor) = .ok (numberIn s * factor) ↔ FitsInt (numberIn s * factor) := by
  rw [intResult_eq_ok]
  constructor
  · rintro ⟨hfits, heq⟩
    rw [heq]
    exact hfits
  · intro hfits
    have hnumber : FitsInt (numberIn s) := by
      obtain ⟨hlow, hhigh⟩ := hfits
      constructor <;> nlinarith
    rw [atoi_eq_numberIn_iff.mpr hnumber]
    exact ⟨hfits, rfl⟩

/-- An argument is read as it says exactly if its size is in range. -/
theorem parseSize_eq_iff (arg : Bytes) : parseSize arg = .ok (exactSize arg) ↔
    FitsInt (exactSize arg) := by
  unfold parseSize exactSize
  split_ifs
  · exact intResult_mul_eq_iff (by norm_num)
  · constructor
    · intro h
      split at h
      · cases h
      · exact (intResult_eq_ok.mp h).2 ▸ (intResult_eq_ok.mp h).1
    · intro hfits
      have hkilo : FitsInt (numberIn (strtok 77 arg) * 1024) := by
        obtain ⟨hlow, hhigh⟩ := hfits
        constructor <;> omega
      rw [(intResult_mul_eq_iff (by norm_num)).mpr hkilo]
      exact intResult_eq_ok.mpr ⟨hfits, rfl⟩
  · rw [Except.ok.injEq]
    exact atoi_eq_numberIn_iff

theorem fitsInt_defaultBlockSize : FitsInt defaultBlockSize := by
  unfold FitsInt defaultBlockSize
  norm_num

/-- The block sizes are read as they are given exactly if both are in range. -/
theorem parseBlockSizes_eq_iff (blocks : Option (Bytes × Bytes)) :
    parseBlockSizes blocks = .ok (exactDown blocks, exactUp blocks) ↔
      FitsInt (exactDown blocks) ∧ FitsInt (exactUp blocks) := by
  cases blocks with
  | none => exact iff_of_true (by rfl) ⟨fitsInt_defaultBlockSize, fitsInt_defaultBlockSize⟩
  | some sizes =>
    obtain ⟨down, up⟩ := sizes
    have hdown := parseSize_eq_iff down
    have hup := parseSize_eq_iff up
    change parseBlockSizes (some (down, up)) = .ok (exactSize down, exactSize up) ↔
      FitsInt (exactSize down) ∧ FitsInt (exactSize up)
    rw [← hdown, ← hup]
    simp only [parseBlockSizes]
    cases parseSize down with
    | error fault => simp
    | ok downBlockSize =>
      cases parseSize up with
      | error fault => simp [Except.map]
      | ok upBlockSize => simp [Except.map]

/-! ## Counting the blocks -/

/-- The number of the blocks is computed where every step of it fits. -/
theorem countBlocks_eq_ok :
    countBlocks f d = .ok n ↔
      FitsInt (f + d) ∧ FitsInt (f + d - 1) ∧ d ≠ 0 ∧ FitsInt n ∧ n = (f + d - 1).tdiv d := by
  unfold countBlocks
  by_cases hsum : FitsInt (f + d)
  · rw [intResult_eq_ok.mpr ⟨hsum, rfl⟩]
    dsimp only
    by_cases hrounded : FitsInt (f + d - 1)
    · rw [intResult_eq_ok.mpr ⟨hrounded, rfl⟩]
      dsimp only
      by_cases hzero : d = 0
      · simp [hzero]
      · rw [if_neg hzero, intResult_eq_ok]
        constructor
        · rintro ⟨hfits, rfl⟩
          exact ⟨hsum, hrounded, hzero, hfits, rfl⟩
        · rintro ⟨-, -, -, hfits, rfl⟩
          exact ⟨hfits, rfl⟩
    · simp [intResult, hrounded]
  · simp [intResult, hsum]

/-- What `torrentClient_start` counts. -/
theorem numBlocks_start (socksAddr : InAddr) (authority : Node) (connect : Connect) {u : ℤ}
    (h : countBlocks f d = .ok n) :
    (TorrentClient.start socksAddr authority connect f d u).numBlocks = n :=
  (countBlocks_eq_ok.mp h).2.2.2.2.symm

/-- Rounding up a fraction with a positive denominator. -/
theorem ceil_eq_iff_of_pos (hd : 0 < d) : ⌈(f : ℚ) / d⌉ = n ↔ (n - 1) * d < f ∧ f ≤ n * d := by
  have hpos : (0 : ℚ) < d := by exact_mod_cast hd
  rw [Int.ceil_eq_iff, lt_div_iff₀ hpos, div_le_iff₀ hpos]
  exact_mod_cast Iff.rfl

/-- Rounding up a fraction with a negative denominator. -/
theorem ceil_eq_iff_of_neg (hd : d < 0) : ⌈(f : ℚ) / d⌉ = n ↔ f < (n - 1) * d ∧ n * d ≤ f := by
  have hneg : (d : ℚ) < 0 := by exact_mod_cast hd
  rw [Int.ceil_eq_iff, lt_div_iff_of_neg hneg, div_le_iff_of_neg hneg]
  exact_mod_cast Iff.rfl

/-- With blocks of a positive size the number is right, and not negative, exactly if a file of a
negative size is smaller than a block. -/
theorem tdiv_eq_ceil_iff_of_pos (hd : 0 < d) :
    (f + d - 1).tdiv d = ⌈(f : ℚ) / d⌉ ∧ 0 ≤ (f + d - 1).tdiv d ↔ -d < f := by
  constructor
  · rintro ⟨hceil, hnonneg⟩
    have hbounds := (ceil_eq_iff_of_pos hd).mp hceil.symm
    nlinarith
  · intro hf
    have hsum : 0 ≤ f + d - 1 := by omega
    rw [Int.tdiv_eq_ediv_of_nonneg hsum]
    refine ⟨((ceil_eq_iff_of_pos hd).mpr ?_).symm, Int.ediv_nonneg hsum hd.le⟩
    have hdivision := Int.mul_ediv_add_emod (f + d - 1) d
    have hlow := Int.emod_nonneg (f + d - 1) hd.ne'
    have hhigh := Int.emod_lt_of_pos (f + d - 1) hd
    constructor <;> nlinarith

/-- With blocks of a negative size it is right by chance. -/
theorem tdiv_eq_ceil_iff_of_neg (hd : d < 0) :
    (f + d - 1).tdiv d = ⌈(f : ℚ) / d⌉ ∧ 0 ≤ (f + d - 1).tdiv d ↔
      f < -d ∧ ¬d ∣ f ∧ ¬d ∣ f - 1 := by
  by_cases hf : f < -d
  · obtain ⟨e, rfl⟩ : ∃ e, d = -e := ⟨-d, by omega⟩
    have he : 0 < e := by omega
    have htdiv : (f + -e - 1).tdiv (-e) = (e + 1 - f) / e := by
      have hsum : 0 ≤ e + 1 - f := by omega
      rw [Int.tdiv_neg, ← Int.neg_tdiv, show -(f + -e - 1) = e + 1 - f by ring,
        Int.tdiv_eq_ediv_of_nonneg hsum]
    have hdivision := Int.mul_ediv_add_emod (e + 1 - f) e
    have hlow := Int.emod_nonneg (e + 1 - f) he.ne'
    have hhigh := Int.emod_lt_of_pos (e + 1 - f) he
    have hnonneg : 0 ≤ (e + 1 - f) / e := Int.ediv_nonneg (by omega) he.le
    rw [htdiv, eq_comm, ceil_eq_iff_of_neg hd]
    generalize (e + 1 - f) / e = n at *
    generalize (e + 1 - f) % e = r at *
    -- the quotient is the rounded one unless the remainder is zero or one
    constructor
    · rintro ⟨⟨hless, -⟩, -⟩
      refine ⟨hf, ?_, ?_⟩
      · rintro ⟨k, hk⟩
        have hpositive : 0 < n - k := by nlinarith
        nlinarith
      · rintro ⟨k, hk⟩
        have hpositive : 0 < n - k := by nlinarith
        nlinarith
    · rintro ⟨-, hdivides, hdivides'⟩
      have hzero : r ≠ 0 := by
        rintro rfl
        exact hdivides' ⟨n - 1, by linarith⟩
      have hone : r ≠ 1 := by
        rintro rfl
        exact hdivides ⟨n - 1, by linarith⟩
      have hr : 1 < r := by omega
      refine ⟨⟨?_, ?_⟩, hnonneg⟩
      · linarith
      · linarith
  · constructor
    · rintro ⟨hceil, hnonneg⟩
      have hbounds := (ceil_eq_iff_of_neg hd).mp hceil.symm
      nlinarith
    · rintro ⟨hless, -⟩
      exact absurd hless hf

/-- The number of blocks is right, and not negative, exactly if the division is one of these. -/
theorem tdiv_eq_ceil_iff (hd : d ≠ 0) :
    (f + d - 1).tdiv d = ⌈(f : ℚ) / d⌉ ∧ 0 ≤ (f + d - 1).tdiv d ↔
      0 < d ∧ -d < f ∨ d < 0 ∧ f < -d ∧ ¬d ∣ f ∧ ¬d ∣ f - 1 := by
  rcases lt_or_gt_of_ne hd with hneg | hpos
  · rw [tdiv_eq_ceil_iff_of_neg hneg]
    simp [hneg, hneg.le]
  · rw [tdiv_eq_ceil_iff_of_pos hpos]
    simp [hpos, hpos.le]

/-- The quotient is in range: the only one that is not has the divisor `-1`. -/
theorem fitsInt_tdiv {m : ℤ} (hm : FitsInt m) (hd : d ≠ -1) : FitsInt (m.tdiv d) := by
  obtain ⟨hlow, hhigh⟩ := hm
  have habs : (m.tdiv d).natAbs = m.natAbs / d.natAbs := Int.natAbs_tdiv m d
  by_cases hsmall : m.natAbs < 2 ^ 31
  · have hle : m.natAbs / d.natAbs ≤ m.natAbs := Nat.div_le_self _ _
    constructor <;> omega
  · by_cases hlarge : 2 ≤ d.natAbs
    · have hle : m.natAbs / d.natAbs ≤ m.natAbs / 2 := Nat.div_le_div_left hlarge (by norm_num)
      constructor <;> omega
    · have hunit : d = 0 ∨ d = 1 := by omega
      rcases hunit with rfl | rfl
      · rw [Int.tdiv_zero]
        constructor <;> norm_num
      · rw [Int.tdiv_one]
        exact ⟨hlow, hhigh⟩

/-! ## The sizes -/

/-- The sizes are those that are parsed. -/
theorem startSizes_eq_ok {sizes : Sizes} :
    startSizes file blocks = .ok sizes ↔ parseSize file = .ok sizes.fileSize ∧
      parseBlockSizes blocks = .ok (sizes.downBlockSize, sizes.upBlockSize) ∧
      countBlocks sizes.fileSize sizes.downBlockSize = .ok sizes.numBlocks := by
  unfold startSizes
  cases hfile : parseSize file with
  | error fault => simp
  | ok fileSize =>
    cases hblocks : parseBlockSizes blocks with
    | error fault => simp
    | ok blockSizes =>
      obtain ⟨downBlockSize, upBlockSize⟩ := blockSizes
      dsimp only
      rw [map_eq_ok]
      constructor
      · rintro ⟨numBlocks, hcount, rfl⟩
        exact ⟨rfl, rfl, hcount⟩
      · rintro ⟨hf, hb, hcount⟩
        obtain rfl := Except.ok.inj hf
        obtain ⟨rfl, rfl⟩ := Prod.mk.inj (Except.ok.inj hb)
        exact ⟨sizes.numBlocks, hcount, rfl⟩

/-- The sizes and the number of blocks are what the arguments say exactly if all sizes and sums are
in range and the division is a right one. -/
theorem countsBlocks_iff_sizable (file : Bytes) (blocks : Option (Bytes × Bytes)) :
    CountsBlocks file blocks ↔ Sizable (exactSize file) (exactDown blocks) (exactUp blocks) := by
  constructor
  · rintro ⟨sizes, hstart, hfile, hdown, hup, hceil, hnonneg⟩
    obtain ⟨hparse, hblocks, hcount⟩ := startSizes_eq_ok.mp hstart
    rw [hfile] at hparse hcount
    rw [hdown, hup] at hblocks
    rw [hdown] at hcount
    obtain ⟨hsum, hrounded, hzero, -, hquotient⟩ := countBlocks_eq_ok.mp hcount
    obtain ⟨hdownFits, hupFits⟩ := (parseBlockSizes_eq_iff blocks).mp hblocks
    rw [hquotient] at hceil hnonneg
    exact ⟨(parseSize_eq_iff file).mp hparse, hdownFits, hupFits, hsum, hrounded,
      (tdiv_eq_ceil_iff hzero).mp ⟨hceil, hnonneg⟩⟩
  · rintro ⟨hfile, hdown, hup, hsum, hrounded, hdivides⟩
    have hzero : exactDown blocks ≠ 0 := by
      rcases hdivides with ⟨hpos, -⟩ | ⟨hneg, -⟩
      · exact hpos.ne'
      · exact hneg.ne
    have hone : exactDown blocks ≠ -1 := by
      rintro hone
      rcases hdivides with ⟨hpos, -⟩ | ⟨-, -, hdvd, -⟩
      · omega
      · rw [hone] at hdvd
        exact hdvd ⟨-exactSize file, by ring⟩
    obtain ⟨hceil, hnonneg⟩ := (tdiv_eq_ceil_iff hzero).mpr hdivides
    refine ⟨⟨_, _, _, _⟩, startSizes_eq_ok.mpr ⟨(parseSize_eq_iff file).mpr hfile,
      (parseBlockSizes_eq_iff blocks).mpr ⟨hdown, hup⟩,
        countBlocks_eq_ok.mpr ⟨hsum, hrounded, hzero,
        fitsInt_tdiv hrounded hone, rfl⟩⟩, rfl, rfl, rfl, hceil, hnonneg⟩

/-- Blocks of no bytes are divided by. -/
theorem not_countsBlocks_zero : ¬CountsBlocks (ascii "10MB") (some (ascii "0", ascii "16KB")) := by
  rintro ⟨sizes, hstart, -⟩
  have hfault : startSizes (ascii "10MB") (some (ascii "0", ascii "16KB")) =
      .error .divisionByZero := by
    decide +kernel
  rw [hfault] at hstart
  cases hstart

end ShadowExtras.Torrent
