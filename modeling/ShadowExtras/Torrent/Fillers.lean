import ShadowExtras.Foundation.BufferLoop
import ShadowExtras.Torrent.Server

/-!
# What the blocks are filled with

Before a part of a block is sent, client and server fill their buffer with text. Here
`torrentClient_fillBuffer` and `torrentServer_populateCookies` are run write by write, in the first
`length` bytes of the buffer. The loop of the client compares its index with a difference of
`size_t`, which is huge when the filler is longer than the buffer. The loop of the server goes on by
18 bytes and writes 23 in each round, the NUL of `sprintf` included, so that the last round may
leave the buffer.

Where the loops stay inside, they leave what `fillBuffer` and `populateCookies` say.
-/

namespace ShadowExtras.Torrent

open Foundation

/-! ## The two loops -/

/-- The comparison `i < length - strlen(filler)`, with a difference of `size_t`. -/
def fillGuard (length : ℕ) (filler : Bytes) (i : ℕ) : Bool :=
  decide ((i : ℤ) < ((length : ℤ) - filler.length) % 2 ^ 64)

/-- `torrentClient_fillBuffer`, for so many rounds at most. -/
def fillBufferWrites (length : ℕ) (filler : Bytes) (rounds : ℕ) : Option (Except Fault Bytes) :=
  forLoop (fillGuard length filler) filler.length (writeAt .outOfBounds filler) rounds 0
    (List.replicate length 0)

/-- What `torrentClient_activate` does: the filler is printed into 64 bytes, and the buffer filled
with it. -/
def fillWithCookie (length : ℕ) (cookie : UInt32) (time : UInt64) (rounds : ℕ) :
    Option (Except Fault Bytes) :=
  match writeAt Fault.outOfBounds (bufFiller cookie time.toNat ++ [0]) 0 (List.replicate 64 0) with
  | .error fault => some (.error fault)
  | .ok filler => fillBufferWrites length (cString filler) rounds

/-- The comparison `i < length - 18` of `int`. -/
def populateGuard (length i : ℕ) : Bool := decide ((i : ℤ) < (length : ℤ) - 18)

/-- `torrentServer_populateCookies`, for so many rounds at most. The line is printed into a buffer
of 32 bytes first, which is not used. -/
def populateCookiesWrites (length : ℕ) (cookie : UInt32) (rounds : ℕ) :
    Option (Except Fault Bytes) :=
  match writeAt Fault.outOfBounds (cookieLine cookie ++ [0]) 0 (List.replicate 32 0) with
  | .error fault => some (.error fault)
  | .ok _ =>
    forLoop (populateGuard length) 18 (writeAt .outOfBounds (cookieLine cookie ++ [0])) rounds 0
      (List.replicate length 0)

/-! ## The texts -/

theorem hexDigit_ne_zero {n : ℕ} (hn : n < 16) : hexDigit n ≠ 0 := by
  interval_cases n <;> decide

@[simp] theorem length_hex8 (n : UInt32) : (hex8 n).length = 8 := rfl

theorem ne_zero_of_mem_hex8 {n : UInt32} {b : Byte} (hb : b ∈ hex8 n) : b ≠ 0 := by
  obtain ⟨i, -, rfl⟩ := List.mem_map.mp hb
  exact hexDigit_ne_zero (Nat.mod_lt _ (by decide))

@[simp] theorem length_cookieLine (cookie : UInt32) : (cookieLine cookie).length = 22 := by
  have htext : (ascii "TOR-COOKIE: ").length = 12 := by decide
  simp [cookieLine, htext, crlf]

/-- The line of a cookie holds no NUL. -/
theorem ne_zero_of_mem_cookieLine {cookie : UInt32} {b : Byte} (hb : b ∈ cookieLine cookie) :
    b ≠ 0 := by
  have htext : ∀ b ∈ ascii "TOR-COOKIE: ", b ≠ 0 := forall_mem_of_all (by decide)
  have hend : ∀ b ∈ crlf, b ≠ 0 := forall_mem_of_all (by decide)
  rw [cookieLine, List.mem_append, List.mem_append] at hb
  rcases hb with (hb | hb) | hb
  · exact htext b hb
  · exact ne_zero_of_mem_hex8 hb
  · exact hend b hb

/-- The length of a filler. -/
theorem length_bufFiller (cookie : UInt32) (time : ℕ) :
    (bufFiller cookie time).length = 30 + (decimal time).length := by
  have htext : (ascii "TIME: ").length = 6 := by decide
  simp only [bufFiller, List.length_append, length_cookieLine, htext, crlf, List.length_cons,
    List.length_nil]
  omega

theorem ne_zero_of_mem_decimal {n : ℕ} {b : Byte} (hb : b ∈ decimal n) : b ≠ 0 := by
  rintro rfl
  exact absurd (isDigit_of_mem_decimal hb) (by decide)

/-- A filler holds no NUL. -/
theorem ne_zero_of_mem_bufFiller {cookie : UInt32} {time : ℕ} {b : Byte}
    (hb : b ∈ bufFiller cookie time) :
    b ≠ 0 := by
  have htext : ∀ b ∈ ascii "TIME: ", b ≠ 0 := forall_mem_of_all (by decide)
  have hend : ∀ b ∈ crlf, b ≠ 0 := forall_mem_of_all (by decide)
  rw [bufFiller, List.mem_append, List.mem_append, List.mem_append] at hb
  rcases hb with ((hb | hb) | hb) | hb
  · exact ne_zero_of_mem_cookieLine hb
  · exact htext b hb
  · exact ne_zero_of_mem_decimal hb
  · exact hend b hb

/-- The filler and its NUL fit into the 64 bytes. -/
theorem length_bufFiller_le (cookie : UInt32) (time : UInt64) :
    (bufFiller cookie time.toNat).length ≤ 50 := by
  have hdigits : (decimal time.toNat).length ≤ 20 :=
    length_decimal_le (by decide) (time.toNat_lt.trans (by decide))
  rw [length_bufFiller]
  omega

/-! ## The loop of the client -/

section Client

variable {length : ℕ} {filler : Bytes}

/-- The buffer before the round `j`. -/
def filled (length : ℕ) (filler : Bytes) (j : ℕ) : Bytes :=
  (List.replicate j filler).flatten ++ List.replicate (length - j * filler.length) 0

theorem length_flatten_replicate (j : ℕ) (text : Bytes) :
    (List.replicate j text).flatten.length = j * text.length := by
  simp

/-- A round that finds space behind the copies adds one. -/
theorem writeAt_filled {j : ℕ} (hfits : (j + 1) * filler.length ≤ length) :
    writeAt Fault.outOfBounds filler (0 + j * filler.length) (filled length filler j) =
      .ok (filled length filler (j + 1)) := by
  have hspace : length - j * filler.length =
      filler.length + (length - (j + 1) * filler.length) := by
    rw [Nat.succ_mul] at hfits ⊢
    omega
  have hindex : 0 + j * filler.length = (List.replicate j filler).flatten.length := by
    rw [length_flatten_replicate, Nat.zero_add]
  rw [filled, hspace, List.replicate_add, hindex, writeAt_append _ _ _ (by simp), filled,
    List.replicate_succ', List.flatten_append]
  simp

/-- The guard of the loop, when a filler fits. -/
theorem fillGuard_of_le (hle : filler.length ≤ length) (hlength : length < 2 ^ 64) (i : ℕ) :
    fillGuard length filler i = decide (i + filler.length < length) := by
  have hmod : ((length : ℤ) - filler.length) % 2 ^ 64 = length - filler.length :=
    Int.emod_eq_of_lt (by omega) (by omega)
  rw [fillGuard, hmod]
  apply decide_eq_decide.mpr
  omega

/-- Where the filler is no longer than the buffer, the loop leaves what `fillBuffer` says. -/
theorem fillBufferWrites_of_le (hpos : 0 < filler.length) (hle : filler.length ≤ length)
    (hlength : length < 2 ^ 64) :
    fillBufferWrites length filler ((length - 1) / filler.length + 1) =
      some (fillBuffer length filler) := by
  set n := (length - 1) / filler.length with hn
  have hbelow : n * filler.length ≤ length - 1 := Nat.div_mul_le_self _ _
  have habove : length - 1 < (n + 1) * filler.length := by
    rw [hn, Nat.add_mul, Nat.one_mul]
    exact Nat.lt_div_mul_add hpos
  have hguard : ∀ j < n, fillGuard length filler (0 + j * filler.length) = true := by
    intro j hj
    have hround : (j + 1) * filler.length ≤ n * filler.length := Nat.mul_le_mul_right _ hj
    rw [fillGuard_of_le hle hlength, decide_eq_true_eq]
    rw [Nat.succ_mul] at hround
    omega
  have hbody : ∀ j < n, writeAt Fault.outOfBounds filler (0 + j * filler.length)
      (filled length filler j) =
      .ok (filled length filler (j + 1)) := by
    intro j hj
    have hround : (j + 1) * filler.length ≤ n * filler.length := Nat.mul_le_mul_right _ hj
    exact writeAt_filled (by omega)
  have hend : fillGuard length filler (0 + n * filler.length) = false := by
    rw [fillGuard_of_le hle hlength, decide_eq_false_iff_not]
    rw [Nat.succ_mul] at habove
    omega
  have hstart : List.replicate length 0 = filled length filler 0 := by simp [filled]
  have hcontent : fillBuffer length filler = .ok (filled length filler n) := by
    rw [fillBuffer, if_neg (by omega)]
    dsimp only
    rw [← hn, length_flatten_replicate, filled]
  rw [fillBufferWrites, hstart, forLoop_eq_ok _ hguard hbody hend, hcontent]

/-- A filler that is longer than the buffer is written behind its end in the first round. -/
theorem fillBufferWrites_of_lt (hlt : length < filler.length) (hlength : filler.length < 2 ^ 64) :
    fillBufferWrites length filler 1 = some (.error .outOfBounds) := by
  have hguard : ∀ j ≤ 0, fillGuard length filler (0 + j * filler.length) = true := by
    intro j hj
    obtain rfl := Nat.le_zero.mp hj
    have hmod : ((length : ℤ) - filler.length) % 2 ^ 64 = length - filler.length + 2 ^ 64 := by
      rw [← Int.add_emod_right]
      exact Int.emod_eq_of_lt (by omega) (by omega)
    rw [fillGuard, hmod, decide_eq_true_eq]
    omega
  have hfault : writeAt Fault.outOfBounds filler (0 + 0 * filler.length) (List.replicate length 0) =
      .error .outOfBounds := by
    apply writeAt_eq_error
    rw [List.length_replicate]
    omega
  exact forLoop_eq_error (fun _ => List.replicate length 0) hguard (by simp) hfault

/-- Filling finishes just if a filler fits. -/
theorem finishes_fillBufferWrites_iff (hpos : 0 < filler.length) (hfiller : filler.length < 2 ^ 64)
    (hlength : length < 2 ^ 64) :
    Finishes (fillBufferWrites length filler) ↔ filler.length ≤ length := by
  constructor
  · intro h
    by_contra hlt
    exact not_finishes_of_error (fillBufferWrites_of_lt (Nat.lt_of_not_le hlt) hfiller) h
  · intro hle
    have hfill := fillBufferWrites_of_le hpos hle hlength
    rw [fillBuffer, if_neg (by omega)] at hfill
    exact ⟨_, _, hfill⟩

/-- The 64 bytes hold the filler. -/
theorem fillWithCookie_eq (length : ℕ) (cookie : UInt32) (time : UInt64) :
    fillWithCookie length cookie time = fillBufferWrites length (bufFiller cookie time.toNat) := by
  have hlength := length_bufFiller_le cookie time
  have hspace : List.replicate 64 (0 : Byte) =
      List.replicate ((bufFiller cookie time.toNat).length + 1) 0 ++
        List.replicate (63 - (bufFiller cookie time.toNat).length) 0 := by
    rw [← List.replicate_add]
    congr 1
    omega
  have hprint : writeAt Fault.outOfBounds (bufFiller cookie time.toNat ++ [0]) 0
      (List.replicate 64 0) =
      .ok (bufFiller cookie time.toNat ++ [0] ++
        List.replicate (63 - (bufFiller cookie time.toNat).length) 0) := by
    rw [hspace, writeAt_zero]
    rw [List.length_replicate, List.length_append, List.length_singleton]
  have htext : cString (bufFiller cookie time.toNat ++ [0] ++
      List.replicate (63 - (bufFiller cookie time.toNat).length) 0) =
        bufFiller cookie time.toNat := by
    rw [List.append_assoc, cString_append_of_forall fun b => ne_zero_of_mem_bufFiller]
    simp [cString]
  funext rounds
  rw [fillWithCookie, hprint]
  simp only [htext]

/-- The client stays inside just if the buffer has room for the filler. -/
theorem finishes_fillWithCookie_iff {length : ℕ} (hle : length ≤ bufSize) (cookie : UInt32)
    (time : UInt64) :
    Finishes (fillWithCookie length cookie time) ↔ 30 + (decimal time.toNat).length ≤ length := by
  have hbuf : length < 2 ^ 64 := Nat.lt_of_le_of_lt hle (by decide)
  have hfiller := length_bufFiller_le cookie time
  have hpos : 0 < (bufFiller cookie time.toNat).length := by
    rw [length_bufFiller]
    omega
  rw [fillWithCookie_eq, finishes_fillBufferWrites_iff hpos (by omega) hbuf, length_bufFiller]

end Client

/-! ## The loop of the server -/

section Server

variable {length : ℕ}

/-- What the line of the round before has left behind its first 18 bytes. -/
def overhang (cookie : UInt32) (j : ℕ) : Bytes := if j = 0 then [] else (cookieLine cookie).drop 18

/-- The buffer before the round `j`. -/
def populated (length : ℕ) (cookie : UInt32) (j : ℕ) : Bytes :=
  (List.replicate j ((cookieLine cookie).take 18)).flatten ++
    (overhang cookie j ++ List.replicate (length - (18 * j + (overhang cookie j).length)) 0)

theorem length_overhang_le (cookie : UInt32) (j : ℕ) : (overhang cookie j).length ≤ 4 := by
  unfold overhang
  split <;> simp

/-- The length of the fillers in front. -/
theorem length_front (cookie : UInt32) (j : ℕ) :
    (List.replicate j ((cookieLine cookie).take 18)).flatten.length = 18 * j := by
  rw [length_flatten_replicate, List.length_take, length_cookieLine, Nat.mul_comm]
  rfl

/-- A buffer that is populated keeps its length. -/
theorem length_populated {cookie : UInt32} {j : ℕ} (hfits : 18 * j + 4 ≤ length) :
    (populated length cookie j).length = length := by
  have hover := length_overhang_le cookie j
  rw [populated, List.length_append, length_front, List.length_append, List.length_replicate]
  omega

/-- A round that finds space for a line and its NUL. -/
theorem writeAt_populated {cookie : UInt32} {j : ℕ} (hfits : 18 * j + 23 ≤ length) :
    writeAt Fault.outOfBounds (cookieLine cookie ++ [0]) (0 + j * 18) (populated length cookie j) =
      .ok (populated length cookie (j + 1)) := by
  have hover := length_overhang_le cookie j
  have hspace : length - (18 * j + (overhang cookie j).length) =
      (23 - (overhang cookie j).length) + (length - (18 * j + 23)) := by
    omega
  have hindex : 0 + j * 18 = (List.replicate j ((cookieLine cookie).take 18)).flatten.length := by
    rw [length_front]
    omega
  have hold :
      (overhang cookie j ++ List.replicate (23 - (overhang cookie j).length) (0 : Byte)).length =
      (cookieLine cookie ++ [0]).length := by
    simp only [List.length_append, List.length_replicate, length_cookieLine, List.length_singleton]
    omega
  have hnew : length - (18 * (j + 1) + (overhang cookie (j + 1)).length) =
      1 + (length - (18 * j + 23)) := by
    have hlength : (overhang cookie (j + 1)).length = 4 := by simp [overhang]
    omega
  have hline : (cookieLine cookie).take 18 ++ overhang cookie (j + 1) = cookieLine cookie :=
    List.take_append_drop 18 _
  have hlines : (List.replicate (j + 1) ((cookieLine cookie).take 18)).flatten =
      (List.replicate j ((cookieLine cookie).take 18)).flatten ++ (cookieLine cookie).take 18 := by
    rw [List.replicate_succ', List.flatten_append, List.flatten_singleton]
  have hnul : List.replicate (1 + (length - (18 * j + 23))) (0 : Byte) =
      [0] ++ List.replicate (length - (18 * j + 23)) 0 :=
    List.replicate_add 1 _ 0
  rw [populated, hspace, List.replicate_add, ← List.append_assoc (overhang cookie j), hindex,
    writeAt_append _ _ _ hold, populated, hlines, hnew, hnul,
      List.append_assoc _ ((cookieLine cookie).take 18),
    ← List.append_assoc ((cookieLine cookie).take 18), hline, List.append_assoc (cookieLine cookie)]

theorem populateGuard_eq_true {i : ℕ} : populateGuard length i = true ↔ i + 18 < length := by
  rw [populateGuard, decide_eq_true_eq]
  omega

/-- The loop that populates a buffer, as a general one. -/
theorem populateCookiesWrites_eq (length : ℕ) (cookie : UInt32) :
    populateCookiesWrites length cookie = fun rounds =>
      forLoop (populateGuard length) 18 (writeAt .outOfBounds (cookieLine cookie ++ [0])) rounds 0
        (populated length cookie 0) := by
  have hstart : List.replicate length 0 = populated length cookie 0 := by simp [populated, overhang]
  have hprint : writeAt Fault.outOfBounds (cookieLine cookie ++ [0]) 0 (List.replicate 32 0) =
      .ok (cookieLine cookie ++ [0] ++ List.replicate 9 0) := by
    exact writeAt_zero (List.replicate 23 0) (List.replicate 9 0) (by simp)
  funext rounds
  rw [populateCookiesWrites, hprint, hstart]

/-- The rounds before the last one. -/
theorem populate_rounds (length : ℕ) (cookie : UInt32) {j : ℕ} (hj : j < (length - 1) / 18) :
    populateGuard length (0 + j * 18) = true ∧ (j + 1 < (length - 1) / 18 ∨ 4 ≤ (length - 1) % 18 →
      writeAt Fault.outOfBounds (cookieLine cookie ++ [0]) (0 + j * 18)
          (populated length cookie j) =
        .ok (populated length cookie (j + 1))) := by
  refine ⟨?_, fun hmore => writeAt_populated ?_⟩
  · rw [populateGuard_eq_true]
    omega
  · omega

/-- The buffer behind the last round is what `populateCookies` says. -/
theorem populated_last (cookie : UInt32)
    (hlines : 18 * ((length - 1) / 18) + (overhang cookie ((length - 1) / 18)).length ≤ length) :
    populated length cookie ((length - 1) / 18) = populateCookies length cookie := by
  have htake : ∀ lines : Bytes, lines.length ≤ length →
      (lines ++ List.replicate length 0).take length =
        lines ++ List.replicate (length - lines.length) 0 := by
    intro lines hle
    rw [List.take_append, List.take_of_length_le hle, List.take_replicate,
      Nat.min_eq_left (Nat.sub_le _ _)]
  have hlength : ((List.replicate ((length - 1) / 18) ((cookieLine cookie).take 18)).flatten ++
      overhang cookie ((length - 1) / 18)).length =
        18 * ((length - 1) / 18) + (overhang cookie ((length - 1) / 18)).length := by
    rw [List.length_append, length_front]
  have hcontent := htake _ (hlength.trans_le hlines)
  rw [hlength, List.append_assoc _ _ (List.replicate (length - _) 0)] at hcontent
  exact hcontent.symm

/-- Where the last line fits, the loop leaves what `populateCookies` says. -/
theorem populateCookiesWrites_of_fits (cookie : UInt32)
    (hfits : length ≤ 18 ∨ 4 ≤ (length - 1) % 18) :
    populateCookiesWrites length cookie ((length - 1) / 18 + 1) =
      some (.ok (populateCookies length cookie)) := by
  set n := (length - 1) / 18 with hn
  have hend : populateGuard length (0 + n * 18) = false := by
    rw [Bool.eq_false_iff, Ne, populateGuard_eq_true]
    omega
  have hbody : ∀ j < n, writeAt Fault.outOfBounds (cookieLine cookie ++ [0]) (0 + j * 18)
      (populated length cookie j) = .ok (populated length cookie (j + 1)) := by
    intro j hj
    refine (populate_rounds length cookie hj).2 (.inr ?_)
    omega
  have hlines : 18 * n + (overhang cookie n).length ≤ length := by
    by_cases hzero : n = 0
    · simp [overhang, hzero]
    · have hover := length_overhang_le cookie n
      omega
  rw [populateCookiesWrites_eq]
  dsimp only
  rw [forLoop_eq_ok _ (fun j hj => (populate_rounds length cookie hj).1) hbody hend,
    populated_last cookie hlines]

/-- Otherwise the last line leaves the buffer. -/
theorem populateCookiesWrites_of_not_fits (cookie : UInt32) (hlong : 18 < length)
    (hmod : (length - 1) % 18 < 4) :
    populateCookiesWrites length cookie ((length - 1) / 18) = some (.error .outOfBounds) := by
  obtain ⟨n, hn⟩ : ∃ n, (length - 1) / 18 = n + 1 := Nat.exists_eq_succ_of_ne_zero (by omega)
  have hguard : ∀ j ≤ n, populateGuard length (0 + j * 18) = true :=
    fun j hj => (populate_rounds length cookie (by omega)).1
  have hbody : ∀ j < n, writeAt Fault.outOfBounds (cookieLine cookie ++ [0]) (0 + j * 18)
      (populated length cookie j) = .ok (populated length cookie (j + 1)) :=
    fun j hj => (populate_rounds length cookie (by omega)).2 (.inl (by omega))
  have hfault : writeAt Fault.outOfBounds (cookieLine cookie ++ [0]) (0 + n * 18)
      (populated length cookie n) = .error .outOfBounds := by
    apply writeAt_eq_error
    rw [length_populated (by omega), List.length_append, length_cookieLine, List.length_singleton]
    omega
  rw [populateCookiesWrites_eq, hn]
  exact forLoop_eq_error _ hguard hbody hfault

/-- The server stays inside just if the last line and its NUL end inside. -/
theorem finishes_populateCookiesWrites_iff (length : ℕ) (cookie : UInt32) :
    Finishes (populateCookiesWrites length cookie) ↔ length ≤ 18 ∨ 4 ≤ (length - 1) % 18 := by
  constructor
  · intro h
    by_contra hnot
    have hfault : populateCookiesWrites length cookie ((length - 1) / 18) =
        some (.error .outOfBounds) :=
      populateCookiesWrites_of_not_fits cookie (by omega) (by omega)
    rw [populateCookiesWrites_eq] at h hfault
    exact not_finishes_of_error hfault h
  · intro hfits
    exact ⟨_, _, populateCookiesWrites_of_fits cookie hfits⟩

end Server

/-! ## Both -/

/-- Filling a part of a block stays inside and ends, on both sides, just if the buffer has room for
the filler of the client and the last line of the server ends inside. -/
theorem fillers_finish_iff {length : ℕ} (hle : length ≤ bufSize) (cookie : UInt32) (time : UInt64) :
    (Finishes (fillWithCookie length cookie time) ∧
      Finishes (populateCookiesWrites length cookie)) ↔
      30 + (decimal time.toNat).length ≤ length ∧ (length ≤ 18 ∨ 4 ≤ (length - 1) % 18) := by
  rw [finishes_fillWithCookie_iff hle, finishes_populateCookiesWrites_iff]

/-- A part of 1000 bytes. -/
theorem fillers_finish_iff_thousand :
    (Finishes (fillWithCookie 1000 7 5) ∧ Finishes (populateCookiesWrites 1000 7)) ↔
      30 + (decimal (5 : UInt64).toNat).length ≤ 1000 ∧ (1000 ≤ 18 ∨ 4 ≤ (1000 - 1) % 18) :=
  fillers_finish_iff (by decide) 7 5

/-- A buffer that is filled as a whole gets a byte more from the server. -/
theorem not_fillers_finish_bufSize :
    ¬∀ length, 1 ≤ length → length ≤ bufSize → ∀ (cookie : UInt32) (time : UInt64),
      Finishes (fillWithCookie length cookie time) ∧
      Finishes (populateCookiesWrites length cookie) := by
  intro h
  have hserver := (h bufSize (by decide) le_rfl 0 0).2
  rw [finishes_populateCookiesWrites_iff] at hserver
  exact absurd hserver (by decide)

end ShadowExtras.Torrent
