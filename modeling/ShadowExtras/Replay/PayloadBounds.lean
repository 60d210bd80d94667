import ShadowExtras.Replay.PcapReplay

/-!
# Headers and payloads within a packet

`get_next_packet` reads the headers of a packet at fixed places and at places that the headers name,
and takes the difference of three lengths as the length of the payload. None of this is compared
with the captured length of the packet. What lies behind the end of the packet is what an earlier
packet has left in the buffer.

`Fits` says when all of it lies within the captured bytes: the headers were captured, and the length
that the packet announces covers its headers and was captured as well.
-/

namespace ShadowExtras.Replay

open Foundation

/-- The bytes that `get_next_packet` reads of a packet that it accepts: `ether_type`, `ip_vhl`,
`ip_len`, `ip_p`, `ip_src`, `ip_dst`, and `th_offx2` behind the IP header. -/
def fieldsRead (buffer : Bytes) : List ℕ :=
  [12, 13, sizeEthernet, sizeEthernet + 2, sizeEthernet + 3, sizeEthernet + 9] ++
    (List.range 4).map (sizeEthernet + 12 + ·) ++ (List.range 4).map (sizeEthernet + 16 + ·) ++
    [sizeEthernet + sizeIpHeader buffer + 12]

/-- `size_payload`, a `u_int`. -/
def sizePayload (buffer : Bytes) : ℕ :=
  (ipLen buffer + (2 ^ 32 - (sizeIpHeader buffer + sizeTcpHeader buffer))) % 2 ^ 32

/-- The headers and the payload of a packet that was accepted lie within its captured bytes. -/
structure Bounded (data buffer : Bytes) (found : CustomPacket) : Prop where
  fields : ∀ i ∈ fieldsRead buffer, i < data.length
  /-- `size_payload` did not wrap around. -/
  size : (sizePayload buffer : ℤ) =
    (ipLen buffer : ℤ) - (sizeIpHeader buffer + sizeTcpHeader buffer : ℕ)
  payload : ∀ i < found.payloadSize.toNat, found.payload + i < data.length

/-- The headers were captured, the announced length covers them, and it was captured if there is a
payload. -/
structure Fits (data buffer : Bytes) : Prop where
  ipHeader : sizeEthernet + 20 ≤ data.length
  tcpHeader : sizeEthernet + sizeIpHeader buffer + 13 ≤ data.length
  headers : sizeIpHeader buffer + sizeTcpHeader buffer ≤ ipLen buffer
  announced : sizeIpHeader buffer + sizeTcpHeader buffer < ipLen buffer →
    sizeEthernet + ipLen buffer ≤ data.length

variable {flow : Flow} {data buffer : Bytes} {found : CustomPacket}

/-! ## Lengths -/

theorem sizeIpHeader_le (buffer : Bytes) : sizeIpHeader buffer ≤ 60 := by
  unfold sizeIpHeader
  omega

/-- A TCP header has at most 60 bytes. -/
theorem sizeTcpHeader_le (buffer : Bytes) : sizeTcpHeader buffer ≤ 60 := by
  have hbyte := UInt8.toNat_lt (byteAt buffer (sizeEthernet + sizeIpHeader buffer + 12))
  unfold sizeTcpHeader
  omega

/-- The length in an IP header has 16 bits. -/
theorem ipLen_lt (buffer : Bytes) : ipLen buffer < 2 ^ 16 := by
  have hhigh := UInt8.toNat_lt (byteAt buffer (sizeEthernet + 2))
  have hlow := UInt8.toNat_lt (byteAt buffer (sizeEthernet + 3))
  unfold ipLen
  omega

/-- The difference wraps around exactly if the headers are longer than the packet. -/
theorem sizePayload_eq_iff (buffer : Bytes) :
    (sizePayload buffer : ℤ) =
      (ipLen buffer : ℤ) - (sizeIpHeader buffer + sizeTcpHeader buffer : ℕ) ↔
      sizeIpHeader buffer + sizeTcpHeader buffer ≤ ipLen buffer := by
  have hip := sizeIpHeader_le buffer
  have htcp := sizeTcpHeader_le buffer
  have hlen := ipLen_lt buffer
  unfold sizePayload
  omega

/-- What is found is where the headers say. -/
theorem inspect_eq_some (h : inspect flow buffer = some found) :
    found.payload = sizeEthernet + sizeIpHeader buffer + sizeTcpHeader buffer ∧
      found.payloadSize =
        (ipLen buffer : ℤ) - (sizeIpHeader buffer + sizeTcpHeader buffer : ℕ) := by
  unfold inspect at h
  dsimp only at h
  split at h
  · cases h
  · split at h
    · cases h
    · split at h
      · split at h
        · obtain rfl := Option.some.inj h
          exact ⟨rfl, rfl⟩
        · cases h
      · split at h
        · obtain rfl := Option.some.inj h
          exact ⟨rfl, rfl⟩
        · cases h

/-- `payload_size` is the `u_int` as a `gint`. -/
theorem payloadSize_eq_toInt32 (h : inspect flow buffer = some found) :
    found.payloadSize = toInt32 (sizePayload buffer) := by
  have hip := sizeIpHeader_le buffer
  have htcp := sizeTcpHeader_le buffer
  have hlen := ipLen_lt buffer
  have hmod : (sizePayload buffer : ℤ) =
      ((ipLen buffer : ℤ) - (sizeIpHeader buffer + sizeTcpHeader buffer : ℕ)) % (2 ^ 32 : ℕ) := by
    unfold sizePayload
    omega
  rw [(inspect_eq_some h).2, toInt32, hmod, Int.emod_bmod, Int.bmod_eq_of_le]
  · omega
  · omega

/-! ## The condition -/

/-- The fields that are read are inside just if both headers are. -/
theorem forall_fieldsRead_lt_iff (n : ℕ) :
    (∀ i ∈ fieldsRead buffer, i < n) ↔
      sizeEthernet + 20 ≤ n ∧ sizeEthernet + sizeIpHeader buffer + 13 ≤ n := by
  unfold fieldsRead sizeEthernet
  simp only [List.mem_append, List.mem_cons, List.mem_map, List.mem_range, List.not_mem_nil,
    or_false]
  constructor
  · intro h
    have hlast := h 33 (.inl (.inr ⟨3, by omega, by omega⟩))
    have htcp := h (14 + sizeIpHeader buffer + 12) (.inr (by omega))
    omega
  · rintro ⟨hip, htcp⟩ i (((hi | ⟨j, hj, rfl⟩) | ⟨j, hj, rfl⟩) | rfl) <;> omega

/-- The headers and the payload of a packet that was accepted lie within its bytes exactly if it
fits. -/
theorem bounded_iff_fits_of_inspect (h : inspect flow buffer = some found) :
    Bounded data buffer found ↔ Fits data buffer := by
  obtain ⟨hpayload, hsize⟩ := inspect_eq_some h
  constructor
  · rintro ⟨hfields, hwrap, hwithin⟩
    obtain ⟨hip, htcp⟩ := (forall_fieldsRead_lt_iff data.length).mp hfields
    have hheaders := (sizePayload_eq_iff buffer).mp hwrap
    refine ⟨hip, htcp, hheaders, fun hsome => ?_⟩
    have hlast := hwithin (found.payloadSize.toNat - 1) (by omega)
    omega
  · rintro ⟨hip, htcp, hheaders, hannounced⟩
    refine ⟨(forall_fieldsRead_lt_iff data.length).mpr ⟨hip, htcp⟩,
      (sizePayload_eq_iff buffer).mpr hheaders, fun i hi => ?_⟩
    have hcaptured := hannounced (by omega)
    omega

/-! ## What `get_next_packet` accepts -/

/-- The packet that is accepted is the last one that was read. -/
theorem readNext_eq_some {records rest : List Bytes} {buffer' : Bytes}
    (h : readNext flow records buffer = (rest, buffer', some found)) :
    ∃ before data left, records = before ++ data :: rest ∧ buffer' = overwrite data left ∧
      inspect flow buffer' = some found := by
  induction records generalizing buffer with
  | nil => simp [readNext] at h
  | cons first records ih =>
    unfold readNext at h
    split at h
    · rename_i hinspect
      simp only [Prod.mk.injEq, Option.some.injEq] at h
      obtain ⟨rfl, rfl, rfl⟩ := h
      exact ⟨[], first, buffer, by simp, by simp, hinspect⟩
    · obtain ⟨before, data, left, hrecords, hbuffer, hinspect⟩ := ih h
      exact ⟨first :: before, data, left, by rw [hrecords, List.cons_append], hbuffer, hinspect⟩

/-- From a packet with these bounds only its own bytes are copied. -/
theorem bytesAt_of_bounded (h : Bounded data (overwrite data buffer) found) :
    bytesAt (overwrite data buffer) found.payload found.payloadSize.toNat =
      bytesAt data found.payload found.payloadSize.toNat :=
  bytesAt_congr fun i hi => byteAt_overwrite_of_lt (h.payload i hi)

/-- The headers and the payload of the packet that `get_next_packet` accepts lie within its captured
bytes exactly if the packet fits. -/
theorem bounded_iff_fits {records rest : List Bytes} {buffer' : Bytes}
    (h : readNext flow records buffer = (rest, buffer', some found)) :
    ∃ before data left, records = before ++ data :: rest ∧ buffer' = overwrite data left ∧
      (Bounded data buffer' found ↔ Fits data buffer') := by
  obtain ⟨before, data, left, hrecords, hbuffer, hinspect⟩ := readNext_eq_some h
  exact ⟨before, data, left, hrecords, hbuffer, bounded_iff_fits_of_inspect hinspect⟩

/-- A packet with one byte of payload. -/
def oneByte : Bytes := frame [10, 0, 0, 1] [10, 0, 0, 2] [65]

/-- A packet with one byte of payload fits. -/
theorem bounded_iff_fits_oneByte :
    ∃ before data left, [oneByte] = before ++ data :: [] ∧ oneByte = overwrite data left ∧
      (Bounded data oneByte ⟨54, 1⟩ ↔ Fits data oneByte) := by
  have hread : readNext clientFlow [oneByte] [] = ([], oneByte, some ⟨54, 1⟩) := by
    unfold oneByte
    decide
  exact bounded_iff_fits hread

/-- Of a packet with one byte of payload the headers were captured only. -/
theorem not_bounded_cut :
    readNext clientFlow [oneByte.take 54] [] = ([], oneByte.take 54, some ⟨54, 1⟩) ∧
      ¬Bounded (oneByte.take 54) (oneByte.take 54) ⟨54, 1⟩ := by
  constructor
  · unfold oneByte
    decide
  · intro h
    have hlast := h.payload 0 (by decide)
    exact absurd hlast (by unfold oneByte; decide)

end ShadowExtras.Replay
