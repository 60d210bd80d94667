import ShadowExtras.Foundation.Bytes

/-!
# Reading a capture file

The part of the pcap replayer that reads packets. `pcap_next_ex` puts the bytes of the next packet
into the one buffer of its handle; what was there before stays behind the end of the new packet.
`get_next_packet` reads until a packet of the configured flow is in the buffer and keeps a *pointer*
to its payload, an offset into the buffer here. Headers are read from the buffer as well, whatever
the packet's length is. The time stamps, which only say how long to sleep, are left out.

`kth` says what the packets of a capture are: the `k`-th one that matches, and what follows it.
-/

namespace ShadowExtras.Replay

open Foundation

/-- The captured packets of a file, each with its captured bytes. -/
abbrev Capture := List Bytes

/-! ## The buffer -/

/-- A byte of the buffer; what was never written counts as zero. -/
def byteAt (buffer : Bytes) (i : Nat) : UInt8 := buffer.getD i 0

/-- Some bytes of the buffer. -/
def bytesAt (buffer : Bytes) (offset n : Nat) : Bytes :=
  (List.range n).map fun i => byteAt buffer (offset + i)

/-- The buffer after the next packet was read into it. -/
def overwrite (data buffer : Bytes) : Bytes := data ++ buffer.drop data.length

/-! ## Headers -/

/-- Which packets are replayed. -/
structure Flow where
  isClient : Bool
  /-- The four bytes of `client_IP_in_pcap`. -/
  clientIP : Bytes
  /-- The four bytes of `server_IP_in_pcap`. -/
  serverIP : Bytes
  deriving DecidableEq, Repr

/-- `SIZE_ETHERNET`. -/
def sizeEthernet : Nat := 14

/-- `ether_type` on a little-endian machine. -/
def etherType (buffer : Bytes) : Nat := (byteAt buffer 12).toNat + 256 * (byteAt buffer 13).toNat

/-- `IP_HL(ip) * 4`. -/
def sizeIpHeader (buffer : Bytes) : Nat := ((byteAt buffer sizeEthernet).toNat % 16) * 4

/-- `ip_p`. -/
def ipProtocol (buffer : Bytes) : UInt8 := byteAt buffer (sizeEthernet + 9)

/-- `ntohs(ip->ip_len)`. -/
def ipLen (buffer : Bytes) : Nat :=
  256 * (byteAt buffer (sizeEthernet + 2)).toNat + (byteAt buffer (sizeEthernet + 3)).toNat

/-- `TH_OFF(tcp) * 4`. -/
def sizeTcpHeader (buffer : Bytes) : Nat :=
  ((byteAt buffer (sizeEthernet + sizeIpHeader buffer + 12)).toNat / 16) * 4

/-- `ip_src`. -/
def ipSrc (buffer : Bytes) : Bytes := bytesAt buffer (sizeEthernet + 12) 4

/-- `ip_dst`. -/
def ipDst (buffer : Bytes) : Bytes := bytesAt buffer (sizeEthernet + 16) 4

/-- `Custom_Packet_t`: where the payload is in the buffer, and its length. -/
structure CustomPacket where
  payload : Nat
  payloadSize : Int
  deriving DecidableEq, Repr

/-- The body of the loop of `get_next_packet`. The ports are not compared. -/
def inspect (flow : Flow) (buffer : Bytes) : Option CustomPacket :=
  if etherType buffer ≠ 8 then none
  else if ipProtocol buffer ≠ 6 then none
  else
    let found : CustomPacket :=
      { payload := sizeEthernet + sizeIpHeader buffer + sizeTcpHeader buffer
        payloadSize := (ipLen buffer : Int) - (sizeIpHeader buffer + sizeTcpHeader buffer : Nat) }
    if flow.isClient then
      if flow.clientIP = ipSrc buffer ∧ flow.serverIP = ipDst buffer then some found else none
    else if flow.serverIP = ipSrc buffer ∧ flow.clientIP = ipDst buffer then some found else none

/-! ## The handle -/

/-- A `pcap_t`. The file and the number of packets that were found in it are kept for statements. -/
structure Pcap where
  capture : Capture
  /-- What was not read yet. -/
  records : List Bytes
  buffer : Bytes
  taken : Nat
  deriving DecidableEq, Repr

/-- `pcap_open_offline`. -/
def Pcap.openOffline (capture : Capture) : Pcap where
  capture := capture
  records := capture
  buffer := []
  taken := 0

/-- The loop of `get_next_packet` over `pcap_next_ex`: the unread packets, the buffer and the packet
that was found. -/
def readNext (flow : Flow) : List Bytes → Bytes → List Bytes × Bytes × Option CustomPacket
  | [], buffer => ([], buffer, none)
  | data :: rest, buffer =>
    match inspect flow (overwrite data buffer) with
    | some found => (rest, overwrite data buffer, some found)
    | none => readNext flow rest (overwrite data buffer)

/-! ## The packets of a capture -/

/-- The `k`-th packet of a capture that matches, and the packets after it. -/
def kth (flow : Flow) : Capture → Nat → Option (Bytes × Capture)
  | [], _ => none
  | data :: rest, k =>
    if (inspect flow data).isSome then
      match k with
      | 0 => some (data, rest)
      | k + 1 => kth flow rest k
    else kth flow rest k

/-- The payload of a packet. -/
def payload (flow : Flow) (data : Bytes) : Bytes :=
  match inspect flow data with
  | none => []
  | some found => bytesAt data found.payload found.payloadSize.toNat

/-- The headers that are read are among the captured bytes. -/
def Readable (data : Bytes) : Prop :=
  sizeEthernet ≤ data.length ∧ (etherType data = 8 → sizeEthernet + 20 ≤ data.length ∧
    (ipProtocol data = 6 → sizeEthernet + sizeIpHeader data + 13 ≤ data.length))

instance (data : Bytes) : Decidable (Readable data) := by
  unfold Readable
  infer_instance

/-- The headers and the payload of a matching packet are among the captured bytes. -/
def Whole (flow : Flow) (data : Bytes) : Prop :=
  Readable data ∧ ∀ found ∈ inspect flow data,
    found.payload + found.payloadSize.toNat ≤ data.length

instance (flow : Flow) (data : Bytes) : Decidable (Whole flow data) := by
  unfold Whole
  infer_instance

/-- A TCP packet with these addresses and this payload. -/
def frame (src dst payload : Bytes) : Bytes :=
  List.replicate 12 0 ++ [8, 0] ++
    [69, 0, 0, 40 + payload.length.toUInt8, 0, 0, 0, 0, 64, 6, 0, 0] ++ src ++ dst ++
    List.replicate 12 0 ++ [80, 24, 0, 0, 0, 0, 0, 0] ++ payload

/-- The client side of a flow between two addresses. -/
def clientFlow : Flow := { isClient := true, clientIP := [10, 0, 0, 1], serverIP := [10, 0, 0, 2] }

/-! ## Reading what was written -/

variable {flow : Flow} {data buffer buffer' : Bytes} {i offset n : Nat}

/-- The bytes of a packet are at the front of the buffer. -/
def Holds (buffer data : Bytes) : Prop := ∀ i < data.length, byteAt buffer i = byteAt data i

/-- The new bytes are in front. -/
theorem byteAt_overwrite_of_lt (h : i < data.length) :
    byteAt (overwrite data buffer) i = byteAt data i := by
  unfold byteAt overwrite
  rw [List.getD_append _ _ _ _ h]

/-- The old bytes stand behind the new ones. -/
theorem byteAt_overwrite_of_le (h : data.length ≤ i) :
    byteAt (overwrite data buffer) i = byteAt buffer i := by
  unfold byteAt overwrite
  rw [List.getD_append_right _ _ _ _ h]
  simp only [List.getD_eq_getElem?_getD, List.getElem?_drop]
  rw [Nat.add_sub_cancel' h]

theorem holds_overwrite : Holds (overwrite data buffer) data :=
  fun _ hi => byteAt_overwrite_of_lt hi

/-- The bytes at a place depend on the buffer there. -/
theorem bytesAt_congr (h : ∀ i < n, byteAt buffer (offset + i) = byteAt buffer' (offset + i)) :
    bytesAt buffer offset n = bytesAt buffer' offset n := by
  unfold bytesAt
  apply List.map_congr_left
  intro i hi
  exact h i (List.mem_range.mp hi)

/-- What lies within a packet is read from the buffer as it is. -/
theorem Holds.bytesAt (h : Holds buffer data) (hle : offset + n ≤ data.length) :
    bytesAt buffer offset n = bytesAt data offset n :=
  bytesAt_congr fun i hi => h (offset + i) (by omega)

/-- Headers that were captured are found in the buffer. -/
theorem Holds.inspect (h : Holds buffer data) (hread : Readable data) :
    inspect flow buffer = inspect flow data := by
  obtain ⟨hether, hread⟩ := hread
  unfold sizeEthernet at hether
  have htype : etherType buffer = etherType data := by
    unfold etherType
    rw [h 12 (by omega), h 13 (by omega)]
  unfold Replay.inspect
  rw [htype]
  by_cases h8 : etherType data = 8
  · obtain ⟨hip, hread⟩ := hread h8
    unfold sizeEthernet at hip
    have hproto : ipProtocol buffer = ipProtocol data := h _ (by simp only [sizeEthernet]; omega)
    rw [hproto]
    by_cases h6 : ipProtocol data = 6
    · have htcp := hread h6
      unfold sizeEthernet at htcp
      have hihl : sizeIpHeader buffer = sizeIpHeader data := by
        unfold sizeIpHeader
        rw [h _ (by simp only [sizeEthernet]; omega)]
      have hoff : sizeTcpHeader buffer = sizeTcpHeader data := by
        unfold sizeTcpHeader
        rw [hihl, h _ (by simp only [sizeEthernet]; omega)]
      have hlen : ipLen buffer = ipLen data := by
        unfold ipLen
        rw [h _ (by simp only [sizeEthernet]; omega), h _ (by simp only [sizeEthernet]; omega)]
      have hsrc : ipSrc buffer = ipSrc data := h.bytesAt (by simp only [sizeEthernet]; omega)
      have hdst : ipDst buffer = ipDst data := h.bytesAt (by simp only [sizeEthernet]; omega)
      rw [hihl, hoff, hlen, hsrc, hdst]
    · simp only [h8, h6, ne_eq, not_true_eq_false, not_false_eq_true, if_false, if_true]
  · simp only [h8, ne_eq, not_false_eq_true, if_true]

/-! ## Reading ahead -/

/-- What `get_next_packet` reads: everything up to the next packet that matches. -/
def readAhead (flow : Flow) : List Bytes → List Bytes
  | [] => []
  | data :: rest => if (inspect flow data).isSome then [data] else data :: readAhead flow rest

/-- The buffer after several packets were read into it. -/
def overwriteAll (records : List Bytes) (buffer : Bytes) : Bytes :=
  records.foldl (fun buffer data => overwrite data buffer) buffer

variable {records rest : List Bytes} {capture : Capture} {k : Nat}

/-- The bytes that were in the buffer before matter where they were. -/
theorem byteAt_overwriteAll_congr (h : byteAt buffer i = byteAt buffer' i) :
    byteAt (overwriteAll records buffer) i = byteAt (overwriteAll records buffer') i := by
  induction records generalizing buffer buffer' with
  | nil => exact h
  | cons data rest ih =>
    apply ih
    rcases Nat.lt_or_ge i data.length with hi | hi
    · rw [byteAt_overwrite_of_lt hi, byteAt_overwrite_of_lt hi]
    · rw [byteAt_overwrite_of_le hi, byteAt_overwrite_of_le hi, h]

/-- What `get_next_packet` finds when the headers were captured. -/
theorem readNext_eq (flow : Flow) (buffer : Bytes) (hread : ∀ data ∈ records, Readable data) :
    readNext flow records buffer =
      match kth flow records 0 with
      | some (data, rest) =>
        (rest, overwriteAll (readAhead flow records) buffer, inspect flow data)
      | none => ([], overwriteAll (readAhead flow records) buffer, none) := by
  induction records generalizing buffer with
  | nil => rfl
  | cons data rest ih =>
    have hinspect : inspect flow (overwrite data buffer) = inspect flow data :=
      holds_overwrite.inspect (hread data (by simp))
    simp only [readNext, hinspect, kth, readAhead]
    cases hfound : inspect flow data with
    | some found => simp [overwriteAll, hfound]
    | none =>
      simp only [Option.isSome_none, Bool.false_eq_true, if_false]
      exact ih _ fun d hd => hread d (by simp [hd])

/-- The packet that was found is at the front of the buffer. -/
theorem holds_readAhead (h : kth flow records 0 = some (data, rest)) :
    Holds (overwriteAll (readAhead flow records) buffer) data := by
  induction records generalizing buffer with
  | nil => simp [kth] at h
  | cons d ds ih =>
    simp only [kth, readAhead] at h ⊢
    split at h
    · rename_i hd
      obtain ⟨rfl, rfl⟩ := Prod.mk.inj (Option.some.inj h)
      simp only [hd, if_true]
      exact holds_overwrite
    · rename_i hd
      rw [if_neg hd]
      exact ih h

/-- A packet that was counted is one of the flow. -/
theorem isSome_inspect_of_kth (h : kth flow capture k = some (data, rest)) :
    (inspect flow data).isSome = true := by
  induction capture generalizing k with
  | nil => simp [kth] at h
  | cons d ds ih =>
    simp only [kth] at h
    split at h
    · rename_i hd
      cases k with
      | zero =>
        obtain ⟨rfl, rfl⟩ := Prod.mk.inj (Option.some.inj h)
        exact hd
      | succ k => exact ih h
    · exact ih h

/-- What follows a matching packet is part of the capture, and so is the packet. -/
theorem mem_of_kth (h : kth flow capture k = some (data, rest)) :
    data ∈ capture ∧ ∀ d ∈ rest, d ∈ capture := by
  induction capture generalizing k with
  | nil => simp [kth] at h
  | cons d ds ih =>
    simp only [kth] at h
    split at h
    · cases k with
      | zero =>
        obtain ⟨rfl, rfl⟩ := Prod.mk.inj (Option.some.inj h)
        exact ⟨by simp, fun e he => by simp [he]⟩
      | succ k =>
        obtain ⟨hdata, hrest⟩ := ih h
        exact ⟨by simp [hdata], fun e he => by simp [hrest e he]⟩
    · obtain ⟨hdata, hrest⟩ := ih h
      exact ⟨by simp [hdata], fun e he => by simp [hrest e he]⟩

/-- The packet after the `k`-th one is the first one in what follows it. -/
theorem kth_succ (h : kth flow capture k = some (data, rest)) :
    kth flow capture (k + 1) = kth flow rest 0 := by
  induction capture generalizing k with
  | nil => simp [kth] at h
  | cons d ds ih =>
    by_cases hd : (inspect flow d).isSome
    · cases k with
      | zero =>
        simp only [kth, hd, if_true] at h ⊢
        obtain ⟨rfl, rfl⟩ := Prod.mk.inj (Option.some.inj h)
        rfl
      | succ k =>
        simp only [kth, hd, if_true] at h
        have hnext := ih h
        simpa only [kth, hd, if_true] using hnext
    · simp only [kth, hd, Bool.false_eq_true, if_false] at h
      have hnext := ih h
      simpa only [kth, hd, Bool.false_eq_true, if_false] using hnext

end ShadowExtras.Replay
