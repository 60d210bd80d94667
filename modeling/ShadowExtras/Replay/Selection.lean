import ShadowExtras.Replay.PcapReplay

/-!
# Which packets are selected

The replayer is configured with the two endpoints of a connection, but `get_next_packet` compares
only their addresses: the comparison of the ports is commented out. It also takes a packet that was
cut short together with the bytes that earlier packets have left in the buffer behind its end.

`OfFlow` says which captured packets belong to the connection, and `OnlyFlow` says of which captures
just these are selected.
-/

namespace ShadowExtras.Replay

open Foundation

/-! ## The configured connection -/

/-- `client_port_in_pcap` and `server_port_in_pcap`, which `get_next_packet` does not look at. -/
structure Ports where
  clientPort : UInt16
  serverPort : UInt16
  deriving DecidableEq, Repr

/-- The address of the side whose packets are replayed. -/
def Flow.srcIP (flow : Flow) : Bytes := if flow.isClient then flow.clientIP else flow.serverIP

/-- The address of the other side. -/
def Flow.dstIP (flow : Flow) : Bytes := if flow.isClient then flow.serverIP else flow.clientIP

/-- The port of the side whose packets are replayed. -/
def Ports.src (ports : Ports) (flow : Flow) : UInt16 :=
  if flow.isClient then ports.clientPort else ports.serverPort

/-- The port of the other side. -/
def Ports.dst (ports : Ports) (flow : Flow) : UInt16 :=
  if flow.isClient then ports.serverPort else ports.clientPort

/-- `ntohs(tcp->th_sport)`. -/
def tcpSport (buffer : Bytes) : Nat :=
  256 * (byteAt buffer (sizeEthernet + sizeIpHeader buffer)).toNat +
    (byteAt buffer (sizeEthernet + sizeIpHeader buffer + 1)).toNat

/-- `ntohs(tcp->th_dport)`. -/
def tcpDport (buffer : Bytes) : Nat :=
  256 * (byteAt buffer (sizeEthernet + sizeIpHeader buffer + 2)).toNat +
    (byteAt buffer (sizeEthernet + sizeIpHeader buffer + 3)).toNat

/-- A captured TCP packet over IPv4 from the one endpoint to the other. -/
structure OfFlow (flow : Flow) (ports : Ports) (data : Bytes) : Prop where
  captured : sizeEthernet + 20 ≤ data.length ∧ sizeEthernet + sizeIpHeader data + 4 ≤ data.length
  ipv4 : etherType data = 8
  tcp : ipProtocol data = 6
  srcIP : ipSrc data = flow.srcIP
  dstIP : ipDst data = flow.dstIP
  srcPort : tcpSport data = (ports.src flow).toNat
  dstPort : tcpDport data = (ports.dst flow).toNat

instance (flow : Flow) (ports : Ports) (data : Bytes) : Decidable (OfFlow flow ports data) :=
  decidable_of_iff
    ((sizeEthernet + 20 ≤ data.length ∧ sizeEthernet + sizeIpHeader data + 4 ≤ data.length) ∧
      etherType data = 8 ∧ ipProtocol data = 6 ∧ ipSrc data = flow.srcIP ∧
      ipDst data = flow.dstIP ∧ tcpSport data = (ports.src flow).toNat ∧
      tcpDport data = (ports.dst flow).toNat)
    ⟨fun ⟨h₁, h₂, h₃, h₄, h₅, h₆, h₇⟩ => ⟨h₁, h₂, h₃, h₄, h₅, h₆, h₇⟩,
      fun ⟨h₁, h₂, h₃, h₄, h₅, h₆, h₇⟩ => ⟨h₁, h₂, h₃, h₄, h₅, h₆, h₇⟩⟩

/-- The positions of the packets of the connection in a capture. -/
def ofFlow (flow : Flow) (ports : Ports) (capture : Capture) : List Nat :=
  (List.range capture.length).filter fun i => OfFlow flow ports (capture.getD i [])

/-- The buffer when the packet at a position was read into it. -/
def bufferAt (capture : Capture) (i : Nat) : Bytes := overwriteAll (capture.take (i + 1)) []

/-- Whatever comes with the addresses of the connection, if need be with bytes of earlier packets
behind its end, was captured up to its ports and has the ports of the connection. -/
def OnlyFlow (flow : Flow) (ports : Ports) (capture : Capture) : Prop :=
  ∀ i < capture.length, (inspect flow (bufferAt capture i)).isSome = true →
    OfFlow flow ports (capture.getD i [])

namespace PcapReplay

/-- A replayer that has opened a file. -/
def reading (s : PcapReplay) (capture : Capture) : PcapReplay :=
  { s with pcap := some (Pcap.openOffline capture) }

/-- The position in its file of the packet that was read last. -/
def position (s : PcapReplay) : Nat :=
  match s.pcap with
  | some h => h.capture.length - h.records.length - 1
  | none => 0

/-- The positions of the packets that `n` calls of `get_next_packet` select. -/
def selections : Nat → PcapReplay → List Nat
  | 0, _ => []
  | n + 1, s =>
    match s.getNextPacket with
    | .ok (true, s') => s'.position :: selections n s'
    | _ => []

end PcapReplay

/-! ## The headers of a packet -/

variable {flow : Flow} {ports : Ports} {capture : Capture} {data buffer : Bytes}
variable {records : List Bytes} {i j n : Nat}

/-- What `get_next_packet` compares. -/
theorem isSome_inspect_iff :
    (inspect flow buffer).isSome = true ↔
      etherType buffer = 8 ∧ ipProtocol buffer = 6 ∧ ipSrc buffer = flow.srcIP ∧
        ipDst buffer = flow.dstIP := by
  unfold inspect Flow.srcIP Flow.dstIP
  by_cases h8 : etherType buffer = 8 <;> by_cases h6 : ipProtocol buffer = 6 <;>
    simp only [h8, h6, ne_eq, not_true_eq_false, not_false_eq_true, if_false, if_true,
      Option.isSome_none, Bool.false_eq_true, false_and, and_false, true_and]
  cases flow.isClient <;> simp only [Bool.false_eq_true, if_false, if_true]
  · split <;> rename_i h <;> simp_all [eq_comm]
  · split <;> rename_i h <;> simp_all [eq_comm]

/-- A packet of the connection is taken, whatever was in the buffer. -/
theorem OfFlow.isSome_inspect (h : OfFlow flow ports data) (hholds : Holds buffer data) :
    (inspect flow buffer).isSome = true := by
  have hlen := h.captured.1
  unfold sizeEthernet at hlen
  have htype : etherType buffer = etherType data := by
    unfold etherType
    rw [hholds 12 (by omega), hholds 13 (by omega)]
  have hproto : ipProtocol buffer = ipProtocol data := hholds _ (by simp only [sizeEthernet]; omega)
  have hsrc : ipSrc buffer = ipSrc data := hholds.bytesAt (by simp only [sizeEthernet]; omega)
  have hdst : ipDst buffer = ipDst data := hholds.bytesAt (by simp only [sizeEthernet]; omega)
  rw [isSome_inspect_iff, htype, hproto, hsrc, hdst]
  exact ⟨h.ipv4, h.tcp, h.srcIP, h.dstIP⟩

theorem overwriteAll_append (records records' : List Bytes) (buffer : Bytes) :
    overwriteAll (records ++ records') buffer = overwriteAll records'
    (overwriteAll records buffer) :=
  List.foldl_append

theorem bufferAt_eq (h : i < capture.length) :
    bufferAt capture i = overwrite (capture.getD i []) (overwriteAll (capture.take i) []) := by
  unfold bufferAt
  rw [List.take_add_one, overwriteAll_append]
  simp [overwriteAll, h]

theorem holds_bufferAt (h : i < capture.length) :
    Holds (bufferAt capture i) (capture.getD i []) := by
  rw [bufferAt_eq h]
  exact holds_overwrite

/-! ## Reading on -/

/-- The positions that are selected when the packets are read into the buffer one after the
other. -/
def acceptedAt (flow : Flow) : List Bytes → Bytes → Nat → List Nat
  | [], _, _ => []
  | data :: rest, buffer, i =>
    if (inspect flow (overwrite data buffer)).isSome then
      i :: acceptedAt flow rest (overwrite data buffer) (i + 1)
    else acceptedAt flow rest (overwrite data buffer) (i + 1)

/-- What one call of `get_next_packet` leaves to the next ones. -/
theorem acceptedAt_readNext (flow : Flow) (records : List Bytes) (buffer : Bytes) (i : Nat) :
    match readNext flow records buffer with
    | (rest, buffer', some _) =>
      rest.length < records.length ∧
        acceptedAt flow records buffer i =
          (i + (records.length - rest.length) - 1) ::
            acceptedAt flow rest buffer' (i + (records.length - rest.length))
    | (_, _, none) => acceptedAt flow records buffer i = [] := by
  induction records generalizing buffer i with
  | nil => simp [readNext, acceptedAt]
  | cons data rest ih =>
    cases hfound : inspect flow (overwrite data buffer) with
    | some found => simp [readNext, acceptedAt, hfound]
    | none =>
      simp only [readNext, acceptedAt, hfound, Option.isSome_none, Bool.false_eq_true, if_false]
      have hrest := ih (overwrite data buffer) (i + 1)
      revert hrest
      obtain ⟨records', buffer', found⟩ := readNext flow rest (overwrite data buffer)
      cases found with
      | none => exact id
      | some p =>
        rintro ⟨hlt, heq⟩
        have hlen : i + 1 + (rest.length - records'.length) =
            i + ((data :: rest).length - records'.length) := by
          rw [List.length_cons]
          omega
        rw [hlen] at heq
        exact ⟨by rw [List.length_cons]; omega, heq⟩

/-- The packets that several calls select. -/
theorem selections_eq {s : PcapReplay} {h : Pcap} (hpcap : s.pcap = some h)
    (hle : h.records.length ≤ h.capture.length) :
    PcapReplay.selections n s =
      (acceptedAt s.flow h.records h.buffer (h.capture.length - h.records.length)).take n := by
  induction n generalizing s h with
  | zero => rfl
  | succ n ih =>
    have hnext :=
      acceptedAt_readNext s.flow h.records h.buffer (h.capture.length - h.records.length)
    simp only [PcapReplay.selections, PcapReplay.getNextPacket, hpcap]
    revert hnext
    obtain ⟨rest, buffer', found⟩ := readNext s.flow h.records h.buffer
    cases found with
    | none =>
      intro hnil
      simp [hnil]
    | some found =>
      rintro ⟨hlt, heq⟩
      have hpos : h.capture.length - h.records.length + (h.records.length - rest.length) =
          h.capture.length - rest.length := by omega
      dsimp only
      rw [heq, hpos, List.take_succ_cons]
      have hrest : rest.length ≤ h.capture.length := by omega
      congr 1
      refine ih (h := { h with records := rest, buffer := buffer', taken := h.taken + 1 }) ?_ hrest
      rfl

/-- The positions are those at which the loop of `get_next_packet` ends. -/
theorem acceptedAt_eq (flow : Flow) (capture : Capture) (h : i + n = capture.length) :
    acceptedAt flow (capture.drop i) (overwriteAll (capture.take i) []) i =
      (List.range' i n).filter fun j => (inspect flow (bufferAt capture j)).isSome := by
  induction n generalizing i with
  | zero =>
    rw [List.drop_eq_nil_of_le (by omega)]
    rfl
  | succ n ih =>
    have hlt : i < capture.length := by omega
    have hbuffer : overwrite capture[i] (overwriteAll (capture.take i) []) =
        bufferAt capture i := by
      rw [bufferAt_eq hlt]
      simp [hlt]
    have hrest := ih (i := i + 1) (by omega)
    rw [List.drop_eq_getElem_cons hlt, acceptedAt, hbuffer, List.range'_succ, List.filter_cons]
    rw [← bufferAt] at hrest
    rw [hrest]

/-- Exactly the packets of the connection are selected from a capture just if everything that comes
with its addresses belongs to it. -/
theorem PcapReplay.selectsFlow_iff_onlyFlow (s : PcapReplay) (ports : Ports) (capture : Capture) :
    (∀ n, selections n (s.reading capture) = (ofFlow s.flow ports capture).take n) ↔
      OnlyFlow s.flow ports capture := by
  have hselect (n : Nat) : selections n (s.reading capture) =
      ((List.range capture.length).filter fun i =>
        (inspect s.flow (bufferAt capture i)).isSome).take n := by
    rw [selections_eq (h := Pcap.openOffline capture) rfl le_rfl, List.range_eq_range',
      ← acceptedAt_eq s.flow capture (Nat.zero_add _)]
    simp [Pcap.openOffline, reading, overwriteAll]
  simp only [hselect]
  constructor
  · intro h i hi hfound
    have hlists := h (capture.length + 1)
    have hshort (p : Nat → Bool) : ((List.range capture.length).filter p).length ≤
        capture.length + 1 := by
      have hle := List.length_filter_le p (List.range capture.length)
      rw [List.length_range] at hle
      omega
    rw [ofFlow, List.take_of_length_le (hshort _), List.take_of_length_le (hshort _)] at hlists
    have hmem : i ∈ (List.range capture.length).filter fun i =>
        (inspect s.flow (bufferAt capture i)).isSome := by simp [hi, hfound]
    rw [hlists] at hmem
    simpa [hi] using hmem
  · intro h n
    unfold ofFlow
    congr 1
    apply List.filter_congr
    intro i hi
    have hlt : i < capture.length := List.mem_range.mp hi
    rw [Bool.eq_iff_iff, decide_eq_true_iff]
    exact ⟨h i hlt, fun hflow => hflow.isSome_inspect (holds_bufferAt hlt)⟩

/-- A packet between two ports. -/
def frameBetween (src dst : Bytes) (sport dport : UInt8) (payload : Bytes) : Bytes :=
  (frame src dst payload).set 35 sport |>.set 37 dport

/-- A capture with packets of two connections from the client to the same server. -/
def twoConnections : Capture :=
  [frameBetween [10, 0, 0, 1] [10, 0, 0, 2] 7 80 [65],
    frameBetween [10, 0, 0, 1] [10, 0, 0, 2] 8 80 [66]]

/-- The packet of the other connection is selected as well. -/
theorem PcapReplay.not_selectsFlow_otherPort :
    ¬∀ (s : PcapReplay) (ports : Ports) (capture : Capture) (n : Nat),
      selections n (s.reading capture) = (ofFlow s.flow ports capture).take n := by
  intro h
  let s : PcapReplay :=
    { flow := clientFlow, pcap := none, pcapStructQueue := [], pcapFilePathQueue := [],
      nextPacket := none, isAllowedToSend := true, isFirstPacketReceived := true, isDone := false,
      sent := [], passes := [] }
  have hselected : selections 2 (s.reading twoConnections) = [0, 1] := by decide +kernel
  have hflow : ofFlow s.flow { clientPort := 7, serverPort := 80 } twoConnections = [0] := by
    decide +kernel
  have hsame := h s { clientPort := 7, serverPort := 80 } twoConnections 2
  rw [hselected, hflow] at hsame
  simp at hsame

end ShadowExtras.Replay
