import ShadowExtras.Replay.Steps

/-!
# Replayed payloads

The packet that is sent was read before the packet that is held next, and its payload is reached
through a pointer into the one buffer of the handle. What `send` gets is what the packets that were
read in the meantime have left there. `Survives` says for a packet of a capture that this is still
its payload.
-/

namespace ShadowExtras.Replay

open Foundation

/-- The payload of the `k`-th matching packet was captured as a whole and is still in its place when
the next matching packet was read. -/
def Survives (flow : Flow) (capture : Capture) (k : Nat) : Prop :=
  ∀ x ∈ kth flow capture k, ∀ found ∈ inspect flow x.1,
    found.payload + found.payloadSize.toNat ≤ x.1.length ∧
      bytesAt (overwriteAll (readAhead flow x.2) x.1) found.payload found.payloadSize.toNat =
        bytesAt x.1 found.payload found.payloadSize.toNat

instance (flow : Flow) (capture : Capture) (k : Nat) : Decidable (Survives flow capture k) := by
  unfold Survives
  infer_instance

/-- The bytes that were passed to `send` are the payload of the packet. -/
def Right (flow : Flow) (capture : Capture) (e : Sent) : Prop :=
  (kth flow capture e.index).map (fun x => payload flow x.1) = some e.bytes

instance (flow : Flow) (capture : Capture) (e : Sent) : Decidable (Right flow capture e) := by
  unfold Right
  infer_instance

namespace PcapReplay

variable {s s' t u : PcapReplay} {a : Activation} {p : Held} {h : Pcap} {data : Bytes}

/-- Everything that was passed to `send`, for this file and for the ones before, are the payloads of
the captured packets. -/
structure SendsPayloads (s : PcapReplay) : Prop where
  current : ∀ h ∈ s.pcap, ∀ e ∈ s.sent, Right s.flow h.capture e
  before : ∀ pass ∈ s.passes, ∀ e ∈ pass.2, Right s.flow pass.1 e

/-- The packet that is held is the last one of its file. -/
def atLast (s : PcapReplay) : Bool :=
  s.pcap.any fun h => s.nextPacket.any fun p => (kth s.flow h.capture (p.index + 1)).isNone

/-- The activation sends the packet that is held. -/
def sends (s : PcapReplay) (a : Activation) : Bool := s.consumes a && (s.atLast || s.writes a)

/-- The payload of a packet that is sent survives the reading. -/
def KeepsPayload (s : PcapReplay) (a : Activation) : Prop :=
  s.sends a = true → ∀ h ∈ s.pcap, ∀ p ∈ s.nextPacket, Survives s.flow h.capture p.index

instance (s : PcapReplay) (a : Activation) : Decidable (s.KeepsPayload a) := by
  unfold KeepsPayload
  infer_instance

theorem SendsPayloads.same (hs : s.SendsPayloads) (hsame : s.Same s') : s'.SendsPayloads := by
  constructor
  · rw [hsame.pcap, hsame.sent, hsame.flow]
    exact hs.current
  · rw [hsame.passes, hsame.flow]
    exact hs.before

/-- After the next packet was read the buffer still has the payload. -/
theorem Holding.payload_eq (hold : s.Holding p h data)
    (hsurvives : Survives s.flow h.capture p.index) :
    bytesAt (overwriteAll (readAhead s.flow h.records) h.buffer) p.packet.payload
      p.packet.payloadSize.toNat = payload s.flow data := by
  obtain ⟨hwhole, hplace⟩ := hsurvives _ hold.position _ hold.packet
  simp only at hwhole hplace
  simp only [payload, hold.packet]
  rw [← hplace]
  apply bytesAt_congr
  intro i hi
  apply byteAt_overwriteAll_congr
  exact hold.holds _ (by omega)

/-- Sending notes the payload. -/
theorem Holding.right (hold : s.Holding p h data) {bytes : Bytes} {size : Nat} {n : Option Nat}
    (hbytes : bytes = payload s.flow data) :
    Right s.flow h.capture { index := p.index, size := size, bytes := bytes, accepted := n } := by
  unfold Right
  rw [hold.position, hbytes]
  rfl

/-- The log after a packet was sent. -/
theorem SendsPayloads.sendPacket {h' : Pcap} {send : Option Nat} (hs : s.SendsPayloads)
    (hold : s.Holding p h data) (hnext : s.nextPacket = some p)
    (hsurvives : Survives s.flow h.capture p.index)
    (hpcap : t.pcap = some h') (hcapture : h'.capture = h.capture)
    (hbuffer : h'.buffer = overwriteAll (readAhead s.flow h.records) h.buffer)
    (hflow : t.flow = s.flow) (hsent : t.sent = s.sent) (hpasses : t.passes = s.passes)
    (hsend : t.sendPacket s.nextPacket send = .ok u) : u.SendsPayloads := by
  obtain ⟨q, k, hq, hk, -, rfl⟩ := sendPacket_spec hsend
  obtain rfl := Option.some.inj (hnext.symm.trans hq)
  obtain rfl := Option.some.inj (hpcap.symm.trans hk)
  constructor
  · intro g hg e he
    simp only [Option.mem_def, hpcap, Option.some.injEq] at hg
    subst hg
    simp only [hflow, hcapture]
    rcases List.mem_append.mp he with he | he
    · rw [hsent] at he
      exact hs.current h hold.pcap e he
    · obtain rfl := List.mem_singleton.mp he
      apply hold.right
      rw [hbuffer]
      exact hold.payload_eq hsurvives
  · simp only [hpasses, hflow]
    exact hs.before

theorem Reopened.sendsPayloads (hu : u.SendsPayloads) (hpcap : u.pcap = some h)
    (hreopened : u.Reopened s' h) : s'.SendsPayloads := by
  constructor
  · simp [hreopened.sent]
  · rw [hreopened.passes, hreopened.flow]
    intro pass hpass e he
    rcases List.mem_append.mp hpass with hpass | hpass
    · exact hu.before pass hpass e he
    · obtain rfl := List.mem_singleton.mp hpass
      exact hu.current h hpcap e he

/-- One activation. -/
theorem SendsPayloads.step (hs : s.SendsPayloads) (hf : s.Follows) (hkeeps : s.KeepsPayload a)
    (hstep : step s a = .ok s') : s'.SendsPayloads ∧ s'.Follows := by
  rcases step_cases hstep with ⟨-, hsame⟩ | ⟨hconsumes, t, u, hnext, hsend, hrestart⟩ |
      ⟨hconsumes, t, hnext, u, hsend, hafter⟩
  · exact ⟨hs.same hsame, hf.same hsame⟩
  · -- the last packet of the file
    obtain ⟨p, k, hp, hk, -, hu⟩ := sendPacket_spec hsend
    obtain ⟨h, data, hold⟩ := hf.held p hp
    obtain ⟨hlast, ht⟩ := hold.last hnext
    have htpcap : t.pcap = some (s.readUpTo h [] h.taken) := by rw [ht]
    have hsurvives : Survives s.flow h.capture p.index := by
      refine hkeeps ?_ h hold.pcap p hp
      simp [sends, hconsumes, atLast, hold.pcap, hp, hlast]
    have hpayloads : u.SendsPayloads :=
      hs.sendPacket hold hp hsurvives htpcap rfl rfl (by rw [ht]) (by rw [ht]) (by rw [ht]) hsend
    have hpcap : u.pcap = some (s.readUpTo h [] h.taken) := by rw [hu, ht]
    have hreopened : Reopened { u with nextPacket := none } s' (s.readUpTo h [] h.taken) :=
      Restarted.reopened hpcap (by rw [hu, ht]; exact hf.files) (by rw [hu, ht]; exact hf.queue)
        hrestart
    have hfreed : SendsPayloads { u with nextPacket := none } :=
      ⟨hpayloads.current, hpayloads.before⟩
    exact ⟨Reopened.sendsPayloads hfreed hpcap hreopened, hreopened.follows⟩
  · cases hheld : s.nextPacket with
    | none =>
      have := getNextPacket_of_freed hf hheld hnext
      simp at this
    | some p =>
      obtain ⟨h, data, hold⟩ := hf.held p hheld
      obtain ⟨data', rest, found, hkth, ht, hold'⟩ := hold.next hnext
      have htpcap : t.pcap = some (s.readUpTo h rest (h.taken + 1)) := hold'.pcap
      have hu : u.SendsPayloads ∧ u.Follows ∧ u.pcap = t.pcap := by
        have htfollows : t.Follows := by
          rw [ht] at hold' ⊢
          refine ⟨hf.files, hf.queue, fun q hq => ?_, by simp⟩
          obtain rfl := Option.some.inj hq
          exact ⟨_, data', hold'⟩
        split at hsend
        · rename_i hwrites
          have hsurvives : Survives s.flow h.capture p.index := by
            refine hkeeps ?_ h hold.pcap p hheld
            simp [sends, hconsumes, hwrites]
          obtain ⟨q, k, -, -, -, hu⟩ := sendPacket_spec hsend
          refine ⟨hs.sendPacket hold hheld hsurvives htpcap rfl rfl (by rw [ht]) (by rw [ht])
            (by rw [ht]) hsend, ?_, by rw [hu]⟩
          rw [hu]
          exact ⟨htfollows.files, htfollows.queue, fun q hq => by
            obtain ⟨g, d, hg⟩ := htfollows.held q hq
            exact ⟨g, d, hg.pcap, hg.readable, hg.taken, hg.position, hg.packet, hg.holds⟩,
            htfollows.freed⟩
        · subst hsend
          refine ⟨?_, htfollows, rfl⟩
          rw [ht]
          refine ⟨fun g hg e he => ?_, hs.before⟩
          obtain rfl := Option.some.inj hg
          exact hs.current h hold.pcap e he
      obtain ⟨hpayloads, hfollows, hpcap⟩ := hu
      split at hafter
      · have hreopened := hafter.reopened (hpcap.trans htpcap) hfollows.files hfollows.queue
        exact ⟨Reopened.sendsPayloads hpayloads (hpcap.trans htpcap) hreopened,
          hreopened.follows⟩
      · exact ⟨hpayloads.same hafter, hfollows.same hafter⟩

/-- In every run whose activations only send packets whose payload survives the reading, everything
that was passed to `send` are the payloads of the captured packets. -/
theorem sendsPayloads_of_keepsPayload (flow : Flow) (captures : List Capture)
    (as : List Activation) (s₀ s : PcapReplay) (hnew : new flow captures = some s₀)
    (hread : ∀ c ∈ captures, ∀ d ∈ c, Readable d) (hrun : runSteps step s₀ as = .ok s)
    (hkeeps : StepsMeet step KeepsPayload s₀ as) : s.SendsPayloads := by
  obtain ⟨hfollows, hsent, hpasses, -⟩ := follows_new hnew hread
  have hinit : s₀.SendsPayloads ∧ s₀.Follows := by
    refine ⟨⟨?_, ?_⟩, hfollows⟩
    · simp [hsent]
    · simp [hpasses]
  have h := invariant_of_stepsMeet (fun s => s.SendsPayloads ∧ s.Follows)
    (fun _ _ _ hs hP hstep => hs.1.step hs.2 hP hstep) hinit hkeeps hrun
  exact h.1

/-- A packet that is followed by an acknowledgement without payload. -/
theorem sendsPayloads_of_keepsPayload_ack :
    SendsPayloads
      (match new clientFlow
          [[frame [10, 0, 0, 1] [10, 0, 0, 2] [65], frame [10, 0, 0, 1] [10, 0, 0, 2] []]] with
        | none =>
          { flow := clientFlow, pcap := none, pcapStructQueue := [], pcapFilePathQueue := []
            nextPacket := none, isAllowedToSend := true, isFirstPacketReceived := true
            isDone := false, sent := [], passes := [] }
        | some s =>
          match runSteps step s [.writable 1, .writable 0] with
          | .ok s => s
          | .error _ => s) :=
  sendsPayloads_of_keepsPayload clientFlow
    [[frame [10, 0, 0, 1] [10, 0, 0, 2] [65], frame [10, 0, 0, 1] [10, 0, 0, 2] []]]
    [.writable 1, .writable 0] _ _ rfl (by decide) rfl (by decide)

/-- Two packets of one byte: when the first one is sent, the buffer has the payload of the
second. -/
theorem not_sendsPayloads_readAhead :
    ∃ s₀ s, new clientFlow
        [[frame [10, 0, 0, 1] [10, 0, 0, 2] [65], frame [10, 0, 0, 1] [10, 0, 0, 2] [66]]] =
          some s₀ ∧
      runSteps step s₀ [.writable 1] = .ok s ∧ ¬s.SendsPayloads := by
  refine ⟨_, _, rfl, rfl, ?_⟩
  intro h
  exact absurd (h.current _ rfl _ (List.mem_singleton.mpr rfl)) (by decide)

end PcapReplay

end ShadowExtras.Replay
