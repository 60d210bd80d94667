import ShadowExtras.Replay.Steps

/-!
# Which packets are sent

Every activation that takes the packet that is held replaces it by the next one, whether it was sent
or not, and whatever `send` made of it. `SendsWhole` says when nothing is lost: a packet that
carries payload is taken only by an activation that sends it, `send` accepts all of it, and the peer
does not close the connection while packets with payload are left.
-/

namespace ShadowExtras.Replay

open Foundation

variable {flow : Flow} {capture rest : Capture} {data : Bytes} {k : Nat}

/-! ## What there is to send -/

/-- The `k`-th matching packet carries payload. -/
def carries (flow : Flow) (capture : Capture) (k : Nat) : Bool :=
  (kth flow capture k).any fun x => (inspect flow x.1).any fun found => 0 < found.payloadSize

/-- The packets with payload among the first `k` matching ones, in the order of the capture. -/
def due (flow : Flow) (capture : Capture) (k : Nat) : List Nat :=
  (List.range k).filter fun i => carries flow capture i

/-- The number of matching packets. -/
def matching (flow : Flow) (capture : Capture) : Nat :=
  capture.countP fun data => (inspect flow data).isSome

/-- The packets with payload that `send` accepted as a whole. -/
def delivered (log : List Sent) : List Nat :=
  (log.filter fun e => 0 < e.size && e.accepted = some e.size).map Sent.index

/-- One more packet is due if it carries payload. -/
theorem due_succ : due flow capture (k + 1) =
    due flow capture k ++ if carries flow capture k then [k] else [] := by
  unfold due
  rw [List.range_succ, List.filter_append]
  cases h : carries flow capture k <;> simp [h]

/-- Without payload after the first `k` packets nothing else is due. -/
theorem due_eq {n : Nat} (hle : k ≤ n) (h : ∀ i < n, k ≤ i → carries flow capture i = false) :
    due flow capture n = due flow capture k := by
  induction n, hle using Nat.le_induction with
  | base => rfl
  | succ n hle ih =>
    rw [due_succ, h n (Nat.lt_succ_self n) hle]
    simpa using ih fun i hi => h i (Nat.lt_succ_of_lt hi)

theorem delivered_append (log log' : List Sent) :
    delivered (log ++ log') = delivered log ++ delivered log' := by
  simp [delivered]

/-- There is a `k`-th packet if more than `k` match. -/
theorem kth_eq_none_iff : kth flow capture k = none ↔ matching flow capture ≤ k := by
  unfold matching
  induction capture generalizing k with
  | nil => simp [kth]
  | cons d ds ih =>
    by_cases hd : (inspect flow d).isSome
    · cases k with
      | zero => simp [kth, hd]
      | succ k => simp [kth, hd, ih]
    · simp [kth, hd, ih]

namespace PcapReplay

variable {s s' t u : PcapReplay} {a : Activation} {p : Held} {h : Pcap}

/-- Of every file that was replayed all packets with payload were sent as a whole, once and in
order, and of the file in use all those before the packet that is held. -/
structure ReplaysAll (s : PcapReplay) : Prop where
  current : ∀ h ∈ s.pcap, ∀ p ∈ s.nextPacket, delivered s.sent = due s.flow h.capture p.index
  before : ∀ pass ∈ s.passes, delivered pass.2 = due s.flow pass.1 (matching s.flow pass.1)

/-- An activation that takes a packet with payload sends it and `send` accepts all of it; if the
peer has closed the connection, there is no payload left. -/
def SendsWhole (s : PcapReplay) (a : Activation) : Prop :=
  s.consumes a = true → ∀ h ∈ s.pcap, ∀ p ∈ s.nextPacket,
    (carries s.flow h.capture p.index = true →
      (s.writes a = true ∨ kth s.flow h.capture (p.index + 1) = none) ∧
        ∃ n ∈ a.send, p.packet.payloadSize.toNat ≤ n) ∧
    (s.closes a = true → ∀ i < matching s.flow h.capture, p.index + 1 ≤ i →
      carries s.flow h.capture i = false)

instance (s : PcapReplay) (a : Activation) : Decidable (s.SendsWhole a) := by
  unfold SendsWhole
  have : ∀ (n : Nat), Decidable (∃ m ∈ a.send, n ≤ m) := fun n =>
    match hsend : a.send with
    | none => isFalse (by simp)
    | some m => decidable_of_iff (n ≤ m) (by simp)
  infer_instance

/-- What was replayed stays so. -/
theorem ReplaysAll.same (hs : s.ReplaysAll) (hsame : s.Same s') : s'.ReplaysAll := by
  constructor
  · rw [hsame.pcap, hsame.nextPacket, hsame.sent, hsame.flow]
    exact hs.current
  · rw [hsame.passes, hsame.flow]
    exact hs.before

/-- A packet that is held carries payload if it has some. -/
theorem Holding.carries (hold : s.Holding p h data) :
    carries s.flow h.capture p.index = decide (0 < p.packet.payloadSize) := by
  unfold Replay.carries
  rw [hold.position, Option.any_some, hold.packet, Option.any_some]

/-- What was delivered after the packet that is held was sent. -/
theorem Holding.delivered_sendPacket {send : Option Nat} (hold : s.Holding p h data)
    (hnext : s.nextPacket = some p)
    (hwhole : Replay.carries s.flow h.capture p.index = true →
      ∃ n ∈ send, p.packet.payloadSize.toNat ≤ n)
    (hlog : delivered s.sent = due s.flow h.capture p.index) (hsent : t.sent = s.sent)
    (hsend : t.sendPacket s.nextPacket send = .ok u) :
    delivered u.sent = due s.flow h.capture (p.index + 1) := by
  obtain ⟨q, k, hq, -, -, rfl⟩ := sendPacket_spec hsend
  obtain rfl := Option.some.inj (hnext.symm.trans hq)
  rw [delivered_append, hsent, hlog, due_succ]
  congr 1
  rw [hold.carries] at hwhole ⊢
  by_cases hpos : 0 < p.packet.payloadSize
  · obtain ⟨n, hn, hle⟩ := hwhole (by simpa using hpos)
    rw [Option.mem_def] at hn
    have haccepted : min p.packet.payloadSize.toNat n = p.packet.payloadSize.toNat := by omega
    simp [delivered, hn, haccepted, hpos]
  · simp [delivered, hpos]

/-- The packet that is held need not be sent when it carries nothing. -/
theorem due_of_not_carries (hcarries : carries s.flow h.capture p.index = false) :
    due s.flow h.capture (p.index + 1) = due s.flow h.capture p.index := by
  rw [due_succ, hcarries]
  simp

/-- A capture that was reopened was replayed before. -/
theorem Reopened.replaysAll (hbefore : ∀ pass ∈ u.passes,
      delivered pass.2 = due u.flow pass.1 (matching u.flow pass.1))
    (hall : delivered u.sent = due u.flow h.capture (matching u.flow h.capture))
    (hreopened : u.Reopened s' h) : s'.ReplaysAll := by
  constructor
  · intro k hk p hp
    rw [hreopened.sent, hreopened.first p hp]
    rfl
  · rw [hreopened.passes, hreopened.flow]
    intro pass hpass
    rcases List.mem_append.mp hpass with hpass | hpass
    · exact hbefore pass hpass
    · obtain rfl := List.mem_singleton.mp hpass
      exact hall

/-- One activation. -/
theorem ReplaysAll.step (hs : s.ReplaysAll) (hf : s.Follows) (hwhole : s.SendsWhole a)
    (hstep : step s a = .ok s') : s'.ReplaysAll ∧ s'.Follows := by
  rcases step_cases hstep with ⟨-, hsame⟩ | ⟨hconsumes, t, u, hnext, hsend, hrestart⟩ |
      ⟨hconsumes, t, hnext, u, hsend, hafter⟩
  · exact ⟨hs.same hsame, hf.same hsame⟩
  · -- the last packet of the file
    obtain ⟨p, k, hp, -, -, hu⟩ := sendPacket_spec hsend
    obtain ⟨h, data, hold⟩ := hf.held p hp
    obtain ⟨hlast, ht⟩ := hold.last hnext
    obtain ⟨hpacket, -⟩ := hwhole hconsumes h hold.pcap p hp
    have hdelivered : delivered u.sent = due s.flow h.capture (p.index + 1) :=
      hold.delivered_sendPacket hp (fun hc => (hpacket hc).2) (hs.current h hold.pcap p hp)
        (by rw [ht]) hsend
    have hcount : matching s.flow h.capture = p.index + 1 := by
      have hle := kth_eq_none_iff.mp hlast
      have hlt : ¬matching s.flow h.capture ≤ p.index := by
        rw [← kth_eq_none_iff, hold.position]
        simp
      omega
    have hreopened : Reopened { u with nextPacket := none } s' (s.readUpTo h [] h.taken) :=
      Restarted.reopened (by rw [hu, ht]) (by rw [hu, ht]; exact hf.files)
        (by rw [hu, ht]; exact hf.queue) hrestart
    have hflow : u.flow = s.flow := by rw [hu, ht]
    refine ⟨Reopened.replaysAll ?_ ?_ hreopened, hreopened.follows⟩
    · have hpasses : u.passes = s.passes := by rw [hu, ht]
      simp only [hpasses, hflow]
      exact hs.before
    · simp only [hflow, readUpTo, hcount]
      exact hdelivered
  · cases hheld : s.nextPacket with
    | none =>
      have := getNextPacket_of_freed hf hheld hnext
      simp at this
    | some p =>
      obtain ⟨h, data, hold⟩ := hf.held p hheld
      obtain ⟨data', rest, found, hkth, ht, hold'⟩ := hold.next hnext
      obtain ⟨hpacket, hclose⟩ := hwhole hconsumes h hold.pcap p hheld
      have hlog := hs.current h hold.pcap p hheld
      have hfollows : t.Follows := by
        rw [ht] at hold' ⊢
        refine ⟨hf.files, hf.queue, fun q hq => ?_, by simp⟩
        obtain rfl := Option.some.inj hq
        exact ⟨_, data', hold'⟩
      -- whether it was sent or not, everything up to the new packet is delivered
      have hu : delivered u.sent = due s.flow h.capture (p.index + 1) ∧
          u = { t with sent := u.sent } := by
        split at hsend
        · obtain ⟨q, k, -, -, -, hu⟩ := sendPacket_spec hsend
          exact ⟨hold.delivered_sendPacket hheld (fun hc => (hpacket hc).2) hlog (by rw [ht]) hsend,
            by rw [hu]⟩
        · rename_i hwrites
          subst hsend
          have hnot : carries s.flow h.capture p.index = false := by
            by_contra hc
            rw [Bool.not_eq_false] at hc
            rcases (hpacket hc).1 with h | h
            · exact hwrites h
            · simp [hkth] at h
          rw [due_of_not_carries hnot]
          exact ⟨by rw [ht]; exact hlog, rfl⟩
      obtain ⟨hdelivered, hu⟩ := hu
      have hupcap : u.pcap = some (s.readUpTo h rest (h.taken + 1)) := by rw [hu, ht]
      have hflow : u.flow = s.flow := by rw [hu, ht]
      have hpasses : u.passes = s.passes := by rw [hu, ht]
      have hufollows : u.Follows := by
        rw [hu]
        refine ⟨hfollows.files, hfollows.queue, fun q hq => ?_, hfollows.freed⟩
        obtain ⟨g, d, hg⟩ := hfollows.held q hq
        exact ⟨g, d, hg.pcap, hg.readable, hg.taken, hg.position, hg.packet, hg.holds⟩
      split at hafter
      · rename_i hcloses
        have hreopened := hafter.reopened hupcap hufollows.files hufollows.queue
        refine ⟨Reopened.replaysAll ?_ ?_ hreopened, hreopened.follows⟩
        · rw [hpasses, hflow]
          exact hs.before
        · have hlt : p.index + 1 ≤ matching s.flow h.capture := by
            have : ¬matching s.flow h.capture ≤ p.index + 1 := by
              rw [← kth_eq_none_iff, hkth]
              simp
            omega
          rw [hflow, hdelivered]
          exact (due_eq hlt (hclose hcloses)).symm
      · have hall : u.ReplaysAll := by
          constructor
          · intro g hg q hq
            rw [hupcap] at hg
            have hnext' : u.nextPacket = some { packet := found, index := p.index + 1 } := by
              rw [hu, ht]
            rw [hnext'] at hq
            obtain rfl := Option.some.inj hg
            obtain rfl := Option.some.inj hq
            rw [hflow]
            exact hdelivered
          · rw [hpasses, hflow]
            exact hs.before
        exact ⟨hall.same hafter, hufollows.same hafter⟩

/-- In every run whose activations send the packets with payload that they take, every such packet
of a file is sent as a whole, once and in order. -/
theorem replaysAll_of_sendsWhole (flow : Flow) (captures : List Capture) (as : List Activation)
    (s₀ s : PcapReplay) (hnew : new flow captures = some s₀)
    (hread : ∀ c ∈ captures, ∀ d ∈ c, Readable d) (hrun : runSteps step s₀ as = .ok s)
    (hwhole : StepsMeet step SendsWhole s₀ as) : s.ReplaysAll := by
  obtain ⟨hfollows, hsent, hpasses, hfirst⟩ := follows_new hnew hread
  have hinit : s₀.ReplaysAll ∧ s₀.Follows := by
    refine ⟨⟨fun h hh p hp => ?_, ?_⟩, hfollows⟩
    · rw [hsent, hfirst p hp]
      rfl
    · simp [hpasses]
  have h := invariant_of_stepsMeet (fun s => s.ReplaysAll ∧ s.Follows)
    (fun _ _ _ hs hP hstep => hs.1.step hs.2 hP hstep) hinit hwhole hrun
  exact h.1

/-- A file with a packet and an acknowledgement without payload is replayed once. -/
theorem replaysAll_of_sendsWhole_ack :
    ReplaysAll
      (match new clientFlow
          [[frame [10, 0, 0, 1] [10, 0, 0, 2] [65], frame [10, 0, 0, 1] [10, 0, 0, 2] []]] with
        | none =>
          { flow := clientFlow, pcap := none, pcapStructQueue := [], pcapFilePathQueue := []
            nextPacket := none, isAllowedToSend := true, isFirstPacketReceived := true
            isDone := false, sent := [], passes := [] }
        | some s =>
          match runSteps step s [.writable 1, .writable 0] with
          | .ok s => s
          | .error _ => s) :=
  replaysAll_of_sendsWhole clientFlow
    [[frame [10, 0, 0, 1] [10, 0, 0, 2] [65], frame [10, 0, 0, 1] [10, 0, 0, 2] []]]
    [.writable 1, .writable 0] _ _ rfl (by decide) rfl (by decide)

/-- The socket is readable only: the packet that was held is gone, and it was not sent. -/
theorem not_replaysAll_readable :
    ∃ s₀ s, new clientFlow
        [[frame [10, 0, 0, 1] [10, 0, 0, 2] [65], frame [10, 0, 0, 1] [10, 0, 0, 2] [66]]] =
          some s₀ ∧
      runSteps step s₀
        [{ Activation.writable 0 with epollin := true, epollout := false, recv := .bytes }] =
          .ok s ∧
      ¬s.ReplaysAll := by
  refine ⟨_, _, rfl, rfl, ?_⟩
  intro h
  exact absurd (h.current _ rfl _ rfl) (by decide)

end PcapReplay

end ShadowExtras.Replay
