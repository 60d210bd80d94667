import ShadowExtras.Replay.PcapReplay

/-!
# What an activation does

An activation of a client and of a server does one of three things (`step_cases`): it leaves the
packets alone, it sends the last packet of the file and goes on with the next file, or it takes the
packet that is held, reads the next one, and sends the packet or not. All invariants are derived
from these cases.

`Follows` says where the instance is in its file: the packet that is held is the one with its number
in the capture, its bytes are in the buffer, and the handle has read up to it.
-/

namespace ShadowExtras.Replay

open Foundation

namespace PcapReplay

variable {s s' t u : PcapReplay} {a : Activation}

/-! ## Cases -/

/-- The activation takes the packet that is held: only a server that waits for its client does
not. -/
def consumes (s : PcapReplay) (a : Activation) : Bool :=
  s.flow.isClient || !((a.epollin && !s.isAllowedToSend) ||
    (!a.epollin && !s.isFirstPacketReceived))

/-- The socket belongs to a connection that can be written to. -/
def writes (s : PcapReplay) (a : Activation) : Bool :=
  a.epollout && (s.flow.isClient || !a.listening)

/-- The peer is found to have closed the connection. -/
def closes (s : PcapReplay) (a : Activation) : Bool :=
  a.epollin && (s.flow.isClient || !a.listening) && a.recv = .closed

/-- Two states that differ in their flags at most. -/
structure Same (s s' : PcapReplay) : Prop where
  flow : s'.flow = s.flow
  pcap : s'.pcap = s.pcap
  pcapStructQueue : s'.pcapStructQueue = s.pcapStructQueue
  pcapFilePathQueue : s'.pcapFilePathQueue = s.pcapFilePathQueue
  nextPacket : s'.nextPacket = s.nextPacket
  sent : s'.sent = s.sent
  passes : s'.passes = s.passes

theorem Same.refl (s : PcapReplay) : s.Same s := ⟨rfl, rfl, rfl, rfl, rfl, rfl, rfl⟩

/-- Two changes are one. -/
theorem Same.trans (h : s.Same s') (h' : s'.Same t) : s.Same t :=
  ⟨h'.flow.trans h.flow, h'.pcap.trans h.pcap, h'.pcapStructQueue.trans h.pcapStructQueue,
    h'.pcapFilePathQueue.trans h.pcapFilePathQueue, h'.nextPacket.trans h.nextPacket,
    h'.sent.trans h.sent, h'.passes.trans h.passes⟩

/-- A look at the clock changes nothing that is sent. -/
theorem same_checkTimeout (s : PcapReplay) (a : Activation) : s.Same (s.checkTimeout a) := by
  unfold checkTimeout
  split
  · exact ⟨rfl, rfl, rfl, rfl, rfl, rfl, rfl⟩
  · exact Same.refl s

/-- The next file is replayed, or the instance exits. -/
def Restarted (s : PcapReplay) (reopens : Bool) (s' : PcapReplay) : Prop :=
  ∃ u f, s.Same u ∧ (∀ v, Same v (f v)) ∧ u.restart reopens f = .ok s'

theorem restarted_of_client (h : s.restartClient a.reopens = .ok s') :
    s.Restarted a.reopens s' :=
  ⟨s, id, Same.refl s, Same.refl, h⟩

/-- A server that is restarted. -/
theorem restarted_of_server {s₀ : PcapReplay} (hsame : s₀.Same s)
    (h : s.restartServer a.reopens = .ok s') : s₀.Restarted a.reopens s' :=
  ⟨s, fun v => { v with isAllowedToSend := false, isFirstPacketReceived := false }, hsame,
    fun _ => ⟨rfl, rfl, rfl, rfl, rfl, rfl, rfl⟩, h⟩

/-- The packet that was held is sent if the socket can be written to, and then the peer may be found
to have closed the connection. -/
def Took (s : PcapReplay) (a : Activation) (t s' : PcapReplay) : Prop :=
  ∃ u, (if s.writes a then t.sendPacket s.nextPacket a.send = .ok u else u = t) ∧
    if s.closes a then u.Restarted a.reopens s' else u.Same s'

/-- The three things that an activation does. -/
def Effect (s : PcapReplay) (a : Activation) (s' : PcapReplay) : Prop :=
  (s.consumes a = false ∧ s.Same s') ∨
  (s.consumes a = true ∧ ∃ t u, s.getNextPacket = .ok (false, t) ∧
    t.sendPacket s.nextPacket a.send = .ok u ∧
      { u with nextPacket := none }.Restarted a.reopens s') ∨
  (s.consumes a = true ∧ ∃ t, s.getNextPacket = .ok (true, t) ∧ s.Took a t s')

/-- What follows when the peer may have closed the connection. -/
theorem restarted_or_same {v : PcapReplay} {restart : Except Fault PcapReplay} (hsame : u.Same v)
    (hcloses : s.closes a = decide (a.recv = .closed))
    (hrestart : restart = .ok s' → u.Restarted a.reopens s')
    (h : (if a.recv = .closed then restart else .ok (v.checkTimeout a)) = .ok s') :
    if s.closes a then u.Restarted a.reopens s' else u.Same s' := by
  by_cases hrecv : a.recv = .closed
  · rw [if_pos hrecv] at h
    simpa [hcloses, hrecv] using hrestart h
  · rw [if_neg hrecv] at h
    obtain rfl := Except.ok.inj h
    simpa [hcloses, hrecv] using hsame.trans (same_checkTimeout v a)

/-- The last packet is sent, and the next file comes. -/
theorem sendLast_eq_ok {held : Option Held} {restart : PcapReplay → Bool → Except Fault PcapReplay}
    (h : t.sendLast held a restart = .ok s') :
    ∃ u, t.sendPacket held a.send = .ok u ∧ restart { u with nextPacket := none } a.reopens =
      .ok s' := by
  unfold sendLast at h
  cases hsend : t.sendPacket held a.send with
  | error fault => simp [hsend] at h
  | ok u =>
    rw [hsend] at h
    exact ⟨u, rfl, h⟩

/-- What an activation of a client may do. -/
theorem activateClient_cases (hclient : s.flow.isClient = true)
    (h : s.activateClient a = .ok s') : s.Effect a s' := by
  have hconsumes : s.consumes a = true := by simp [consumes, hclient]
  unfold activateClient at h
  cases hnext : s.getNextPacket with
  | error fault => simp [hnext] at h
  | ok found =>
    obtain ⟨found, t⟩ := found
    simp only [hnext] at h
    cases found with
    | false =>
      obtain ⟨u, hsend, hrestart⟩ := sendLast_eq_ok h
      exact .inr (.inl ⟨hconsumes, t, u, hnext, hsend, restarted_of_client hrestart⟩)
    | true =>
      refine .inr (.inr ⟨hconsumes, t, hnext, ?_⟩)
      simp only at h
      cases hin : a.epollin with
      | false =>
        have hcloses : s.closes a = false := by simp [closes, hin]
        cases hout : a.epollout with
        | false =>
          have hwrites : s.writes a = false := by simp [writes, hout]
          simp only [hin, hout, Bool.false_eq_true, and_self, if_false, Except.ok.injEq] at h
          subst h
          exact ⟨t, by simp [hwrites], by simpa [hcloses] using same_checkTimeout t a⟩
        | true =>
          have hwrites : s.writes a = true := by simp [writes, hout, hclient]
          simp only [hin, hout, Bool.false_eq_true, false_and, if_false, if_true] at h
          cases hsend : t.sendPacket s.nextPacket a.send with
          | error fault => simp [hsend] at h
          | ok u =>
            simp only [hsend, Except.ok.injEq] at h
            subst h
            exact ⟨u, by simpa [hwrites] using hsend,
              by simpa [hcloses] using same_checkTimeout u a⟩
      | true =>
        have hcloses : s.closes a = decide (a.recv = .closed) := by simp [closes, hin, hclient]
        cases hout : a.epollout with
        | false =>
          have hwrites : s.writes a = false := by simp [writes, hout]
          simp only [hin, hout, Bool.false_eq_true, and_false, if_false, if_true] at h
          exact ⟨t, by simp [hwrites],
            restarted_or_same (Same.refl t) hcloses restarted_of_client h⟩
        | true =>
          have hwrites : s.writes a = true := by simp [writes, hout, hclient]
          simp only [hin, hout, and_self, if_true] at h
          cases hsend : t.sendPacket s.nextPacket a.send with
          | error fault => simp [hsend] at h
          | ok u =>
            simp only [hsend] at h
            exact ⟨u, by simpa [hwrites] using hsend,
              restarted_or_same (Same.refl u) hcloses restarted_of_client h⟩

/-- What an activation of a server may do. -/
theorem activateServer_cases (hserver : s.flow.isClient = false)
    (h : s.activateServer a = .ok s') : s.Effect a s' := by
  unfold activateServer at h
  by_cases hwait : a.epollin = true ∧ s.isAllowedToSend = false
  · rw [if_pos hwait] at h
    have hconsumes : s.consumes a = false := by simp [consumes, hserver, hwait.1, hwait.2]
    split at h
    · obtain rfl := Except.ok.inj h
      exact .inl ⟨hconsumes, rfl, rfl, rfl, rfl, rfl, rfl, rfl⟩
    · simp at h
  · rw [if_neg hwait] at h
    by_cases hfirst : a.epollin = false ∧ s.isFirstPacketReceived = false
    · rw [if_pos hfirst] at h
      have hconsumes : s.consumes a = false := by simp [consumes, hserver, hfirst.1, hfirst.2]
      obtain rfl := Except.ok.inj h
      exact .inl ⟨hconsumes, Same.refl s⟩
    · rw [if_neg hfirst] at h
      have hconsumes : s.consumes a = true := by
        unfold consumes
        cases hin : a.epollin <;> simp_all
      cases hnext : s.getNextPacket with
      | error fault => simp [hnext] at h
      | ok found =>
        obtain ⟨found, t⟩ := found
        simp only [hnext] at h
        cases found with
        | false =>
          obtain ⟨u, hsend, hrestart⟩ := sendLast_eq_ok h
          exact .inr
            (.inl ⟨hconsumes, t, u, hnext, hsend, restarted_of_server (Same.refl _) hrestart⟩)
        | true =>
          refine .inr (.inr ⟨hconsumes, t, hnext, ?_⟩)
          simp only at h
          have hflag : ∀ v : PcapReplay, v.Same { v with isFirstPacketReceived := true } :=
            fun _ => ⟨rfl, rfl, rfl, rfl, rfl, rfl, rfl⟩
          cases hlisten : a.listening with
          | true =>
            have hwrites : s.writes a = false := by simp [writes, hserver, hlisten]
            have hcloses : s.closes a = false := by simp [closes, hserver, hlisten]
            simp only [hlisten, if_true] at h
            split at h
            · obtain rfl := Except.ok.inj h
              exact ⟨t, by simp [hwrites], by simpa [hcloses] using same_checkTimeout t a⟩
            · simp at h
          | false =>
            simp only [hlisten, Bool.false_eq_true, if_false] at h
            cases hin : a.epollin with
            | false =>
              have hcloses : s.closes a = false := by simp [closes, hin]
              simp only [hin, Bool.false_eq_true, false_and, if_false] at h
              cases hout : a.epollout with
              | false =>
                have hwrites : s.writes a = false := by simp [writes, hout]
                simp only [hout, Bool.false_eq_true, if_false, Except.ok.injEq] at h
                subst h
                exact ⟨t, by simp [hwrites], by simpa [hcloses] using same_checkTimeout t a⟩
              | true =>
                have hwrites : s.writes a = true := by simp [writes, hout, hlisten]
                simp only [hout, if_true] at h
                cases hsend : t.sendPacket s.nextPacket a.send with
                | error fault => simp [hsend] at h
                | ok u =>
                  simp only [hsend, Except.ok.injEq] at h
                  subst h
                  exact ⟨u, by simpa [hwrites] using hsend,
                    by simpa [hcloses] using same_checkTimeout u a⟩
            | true =>
              have hcloses : s.closes a = decide (a.recv = .closed) := by
                simp [closes, hin, hlisten]
              cases hout : a.epollout with
              | false =>
                have hwrites : s.writes a = false := by simp [writes, hout]
                simp only [hin, hout, Bool.false_eq_true, and_false, if_false, if_true] at h
                exact ⟨t, by simp [hwrites],
                  restarted_or_same (hflag t) hcloses (restarted_of_server (Same.refl t)) h⟩
              | true =>
                have hwrites : s.writes a = true := by simp [writes, hout, hlisten]
                simp only [hin, hout, and_self, if_true] at h
                cases hsend : t.sendPacket s.nextPacket a.send with
                | error fault => simp [hsend] at h
                | ok u =>
                  simp only [hsend] at h
                  exact ⟨u, by simpa [hwrites] using hsend,
                    restarted_or_same (hflag u) hcloses (restarted_of_server (hflag u)) h⟩

/-- What an activation does. -/
theorem step_cases (h : step s a = .ok s') : s.Effect a s' := by
  unfold step at h
  split at h
  · rename_i hclient
    exact activateClient_cases hclient h
  · rename_i hserver
    exact activateServer_cases (Bool.not_eq_true _ ▸ hserver) h

/-! ## Where the instance is -/

/-- The instance holds a packet of the file in use, and has read up to it. -/
structure Holding (s : PcapReplay) (p : Held) (h : Pcap) (data : Bytes) : Prop where
  pcap : s.pcap = some h
  readable : ∀ d ∈ h.capture, Readable d
  taken : h.taken = p.index + 1
  position : kth s.flow h.capture p.index = some (data, h.records)
  packet : inspect s.flow data = some p.packet
  holds : Holds h.buffer data

/-- The files can be read, the handles in the queue are new, and the packet that is held is where it
is said to be; without one there is nothing left to read. -/
structure Follows (s : PcapReplay) : Prop where
  files : ∀ c ∈ s.pcapFilePathQueue, ∀ d ∈ c, Readable d
  queue : ∀ h ∈ s.pcapStructQueue, h = Pcap.openOffline h.capture ∧ ∀ d ∈ h.capture, Readable d
  held : ∀ p, s.nextPacket = some p → ∃ h data, s.Holding p h data
  freed : s.nextPacket = none → ∀ h, s.pcap = some h → h.records = []

variable {p : Held} {h : Pcap} {data : Bytes}

theorem Holding.same (hold : s.Holding p h data) (hsame : s.Same s') : s'.Holding p h data :=
  ⟨hsame.pcap.trans hold.pcap, hold.readable, hold.taken, by rw [hsame.flow]; exact hold.position,
    by rw [hsame.flow]; exact hold.packet, hold.holds⟩

/-- What follows stays. -/
theorem Follows.same (hs : s.Follows) (hsame : s.Same s') : s'.Follows := by
  refine ⟨by rw [hsame.pcapFilePathQueue]; exact hs.files,
    by rw [hsame.pcapStructQueue]; exact hs.queue, fun p hp => ?_, fun hnone => ?_⟩
  · rw [hsame.nextPacket] at hp
    obtain ⟨h, data, hold⟩ := hs.held p hp
    exact ⟨h, data, hold.same hsame⟩
  · rw [hsame.nextPacket] at hnone
    rw [hsame.pcap]
    exact hs.freed hnone

/-- Without a packet nothing is read. -/
theorem getNextPacket_of_freed (hs : s.Follows) (hnone : s.nextPacket = none) {found : Bool}
    (hnext : s.getNextPacket = .ok (found, t)) : found = false := by
  unfold getNextPacket at hnext
  cases hpcap : s.pcap with
  | none => simp [hpcap] at hnext
  | some h =>
    have hempty := hs.freed hnone h hpcap
    simp only [hpcap, hempty, readNext, Except.ok.injEq, Prod.mk.injEq] at hnext
    exact hnext.1.symm

/-- The handle after the next packet was read. -/
def readUpTo (s : PcapReplay) (h : Pcap) (rest : List Bytes) (taken : Nat) : Pcap where
  capture := h.capture
  records := rest
  buffer := overwriteAll (readAhead s.flow h.records) h.buffer
  taken := taken

/-- `get_next_packet` when it finds a packet. -/
theorem getNextPacket_true (hpcap : s.pcap = some h) (hread : ∀ d ∈ h.records, Readable d)
    (hnext : s.getNextPacket = .ok (true, t)) :
    ∃ data rest found, kth s.flow h.records 0 = some (data, rest) ∧
      inspect s.flow data = some found ∧
      Holds (overwriteAll (readAhead s.flow h.records) h.buffer) data ∧
      t = { s with
        pcap := some (s.readUpTo h rest (h.taken + 1))
        nextPacket := some { packet := found, index := h.taken } } := by
  have heq := readNext_eq s.flow h.buffer hread
  cases hkth : kth s.flow h.records 0 with
  | none =>
    simp only [hkth] at heq
    simp [getNextPacket, hpcap, heq] at hnext
  | some first =>
    obtain ⟨data, rest⟩ := first
    obtain ⟨found, hfound⟩ := Option.isSome_iff_exists.mp (isSome_inspect_of_kth hkth)
    simp only [hkth, hfound] at heq
    simp only [getNextPacket, hpcap, heq, Except.ok.injEq, Prod.mk.injEq, true_and] at hnext
    exact ⟨data, rest, found, rfl, hfound, holds_readAhead hkth, hnext.symm⟩

/-- `get_next_packet` at the end of the file. -/
theorem getNextPacket_false (hpcap : s.pcap = some h) (hread : ∀ d ∈ h.records, Readable d)
    (hnext : s.getNextPacket = .ok (false, t)) :
    kth s.flow h.records 0 = none ∧ t = { s with pcap := some (s.readUpTo h [] h.taken) } := by
  have heq := readNext_eq s.flow h.buffer hread
  cases hkth : kth s.flow h.records 0 with
  | none =>
    simp only [hkth] at heq
    simp only [getNextPacket, hpcap, heq, Except.ok.injEq, Prod.mk.injEq, true_and] at hnext
    exact ⟨rfl, hnext.symm⟩
  | some first =>
    obtain ⟨data, rest⟩ := first
    obtain ⟨found, hfound⟩ := Option.isSome_iff_exists.mp (isSome_inspect_of_kth hkth)
    simp only [hkth, hfound] at heq
    simp [getNextPacket, hpcap, heq] at hnext

theorem Holding.readable_records (hold : s.Holding p h data) : ∀ d ∈ h.records, Readable d :=
  fun d hd => hold.readable d ((mem_of_kth hold.position).2 d hd)

/-- The packet after the one that is held was read. -/
theorem Holding.next (hold : s.Holding p h data) (hnext : s.getNextPacket = .ok (true, t)) :
    ∃ data' rest found, kth s.flow h.capture (p.index + 1) = some (data', rest) ∧
      t = { s with
        pcap := some (s.readUpTo h rest (h.taken + 1))
        nextPacket := some { packet := found, index := p.index + 1 } } ∧
      t.Holding { packet := found, index := p.index + 1 } (s.readUpTo h rest (h.taken + 1))
        data' := by
  obtain ⟨data', rest, found, hkth, hfound, hholds, rfl⟩ :=
    getNextPacket_true hold.pcap hold.readable_records hnext
  rw [← kth_succ hold.position] at hkth
  refine ⟨data', rest, found, hkth, by rw [hold.taken], ?_⟩
  exact ⟨rfl, hold.readable, by simp [readUpTo, hold.taken], hkth, hfound, hholds⟩

/-- There was no other packet. -/
theorem Holding.last (hold : s.Holding p h data) (hnext : s.getNextPacket = .ok (false, t)) :
    kth s.flow h.capture (p.index + 1) = none ∧
      t = { s with pcap := some (s.readUpTo h [] h.taken) } := by
  rw [kth_succ hold.position]
  exact getNextPacket_false hold.pcap hold.readable_records hnext

/-- What `send_packet` notes. -/
theorem sendPacket_spec {held : Option Held} {send : Option Nat}
    (hsend : t.sendPacket held send = .ok u) :
    ∃ p h, held = some p ∧ t.pcap = some h ∧ 0 ≤ p.packet.payloadSize ∧
      u = { t with
        sent := t.sent ++ [{
          index := p.index
          size := p.packet.payloadSize.toNat
          bytes := bytesAt h.buffer p.packet.payload p.packet.payloadSize.toNat
          accepted := send.map (min p.packet.payloadSize.toNat) }] } := by
  unfold sendPacket at hsend
  split at hsend
  · rename_i p h hpcap
    split at hsend
    · simp at hsend
    · rename_i hsize
      exact ⟨p, h, rfl, hpcap, by omega, (Except.ok.inj hsend).symm⟩
  · simp at hsend

/-! ## The next file -/

/-- What a restart leaves behind: the file in use with what was sent from it is put away, and the
next one is read up to its first packet, unless the instance exits. -/
structure Reopened (s s' : PcapReplay) (h : Pcap) : Prop where
  follows : s'.Follows
  flow : s'.flow = s.flow
  sent : s'.sent = []
  passes : s'.passes = s.passes ++ [(h.capture, s.sent)]
  first : ∀ p, s'.nextPacket = some p → p.index = 0

/-- A replayer that is restarted holds a capture that was reopened. -/
theorem Restarted.reopened {reopens : Bool} (hpcap : s.pcap = some h)
    (hfiles : ∀ c ∈ s.pcapFilePathQueue, ∀ d ∈ c, Readable d)
    (hqueue : ∀ h ∈ s.pcapStructQueue, h = Pcap.openOffline h.capture ∧ ∀ d ∈ h.capture, Readable d)
    (hrestart : s.Restarted reopens s') : s.Reopened s' h := by
  obtain ⟨u, f, hsame, hf, hu⟩ := hrestart
  rw [← hsame.pcap] at hpcap
  rw [← hsame.pcapFilePathQueue] at hfiles
  rw [← hsame.pcapStructQueue] at hqueue
  -- the file is not opened again
  have hclosed : Reopened s { u with
      pcap := none, nextPacket := none, sent := [], isDone := true
      passes := u.passes ++ u.pcap.toList.map fun h => (h.capture, u.sent) } h := by
    refine ⟨⟨hfiles, hqueue, by simp, by simp⟩, hsame.flow, rfl, ?_, by simp⟩
    simp [hpcap, hsame.passes, hsame.sent]
  unfold restart at hu
  unfold changePcapFileToSend at hu
  cases hpaths : u.pcapFilePathQueue with
  | nil =>
    simp only [hpaths, deinstanciate, Except.ok.injEq] at hu
    subst hu
    simpa [hpaths] using hclosed
  | cons path paths =>
    cases reopens with
    | false =>
      simp only [hpaths, Bool.false_eq_true, if_false, deinstanciate, Except.ok.injEq] at hu
      subst hu
      simpa [hpaths] using hclosed
    | true =>
      have hnew : ∀ h ∈ u.pcapStructQueue ++ [Pcap.openOffline path],
          h = Pcap.openOffline h.capture ∧ ∀ d ∈ h.capture, Readable d := by
        intro h hh
        rcases List.mem_append.mp hh with hh | hh
        · exact hqueue h hh
        · obtain rfl := List.mem_singleton.mp hh
          exact ⟨rfl, hfiles path (by simp [hpaths])⟩
      have hfiles' : ∀ c ∈ paths ++ [path], ∀ d ∈ c, Readable d := by
        intro c hc
        exact hfiles c (by simpa [hpaths, or_comm] using hc)
      cases hopen : u.pcapStructQueue ++ [Pcap.openOffline path] with
      | nil => simp at hopen
      | cons h' rest =>
        rw [hopen] at hnew
        obtain ⟨hfresh, hread⟩ := hnew h' (by simp)
        have hrest : ∀ h ∈ rest, h = Pcap.openOffline h.capture ∧ ∀ d ∈ h.capture, Readable d :=
          fun h hh => hnew h (by simp [hh])
        have hrecords : h'.records = h'.capture ∧ h'.taken = 0 := by
          rw [hfresh]
          exact ⟨rfl, rfl⟩
        rw [← hrecords.1] at hread
        simp only [hpaths, if_true, hopen] at hu
        obtain ⟨v, hv⟩ : ∃ v : PcapReplay, { u with
            pcap := some h', pcapStructQueue := rest, pcapFilePathQueue := paths ++ [path]
            nextPacket := none, sent := []
            passes := u.passes ++ u.pcap.toList.map fun h => (h.capture, u.sent) } = v := ⟨_, rfl⟩
        rw [hv] at hu
        have hvpcap : v.pcap = some h' := by rw [← hv]
        have hpasses : v.passes = s.passes ++ [(h.capture, s.sent)] := by
          rw [← hv]
          simp [hpcap, hsame.passes, hsame.sent]
        cases hnext : v.getNextPacket with
        | error fault => simp [hnext] at hu
        | ok found =>
          obtain ⟨found, t⟩ := found
          simp only [hnext] at hu
          cases found with
          | false =>
            obtain ⟨-, ht⟩ := getNextPacket_false hvpcap hread hnext
            simp only [deinstanciate, Except.ok.injEq] at hu
            rw [← hu, ht, ← hv]
            refine ⟨⟨hfiles', hrest, by simp, ?_⟩, hsame.flow, rfl, ?_, by simp⟩
            · intro _ k hk
              obtain rfl := Option.some.inj hk
              rfl
            · simpa [← hv] using hpasses
          | true =>
            obtain ⟨data, tail, packet, hkth, hpacket, hholds, ht⟩ :=
              getNextPacket_true hvpcap hread hnext
            simp only [Except.ok.injEq] at hu
            have hflags := hf t
            rw [hu] at hflags
            have hreopened : Reopened s t h := by
              rw [ht, ← hv]
              refine ⟨⟨hfiles', hrest, fun p hp => ?_, by simp⟩, hsame.flow, rfl, ?_, ?_⟩
              · obtain rfl := Option.some.inj hp
                rw [← hv] at hkth hpacket hholds
                refine ⟨_, data, rfl, ?_, by simp [readUpTo, hrecords.2], ?_, hpacket, hholds⟩
                · simpa [readUpTo, hrecords.1] using hread
                · simpa [readUpTo, hrecords.1, hrecords.2] using hkth
              · simpa [← hv] using hpasses
              · intro p hp
                obtain rfl := Option.some.inj hp
                exact hrecords.2
            exact ⟨hreopened.follows.same hflags, hflags.flow.trans hreopened.flow,
              hflags.sent.trans hreopened.sent, hflags.passes.trans hreopened.passes,
              fun p hp => hreopened.first p (by rw [← hflags.nextPacket]; exact hp)⟩

/-- A new instance. -/
theorem follows_new {flow : Flow} {captures : List Capture} (hnew : new flow captures = some s)
    (hread : ∀ c ∈ captures, ∀ d ∈ c, Readable d) :
    s.Follows ∧ s.sent = [] ∧ s.passes = [] ∧ ∀ p, s.nextPacket = some p → p.index = 0 := by
  unfold new at hnew
  cases captures with
  | nil => simp at hnew
  | cons c cs =>
    simp only [List.map_cons] at hnew
    split at hnew
    · rename_i t hnext
      obtain rfl := Option.some.inj hnew
      obtain ⟨data, rest, found, hkth, hfound, hholds, ht⟩ :=
        getNextPacket_true rfl (hread c (by simp)) hnext
      rw [ht]
      refine ⟨⟨hread, fun h hh => ?_, fun p hp => ?_, by simp⟩, rfl, rfl, ?_⟩
      · obtain ⟨c', hc', rfl⟩ := List.mem_map.mp hh
        exact ⟨rfl, hread c' (by simp [hc'])⟩
      · obtain rfl := Option.some.inj hp
        exact ⟨_, data, rfl, hread c (by simp), rfl, hkth, hfound, hholds⟩
      · intro p hp
        obtain rfl := Option.some.inj hp
        rfl
    · simp at hnew

end PcapReplay

end ShadowExtras.Replay
