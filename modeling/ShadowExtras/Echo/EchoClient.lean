import ShadowExtras.Echo.EchoTcp

/-!
# The TCP echo client

`echo-tcp.c`, the client: it sends one message of random letters, once, and reads until as many
bytes came back as `send` accepted; then it compares them with the message and closes the socket.

`amount_sent` is a number that `send` may make negative, and `memcmp` takes it for a size.
-/

namespace ShadowExtras.Echo

open Foundation

/-- What the client logs at the end. -/
inductive Verdict
  /-- `consistent echo received!` -/
  | consistent
  /-- `inconsistent echo received!` -/
  | inconsistent
  deriving DecidableEq, Repr

/-- `EchoClient` -/
structure EchoClient where
  sendBuffer : Bytes
  /-- The bytes of the buffer up to `recv_offset`. -/
  recvBuffer : Bytes
  sentMsg : Bool
  amountSent : ℤ
  isDone : Bool
  /-- Whether `epoll` watches the socket for input, and if it does, whether for output as well. -/
  watch : Option Bool
  /-- The socket is open. -/
  opened : Bool
  /-- What was logged. -/
  verdict : Option Verdict
  deriving DecidableEq, Repr

/-- What `epoll` reports of the socket of the client, and what the environment answers when it is
handled. -/
structure ClientReady where
  pollIn : Bool
  pollOut : Bool
  /-- The calls of `recv`; after them nothing more has arrived. -/
  recvs : List Answer
  send : Answer
  /-- The random numbers of the message. -/
  rand : ℕ → ℕ

/-- The ways an activation of the client fails. -/
inductive EchoFault
  /-- `memcmp` on more bytes than the buffers have. -/
  | memcmp
  deriving DecidableEq, Repr

/-- `_echotcp_fillCharBuffer`, from the `i`th byte on. -/
def fillCharBuffer (rand : ℕ → ℕ) (i : ℕ) : ℕ → Bytes
  | 0 => []
  | size + 1 => UInt8.ofNat (97 + rand i % 26) :: fillCharBuffer rand (i + 1) size

@[simp] theorem length_fillCharBuffer (rand : ℕ → ℕ) (i size : ℕ) :
    (fillCharBuffer rand i size).length = size := by
  induction size generalizing i with
  | zero => rfl
  | succ size ih => rw [fillCharBuffer, List.length_cons, ih]

namespace EchoClient

/-- A client that was just created, on an open socket. -/
def new : EchoClient where
  sendBuffer := List.replicate bufferSize 0
  recvBuffer := []
  sentMsg := false
  amountSent := 0
  isDone := false
  watch := some true
  opened := true
  verdict := none

/-- `recv_offset` -/
def recvOffset (ec : EchoClient) : ℕ := ec.recvBuffer.length

/-- The loop of `_echotcp_clientReadable`, with `left` bytes to be read: what is received, and what
of the stream is left. -/
def recvLoop (left : ℕ) (incoming : Bytes) : List Answer → Bytes × Bytes
  | [] => ([], incoming)
  | answer :: answers =>
    if left > 0 then
      match answer.recv incoming left with
      | .error _ => ([], incoming)
      | .ok [] => ([], incoming)
      | .ok (b :: bs) =>
        let (got, rest) :=
          recvLoop (left - (b :: bs).length) (incoming.drop (b :: bs).length) answers
        (b :: bs ++ got, rest)
    else ([], incoming)

/-- `memcmp` of `size` bytes of the buffers. -/
def compare (ec : EchoClient) (size : ℤ) : Except EchoFault Verdict :=
  -- a negative number is a size larger than the buffers
  if size < 0 then .error .memcmp
  else if ec.sendBuffer.take size.toNat = ec.recvBuffer.take size.toNat then .ok .consistent
  else .ok .inconsistent

/-- `_echotcp_clientReadable`, and what of the stream is left. -/
def clientReadable (ec : EchoClient) (e : ClientReady) (incoming : Bytes) :
    Except EchoFault (EchoClient × Bytes) :=
  if ec.isDone then .ok (ec, incoming)
  else
    let (got, rest) := recvLoop (ec.amountSent - ec.recvOffset).toNat incoming e.recvs
    let ec := { ec with recvBuffer := ec.recvBuffer ++ got }
    if ec.amountSent ≤ ec.recvOffset then
      match ec.compare ec.amountSent with
      | .error fault => .error fault
      | .ok verdict =>
        .ok ({ ec with isDone := true, verdict := some verdict, watch := none, opened := false },
          rest)
    else .ok (ec, rest)

/-- `_echotcp_clientWritable`, and what is sent. -/
def clientWritable (ec : EchoClient) (e : ClientReady) : EchoClient × Bytes :=
  if ec.sentMsg then (ec, [])
  else
    let sendBuffer :=
      fillCharBuffer e.rand 0 (bufferSize - 1) ++ ec.sendBuffer.drop (bufferSize - 1)
    let ec := { ec with sendBuffer := sendBuffer, sentMsg := true, watch := some false }
    match e.send.send ((bufferSize : ℤ) - ec.amountSent).toNat with
    | .error _ => ({ ec with amountSent := ec.amountSent - 1 }, [])
    | .ok b =>
        ({ ec with amountSent := ec.amountSent + b }, (sendBuffer.drop ec.amountSent.toNat).take b)

/-- `echotcp_ready`, the part of the client: what is sent, and what of the stream is left. -/
def ready (ec : EchoClient) (e : ClientReady) (incoming : Bytes) :
    Except EchoFault (EchoClient × Bytes × Bytes) :=
  match ec.watch with
  | none => .ok (ec, [], incoming)
  | some pollOut =>
    match if e.pollIn then ec.clientReadable e incoming else .ok (ec, incoming) with
    | .error fault => .error fault
    | .ok (ec, rest) =>
      if !ec.isDone && e.pollOut && pollOut then
        let (ec, sent) := ec.clientWritable e
        .ok (ec, sent, rest)
      else .ok (ec, [], rest)

/-! ## The stages of a client -/

variable {ec ec' : EchoClient} {e : ClientReady} {incoming sent rest : Bytes}

/-- The bytes that `send` accepted. -/
def message (ec : EchoClient) : Bytes := ec.sendBuffer.take ec.amountSent.toNat

/-- The client is not done. -/
structure Running (ec : EchoClient) : Prop where
  isDone : ec.isDone = false
  opened : ec.opened = true
  verdict : ec.verdict = none
  watch : ec.watch = some (!ec.sentMsg)
  length : ec.sendBuffer.length = bufferSize

/-- The client is done, and its message came back. -/
structure Finished (ec : EchoClient) : Prop where
  isDone : ec.isDone = true
  opened : ec.opened = false
  verdict : ec.verdict = some .consistent
  watch : ec.watch = none
  same : ec.recvBuffer = ec.message
  pos : 0 < ec.amountSent
  length : ec.sendBuffer.length = bufferSize

/-- Where a client is. -/
inductive Stage (ec : EchoClient) : Prop
  /-- Nothing was sent yet. -/
  | fresh (hrunning : ec.Running) (hsentMsg : ec.sentMsg = false) (hamount : ec.amountSent = 0)
      (hrecv : ec.recvBuffer = [])
  /-- `send` failed. -/
  | refused (hrunning : ec.Running) (hsentMsg : ec.sentMsg = true) (hamount : ec.amountSent = -1)
      (hrecv : ec.recvBuffer = [])
  /-- Bytes are still to come back. -/
  | waits (n : ℕ) (hrunning : ec.Running) (hsentMsg : ec.sentMsg = true)
      (hamount : ec.amountSent = n) (hle : n ≤ bufferSize) (hless : ec.recvBuffer.length < n)
  | done (hfinished : ec.Finished)

theorem Stage.opened (h : ec.Stage) (hdone : ec.isDone = false) : ec.opened = true := by
  cases h with
  | fresh hrunning => exact hrunning.opened
  | refused hrunning => exact hrunning.opened
  | waits n hrunning => exact hrunning.opened
  | done hfinished =>
    rw [hfinished.isDone] at hdone
    cases hdone

theorem stage_new : new.Stage :=
  .fresh ⟨rfl, rfl, rfl, rfl, List.length_replicate⟩ rfl rfl rfl

/-- `recv` gives no more bytes than it is asked for. -/
theorem length_le_of_recv {a : Answer} {bytes : Bytes} {len : ℕ}
    (h : a.recv incoming len = .ok bytes) :
    bytes.length ≤ len := by
  unfold Answer.recv at h
  split at h
  · split_ifs at h
    · obtain rfl := Except.ok.inj h
      exact Nat.zero_le _
    · obtain rfl := Except.ok.inj h
      rw [List.length_take]
      omega
  · obtain rfl := Except.ok.inj h
    exact Nat.zero_le _
  · cases h

/-- The loop divides the stream, and receives no more than there is room for. -/
theorem recvLoop_spec (left : ℕ) (incoming : Bytes) (answers : List Answer) :
    incoming = (recvLoop left incoming answers).1 ++ (recvLoop left incoming answers).2 ∧
      (recvLoop left incoming answers).1.length ≤ left := by
  induction answers generalizing left incoming with
  | nil => exact ⟨rfl, Nat.zero_le _⟩
  | cons answer answers ih =>
    unfold recvLoop
    split_ifs with hleft
    · split
      · exact ⟨rfl, Nat.zero_le _⟩
      · exact ⟨rfl, Nat.zero_le _⟩
      · rename_i b bs hrecv
        obtain ⟨hsplit, hlength⟩ := ih (left - (b :: bs).length) (incoming.drop (b :: bs).length)
        obtain ⟨more, hmore⟩ := Answer.prefix_of_recv_eq_ok hrecv
        have hle := length_le_of_recv hrecv
        refine ⟨?_, ?_⟩
        · dsimp only
          rw [List.append_assoc, ← hsplit, ← hmore, List.drop_left]
        · dsimp only
          rw [List.length_append]
          omega
    · exact ⟨rfl, Nat.zero_le _⟩

/-- A socket that passes bytes passes one. -/
theorem recvLoop_ne_nil {left k : ℕ} (hleft : 0 < left) (hincoming : incoming ≠ [])
    (answers : List Answer) :
    (recvLoop left incoming (.ready k :: answers)).1 ≠ [] := by
  obtain ⟨b, bs, rfl⟩ := List.exists_cons_of_ne_nil hincoming
  obtain ⟨m, hm⟩ : ∃ m, min (k + 1) left = m + 1 := ⟨min (k + 1) left - 1, by omega⟩
  unfold recvLoop
  rw [if_pos hleft, Answer.recv_ready k (by omega) hincoming, hm, List.take_succ_cons]
  simp

/-- What an activation of the client does, in which `sent` is sent and `rest` is left of the
stream. -/
structure Passes (ec ec' : EchoClient) (incoming sent rest : Bytes) : Prop where
  stage : ec'.Stage
  received : ∃ got, incoming = got ++ rest ∧ ec'.recvBuffer = ec.recvBuffer ++ got
  message : ec'.message = ec.message ++ sent
  stays : ec.isDone = true → ec'.isDone = true

/-- An activation without an effect. -/
theorem Stage.passes_self (h : ec.Stage) (incoming : Bytes) : ec.Passes ec incoming [] incoming :=
  ⟨h, ⟨[], rfl, (List.append_nil _).symm⟩, (List.append_nil _).symm, id⟩

/-- A client whose message has no bytes has received none, and none are on their way. -/
theorem eq_nil_of_message (hmessage : ec.message = [])
    (hfront : ec.recvBuffer ++ incoming <+: ec.message) :
    incoming = [] := by
  rw [hmessage, List.prefix_nil, List.append_eq_nil_iff] at hfront
  exact hfront.2

/-- The message is sent. -/
theorem Running.clientWritable (h : ec.Running) (hsentMsg : ec.sentMsg = false)
    (hamount : ec.amountSent = 0) (hrecv : ec.recvBuffer = []) (hclosed : e.send ≠ .closed) :
    ec.Passes (ec.clientWritable e).1 [] (ec.clientWritable e).2 [] ∧
      (∀ k, e.send = .ready k → (ec.clientWritable e).1.amountSent ≠ -1 ∧
        (ec.clientWritable e).1.sentMsg = true) := by
  have hbuffer : (fillCharBuffer e.rand 0 (bufferSize - 1) ++
      ec.sendBuffer.drop (bufferSize - 1)).length = bufferSize := by
    rw [List.length_append, length_fillCharBuffer, List.length_drop, h.length]
    decide
  have hnone : ec.message = [] := by
    rw [EchoClient.message, hamount]
    rfl
  have hsize : ((bufferSize : ℤ) - ec.amountSent).toNat = bufferSize := by
    rw [hamount]
    rfl
  unfold EchoClient.clientWritable
  rw [if_neg (by simp [hsentMsg])]
  dsimp only
  rw [hsize]
  cases hanswer : e.send with
  | closed => exact absurd hanswer hclosed
  | failed errno =>
    refine ⟨⟨.refused ⟨h.isDone, h.opened, h.verdict, rfl, hbuffer⟩ rfl ?_ hrecv,
      ⟨[], rfl, (List.append_nil _).symm⟩, ?_, ?_⟩, fun k hk => by cases hk⟩
    · simp only [Answer.send, hamount]
      rfl
    · rw [hnone]
      simp [Answer.send, EchoClient.message, hamount]
    · intro hdone
      rw [h.isDone] at hdone
      cases hdone
  | ready k =>
    have hb : min (k + 1) bufferSize ≤ bufferSize := Nat.min_le_right _ _
    have hpos : 0 < min (k + 1) bufferSize := lt_min (Nat.succ_pos k) (by decide)
    have hsum : (0 : ℤ) + ((min (k + 1) bufferSize : ℕ) : ℤ) = (min (k + 1) bufferSize : ℕ) :=
      zero_add _
    refine ⟨⟨.waits (min (k + 1) bufferSize) ⟨h.isDone, h.opened, h.verdict, rfl,
      hbuffer⟩ rfl ?_ hb ?_, ⟨[], rfl, (List.append_nil _).symm⟩, ?_, ?_⟩, ?_⟩
    · simp only [Answer.send, hamount, hsum]
    · show ec.recvBuffer.length < _
      rw [hrecv]
      exact hpos
    · rw [hnone, List.nil_append]
      simp only [Answer.send, EchoClient.message, hamount, hsum, Int.toNat_natCast, Int.toNat_zero,
        List.drop_zero]
    · intro hdone
      rw [h.isDone] at hdone
      cases hdone
    · intro k' hk'
      simp only [Answer.send, hamount, hsum]
      refine ⟨by omega, trivial⟩

/-- A part of the message comes back, and the client is done if it is the last one. -/
theorem Running.clientReadable {n : ℕ} (h : ec.Running) (hsentMsg : ec.sentMsg = true)
    (hamount : ec.amountSent = n) (hle : n ≤ bufferSize) (hless : ec.recvBuffer.length < n)
    (hfront : ec.recvBuffer ++ incoming <+: ec.message) :
    ∃ ec' rest, ec.clientReadable e incoming = .ok (ec', rest) ∧ ec.Passes ec' incoming [] rest ∧
      ec'.sentMsg = true ∧ ec'.amountSent = ec.amountSent ∧
      (∀ k answers, e.recvs = .ready k :: answers → incoming ≠ [] →
        rest.length < incoming.length) := by
  obtain ⟨hsplit, hroom⟩ := recvLoop_spec (n - ec.recvBuffer.length) incoming e.recvs
  have hprogress : ∀ k answers, e.recvs = .ready k :: answers → incoming ≠ [] →
      (recvLoop (n - ec.recvBuffer.length) incoming e.recvs).2.length < incoming.length := by
    intro k answers hanswers hincoming
    have hleft : 0 < n - ec.recvBuffer.length := by omega
    have hne := recvLoop_ne_nil (k := k) hleft hincoming answers
    rw [← hanswers] at hne
    have hpos := List.length_pos_iff.mpr hne
    have hlength := congrArg List.length hsplit
    rw [List.length_append] at hlength
    omega
  obtain ⟨got, hgot⟩ : ∃ got, got = (recvLoop (n - ec.recvBuffer.length) incoming e.recvs).1 :=
    ⟨_, rfl⟩
  obtain ⟨rest, hrest⟩ : ∃ rest, rest = (recvLoop (n - ec.recvBuffer.length) incoming e.recvs).2 :=
    ⟨_, rfl⟩
  have hloop : recvLoop (ec.amountSent - ec.recvOffset).toNat incoming e.recvs = (got, rest) := by
    have hleft : (ec.amountSent - (ec.recvOffset : ℤ)).toNat = n - ec.recvBuffer.length := by
      rw [hamount]
      unfold recvOffset
      omega
    rw [hleft, hgot, hrest]
  rw [← hgot] at hsplit hroom
  rw [← hrest] at hsplit hprogress
  have hreceived : ∃ got', incoming = got' ++ rest ∧ ec.recvBuffer ++ got = ec.recvBuffer ++ got' :=
    ⟨got, hsplit, rfl⟩
  unfold EchoClient.clientReadable
  rw [if_neg (by simp [h.isDone]), hloop]
  dsimp only
  by_cases hall : ec.amountSent ≤ (recvOffset { ec with recvBuffer := ec.recvBuffer ++ got } : ℤ)
  · -- as many bytes came back as were sent
    have hlength : (ec.recvBuffer ++ got).length = n := by
      rw [hamount] at hall
      unfold recvOffset at hall
      dsimp only at hall
      rw [List.length_append] at hall ⊢
      omega
    have hmessage : ec.message.length = n := by
      unfold EchoClient.message
      rw [List.length_take, h.length, hamount, Int.toNat_natCast]
      omega
    have hsame : ec.recvBuffer ++ got = ec.message := by
      rw [hsplit, ← List.append_assoc] at hfront
      exact ((List.prefix_append _ _).trans hfront).eq_of_length (by rw [hlength, hmessage])
    have hcompare : compare { ec with recvBuffer := ec.recvBuffer ++ got } ec.amountSent =
        .ok .consistent := by
      have htake : (ec.recvBuffer ++ got).take ec.amountSent.toNat = ec.recvBuffer ++ got :=
        List.take_of_length_le (by rw [hlength, hamount, Int.toNat_natCast])
      unfold compare
      rw [if_neg (by omega)]
      dsimp only
      rw [htake, if_pos]
      exact hsame.symm
    rw [if_pos hall, hcompare]
    refine ⟨_, rest, rfl,
      ⟨.done ⟨rfl, rfl, rfl, rfl, hsame, ?_, h.length⟩, hreceived, (List.append_nil _).symm,
      fun _ => rfl⟩, hsentMsg, rfl, hprogress⟩
    show 0 < ec.amountSent
    omega
  · rw [if_neg hall]
    refine ⟨_, rest, rfl,
      ⟨.waits n ⟨h.isDone, h.opened, h.verdict, h.watch, h.length⟩ hsentMsg hamount hle ?_,
      hreceived, (List.append_nil _).symm, id⟩, hsentMsg, rfl, hprogress⟩
    show (ec.recvBuffer ++ got).length < n
    unfold recvOffset at hall
    dsimp only at hall
    omega

/-- An activation of a client that gets its own bytes, and that is woken for input only when there
is some: it does not fail. -/
theorem Stage.ready (h : ec.Stage) (hfront : ec.recvBuffer ++ incoming <+: ec.message)
    (hpollIn : ec.isDone = false → e.pollIn = true → incoming ≠ [])
    (hclosed : ec.isDone = false → e.send ≠ .closed) :
    ∃ ec' sent rest, ec.ready e incoming = .ok (ec', sent, rest) ∧
    ec.Passes ec' incoming sent rest := by
  cases h with
  | fresh hrunning hsentMsg hamount hrecv =>
    have hnone : ec.message = [] := by
      rw [EchoClient.message, hamount]
      rfl
    obtain rfl := eq_nil_of_message hnone hfront
    have hno : e.pollIn = false := by
      by_contra hyes
      exact hpollIn hrunning.isDone (by simpa using hyes) rfl
    unfold EchoClient.ready
    rw [hrunning.watch, hsentMsg, hno]
    simp only [Bool.false_eq_true, if_false, hrunning.isDone, Bool.not_false, Bool.true_and,
      Bool.and_true]
    split_ifs
    · exact ⟨_, _, _, rfl,
        (hrunning.clientWritable hsentMsg hamount hrecv (hclosed hrunning.isDone)).1⟩
    · exact ⟨_, _, _, rfl, (Stage.fresh hrunning hsentMsg hamount hrecv).passes_self []⟩
  | refused hrunning hsentMsg hamount hrecv =>
    have hnone : ec.message = [] := by
      rw [EchoClient.message, hamount]
      rfl
    obtain rfl := eq_nil_of_message hnone hfront
    have hno : e.pollIn = false := by
      by_contra hyes
      exact hpollIn hrunning.isDone (by simpa using hyes) rfl
    unfold EchoClient.ready
    rw [hrunning.watch, hsentMsg, hno]
    simp only [Bool.false_eq_true, if_false, Bool.not_true, Bool.and_false]
    exact ⟨_, _, _, rfl, (Stage.refused hrunning hsentMsg hamount hrecv).passes_self []⟩
  | waits n hrunning hsentMsg hamount hle hless =>
    unfold EchoClient.ready
    rw [hrunning.watch, hsentMsg]
    simp only [Bool.not_true, Bool.and_false, Bool.false_eq_true, if_false]
    split_ifs
    · obtain ⟨ec', rest, hread, hpasses, -⟩ :=
        hrunning.clientReadable (e := e) hsentMsg hamount hle hless hfront
      rw [hread]
      exact ⟨_, _, _, rfl, hpasses⟩
    · exact ⟨_, _, _, rfl, (Stage.waits n hrunning hsentMsg hamount hle hless).passes_self incoming⟩
  | done hfinished =>
    unfold EchoClient.ready
    rw [hfinished.watch]
    exact ⟨_, _, _, rfl, (Stage.done hfinished).passes_self incoming⟩

/-- An activation of a client on a socket that passes bytes: it sends its message if it has not, and
then receives some of it if there is something. -/
theorem Stage.ready_calm (h : ec.Stage) (hdone : ec.isDone = false) (hrefused : ec.amountSent ≠ -1)
    (hfront : ec.recvBuffer ++ incoming <+: ec.message) (hpollIn : e.pollIn = true ↔ incoming ≠ [])
    (hpollOut : e.pollOut = true) {k m : ℕ} {answers : List Answer}
    (hrecvs : e.recvs = .ready k :: answers)
    (hsend : e.send = .ready m) (hready : ec.ready e incoming = .ok (ec', sent, rest)) :
    ec'.sentMsg = true ∧ ec'.amountSent ≠ -1 ∧
      (ec.sentMsg = true → sent = [] ∧ (incoming ≠ [] → rest.length < incoming.length)) := by
  cases h with
  | fresh hrunning hsentMsg hamount hrecv =>
    have hnone : ec.message = [] := by
      rw [EchoClient.message, hamount]
      rfl
    obtain rfl := eq_nil_of_message hnone hfront
    have hno : e.pollIn = false := by
      by_contra hyes
      exact hpollIn.mp (by simpa using hyes) rfl
    unfold EchoClient.ready at hready
    rw [hrunning.watch, hsentMsg, hno] at hready
    simp only [Bool.false_eq_true, if_false, hrunning.isDone, hpollOut, Bool.not_false,
      Bool.and_true, if_true] at hready
    obtain ⟨rfl, -, -⟩ : (ec.clientWritable e).1 = ec' ∧ (ec.clientWritable e).2 = sent ∧
        [] = rest := by
      simpa using hready
    obtain ⟨hnot, hsent⟩ :=
      (hrunning.clientWritable hsentMsg hamount hrecv (by simp [hsend])).2 m hsend
    refine ⟨hsent, hnot, fun hyes => ?_⟩
    rw [hsentMsg] at hyes
    cases hyes
  | refused hrunning hsentMsg hamount hrecv => exact absurd hamount hrefused
  | waits n hrunning hsentMsg hamount hle hless =>
    unfold EchoClient.ready at hready
    rw [hrunning.watch, hsentMsg] at hready
    simp only [Bool.not_true, Bool.and_false, Bool.false_eq_true, if_false] at hready
    by_cases hincoming : incoming = []
    · have hno : e.pollIn = false := by
        by_contra hyes
        exact hpollIn.mp (by simpa using hyes) hincoming
      rw [hno] at hready
      obtain ⟨rfl, rfl, rfl⟩ : ec = ec' ∧ [] = sent ∧ incoming = rest := by simpa using hready
      exact ⟨hsentMsg, hrefused, fun _ => ⟨rfl, fun hne => absurd hincoming hne⟩⟩
    · obtain ⟨t, rest', hread, -, hsent', hamount', hprogress⟩ :=
        hrunning.clientReadable (e := e) hsentMsg hamount hle hless hfront
      rw [hpollIn.mpr hincoming, if_pos rfl, hread] at hready
      obtain ⟨rfl, rfl, rfl⟩ : t = ec' ∧ [] = sent ∧ rest' = rest := by simpa using hready
      refine ⟨hsent', ?_, fun _ => ⟨rfl, hprogress k answers hrecvs⟩⟩
      rw [hamount']
      exact hrefused
  | done hfinished =>
    rw [hfinished.isDone] at hdone
    cases hdone

end EchoClient

end ShadowExtras.Echo
