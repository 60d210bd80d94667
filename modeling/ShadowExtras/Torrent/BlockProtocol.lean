import ShadowExtras.Foundation.Fallible
import ShadowExtras.Torrent.BlockExchange
import ShadowExtras.Torrent.BlockMoves

/-!
# The block protocol

`proper_of_keepsWhole`: in every run in which no control message is cut on its way to the receiver
that waits for it, every request and every message `FINISHED` that was delivered has been recognised
once, and the counters of both sides have counted payload of the current block only.

A block goes through four phases. Both sides rest; the client has asked and the server has not yet
looked; payload passes in both directions; the server has answered and the client has not yet seen
it. Each phase says what is on the way in each direction.
-/

namespace ShadowExtras.Torrent

open Foundation

/-! ## Tagged streams -/

/-- All bytes carry this tag. -/
def AllTagged (stream : Tagged) (tag : Tag) : Prop := ∀ b ∈ stream, b.2 = tag

/-- All bytes that are tagged alike have the tag. -/
theorem allTagged_tagAll (bytes : Bytes) (tag : Tag) : AllTagged (tagAll bytes tag) tag := by
  intro b hb
  obtain ⟨_, _, rfl⟩ := List.mem_map.mp hb
  rfl

@[simp] theorem length_tagAll (bytes : Bytes) (tag : Tag) :
    (tagAll bytes tag).length = bytes.length := List.length_map _

@[simp] theorem map_fst_tagAll (bytes : Bytes) (tag : Tag) :
    (tagAll bytes tag).map Prod.fst = bytes := by
  simp [tagAll, Function.comp_def]

/-- The tags of the bytes are the one tag. -/
theorem mem_map_snd_tagAll {bytes : Bytes} {tag tag' : Tag}
    (h : tag' ∈ (tagAll bytes tag).map Prod.snd) : tag' = tag := by
  obtain ⟨b, hb, rfl⟩ := List.mem_map.mp h
  exact allTagged_tagAll bytes tag b hb

/-- A stream and another one with the same tag. -/
theorem AllTagged.append {stream stream' : Tagged} {tag : Tag} (h : AllTagged stream tag)
    (h' : AllTagged stream' tag) : AllTagged (stream ++ stream') tag := by
  intro b hb
  rcases List.mem_append.mp hb with hb | hb
  · exact h b hb
  · exact h' b hb

theorem AllTagged.drop {stream : Tagged} {tag : Tag} (h : AllTagged stream tag) (n : ℕ) :
    AllTagged (stream.drop n) tag := fun b hb => h b (List.mem_of_mem_drop hb)

/-- The first bytes of a stream with one tag have it. -/
theorem AllTagged.mem_take {stream : Tagged} {tag tag' : Tag} {n : ℕ} (h : AllTagged stream tag)
    (htag : tag' ∈ (stream.take n).map Prod.snd) : tag' = tag := by
  obtain ⟨b, hb, rfl⟩ := List.mem_map.mp htag
  exact h b (List.mem_of_mem_take hb)

/-- All bytes of a control message are control bytes. -/
theorem controlBytes_control {stream : Tagged} {number : ℕ}
    (h : AllTagged stream (.control number)) : controlBytes stream = stream.length := by
  rw [controlBytes, List.countP_eq_length]
  intro b hb
  rw [h b hb]

/-- No byte of a payload is a control byte. -/
theorem controlBytes_payload {stream : Tagged} {block : ℕ} (h : AllTagged stream (.payload block)) :
    controlBytes stream = 0 := by
  rw [controlBytes, List.countP_eq_zero]
  intro b hb
  rw [h b hb]
  simp

theorem controlBytes_append (stream stream' : Tagged) :
    controlBytes (stream ++ stream') = controlBytes stream + controlBytes stream' :=
  List.countP_append

/-- What was received and what is left of a stream. -/
theorem taken_eq {stream : Tagged} {socket : Socket} {received : Bytes}
    (h : stream.map Prod.fst = received ++ socket.incoming) :
    Exchange.taken stream socket = received.length := by
  have hlength := congrArg List.length h
  rw [List.length_map, List.length_append] at hlength
  rw [Exchange.taken]
  omega

/-! ## Control messages -/

namespace Message

/-- The messages are numbered. -/
def Numbered : List Message → Prop
  | [] => True
  | m :: ms => m.number = ms.length + 1 ∧ Numbered ms

/-- The number of a message is at most how many there are. -/
theorem Numbered.le {ms : List Message} (h : Numbered ms) : ∀ m ∈ ms, m.number ≤ ms.length := by
  induction ms with
  | nil => simp
  | cons m ms ih =>
    intro m' hm'
    rw [List.length_cons]
    rcases List.mem_cons.mp hm' with rfl | hm'
    · exact h.1.le
    · exact (ih h.2 m' hm').trans (Nat.le_succ _)

/-- Messages that keep their numbers stay numbered. -/
theorem Numbered.map {ms : List Message} (h : Numbered ms) {f : Message → Message}
    (hf : ∀ m, (f m).number = m.number) : Numbered (ms.map f) := by
  induction ms with
  | nil => trivial
  | cons m ms ih => exact ⟨by rw [hf, List.length_map]; exact h.1, ih h.2⟩

/-- Bytes of other messages, and payload, do not count. -/
theorem receive_of_ne {m : Message} {tags : List Tag} (h : ∀ tag ∈ tags, tag ≠ .control m.number) :
    m.receive tags = m := by
  have hcount : tags.count (.control m.number) = 0 :=
    List.count_eq_zero.mpr fun hmem => h _ hmem rfl
  rw [receive, hcount, Nat.add_zero]

/-- Payload is no part of a message. -/
theorem map_receive_of_payload {ms : List Message} {tags : List Tag} {block : ℕ}
    (h : ∀ tag ∈ tags, tag = .payload block) : ms.map (fun m => m.receive tags) = ms := by
  refine (List.map_congr_left fun m _ => ?_).trans (List.map_id ms)
  refine receive_of_ne fun tag htag => ?_
  rw [h tag htag]
  simp

theorem map_receive_nil (ms : List Message) : ms.map (fun m : Message => m.receive []) = ms :=
  (List.map_congr_left fun _ _ => receive_of_ne (by simp)).trans (List.map_id ms)

/-- Bytes of the last message and payload of a block do not count for the others. -/
theorem map_receive_of_last {m : Message} {ms : List Message} {tags : List Tag}
    (hnumbered : Numbered (m :: ms))
    (h : ∀ tag ∈ tags, tag = .control (m :: ms).length ∨ ∃ block, tag = .payload block) :
    ms.map (fun m => m.receive tags) = ms := by
  refine (List.map_congr_left fun m' hm' => ?_).trans (List.map_id ms)
  refine receive_of_ne fun tag htag => ?_
  have hle := hnumbered.2.le m' hm'
  rcases h tag htag with rfl | ⟨block, rfl⟩
  · intro heq
    obtain heq : (m :: ms).length = m'.number := by simpa using heq
    rw [List.length_cons] at heq
    omega
  · simp

/-- Every message that was delivered has been recognised once. -/
def Settled (ms : List Message) : Prop := ∀ m ∈ ms, m.Delivered → m.recognised = 1

theorem settled_cons {m : Message} {ms : List Message} (h : m.Delivered → m.recognised = 1)
    (hs : Settled ms) : Settled (m :: ms) := List.forall_mem_cons.mpr ⟨h, hs⟩

/-- Tags of the newest message and of payload are received: the messages before it stay as they
are. -/
theorem receive_newest {messages ms : List Message} {m : Message} {tags : List Tag}
    (heq : messages = m :: ms) (hnumbered : Numbered messages) (hsettled : Settled messages)
    (htags : ∀ tag ∈ tags, tag = .control messages.length ∨ ∃ block, tag = .payload block) :
    messages.map (fun m => m.receive tags) = m.receive tags :: ms ∧
      Numbered (m.receive tags :: ms) ∧ Settled ms := by
  subst heq
  refine ⟨?_, hnumbered, (List.forall_mem_cons.mp hsettled).2⟩
  rw [List.map_cons, map_receive_of_last hnumbered htags]

/-- The last message was not recognised, and this is what is left of it on its way. -/
def InFlight (m : Message) (text : Bytes) (rest : Tagged) : Prop :=
  m.recognised = 0 ∧
    (m.Complete → m.received = 0 ∧ rest.map Prod.fst = text ∧ m.length = text.length)

end Message

/-- A text that was received from its beginning is found. -/
theorem standsIn_append {text : Bytes} (htext : ∀ b ∈ text, b ≠ 0) (rest stack : Bytes) :
    TorrentClient.standsIn text (text ++ rest) stack = true := by
  rw [TorrentClient.standsIn, List.append_assoc, cString_append_of_forall htext,
    strcasestr_of_caselessPrefix (caselessPrefix_append_self text _)]
  rfl

theorem requestText_ne_zero : ∀ b ∈ requestText, b ≠ 0 := by decide +kernel

theorem finishedText_ne_zero : ∀ b ∈ TorrentClient.finishedText, b ≠ 0 := by decide +kernel

/-- A request begins with the text by which it is recognised. -/
theorem fileRequest_eq (cookie : UInt32) :
    fileRequest cookie = requestText ++ (crlf ++ cookieLine cookie) := by
  rw [← List.append_assoc]
  rfl

namespace Exchange

open Message TorrentClient TorrentServer

variable {s s' : Exchange} {e : ExchangeEvent}

/-! ## The phases of a block -/

/-- What holds in every phase. -/
structure Sound (s : Exchange) : Prop where
  downSize : s.ts.downBlockSize = s.tc.upBlockSize
  upSize : s.ts.upBlockSize = s.tc.downBlockSize
  requests_numbered : Numbered s.requests
  finisheds_numbered : Numbered s.finisheds
  proper : s.Proper

/-- The server waits for a request. -/
structure Waiting (s : Exchange) : Prop where
  waits : s.connection.Waits
  cleared : s.connection.state = .request →
    s.connection.downBytesTransfered = 0 ∧ s.connection.upBytesTransfered = 0

/-- The client passes a block or waits for the message `FINISHED`. -/
def InBlock (s : Exchange) : Prop :=
  s.server.state = .serverTransfer ∨ s.server.state = .serverFinished ∧
    s.tc.downBlockSize ≤ s.server.downBytesTransfered ∧
    s.tc.upBlockSize ≤ s.server.upBytesTransfered

/-- Both sides rest. -/
structure Resting (s : Exchange) : Prop where
  client : s.server.state = .serverRequest ∨ s.server.state = .serverIdle
  waiting : s.Waiting
  toServer : s.toServer = []
  toClient : s.toClient = []
  block : s.block = s.requests.length

/-- The client has asked, and the server has not recognised the request: what is left of it is on
the way, and payload behind it. -/
structure Asking (s : Exchange) : Prop where
  client : s.InBlock
  waiting : s.Waiting
  toClient : s.toClient = []
  down : s.server.downBytesTransfered = 0
  up_le : s.server.upBytesTransfered ≤ max s.tc.upBlockSize 0
  block : s.block + 1 = s.requests.length
  toServer : ∃ cookie m ms control payload, s.requests = m :: ms ∧
    s.toServer = control ++ payload ∧ AllTagged control (.control s.requests.length) ∧
    AllTagged payload (.payload s.requests.length) ∧
    (payload.length : Int) ≤ s.server.upBytesTransfered ∧ m.InFlight (fileRequest cookie) control

/-- Payload is on the way in both directions; what arrived together with the request is lost. -/
structure Passing (s : Exchange) : Prop where
  client : s.InBlock
  connection : s.connection.state = .transfer ∨ s.connection.state = .finished ∧
    s.ts.downBlockSize ≤ s.connection.downBytesTransfered ∧
    s.ts.upBlockSize ≤ s.connection.upBytesTransfered
  block : s.block = s.requests.length
  toServer : AllTagged s.toServer (.payload s.requests.length)
  toServer_le : s.connection.downBytesTransfered + s.toServer.length ≤ s.server.upBytesTransfered
  up_le : s.server.upBytesTransfered ≤ max s.tc.upBlockSize 0
  toClient : AllTagged s.toClient (.payload s.block)
  toClient_eq :
    s.server.downBytesTransfered + s.toClient.length = s.connection.upBytesTransfered
  down_le : s.connection.upBytesTransfered ≤ max s.tc.downBlockSize 0

/-- The server has answered: the rest of the payload is on the way, and what is left of the
answer. -/
structure Answered (s : Exchange) : Prop where
  client : s.InBlock
  waiting : s.Waiting
  toServer : s.toServer = []
  up_le : s.tc.upBlockSize ≤ s.server.upBytesTransfered
  block : s.block = s.requests.length
  toClient : ∃ m ms payload control, s.finisheds = m :: ms ∧ s.toClient = payload ++ control ∧
    AllTagged payload (.payload s.block) ∧ AllTagged control (.control s.finisheds.length) ∧
    s.server.downBytesTransfered + payload.length = max s.tc.downBlockSize 0 ∧
    m.InFlight finishedText control

/-- The invariant. -/
def Phase (s : Exchange) : Prop :=
  s.Sound ∧ (s.Resting ∨ s.Asking ∨ s.Passing ∨ s.Answered)

/-- A counter of bytes is not negative. -/
theorem Counts.nonneg {counter : Int} {tags : List Tag} {block : ℕ}
    (h : Counts counter tags block) :
    0 ≤ counter := by
  rw [h.1]
  exact Int.natCast_nonneg _

/-- More payload of the block is counted. -/
theorem Counts.append {counter : Int} {tags tags' : List Tag} {block : ℕ}
    (h : Counts counter tags block) (h' : ∀ tag ∈ tags', tag = .payload block) :
    Counts (counter + tags'.length) (tags ++ tags') block := by
  constructor
  · rw [h.1, List.length_append]
    push_cast
    rfl
  · intro tag htag
    rcases List.mem_append.mp htag with htag | htag
    · exact h.2 tag htag
    · exact h' tag htag

/-- A counter of zero counts nothing. -/
theorem Counts.zero {tags : List Tag} {block : ℕ} (h : Counts 0 tags block) : tags = [] := by
  have hlength := h.1
  cases tags with
  | nil => rfl
  | cons tag tags =>
    rw [List.length_cons] at hlength
    omega

theorem counts_nil (block : ℕ) : Counts 0 [] block := ⟨rfl, by simp⟩

/-- A connection that was just made. -/
theorem phase_start (tc : TorrentClient) (id : ℕ) (node : Node) (sockd : Int) (cookie : UInt32)
    (ts : TorrentServer) (connection : TorrentServer.Connection) :
    (start tc id node sockd cookie ts connection).Phase := by
  refine ⟨⟨rfl, rfl, trivial, trivial, ?_⟩, .inl ?_⟩
  · exact ⟨by simp [start], by simp [start], counts_nil 0, counts_nil 0, counts_nil 0, counts_nil 0⟩
  · refine ⟨.inl rfl, ⟨.inl rfl, fun h => ?_⟩, rfl, rfl, rfl⟩
    cases h

/-- Activations for other connections. -/
theorem phase_elsewhere (h : s.Phase) {tc : TorrentClient} {ts : TorrentServer}
    (htc : s.tc.SameSizes tc) (hts : s.ts.SameSizes ts) : { s with tc := tc, ts := ts }.Phase := by
  obtain ⟨hsound, hphase⟩ := h
  have hblock : s.InBlock → { s with tc := tc, ts := ts }.InBlock := by
    intro hblock
    simp only [InBlock, htc.1, htc.2]
    exact hblock
  refine ⟨⟨?_, ?_, hsound.requests_numbered, hsound.finisheds_numbered, ?_⟩, ?_⟩
  · simp only [hts.1, htc.2]
    exact hsound.downSize
  · simp only [hts.2, htc.1]
    exact hsound.upSize
  · exact ⟨hsound.proper.requests, hsound.proper.finisheds, hsound.proper.clientDown,
      hsound.proper.clientUp, hsound.proper.serverDown, hsound.proper.serverUp⟩
  · rcases hphase with hp | hp | hp | hp
    · exact .inl ⟨hp.client, ⟨hp.waiting.waits, hp.waiting.cleared⟩, hp.toServer, hp.toClient,
        hp.block⟩
    · exact .inr (.inl ⟨hblock hp.client, ⟨hp.waiting.waits, hp.waiting.cleared⟩, hp.toClient,
        hp.down, by simpa only [htc.2] using hp.up_le, hp.block, hp.toServer⟩)
    · exact .inr (.inr (.inl ⟨hblock hp.client, by simpa only [hts.1, hts.2] using hp.connection,
        hp.block, hp.toServer, hp.toServer_le, by simpa only [htc.2] using hp.up_le, hp.toClient,
        hp.toClient_eq, by simpa only [htc.1] using hp.down_le⟩))
    · exact .inr (.inr (.inr ⟨hblock hp.client, ⟨hp.waiting.waits, hp.waiting.cleared⟩,
        hp.toServer, by simpa only [htc.2] using hp.up_le, hp.block,
        by simpa only [htc.1] using hp.toClient⟩))

/-! ## The client -/

theorem not_inBlock_of_request (hstate : s.server.state = .serverRequest) : ¬s.InBlock := by
  rw [InBlock, hstate]
  simp

/-- A client that is about to ask is at rest. -/
theorem resting_of_request (h : s.Phase) (hstate : s.server.state = .serverRequest) :
    s.Resting := by
  obtain ⟨-, hp | hp | hp | hp⟩ := h
  · exact hp
  · exact absurd hp.client (not_inBlock_of_request hstate)
  · exact absurd hp.client (not_inBlock_of_request hstate)
  · exact absurd hp.client (not_inBlock_of_request hstate)

/-- There is no block left to ask for. -/
theorem phase_clientIdle (h : s.Phase) (hstate : s.server.state = .serverRequest) :
    { s with server := { s.server with state := .serverIdle } }.Phase := by
  have hp := resting_of_request h hstate
  obtain ⟨hsound, -⟩ := h
  have hproper := hsound.proper
  refine ⟨⟨hsound.downSize, hsound.upSize, hsound.requests_numbered, hsound.finisheds_numbered, ?_⟩,
    .inl ⟨.inr rfl, ⟨hp.waiting.waits, hp.waiting.cleared⟩, hp.toServer, hp.toClient, hp.block⟩⟩
  exact ⟨hproper.requests, hproper.finisheds, hproper.clientDown, hproper.clientUp,
    hproper.serverDown, hproper.serverUp⟩

/-- The client asks for a block. -/
theorem phase_request {server : Server} {sent : Bytes} (h : s.Phase)
    (hstate : s.server.state = .serverRequest) (hnext : server.state = .serverTransfer)
    (hdown : server.downBytesTransfered = 0) (hup : server.upBytesTransfered = 0)
    (hsent : sent ≠ []) (hpre : sent <+: fileRequest server.cookie) :
    ({ s with server := server }.requested sent).Phase := by
  have hp := resting_of_request h hstate
  obtain ⟨hsound, -⟩ := h
  have hproper := hsound.proper
  rw [requested, if_neg hsent]
  refine ⟨⟨hsound.downSize, hsound.upSize, ⟨rfl, hsound.requests_numbered⟩,
    hsound.finisheds_numbered, ?_⟩, .inr (.inl ⟨.inl hnext, ⟨hp.waiting.waits, hp.waiting.cleared⟩,
    hp.toClient, hdown, ?_, ?_, ?_⟩)⟩
  · refine ⟨?_, hproper.finisheds, ?_, ?_, hproper.serverDown, hproper.serverUp⟩
    · refine settled_cons (fun hdelivered => ?_) hproper.requests
      obtain ⟨hcomplete, hreceived⟩ := hdelivered
      have hpositive := List.length_pos_of_ne_nil hsent
      rw [Message.Complete] at hcomplete
      simp only at hcomplete hreceived
      omega
    · simp only [hdown]
      exact counts_nil _
    · simp only [hup]
      exact counts_nil _
  · simp only [hup]
    exact le_max_right _ _
  · simp only [List.length_cons, hp.block]
  · refine ⟨server.cookie, _, s.requests, tagAll sent (.control (s.requests.length + 1)), [], rfl,
      ?_, allTagged_tagAll _ _, by simp [AllTagged], by simp [hup], rfl, fun hcomplete => ?_⟩
    · simp only [hp.toServer, List.nil_append, List.append_nil]
    · refine ⟨rfl, ?_, rfl⟩
      rw [map_fst_tagAll]
      exact hpre.eq_of_length hcomplete

/-- Payload of the current block does not change the histories of messages. -/
theorem phase_clientTransfer {server : Server} {socket socket' : Socket} {received sent : Bytes}
    (h : s.Phase) (hstate : s.server.state = .serverTransfer)
    (hpasses : Passes s.tc.downBlockSize s.tc.upBlockSize s.server.downBytesTransfered
      s.server.upBytesTransfered socket socket' received sent)
    (hstream : s.toClient.map Prod.fst = socket.incoming)
    (hdown : server.downBytesTransfered = s.server.downBytesTransfered + received.length)
    (hup : server.upBytesTransfered = s.server.upBytesTransfered + sent.length)
    (hnext : server.state = .serverTransfer ∨ server.state = .serverFinished ∧
      s.tc.downBlockSize ≤ server.downBytesTransfered ∧
      s.tc.upBlockSize ≤ server.upBytesTransfered) :
    ({ s with server := server, toClient := s.toClient.drop received.length }.clientHistory
      .serverTransfer ((s.toClient.take received.length).map Prod.snd) sent).Phase := by
  obtain ⟨hsound, hphase⟩ := h
  have hproper := hsound.proper
  have hnonneg := hproper.clientDown.nonneg
  have hlength : received.length ≤ s.toClient.length := by
    have := congrArg List.length (hstream.trans hpasses.incoming_eq)
    rw [List.length_map, List.length_append] at this
    omega
  have hle := hpasses.down_le
  have hsent := hpasses.up_le
  -- what is received is payload of the current block
  have htags : ∀ tag ∈ (s.toClient.take received.length).map Prod.snd,
      tag = .payload s.requests.length := by
    rcases hphase with hp | hp | hp | hp
    · rcases hp.client with hclient | hclient <;> rw [hstate] at hclient <;> cases hclient
    · rw [hp.toClient]
      simp
    · intro tag htag
      rw [← hp.block]
      exact hp.toClient.mem_take htag
    · obtain ⟨m, ms, payload, control, -, hsplit, hpayload, -, hrest, -⟩ := hp.toClient
      have hshort : received.length ≤ payload.length := by omega
      intro tag htag
      rw [hsplit, List.take_append_of_le_length hshort] at htag
      rw [← hp.block]
      exact hpayload.mem_take htag
  have hmessages : s.finisheds.map (fun m => m.receive
      ((s.toClient.take received.length).map Prod.snd)) = s.finisheds :=
    map_receive_of_payload htags
  simp only [clientHistory, clientTransfered, hmessages]
  have hcount : ((s.toClient.take received.length).map Prod.snd).length = received.length := by
    rw [List.length_map, List.length_take]
    omega
  have hblock : { s with
      server := server
      toClient := s.toClient.drop received.length }.InBlock := hnext
  refine ⟨⟨hsound.downSize, hsound.upSize, hsound.requests_numbered, hsound.finisheds_numbered,
    hproper.requests, hproper.finisheds, ?_, ?_, hproper.serverDown, hproper.serverUp⟩, ?_⟩
  · have happend := hproper.clientDown.append htags
    rw [hcount, ← hdown] at happend
    exact happend
  · have htagged : ∀ tag ∈ (tagAll sent (.payload s.requests.length)).map Prod.snd,
        tag = .payload s.requests.length := fun tag htag => mem_map_snd_tagAll htag
    have happend := hproper.clientUp.append htagged
    rw [List.length_map, length_tagAll, ← hup] at happend
    exact happend
  · rcases hphase with hp | hp | hp | hp
    · rcases hp.client with hclient | hclient <;> rw [hstate] at hclient <;> cases hclient
    · -- nothing is on the way to the client yet
      have hnone : received.length = 0 := by
        rw [hp.toClient] at hlength
        exact Nat.le_zero.mp hlength
      have hup_le := hp.up_le
      obtain ⟨cookie, m, ms, control, payload, hrequests, hsplit, hcontrol, hpayload, hpayload_le,
        hflight⟩ := hp.toServer
      refine .inr (.inl ⟨hblock, ⟨hp.waiting.waits, hp.waiting.cleared⟩, ?_, ?_, ?_, hp.block,
        cookie, m, ms, control, payload ++ tagAll sent (.payload s.requests.length), hrequests, ?_,
        hcontrol, hpayload.append (allTagged_tagAll _ _), ?_, hflight⟩)
      · simp only [hp.toClient, List.drop_nil]
      · simp only [hdown, hp.down, hnone]
        rfl
      · simp only [hup]
        omega
      · simp only [hsplit, List.append_assoc]
      · simp only [hup, List.length_append, length_tagAll]
        omega
    · have hup_le := hp.up_le
      have htoServer := hp.toServer_le
      have htoClient := hp.toClient_eq
      refine .inr (.inr (.inl ⟨hblock, hp.connection, hp.block,
        hp.toServer.append (allTagged_tagAll _ _), ?_, ?_, hp.toClient.drop _, ?_, hp.down_le⟩))
      · simp only [hup, List.length_append, length_tagAll]
        omega
      · simp only [hup]
        omega
      · simp only [hdown, List.length_drop]
        omega
    · obtain ⟨m, ms, payload, control, hfinisheds, hsplit, hpayload, hcontrol, hrest, hflight⟩ :=
        hp.toClient
      have hup_le := hp.up_le
      have hshort : received.length ≤ payload.length := by omega
      obtain rfl : sent = [] := by
        rw [← List.length_eq_zero_iff]
        omega
      refine .inr (.inr (.inr ⟨hblock, ⟨hp.waiting.waits, hp.waiting.cleared⟩, ?_, ?_, hp.block, m,
        ms, payload.drop received.length, control, hfinisheds, ?_, hpayload.drop _, hcontrol, ?_,
        hflight⟩))
      · simp [hp.toServer, tagAll]
      · simpa [hup] using hup_le
      · simp only [hsplit]
        rw [List.drop_append_of_le_length hshort]
      · simp only [hdown, List.length_drop]
        omega

/-- Bytes arrive where the client expects the message `FINISHED`. -/
theorem phase_clientFinished {socket' : Socket} {b : Byte} {bs stack : Bytes} (h : s.Phase)
    (hstate : s.server.state = .serverFinished)
    (hstream : s.toClient.map Prod.fst = (b :: bs) ++ socket'.incoming)
    (htakes : TakesControl s.toClient s.finisheds finishedText (b :: bs) stack) :
    ({ s with
      server :=
        if standsIn finishedText (b :: bs) stack then { s.server with state := .serverRequest }
        else s.server
      toClient := s.toClient.drop (b :: bs).length }.clientHistory .serverFinished
        ((s.toClient.take (b :: bs).length).map Prod.snd) []).Phase := by
  obtain ⟨hsound, hphase⟩ := h
  have hproper := hsound.proper
  have hnonneg := hproper.clientDown.nonneg
  have hlength : s.toClient.length = (b :: bs).length + socket'.incoming.length := by
    rw [← List.length_map, hstream, List.length_append]
  -- only the answer can be on the way
  obtain hp : s.Answered := by
    have hdone : s.InBlock → s.tc.downBlockSize ≤ s.server.downBytesTransfered := by
      rintro (hclient | ⟨-, hdown, -⟩)
      · rw [hstate] at hclient
        cases hclient
      · exact hdown
    rcases hphase with hp | hp | hp | hp
    · rcases hp.client with hclient | hclient <;> rw [hstate] at hclient <;> cases hclient
    · rw [hp.toClient, List.length_nil, List.length_cons] at hlength
      omega
    · have hsize := hdone hp.client
      have htoClient := hp.toClient_eq
      have hdown_le := hp.down_le
      rw [List.length_cons] at hlength
      omega
    · exact hp
  obtain ⟨m, ms, payload, control, hfinisheds, hsplit, -, hcontrol, hrest, hflight⟩ := hp.toClient
  obtain rfl : payload = [] := by
    rcases hp.client with hclient | ⟨-, hdown, -⟩
    · rw [hstate] at hclient
      cases hclient
    · rw [← List.length_eq_zero_iff]
      omega
  rw [List.nil_append] at hsplit
  set n := (b :: bs).length with hn
  set tags := (s.toClient.take n).map Prod.snd with htags
  have hcome : ∀ tag ∈ tags, tag = .control s.finisheds.length ∨ ∃ block, tag = .payload block := by
    intro tag htag
    rw [htags, hsplit] at htag
    exact .inl (hcontrol.mem_take htag)
  obtain ⟨hmessages, hnumbered, hsettled⟩ :=
    receive_newest hfinisheds hsound.finisheds_numbered hproper.finisheds hcome
  have hbytes : controlBytes s.toClient = control.length := by
    rw [hsplit]
    exact controlBytes_control hcontrol
  have hlast : LastComplete s.finisheds ↔ m.Complete := by
    rw [hfinisheds]
    rfl
  by_cases hfound : standsIn finishedText (b :: bs) stack = true
  · -- the answer was received as a whole, and the client goes on to the next request
    have hwhole : s.toClient.drop n = [] := by
      have hall := htakes (.inr hfound)
      rw [hbytes, ← hsplit] at hall
      exact List.drop_eq_nil_of_le hall
    simp only [clientHistory, if_pos hfound, if_true, hmessages, recogniseLast, hwhole]
    refine ⟨⟨hsound.downSize, hsound.upSize, hsound.requests_numbered, hnumbered, ?_⟩, .inl
      ⟨.inl rfl, ⟨hp.waiting.waits, hp.waiting.cleared⟩, hp.toServer, rfl, hp.block⟩⟩
    refine ⟨hproper.requests, settled_cons (fun _ => ?_) hsettled, hproper.clientDown,
      hproper.clientUp, hproper.serverDown, hproper.serverUp⟩
    simp only [Message.receive, hflight.1]
  · -- only a part of the answer was ever sent, and the rest of this part is still on the way
    have hpart : ¬m.Complete := by
      intro hcomplete
      obtain ⟨-, htext, -⟩ := hflight.2 hcomplete
      have hall := htakes (.inl (hlast.mpr hcomplete))
      rw [hbytes, ← hsplit] at hall
      have hnil : socket'.incoming = [] := by
        rw [← List.length_eq_zero_iff]
        omega
      rw [hsplit, htext, hnil, List.append_nil] at hstream
      refine hfound ?_
      rw [← hstream]
      simpa using standsIn_append finishedText_ne_zero [] stack
    have hnot : s.server.state ≠ .serverRequest := by
      rw [hstate]
      simp
    simp only [clientHistory, if_neg hfound, if_neg hnot, hmessages]
    refine ⟨⟨hsound.downSize, hsound.upSize, hsound.requests_numbered, hnumbered, ?_⟩, .inr (.inr
      (.inr ⟨hp.client, ⟨hp.waiting.waits, hp.waiting.cleared⟩, hp.toServer, hp.up_le, hp.block,
        m.receive tags, ms, [], control.drop n, rfl, ?_, by simp [AllTagged], ?_, hrest, hflight.1,
        fun hcomplete => absurd hcomplete hpart⟩))⟩
    · exact ⟨hproper.requests, settled_cons (fun hdelivered => absurd hdelivered.1 hpart) hsettled,
        hproper.clientDown, hproper.clientUp, hproper.serverDown, hproper.serverUp⟩
    · rw [List.nil_append, hsplit]
    · rw [hfinisheds] at hcontrol
      exact hcontrol.drop n

/-! ## The server -/

/-- A server that waits is ready for a request. -/
theorem waiting_state {connection : TorrentServer.Connection} (h : connection.Waits) :
    connection.waiting.state = .request := by
  unfold TorrentServer.Connection.waiting
  split
  · rfl
  · rename_i hidle
    exact h.resolve_left hidle

/-- The counters are zero where a request is looked for. -/
theorem Waiting.zero (h : s.Waiting) : s.connection.waiting.downBytesTransfered = 0 ∧
    s.connection.waiting.upBytesTransfered = 0 := by
  unfold TorrentServer.Connection.waiting
  split
  · exact ⟨rfl, rfl⟩
  · rename_i hidle
    exact h.cleared (h.waits.resolve_left hidle)

/-- A server that looks for a request, or has just found it, has received and sent nothing of the
block. -/
theorem Proper.reset {connection : TorrentServer.Connection} {requests : List Message}
    (h : s.Proper) (hsettled : Settled requests) (hlength : requests.length = s.requests.length)
    (hdown : connection.downBytesTransfered = 0) (hup : connection.upBytesTransfered = 0)
    (toServer : Tagged) (block : ℕ) :
    { s with
      connection := connection
      serverDown := []
      serverUp := []
      toServer := toServer
      requests := requests
      block := block }.Proper := by
  refine ⟨hsettled, h.finisheds, ?_, ?_, ?_, ?_⟩
  · have hclient := h.clientDown
    rw [← hlength] at hclient
    exact hclient
  · have hclient := h.clientUp
    rw [← hlength] at hclient
    exact hclient
  · simp only [hdown]
    exact counts_nil _
  · simp only [hup]
    exact counts_nil _

/-- The server that looks for a request has reset its counters. -/
theorem phase_waiting {connection : TorrentServer.Connection} (h : s.Phase) (hwaits : s.Waiting)
    (hstate : connection.state = .request) (hdown : connection.downBytesTransfered = 0)
    (hup : connection.upBytesTransfered = 0) :
    { s with connection := connection, serverDown := [], serverUp := [] }.Phase := by
  obtain ⟨hsound, hphase⟩ := h
  have hproper := hsound.proper
  have hwaiting : { s with
      connection := connection
      serverDown := []
      serverUp := [] }.Waiting := ⟨.inr hstate, fun _ => ⟨hdown, hup⟩⟩
  refine ⟨⟨hsound.downSize, hsound.upSize, hsound.requests_numbered, hsound.finisheds_numbered,
    hproper.reset hproper.requests rfl hdown hup _ _⟩, ?_⟩
  · rcases hphase with hp | hp | hp | hp
    · exact .inl ⟨hp.client, hwaiting, hp.toServer, hp.toClient, hp.block⟩
    · exact .inr (.inl ⟨hp.client, hwaiting, hp.toClient, hp.down, hp.up_le, hp.block, hp.toServer⟩)
    · -- the server is in a block
      have hbusy := hwaits.waits
      rw [TorrentServer.Connection.Waits] at hbusy
      rcases hp.connection with hconnection | ⟨hconnection, -⟩ <;>
        rw [hconnection] at hbusy <;> simp at hbusy
    · exact .inr (.inr (.inr ⟨hp.client, hwaiting, hp.toServer, hp.up_le, hp.block, hp.toClient⟩))

/-- Bytes of a request and payload behind it arrive, and the server looks for the request. -/
theorem asking_receive {connection : TorrentServer.Connection} {socket' : Socket} {b : Byte}
    {bs stack : Bytes} (hsound : s.Sound) (hp : s.Asking)
    (hstream : s.toServer.map Prod.fst = (b :: bs) ++ socket'.incoming)
    (htakes : TakesControl s.toServer s.requests requestText (b :: bs) stack)
    (hstate : connection.state =
      if standsIn requestText (b :: bs) stack then .transfer else .request)
    (hdown : connection.downBytesTransfered = 0) (hup : connection.upBytesTransfered = 0) :
    ({ s with
      connection := connection
      serverDown := []
      serverUp := []
      toServer := s.toServer.drop (b :: bs).length
      requests := s.requests.map fun m : Message => m.receive
        ((s.toServer.take (b :: bs).length).map Prod.snd) }.looked).Phase := by
  have hproper := hsound.proper
  obtain ⟨cookie, m, ms, control, payload, hrequests, hsplit, hcontrol, hpayload, hpayload_le,
    hflight⟩ := hp.toServer
  set n := (b :: bs).length with hn
  set tags := (s.toServer.take n).map Prod.snd with htags
  have hlength : s.requests.length = (m.receive tags :: ms).length := by
    rw [hrequests]
    rfl
  have hcome : ∀ tag ∈ tags, tag = .control s.requests.length ∨ ∃ block, tag = .payload block := by
    intro tag htag
    obtain ⟨entry, hentry, rfl⟩ := List.mem_map.mp htag
    have hmem := List.mem_of_mem_take hentry
    rw [hsplit] at hmem
    rcases List.mem_append.mp hmem with hmem | hmem
    · exact .inl (hcontrol entry hmem)
    · exact .inr ⟨_, hpayload entry hmem⟩
  obtain ⟨hmessages, hnumbered, hsettled⟩ :=
    receive_newest hrequests hsound.requests_numbered hproper.requests hcome
  have hbytes : controlBytes s.toServer = control.length := by
    rw [hsplit, controlBytes_append, controlBytes_control hcontrol, controlBytes_payload hpayload,
      Nat.add_zero]
  have hlast : LastComplete s.requests ↔ m.Complete := by
    rw [hrequests]
    rfl
  by_cases hfound : standsIn requestText (b :: bs) stack = true
  · -- the request was received as a whole; payload that came with it is lost
    have hall := htakes (.inr hfound)
    rw [hbytes] at hall
    rw [if_pos hfound] at hstate
    have hrest : s.toServer.drop n = payload.drop (n - control.length) := by
      rw [hsplit, List.drop_append, List.drop_eq_nil_of_le hall, List.nil_append]
    simp only [looked, hstate, if_true, hmessages, recogniseLast, hrest]
    have hblock : s.block + 1 = (m.receive tags :: ms).length := by
      rw [← hlength]
      exact hp.block
    refine ⟨⟨hsound.downSize, hsound.upSize, hnumbered, hsound.finisheds_numbered, ?_⟩, .inr (.inr
      (.inl ⟨hp.client, .inl hstate, hblock, ?_, ?_, hp.up_le, ?_, ?_, ?_⟩))⟩
    · refine hproper.reset (settled_cons (fun _ => ?_) hsettled) ?_ hdown hup _ _
      · simp only [Message.receive, hflight.1]
      · exact hlength.symm
    · rw [hlength] at hpayload
      exact hpayload.drop _
    · simp only [hdown, List.length_drop]
      omega
    · simp only [hp.toClient]
      simp [AllTagged]
    · simp only [hup, hp.down, hp.toClient]
      rfl
    · simp only [hup]
      exact le_max_right _ _
  · -- only a part of the request was ever sent
    have hpart : ¬m.Complete := by
      intro hcomplete
      obtain ⟨-, htext, -⟩ := hflight.2 hcomplete
      have hall := htakes (.inl (hlast.mpr hcomplete))
      rw [hbytes] at hall
      rw [hsplit, List.map_append, htext] at hstream
      have hcut : (fileRequest cookie).length ≤ (b :: bs).length := by
        rw [← htext, List.length_map]
        exact hall
      have hfront : fileRequest cookie <+: (b :: bs) ++ socket'.incoming := by
        rw [← hstream]
        exact List.prefix_append _ _
      obtain ⟨rest, hrest⟩ : fileRequest cookie <+: b :: bs :=
        List.prefix_of_prefix_length_le hfront (List.prefix_append _ _) hcut
      refine hfound ?_
      rw [← hrest, fileRequest_eq, List.append_assoc]
      exact standsIn_append requestText_ne_zero _ stack
    rw [if_neg hfound] at hstate
    have hnot : connection.state ≠ .transfer := by
      rw [hstate]
      simp
    simp only [looked, if_neg hnot, hmessages]
    refine ⟨⟨hsound.downSize, hsound.upSize, hnumbered, hsound.finisheds_numbered, ?_⟩, .inr (.inl
      ⟨hp.client, ⟨.inr hstate, fun _ => ⟨hdown, hup⟩⟩, hp.toClient, hp.down, hp.up_le, ?_, ?_⟩)⟩
    · refine hproper.reset ?_ hlength.symm hdown hup _ _
      exact settled_cons (fun hdelivered => absurd hdelivered.1 hpart) hsettled
    · rw [← hlength]
      exact hp.block
    · refine ⟨cookie, m.receive tags, ms, control.drop n, payload.drop (n - control.length), rfl,
        ?_, ?_, ?_, ?_, hflight.1, fun hcomplete => absurd hcomplete hpart⟩
      · rw [hsplit, List.drop_append]
      · rw [hlength] at hcontrol
        exact hcontrol.drop n
      · rw [hlength] at hpayload
        exact hpayload.drop _
      · simp only [List.length_drop]
        omega

/-- The histories of the counters are empty where a request is looked for. -/
theorem Waiting.history (hproper : s.Proper) (h : s.Waiting) (hidle : s.connection.state ≠ .idle) :
    s.serverDown = [] ∧ s.serverUp = [] := by
  obtain ⟨hdown, hup⟩ := h.cleared (h.waits.resolve_left hidle)
  have hcountsDown := hproper.serverDown
  have hcountsUp := hproper.serverUp
  rw [hdown] at hcountsDown
  rw [hup] at hcountsUp
  exact ⟨hcountsDown.zero, hcountsUp.zero⟩

/-- In the states in which a request is looked for, the histories of the counters start anew. -/
theorem serverHistory_of_waiting (hproper : s.Proper) (h : s.Waiting)
    (connection : TorrentServer.Connection) (toServer : Tagged) (tags : List Tag) (sent : Bytes) :
    { s with connection := connection, toServer := toServer }.serverHistory s.connection.state tags
        sent =
      { s with
        connection := connection
        serverDown := []
        serverUp := []
        toServer := toServer
        requests := s.requests.map fun m : Message => m.receive tags }.looked := by
  rcases h.waits with hstate | hstate
  · rw [hstate]
    rfl
  · obtain ⟨hdown, hup⟩ := h.history hproper (by rw [hstate]; simp)
    rw [hstate]
    simp only [serverHistory, hdown, hup]

/-- The server waits in the phases in which it does not pass a block. -/
theorem waiting_of_waits (h : s.Phase) (hwaits : s.connection.Waits) : s.Waiting := by
  obtain ⟨-, hp | hp | hp | hp⟩ := h
  · exact hp.waiting
  · exact hp.waiting
  · rw [TorrentServer.Connection.Waits] at hwaits
    rcases hp.connection with hconnection | ⟨hconnection, -⟩ <;>
      rw [hconnection] at hwaits <;> simp at hwaits
  · exact hp.waiting

/-- Outside of these states, a block passes. -/
theorem passing_of_not_waits (h : s.Phase) (hwaits : ¬s.connection.Waits) : s.Passing := by
  obtain ⟨-, hp | hp | hp | hp⟩ := h
  · exact absurd hp.waiting.waits hwaits
  · exact absurd hp.waiting.waits hwaits
  · exact hp
  · exact absurd hp.waiting.waits hwaits

/-- The server finds no request. -/
theorem phase_serverWaits (h : s.Phase) (hwaits : s.connection.Waits) :
    ({ s with
      connection := s.connection.waiting
      toServer := s.toServer.drop 0 }.serverHistory s.connection.state
        ((s.toServer.take 0).map Prod.snd) []).Phase := by
  have hwaiting := waiting_of_waits h hwaits
  have hstate := waiting_state hwaits
  rw [serverHistory_of_waiting h.1.proper hwaiting]
  simp only [looked, hstate, List.take_zero, List.map_nil, map_receive_nil, List.drop_zero]
  exact phase_waiting h hwaiting hstate hwaiting.zero.1 hwaiting.zero.2

/-- Bytes arrive where the server expects a request. -/
theorem phase_serverRequest {connection : TorrentServer.Connection} {socket' : Socket} {b : Byte}
    {bs stack sent : Bytes} (h : s.Phase) (hwaits : s.connection.Waits)
    (hstream : s.toServer.map Prod.fst = (b :: bs) ++ socket'.incoming)
    (htakes : TakesControl s.toServer s.requests requestText (b :: bs) stack)
    (hdown : connection.downBytesTransfered = s.connection.waiting.downBytesTransfered)
    (hup : connection.upBytesTransfered = s.connection.waiting.upBytesTransfered)
    (hnext : connection.state =
      if standsIn requestText (b :: bs) stack then .transfer else .request) :
    ({ s with
      connection := connection
      toServer := s.toServer.drop (b :: bs).length }.serverHistory s.connection.state
        ((s.toServer.take (b :: bs).length).map Prod.snd) sent).Phase := by
  have hwaiting := waiting_of_waits h hwaits
  obtain ⟨hzeroDown, hzeroUp⟩ := hwaiting.zero
  have hlength := congrArg List.length hstream
  rw [List.length_map, List.length_append, List.length_cons] at hlength
  rw [serverHistory_of_waiting h.1.proper hwaiting]
  obtain ⟨hsound, hp | hp | hp | hp⟩ := h
  · rw [hp.toServer, List.length_nil] at hlength
    omega
  · exact asking_receive hsound hp hstream htakes hnext (hdown.trans hzeroDown)
      (hup.trans hzeroUp)
  · rw [TorrentServer.Connection.Waits] at hwaits
    rcases hp.connection with hconnection | ⟨hconnection, -⟩ <;>
      rw [hconnection] at hwaits <;> simp at hwaits
  · rw [hp.toServer, List.length_nil] at hlength
    omega

/-- Payload passes at the server. -/
theorem phase_serverTransfer {connection : TorrentServer.Connection} {socket socket' : Socket}
    {received sent : Bytes} (h : s.Phase) (hstate : s.connection.state = .transfer)
    (hpasses : Passes s.ts.downBlockSize s.ts.upBlockSize s.connection.downBytesTransfered
      s.connection.upBytesTransfered socket socket' received sent)
    (hstream : s.toServer.map Prod.fst = socket.incoming)
    (hdown : connection.downBytesTransfered =
      s.connection.downBytesTransfered + received.length)
    (hup : connection.upBytesTransfered = s.connection.upBytesTransfered + sent.length)
    (hnext : connection.state = .transfer ∨ connection.state = .finished ∧
      s.ts.downBlockSize ≤ connection.downBytesTransfered ∧
      s.ts.upBlockSize ≤ connection.upBytesTransfered) :
    ({ s with
      connection := connection
      toServer := s.toServer.drop received.length }.serverHistory .transfer
        ((s.toServer.take received.length).map Prod.snd) sent).Phase := by
  have hp : s.Passing := passing_of_not_waits h (by
    rw [TorrentServer.Connection.Waits, hstate]
    simp)
  obtain ⟨hsound, -⟩ := h
  have hproper := hsound.proper
  have hlength : received.length ≤ s.toServer.length := by
    have := congrArg List.length (hstream.trans hpasses.incoming_eq)
    rw [List.length_map, List.length_append] at this
    omega
  have htags : ∀ tag ∈ (s.toServer.take received.length).map Prod.snd,
      tag = .payload s.requests.length := fun tag htag => hp.toServer.mem_take htag
  have hmessages : s.requests.map (fun m : Message => m.receive
      ((s.toServer.take received.length).map Prod.snd)) = s.requests :=
    map_receive_of_payload htags
  have hcount : ((s.toServer.take received.length).map Prod.snd).length = received.length := by
    rw [List.length_map, List.length_take]
    omega
  have hle := hpasses.down_le
  have hsent := hpasses.up_le
  have hupSize := hsound.upSize
  have htoServer := hp.toServer_le
  have htoClient := hp.toClient_eq
  have hdown_le := hp.down_le
  simp only [serverHistory, serverTransfered, hmessages]
  refine ⟨⟨hsound.downSize, hsound.upSize, hsound.requests_numbered, hsound.finisheds_numbered,
    hproper.requests, hproper.finisheds, hproper.clientDown, hproper.clientUp, ?_, ?_⟩, .inr (.inr
    (.inl ⟨hp.client, hnext, hp.block, hp.toServer.drop _, ?_, hp.up_le, ?_, ?_, ?_⟩))⟩
  · have happend := hproper.serverDown.append fun tag htag =>
      (htags tag htag).trans (by rw [hp.block])
    rw [hcount, ← hdown] at happend
    exact happend
  · have htagged : ∀ tag ∈ (tagAll sent (.payload s.block)).map Prod.snd, tag = .payload s.block :=
      fun tag htag => mem_map_snd_tagAll htag
    have happend := hproper.serverUp.append htagged
    rw [List.length_map, length_tagAll, ← hup] at happend
    exact happend
  · simp only [hdown, List.length_drop]
    omega
  · exact hp.toClient.append (allTagged_tagAll _ _)
  · simp only [hup, List.length_append, length_tagAll]
    omega
  · simp only [hup]
    omega

/-- The server answers. -/
theorem phase_serverFinished {sent : Bytes} (h : s.Phase) (hstate : s.connection.state = .finished)
    (hsent : sent ≠ []) (hpre : sent <+: finishedText) :
    ({ s with
      connection := { s.connection with state := .idle }
      toServer := s.toServer.drop 0 }.serverHistory .finished
        ((s.toServer.take 0).map Prod.snd) sent).Phase := by
  have hp : s.Passing := passing_of_not_waits h (by
    rw [TorrentServer.Connection.Waits, hstate]
    simp)
  obtain ⟨hsound, -⟩ := h
  have hproper := hsound.proper
  have hdownSize := hsound.downSize
  have hupSize := hsound.upSize
  have htoServer := hp.toServer_le
  have htoClient := hp.toClient_eq
  have hdown_le := hp.down_le
  have hup_le := hp.up_le
  have hnonneg := hproper.serverDown.nonneg
  have hnonneg' := hproper.serverUp.nonneg
  obtain ⟨hdown, hup⟩ : s.ts.downBlockSize ≤ s.connection.downBytesTransfered ∧
      s.ts.upBlockSize ≤ s.connection.upBytesTransfered := by
    rcases hp.connection with hconnection | ⟨-, hdone⟩
    · rw [hstate] at hconnection
      cases hconnection
    · exact hdone
  -- all the payload of the client was received
  have hempty : s.toServer = [] := by
    rw [← List.length_eq_zero_iff]
    omega
  simp only [serverHistory, said, if_neg hsent, List.take_zero, List.map_nil, map_receive_nil,
    List.drop_zero]
  refine ⟨⟨hsound.downSize, hsound.upSize, hsound.requests_numbered,
    ⟨rfl, hsound.finisheds_numbered⟩, ?_⟩, .inr (.inr (.inr ⟨hp.client, ⟨.inl rfl, fun h => ?_⟩,
    hempty, ?_, hp.block, ?_⟩))⟩
  · refine ⟨hproper.requests, settled_cons (fun hdelivered => ?_) hproper.finisheds,
      hproper.clientDown, hproper.clientUp, hproper.serverDown, hproper.serverUp⟩
    obtain ⟨-, hreceived⟩ := hdelivered
    cases hreceived
  · cases h
  · simp only
    omega
  · refine ⟨_, s.finisheds, s.toClient, tagAll sent (.control (s.finisheds.length + 1)), rfl, rfl,
      hp.toClient, allTagged_tagAll _ _, ?_, rfl, fun hcomplete => ⟨rfl, ?_, rfl⟩⟩
    · simp only
      omega
    · rw [map_fst_tagAll]
      exact hpre.eq_of_length hcomplete

/-- The server has closed the connection. -/
theorem phase_closed {received : Bytes} {closed : Bool} (h : s.Phase)
    (hreceived : received = [] ∨ s.connection.state = .transfer) :
    { s with closed := closed, toServer := s.toServer.drop received.length }.Phase := by
  obtain ⟨hsound, hphase⟩ := h
  have hproper := hsound.proper
  have hnone : s.connection.Waits → s.toServer.drop received.length = s.toServer := by
    intro hwaits
    rcases hreceived with rfl | hstate
    · rfl
    · rw [TorrentServer.Connection.Waits, hstate] at hwaits
      simp at hwaits
  refine ⟨⟨hsound.downSize, hsound.upSize, hsound.requests_numbered, hsound.finisheds_numbered,
    hproper.requests, hproper.finisheds, hproper.clientDown, hproper.clientUp, hproper.serverDown,
    hproper.serverUp⟩, ?_⟩
  rcases hphase with hp | hp | hp | hp
  · refine .inl ⟨hp.client, ⟨hp.waiting.waits, hp.waiting.cleared⟩, ?_, hp.toClient, hp.block⟩
    simp only [hp.toServer, List.drop_nil]
  · rw [hnone hp.waiting.waits]
    exact .inr (.inl ⟨hp.client, ⟨hp.waiting.waits, hp.waiting.cleared⟩, hp.toClient, hp.down,
      hp.up_le, hp.block, hp.toServer⟩)
  · have htoServer := hp.toServer_le
    refine .inr (.inr (.inl ⟨hp.client, hp.connection, hp.block, hp.toServer.drop _, ?_, hp.up_le,
      hp.toClient, hp.toClient_eq, hp.down_le⟩))
    simp only [List.length_drop]
    omega
  · refine .inr (.inr (.inr ⟨hp.client, ⟨hp.waiting.waits, hp.waiting.cleared⟩, ?_, hp.up_le,
      hp.block, hp.toClient⟩))
    simp only [hp.toServer, List.drop_nil]

/-! ## Runs -/

/-- The histories do not depend on what the client shares with its other connections. -/
theorem clientHistory_tc (s : Exchange) (tc : TorrentClient) (state : ClientState)
    (received : List Tag) (sent : Bytes) :
    { s with tc := tc }.clientHistory state received sent =
      { s.clientHistory state received sent with tc := tc } := by
  unfold clientHistory
  split
  · simp only [requested]
    split <;> rfl
  · rfl
  · simp only
    split <;> rfl
  · rfl

/-- The histories do not depend on what the server shares with its other connections. -/
theorem serverHistory_ts (s : Exchange) (ts : TorrentServer) (state : ServerState)
    (received : List Tag) (sent : Bytes) :
    { s with ts := ts }.serverHistory state received sent =
      { s.serverHistory state received sent with ts := ts } := by
  unfold serverHistory
  split
  · simp only [looked]
    split <;> rfl
  · simp only [looked]
    split <;> rfl
  · rfl
  · simp only [said]
    split <;> rfl
  · rfl

/-- An activation may change what the client shares with its other connections. -/
theorem phase_clientHistory {tc : TorrentClient} {state : ClientState} {received : List Tag}
    {sent : Bytes} (h : (s.clientHistory state received sent).Phase) (htc : s.tc.SameSizes tc) :
    ({ s with tc := tc }.clientHistory state received sent).Phase := by
  have hsame : (s.clientHistory state received sent).tc = s.tc := by
    have heq := congrArg Exchange.tc (clientHistory_tc s s.tc state received sent)
    exact heq
  rw [clientHistory_tc]
  refine phase_elsewhere h ?_ ⟨rfl, rfl⟩
  rw [hsame]
  exact htc

/-- An activation may change what the server shares with its other connections. -/
theorem phase_serverHistory {ts : TorrentServer} {state : ServerState} {received : List Tag}
    {sent : Bytes} (h : (s.serverHistory state received sent).Phase) (hts : s.ts.SameSizes ts) :
    ({ s with ts := ts }.serverHistory state received sent).Phase := by
  have hsame : (s.serverHistory state received sent).ts = s.ts := by
    have heq := congrArg Exchange.ts (serverHistory_ts s s.ts state received sent)
    exact heq
  rw [serverHistory_ts]
  refine phase_elsewhere h ⟨rfl, rfl⟩ ?_
  rw [hsame]
  exact hts

/-- Where nothing passes and the state stays, there is nothing to tell. -/
theorem clientHistory_nothing (s : Exchange) : s.clientHistory s.server.state [] [] = s := by
  unfold clientHistory
  rw [map_receive_nil]
  split
  · rfl
  · simp [clientTransfered, tagAll]
  · rename_i hstate
    rw [if_neg (by rw [hstate]; simp)]
  · rfl

/-- Nothing is noted of a server that is busy and neither receives nor sends. -/
theorem serverHistory_nothing (hbusy : ¬s.connection.Waits) :
    s.serverHistory s.connection.state [] [] = s := by
  unfold serverHistory
  rw [map_receive_nil]
  split
  · rename_i hstate
    exact absurd (.inl hstate) hbusy
  · rename_i hstate
    exact absurd (.inr hstate) hbusy
  · simp [serverTransfered, tagAll]
  · rfl
  · rfl

/-- Nothing is taken from a socket that stays the same. -/
theorem taken_same {stream : Tagged} {socket socket' : Socket}
    (hstream : stream.map Prod.fst = socket.incoming) (h : socket.Same socket') :
    taken stream socket' = 0 := by
  have hnothing : stream.map Prod.fst = [] ++ socket'.incoming := by
    rw [hstream, ← h.1, List.nil_append]
  exact taken_eq hnothing

/-- An activation of the client keeps the invariant. -/
theorem phase_client {i : ClientInput} {answers : List Answer} (h : s.Phase)
    (hkeeps : s.KeepsWhole (.client i answers)) (hstep : s.step (.client i answers) = .ok s') :
    s'.Phase := by
  simp only [step] at hstep
  split at hstep
  · cases hstep
  · rename_i outcome hserve
    obtain rfl := Except.ok.inj hstep
    have hstate : TorrentClient.ofBlocks s.server.state = true := by
      obtain ⟨-, hp | hp | hp | hp⟩ := h
      · rcases hp.client with hclient | hclient <;> rw [hclient] <;> rfl
      all_goals rcases hp.client with hclient | ⟨hclient, -⟩ <;> rw [hclient] <;> rfl
    obtain ⟨hmove, hsizes⟩ := clientMove_serve hstate hserve
    have hstream : s.toClient.map Prod.fst = (s.clientSocket answers).incoming := rfl
    suffices hphase : ({ s with
        server := outcome.server
        toClient := s.toClient.drop (taken s.toClient outcome.socket) }.clientHistory
          s.server.state ((s.toClient.take (taken s.toClient outcome.socket)).map Prod.snd)
          outcome.socket.sent).Phase from phase_clientHistory hphase hsizes
    cases hmove with
    | quiet hserver hsame =>
      have hsent : outcome.socket.sent = [] := hsame.2
      rw [taken_same hstream hsame, hserver, hsent]
      exact (clientHistory_nothing s).symm ▸ h
    | idle hrequest hserver hsame =>
      have hsent : outcome.socket.sent = [] := hsame.2
      rw [taken_same hstream hsame, hserver, hsent, hrequest]
      have hidle := phase_clientIdle h hrequest
      simpa [clientHistory, requested, map_receive_nil] using hidle
    | request hrequest n hpos hle hincoming hsent hcookie hnext hdown hup =>
      have hnothing : taken s.toClient outcome.socket = 0 := by
        rw [taken, hincoming]
        simp [clientSocket]
      have hbytes : outcome.socket.sent = (fileRequest outcome.server.cookie).take n := by
        rw [hsent, hcookie]
        rfl
      have hsome : outcome.socket.sent ≠ [] := by
        rw [hbytes, hcookie, ← List.length_pos_iff, List.length_take]
        omega
      have hasked := phase_request h hrequest hnext hdown hup hsome
        (hbytes ▸ List.take_prefix n _)
      rw [hnothing, hrequest]
      simpa [clientHistory, map_receive_nil] using hasked
    | transfer htransfer received sent hpasses hdown hup hnext =>
      have hsent : outcome.socket.sent = sent := hpasses.sent_eq
      rw [taken_eq (hstream.trans hpasses.incoming_eq), hsent, htransfer]
      exact phase_clientTransfer h htransfer hpasses hstream hdown hup hnext
    | finished hfinished b bs hrecv hincoming hsent hserver =>
      have htakes := hkeeps hfinished
      rw [hrecv] at htakes
      have hnone : outcome.socket.sent = [] := hsent
      rw [taken_eq (hstream.trans hincoming), hnone, hserver, hfinished]
      exact phase_clientFinished h hfinished (hstream.trans hincoming) htakes

/-- An activation of the server keeps the invariant. -/
theorem phase_server {i : ServerInput} {answers : List Answer} (h : s.Phase)
    (hkeeps : s.KeepsWhole (.server i answers)) (hstep : s.step (.server i answers) = .ok s') :
    s'.Phase := by
  simp only [step] at hstep
  split_ifs at hstep with hclosed
  · obtain rfl := Except.ok.inj hstep
    exact h
  · have hstate : TorrentServer.ofBlocks s.connection.state = true := by
      obtain ⟨-, hp | hp | hp | hp⟩ := h
      · rcases hp.waiting.waits with hserver | hserver <;> rw [hserver] <;> rfl
      · rcases hp.waiting.waits with hserver | hserver <;> rw [hserver] <;> rfl
      · rcases hp.connection with hserver | ⟨hserver, -⟩ <;> rw [hserver] <;> rfl
      · rcases hp.waiting.waits with hserver | hserver <;> rw [hserver] <;> rfl
    obtain ⟨hmove, hsizes⟩ := serverMove_serve s.ts (s.serverSocket answers) i hstate
    have hstream : s.toServer.map Prod.fst = (s.serverSocket answers).incoming := rfl
    set outcome := s.ts.serve s.connection (s.serverSocket answers) i with houtcome
    have hsuffices : ∀ connection, outcome.connection = some connection →
        ({ s with
          connection := connection
          toServer := s.toServer.drop (taken s.toServer outcome.socket) }.serverHistory
            s.connection.state
            ((s.toServer.take (taken s.toServer outcome.socket)).map Prod.snd)
            outcome.socket.sent).Phase → s'.Phase := by
      intro connection hconnection hphase
      rw [hconnection] at hstep
      obtain rfl := Except.ok.inj hstep
      exact phase_serverHistory hphase hsizes
    cases hmove with
    | closed hconnection received hreceived hincoming =>
      rw [hconnection] at hstep
      obtain rfl := Except.ok.inj hstep
      rw [taken_eq (hstream.trans hincoming)]
      exact phase_elsewhere (phase_closed h hreceived) ⟨rfl, rfl⟩ hsizes
    | quiet hbusy hconnection hsame =>
      have hsent : outcome.socket.sent = [] := hsame.2
      refine hsuffices _ hconnection ?_
      rw [taken_same hstream hsame, hsent]
      exact (serverHistory_nothing hbusy).symm ▸ h
    | waits hwaits hconnection hsame =>
      have hsent : outcome.socket.sent = [] := hsame.2
      refine hsuffices _ hconnection ?_
      rw [taken_same hstream hsame, hsent]
      exact phase_serverWaits h hwaits
    | request hwaits b bs hrecv hincoming hsent connection' hconnection hdown hup hnext =>
      have htakes := hkeeps (by simpa using hclosed) hwaits
      rw [hrecv] at htakes
      refine hsuffices _ hconnection ?_
      rw [taken_eq (hstream.trans hincoming)]
      exact phase_serverRequest h hwaits (hstream.trans hincoming) htakes hdown hup hnext
    | transfer htransfer received sent hpasses connection' hconnection hdown hup hnext =>
      have hsent : outcome.socket.sent = sent := hpasses.sent_eq
      refine hsuffices _ hconnection ?_
      rw [taken_eq (hstream.trans hpasses.incoming_eq), hsent, htransfer]
      exact phase_serverTransfer h htransfer hpasses hstream hdown hup hnext
    | finished hfinished n hpos hle hconnection hincoming hsent =>
      have hnothing : taken s.toServer outcome.socket = 0 := by
        rw [taken, hincoming]
        simp [serverSocket]
      have hbytes : outcome.socket.sent = finishedText.take n := hsent
      have hsome : outcome.socket.sent ≠ [] := by
        rw [hbytes, ← List.length_pos_iff, List.length_take]
        omega
      refine hsuffices _ hconnection ?_
      rw [hnothing, hfinished]
      exact phase_serverFinished h hfinished hsome (hbytes ▸ List.take_prefix n _)

/-- Every event that cuts no control message keeps the invariant. -/
theorem phase_step (h : s.Phase) (hkeeps : s.KeepsWhole e) (hstep : s.step e = .ok s') :
    s'.Phase := by
  cases e with
  | client i answers => exact phase_client h hkeeps hstep
  | server i answers => exact phase_server h hkeeps hstep
  | elsewhere tc ts =>
    obtain rfl := Except.ok.inj hstep
    exact phase_elsewhere h ⟨rfl, rfl⟩ ⟨rfl, rfl⟩

/-- In every run that cuts no control message where the receiver waits for it, every request and
every answer that was delivered has been recognised once, and the counters of both sides have
counted payload of the current block only. -/
theorem proper_of_keepsWhole {tc : TorrentClient} {id : ℕ} {node : Node} {sockd : Int}
    {cookie : UInt32} {ts : TorrentServer} {connection : TorrentServer.Connection}
    {events : List ExchangeEvent}
    (hkeeps : StepsMeet step KeepsWhole (start tc id node sockd cookie ts connection) events)
    (hrun : runSteps step (start tc id node sockd cookie ts connection) events = .ok s) :
    s.Proper :=
  (invariant_of_stepsMeet Phase (fun _ _ _ => phase_step) (phase_start ..) hkeeps hrun).1.proper

/-! ## A block of 40 bytes -/

/-- A client with two blocks of 40 bytes in each direction. -/
def smallClient : TorrentClient :=
  TorrentClient.start (.of 255 255 255 255) ⟨.of 10 0 0 1, .of 80 35⟩
    (.connected 5) 80 40 40

/-- A server for it. -/
def smallServer : TorrentServer where
  listenSockd := 3
  serverPort := .of 144 31
  connections := []
  downBlockSize := 40
  upBlockSize := 40
  errcode := .success

/-- The two at the ends of a new connection. -/
def smallExchange : Exchange :=
  start smallClient 1 ⟨.of 10 0 0 2, .of 144 31⟩ 6 0xCAFE smallServer
    (TorrentServer.Connection.accepted 7 (.of 10 0 0 3))

/-- The client is woken up for input and output. -/
def wakeClient (answers : List Answer) : ExchangeEvent :=
  .client
    { sockd := 6
      pollIn := true
      pollOut := true
      connects := []
      cookies := []
      stack := [0]
      now := 0 } answers

/-- The server is woken up for input and output. -/
def wakeServer (answers : List Answer) : ExchangeEvent :=
  .server
    { sockd := 7
      pollIn := true
      pollOut := true
      accepts := []
      stack := [0] } answers

/-- A block, with the payload cut into pieces, and the next request. -/
def oneBlock : List ExchangeEvent :=
  [wakeClient [.ready 99], wakeServer [.ready 99], wakeServer [.failed .wouldBlock],
    wakeClient [.failed .wouldBlock], .client ⟨6, false, true, [], [], [0], 0⟩ [.ready 99],
    wakeServer [.ready 9, .ready 19], wakeServer [.ready 99, .ready 99],
    wakeClient [.ready 24], wakeClient [.ready 99], wakeServer [.ready 99], wakeClient [.ready 99],
    wakeClient [.ready 99]]

/-- The block passes, and the second request is on its way. -/
theorem proper_of_keepsWhole_oneBlock :
    ∃ s, runSteps step smallExchange oneBlock = .ok s ∧ s.Proper := by
  have hkeeps : StepsMeet step KeepsWhole smallExchange oneBlock := by
    decide +kernel
  obtain ⟨s, hrun⟩ : Succeeds (runSteps step smallExchange oneBlock) :=
    succeeds_of_isOk (by decide +kernel)
  exact ⟨s, hrun, proper_of_keepsWhole hkeeps hrun⟩

/-- The request arrives in two pieces: it is delivered, and never recognised. -/
theorem not_proper_requestCut :
    ∃ s, runSteps step smallExchange [wakeClient [.ready 99], wakeServer [.ready 7],
      wakeServer [.ready 99]] = .ok s ∧ ¬s.Proper := by
  have hrun : ∃ s, runSteps step smallExchange [wakeClient [.ready 99], wakeServer [.ready 7],
      wakeServer [.ready 99]] = .ok s ∧ ∃ m ∈ s.requests, m.Delivered ∧ m.recognised ≠ 1 :=
    exists_ok_of_map (by decide +kernel)
  obtain ⟨s, hs, m, hm, hdelivered, hnot⟩ := hrun
  exact ⟨s, hs, fun hproper => hnot (hproper.requests m hm hdelivered)⟩

end Exchange

end ShadowExtras.Torrent
