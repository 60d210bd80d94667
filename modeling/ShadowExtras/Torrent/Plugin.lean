import ShadowExtras.Torrent.BlockAccounting

/-!
# The torrent plug-in

`torrent.c`: the activation of a node that has a client. It asks once for the descriptors that are
ready and handles them in a loop. Inside that loop the client may be started again after an error,
and then the activation returns; or the last block is downloaded, and then the client is freed and
the loop goes on with the next descriptor.

`clientEvent` is the body of that loop. A use of the freed client and a report that follows
`currentBlockTransfer` to no record of the client are faults.
-/

namespace ShadowExtras.Torrent

open Foundation

/-- What a report begins with. -/
inductive Preamble
  | clientBlockComplete | clientBlockProgress | clientComplete
  deriving DecidableEq, Repr

/-- What can go wrong in an activation. -/
inductive PluginFault
  /-- Inside `torrentClient_activate`. -/
  | client (fault : Fault)
  /-- `torrent->client` is used after `torrent_free`. -/
  | freedClient
  /-- `torrent_report` follows `currentBlockTransfer`, and there is no such server. -/
  | noServer
  deriving DecidableEq, Repr

/-- A fault of `torrentClient_activate`: the client was there, and a report followed no wrong
pointer. -/
def PluginFault.Inside (fault : PluginFault) : Prop := ∃ f, fault = .client f

/-- `Torrent`, for a node with a client, and the arguments that are not kept in `TorrentClient`
above. -/
structure Plugin where
  client : Option TorrentClient
  clientDone : Bool
  /-- `lastReport.tv_sec` -/
  lastReport : ℕ
  authority : Node
  fileSize : Int
  /-- History: the reports, and the server each of them is about. -/
  reports : List (Preamble × ℕ)
  deriving DecidableEq, Repr

/-- A descriptor that is ready, and what the environment does while it is handled. -/
structure ClientEvent where
  input : ClientInput
  socket : Socket
  /-- The outcome of connecting to the authority, should the client be started again. -/
  connect : Connect
  /-- The clock in seconds. -/
  now : ℕ
  deriving DecidableEq, Repr

namespace TorrentClient

/-- The server that `currentBlockTransfer` points to. -/
def currentServer (tc : TorrentClient) : Option Server :=
  tc.currentBlockTransfer.bind fun id => tc.records[id]?

/-- The record of a descriptor. -/
def serverOf (tc : TorrentClient) (sockd : Int) : Option Server :=
  (tc.lookup sockd).bind fun id => tc.records[id]?

/-- Has the current block anything to report? -/
def progressed (tc : TorrentClient) : Bool :=
  tc.currentServer.any fun server =>
    decide (server.downBytesTransfered > 0 ∨ server.upBytesTransfered > 0)

end TorrentClient

namespace Plugin

/-- `torrent_new`, for a node with a client. -/
def new (socksAddr : InAddr) (authority : Node) (connect : Connect)
    (fileSize downBlockSize upBlockSize : Int) (now : ℕ) : Plugin where
  client := some (.start socksAddr authority connect fileSize downBlockSize upBlockSize)
  clientDone := false
  lastReport := now
  authority := authority
  fileSize := fileSize
  reports := []

/-- `torrent_report` -/
def report (plugin : Plugin) (tc : TorrentClient) (preamble : Preamble) :
    Except PluginFault Plugin :=
  match tc.currentBlockTransfer, tc.currentServer with
  | some id, some _ => .ok { plugin with reports := plugin.reports ++ [(preamble, id)] }
  | _, _ => .error .noServer

/-- `torrent_free` -/
def free (plugin : Plugin) : Plugin := { plugin with client := none }

/-- The report that is due for a block. -/
def blockReport (plugin : Plugin) (tc : TorrentClient) (code : ClientCode) (now : ℕ) :
    Except PluginFault Plugin :=
  if code = .blockDownloaded then { plugin with lastReport := now }.report tc .clientBlockComplete
  else if now > plugin.lastReport + 1 ∧ tc.progressed then
    { plugin with lastReport := now }.report tc .clientBlockProgress
  else .ok plugin

/-- Is the download complete? -/
def completed (plugin : Plugin) (tc : TorrentClient) : Except PluginFault Plugin :=
  if tc.blocksDownloaded ≥ tc.numBlocks then
    match plugin.report tc .clientComplete with
    | .error fault => .error fault
    | .ok plugin => .ok { plugin with clientDone := true }.free
  else .ok plugin

/-- What follows `torrentClient_activate` when the client was not started again. -/
def afterClient (plugin : Plugin) (tc : TorrentClient) (code : ClientCode) (now : ℕ) :
    Except PluginFault Plugin :=
  if plugin.clientDone = false ∧ tc.totalBytesDown > 0 then
    match plugin.blockReport tc code now with
    | .error fault => .error fault
    | .ok plugin => plugin.completed tc
  else .ok plugin

/-- The errors after which the client is started again. -/
def restarts : ClientCode → Bool
  | .errFatal | .errSocksconn => true
  | _ => false

/-- `torrentClient_shutdown` and `torrentClient_start` -/
def restart (plugin : Plugin) (tc : TorrentClient) (connect : Connect) : Plugin :=
  { plugin with
    client := some (.start tc.socksAddr plugin.authority connect plugin.fileSize tc.downBlockSize
      tc.upBlockSize) }

/-- The body of the loop over the descriptors of the client; the flag says that `torrent_activate`
returns. -/
def clientEvent (plugin : Plugin) (e : ClientEvent) : Except PluginFault (Plugin × Bool) :=
  match plugin.client with
  | none => .error .freedClient
  | some tc =>
    match tc.activate e.input e.socket with
    | .error fault => .error (.client fault)
    | .ok (tc, _, code) =>
      if restarts code then .ok (plugin.restart tc e.connect, true)
      else
        match { plugin with client := some tc }.afterClient tc code e.now with
        | .error fault => .error fault
        | .ok plugin => .ok (plugin, false)

/-- The loop over the descriptors that are ready. -/
def clientLoop (plugin : Plugin) : List ClientEvent → Except PluginFault Plugin
  | [] => .ok plugin
  | e :: es =>
    match plugin.clientEvent e with
    | .error fault => .error fault
    | .ok (plugin, true) => .ok plugin
    | .ok (plugin, false) => plugin.clientLoop es

/-- `torrent_activate`, the part of the client. -/
def activate (plugin : Plugin) (batch : List ClientEvent) : Except PluginFault Plugin :=
  match plugin.client with
  | none => .ok plugin
  | some _ => plugin.clientLoop batch

/-! ## The last block -/

end Plugin

namespace ClientEvent

/-- Does `recv` deliver the message that a block is complete? -/
def finishes (e : ClientEvent) : Bool :=
  match (e.socket.recv bufSize).1 with
  | .ok (b :: bs) => TorrentClient.standsIn TorrentClient.finishedText (b :: bs) e.input.stack
  | _ => false

/-- Does a server end its block with this event? -/
def Downloads (e : ClientEvent) (tc : TorrentClient) : Prop :=
  e.finishes = true ∧ ∃ server ∈ tc.serverOf e.input.sockd, server.state = .serverFinished

end ClientEvent

namespace Plugin

/-- Is this the event with which the last block is downloaded? -/
def Completes (plugin : Plugin) (e : ClientEvent) : Prop :=
  plugin.clientDone = false ∧ ∃ tc ∈ plugin.client, e.Downloads tc ∧ 0 < tc.totalBytesDown ∧
    tc.numBlocks ≤ tc.blocksDownloaded + 1

/-- In what the loop handles of the batch, no event stands behind one with which the last block is
downloaded. -/
def CompletesLast (plugin : Plugin) : List ClientEvent → Prop
  | [] => True
  | e :: es => (plugin.Completes e → es = []) ∧
      ∀ plugin', plugin.clientEvent e = .ok (plugin', false) → plugin'.CompletesLast es

end Plugin

/-! ## What an activation of the client leaves to report -/

namespace TorrentClient

variable {tc tc' : TorrentClient} {server : Server} {socket socket' : Socket} {i : ClientInput}
  {id : ℕ} {outcome : Outcome} {code : ClientCode}

/-- The client can be reported about: it points to a server of its own once a block was
downloaded. -/
structure Reportable (tc : TorrentClient) : Prop where
  balanced : tc.Balanced
  current : ∀ id, tc.currentBlockTransfer = some id → id < tc.records.length
  pointed : 0 < tc.blocksDownloaded → tc.currentBlockTransfer ≠ none

/-- What an activation does to the client, for the loop around it. -/
structure Advances (tc tc' : TorrentClient) (code : ClientCode) : Prop where
  reportable : tc'.Reportable
  numBlocks : tc'.numBlocks = tc.numBlocks
  /-- A block was downloaded, or none was; bytes are received while blocks are missing. -/
  blocks : if code = .blockDownloaded then
      tc'.blocksDownloaded = tc.blocksDownloaded + 1 ∧ tc'.totalBytesDown = tc.totalBytesDown
    else tc'.blocksDownloaded = tc.blocksDownloaded ∧
      (tc'.totalBytesDown = tc.totalBytesDown ∨ tc.blocksDownloaded < tc.numBlocks)

/-- Who has a block is counted. -/
theorem transferring_pos (hserver : server ∈ tc.records) (hstate : ofTransfer server.state = true) :
    0 < tc.transferring :=
  List.countP_pos_iff.mpr ⟨server, hserver, hstate⟩

/-- A block is missing while a server has one. -/
theorem Balanced.missing (h : tc.Balanced) (hbusy : 0 < tc.transferring) :
    tc.blocksDownloaded < tc.numBlocks := by
  have hlaw := h.blocks
  have hdownloaded := h.downloaded
  rcases h.remaining with hremaining | hremaining <;> omega

/-- An activation advances a client that can be reported. -/
theorem Reportable.activate (h : tc.Reportable)
    (hactivate : tc.activate i socket = .ok (tc', socket', code)) : tc.Advances tc' code := by
  obtain ⟨hbalanced, -, hblocks⟩ := h.balanced.activate hactivate
  obtain ⟨-, rfl, -, rfl⟩ | ⟨id, server, outcome, -, hserver, hserve, htc, -, rfl⟩ :=
    activate_cases hactivate
  · exact ⟨h, rfl, by simp⟩
  have hmember := List.mem_of_getElem? hserver
  obtain ⟨hmove, -⟩ := blockMove_serve (h.balanced.records server hmember).nextstate hserve
  obtain ⟨more, hrecords, -⟩ := records_serve hserve
  obtain ⟨hid, -⟩ := List.getElem?_eq_some_iff.mp hserver
  have hlength : tc.records.length ≤ tc'.records.length := by
    rw [htc, List.length_set, hrecords, List.length_append]
    omega
  have hback : outcome.tc.SameAccounts tc' := by
    rw [htc]
    exact ⟨rfl, rfl, rfl, rfl, rfl, rfl⟩
  -- where the pointer stays, it points to a record as before
  have hstays (hsame : tc'.currentBlockTransfer = tc.currentBlockTransfer)
      (hdownloaded : tc'.blocksDownloaded = tc.blocksDownloaded) : tc'.Reportable := by
    refine ⟨hbalanced, fun id hcurrent => ?_, fun hpos => ?_⟩
    · rw [hsame] at hcurrent
      exact (h.current id hcurrent).trans_le hlength
    · rw [hsame]
      exact h.pointed (by omega)
  have hmoves (hcurrent : tc'.currentBlockTransfer = some id) : tc'.Reportable := by
    refine ⟨hbalanced, fun id' hid' => ?_, fun _ => ?_⟩
    · rw [hcurrent] at hid'
      obtain rfl := Option.some.inj hid'
      exact hid.trans_le hlength
    · rw [hcurrent]
      simp
  cases hmove with
  | quiet haccounts hcode hsame =>
    have hboth := haccounts.trans hback
    refine ⟨hstays hboth.currentBlockTransfer hboth.blocksDownloaded, hblocks, ?_⟩
    rw [if_neg hcode]
    exact ⟨hboth.blocksDownloaded, .inl hboth.totalBytesDown⟩
  | request hidle hsome haccounts hcode hnext hdown =>
    have hboth := haccounts.trans hback
    refine ⟨hstays hboth.currentBlockTransfer hboth.blocksDownloaded, hblocks, ?_⟩
    rw [if_neg hcode]
    exact ⟨hboth.blocksDownloaded, .inl hboth.totalBytesDown⟩
  | transfer hstate bytes hle block hblock haccounts hcode hdown hnext =>
    have hboth := haccounts.trans hback
    have hbusy : 0 < tc.transferring := transferring_pos hmember (by rw [hstate, ofTransfer])
    refine ⟨?_, hblocks, ?_⟩
    · have hcurrent : tc'.currentBlockTransfer = block := hboth.currentBlockTransfer
      rcases hblock with rfl | rfl
      · exact hstays hcurrent hboth.blocksDownloaded
      · exact hmoves hcurrent
    · rw [if_neg hcode]
      exact ⟨hboth.blocksDownloaded, .inr (h.balanced.missing hbusy)⟩
  | finished hstate haccounts hcode hnext =>
    have hboth := haccounts.trans hback
    refine ⟨hmoves hboth.currentBlockTransfer, hblocks, ?_⟩
    rw [if_pos hcode]
    exact ⟨hboth.blocksDownloaded, hboth.totalBytesDown⟩

/-- In the state in which the end of a block is waited for. -/
theorem code_serverFinished (tc : TorrentClient) (id : ℕ) (server : Server) (e : ClientEvent) :
    (tc.serverFinished id server e.socket e.input.stack).code = .blockDownloaded ↔
      e.finishes = true := by
  unfold serverFinished ClientEvent.finishes
  rcases e.socket.recv bufSize with ⟨errno | ⟨_ | ⟨b, bs⟩⟩, socket⟩
  · simpa using (sameAccounts_failed tc server socket _ .errRecv).2
  · simpa using (sameAccounts_closedByPeer tc server socket).2
  · simp only
    split <;> simp_all

/-- The client says that a block is downloaded just if a server ends its block. -/
theorem blockDownloaded_iff {e : ClientEvent} (h : tc.Balanced)
    (hactivate : tc.activate e.input e.socket = .ok (tc', socket', code)) :
    code = .blockDownloaded ↔ e.Downloads tc := by
  obtain ⟨hlookup, -, -, rfl⟩ | ⟨id, server, outcome, hlookup, hserver, hserve, -, -, rfl⟩ :=
    activate_cases hactivate
  · simp [ClientEvent.Downloads, serverOf, hlookup]
  have hof : tc.serverOf e.input.sockd = some server := by
    rw [serverOf, hlookup, Option.bind_some, hserver]
  have hcounted := h.records server (List.mem_of_getElem? hserver)
  constructor
  · intro hcode
    have hstate : server.state = .serverFinished := by
      cases (blockMove_serve hcounted.nextstate hserve).1 with
      | finished hstate => exact hstate
      | quiet haccounts hnot => exact absurd hcode hnot
      | request hidle hsome haccounts hnot => exact absurd hcode hnot
      | transfer hstate bytes hle block hblock haccounts hnot => exact absurd hcode hnot
    refine ⟨?_, server, hof, hstate⟩
    simp only [serve, hstate] at hserve
    obtain rfl := Except.ok.inj hserve
    exact (code_serverFinished tc id server e).mp hcode
  · rintro ⟨hfinishes, server', hserver', hstate⟩
    obtain rfl : server = server' := Option.some.inj (hof.symm.trans hserver')
    simp only [serve, hstate] at hserve
    obtain rfl := Except.ok.inj hserve
    exact (code_serverFinished tc id server e).mpr hfinishes

/-- The end of a block is received without a fault. -/
theorem activate_of_downloads {e : ClientEvent} (h : e.Downloads tc) :
    ∃ result, tc.activate e.input e.socket = .ok result := by
  obtain ⟨-, server, hserver, hstate⟩ := h
  obtain ⟨id, hlookup, hrecord⟩ := Option.bind_eq_some_iff.mp hserver
  simp only [activate, hlookup, hrecord, serve, hstate]
  exact ⟨_, rfl⟩

/-- A new client can be reported. -/
theorem reportable_start (socksAddr : InAddr) (authority : Node) (connect : Connect)
    (fileSize downBlockSize upBlockSize : Int) :
    (start socksAddr authority connect fileSize downBlockSize upBlockSize).Reportable :=
  ⟨balanced_start socksAddr authority connect fileSize downBlockSize upBlockSize, by simp [start],
    by simp [start]⟩

end TorrentClient

/-! ## The loop -/

namespace Plugin

variable {plugin plugin' : Plugin} {tc : TorrentClient} {code : ClientCode} {e : ClientEvent}
  {returns : Bool}

/-- While there is a client its download is not complete, and it can be reported about. -/
def Sound (plugin : Plugin) : Prop :=
  ∀ tc ∈ plugin.client, plugin.clientDone = false ∧ tc.Reportable ∧
    (0 < tc.totalBytesDown → tc.blocksDownloaded < tc.numBlocks)

/-- A plugin without a client is sound. -/
theorem sound_none (h : plugin.client = none) : plugin.Sound := by
  intro tc htc
  rw [h] at htc
  cases htc

/-- A plugin with a new client is sound. -/
theorem sound_start {socksAddr : InAddr} {authority : Node} {connect : Connect}
    {fileSize downBlockSize upBlockSize : Int} (hdone : plugin.clientDone = false)
    (h : plugin.client =
      some (.start socksAddr authority connect fileSize downBlockSize upBlockSize)) :
    plugin.Sound := by
  intro tc htc
  obtain rfl : _ = tc := Option.some.inj (h.symm.trans htc)
  refine ⟨hdone, TorrentClient.reportable_start .., fun hpos => ?_⟩
  simp [TorrentClient.start] at hpos

/-- A report follows the pointer to a server. -/
theorem report_eq_ok (plugin : Plugin) (h : tc.Reportable)
    (hpointed : tc.currentBlockTransfer ≠ none) (preamble : Preamble) :
    ∃ id, plugin.report tc preamble =
      .ok { plugin with reports := plugin.reports ++ [(preamble, id)] } := by
  obtain ⟨id, hid⟩ := Option.ne_none_iff_exists'.mp hpointed
  refine ⟨id, ?_⟩
  rw [report, TorrentClient.currentServer, hid, Option.bind_some,
    List.getElem?_eq_getElem (h.current id hid)]

/-- A block is reported of a client that can be reported. -/
theorem blockReport_eq_ok (plugin : Plugin) (h : tc.Reportable) (now : ℕ)
    (hpointed : code = .blockDownloaded → tc.currentBlockTransfer ≠ none) :
    ∃ plugin', plugin.blockReport tc code now = .ok plugin' ∧ plugin'.client = plugin.client ∧
      plugin'.clientDone = plugin.clientDone := by
  unfold blockReport
  split
  · rename_i hcode
    obtain ⟨id, hreport⟩ := report_eq_ok { plugin with lastReport := now } h
      (hpointed hcode) .clientBlockComplete
    exact ⟨_, hreport, rfl, rfl⟩
  · split
    · rename_i hdue
      have hsome : tc.currentBlockTransfer ≠ none := by
        intro hnone
        simp [TorrentClient.progressed, TorrentClient.currentServer, hnone] at hdue
      obtain ⟨id, hreport⟩ := report_eq_ok { plugin with lastReport := now } h hsome
        .clientBlockProgress
      exact ⟨_, hreport, rfl, rfl⟩
    · exact ⟨plugin, rfl, rfl, rfl⟩

/-- The test for the end of the download: the client is freed, or all is left. -/
theorem completed_eq_ok (plugin : Plugin) (h : tc.Reportable)
    (hpointed : tc.numBlocks ≤ tc.blocksDownloaded → tc.currentBlockTransfer ≠ none) :
    ∃ plugin', plugin.completed tc = .ok plugin' ∧
      (if tc.numBlocks ≤ tc.blocksDownloaded then plugin'.client = none else plugin' = plugin) := by
  unfold completed
  split
  · rename_i hcomplete
    obtain ⟨id, hreport⟩ := report_eq_ok plugin h (hpointed hcomplete) .clientComplete
    rw [hreport]
    exact ⟨_, rfl, rfl⟩
  · exact ⟨plugin, rfl, rfl⟩

/-- The last block completes the client. -/
theorem completes_iff (hdone : plugin.clientDone = false) (hclient : plugin.client = some tc) :
    plugin.Completes e ↔
      e.Downloads tc ∧ 0 < tc.totalBytesDown ∧ tc.numBlocks ≤ tc.blocksDownloaded + 1 := by
  simp [Completes, hdone, hclient]

/-- The test after the event finds the download complete just if the event completes it. -/
theorem completes_iff_of_activate {tc' : TorrentClient} {socket : Socket} (h : plugin.Sound)
    (hclient : plugin.client = some tc)
    (hactivate : tc.activate e.input e.socket = .ok (tc', socket, code)) :
    plugin.Completes e ↔ 0 < tc'.totalBytesDown ∧ tc'.numBlocks ≤ tc'.blocksDownloaded := by
  obtain ⟨hdone, hreportable, hmissing⟩ := h tc hclient
  have hadvances := hreportable.activate hactivate
  have hblocks := hadvances.blocks
  have hnum := hadvances.numBlocks
  rw [completes_iff hdone hclient,
    ← TorrentClient.blockDownloaded_iff hreportable.balanced hactivate]
  by_cases hcode : code = .blockDownloaded
  · rw [if_pos hcode] at hblocks
    obtain ⟨hdownloaded, htotal⟩ := hblocks
    rw [hnum, hdownloaded, htotal]
    simp [hcode]
  · rw [if_neg hcode] at hblocks
    obtain ⟨hdownloaded, htotal⟩ := hblocks
    constructor
    · rintro ⟨hdownloads, -⟩
      exact absurd hdownloads hcode
    · rintro ⟨hpos, hcomplete⟩
      -- the download was not complete before
      rw [hnum, hdownloaded] at hcomplete
      rcases htotal with htotal | hmore
      · have := hmissing (by omega)
        omega
      · omega

/-- One descriptor: the only fault is inside the client, and the client is freed just by the event
with which the last block is downloaded. -/
theorem clientEvent_spec (h : plugin.Sound) (hclient : plugin.client = some tc) (e : ClientEvent) :
    match plugin.clientEvent e with
    | .error fault => fault.Inside ∧ ¬plugin.Completes e
    | .ok (plugin', returns) => plugin'.Sound ∧ (plugin'.client = none ↔ plugin.Completes e) ∧
        (returns = true → plugin'.client ≠ none) := by
  obtain ⟨hdone, hreportable, hmissing⟩ := h tc hclient
  unfold clientEvent
  simp only [hclient]
  cases hactivate : tc.activate e.input e.socket with
  | error fault =>
    refine ⟨⟨fault, rfl⟩, fun hcompletes => ?_⟩
    obtain ⟨hdownloads, -⟩ := (completes_iff hdone hclient).mp hcompletes
    obtain ⟨result, hok⟩ := TorrentClient.activate_of_downloads hdownloads
    rw [hactivate] at hok
    cases hok
  | ok result =>
    obtain ⟨tc', socket', code⟩ := result
    have hadvances := hreportable.activate hactivate
    have hcompletes := completes_iff_of_activate h hclient hactivate
    have hcode : code = .blockDownloaded ↔ e.Downloads tc :=
      TorrentClient.blockDownloaded_iff hreportable.balanced hactivate
    simp only
    by_cases hrestarts : restarts code = true
    · rw [if_pos hrestarts]
      refine ⟨sound_start hdone rfl, ?_, fun _ => by simp [restart]⟩
      constructor
      · intro hnone
        simp [restart] at hnone
      · intro hlast
        rw [hcode.mpr ((completes_iff hdone hclient).mp hlast).1] at hrestarts
        cases hrestarts
    · rw [if_neg hrestarts]
      have hdownloaded : code = .blockDownloaded → tc'.currentBlockTransfer ≠ none := by
        intro hblock
        have hblocks := hadvances.blocks
        rw [if_pos hblock] at hblocks
        have := hreportable.balanced.downloaded
        exact hadvances.reportable.pointed (by omega)
      unfold afterClient
      by_cases hreceived : 0 < tc'.totalBytesDown
      · rw [if_pos ⟨hdone, hreceived⟩]
        obtain ⟨plugin₁, hreport, hclient₁, hdone₁⟩ := blockReport_eq_ok
          { plugin with client := some tc' } hadvances.reportable e.now hdownloaded
        obtain ⟨plugin₂, hcompleted, hresult⟩ := completed_eq_ok plugin₁
          hadvances.reportable fun hlast => hdownloaded
            (hcode.mpr ((completes_iff hdone hclient).mp (hcompletes.mpr ⟨hreceived, hlast⟩)).1)
        simp only [hreport, hcompleted]
        split at hresult
        · rename_i hlast
          exact ⟨sound_none hresult, by simp [hresult, hcompletes, hreceived, hlast], by simp⟩
        · rename_i hmore
          rw [hresult]
          refine ⟨fun tc'' htc => ?_, by simp [hclient₁, hcompletes, hmore], by simp⟩
          obtain rfl : tc' = tc'' := Option.some.inj (hclient₁.symm.trans htc)
          exact ⟨hdone₁.trans hdone, hadvances.reportable, fun _ => by omega⟩
      · rw [if_neg fun hboth => hreceived hboth.2]
        refine ⟨fun tc'' htc => ?_, by simp [hcompletes, hreceived], by simp⟩
        obtain rfl : tc' = tc'' := Option.some.inj htc
        exact ⟨hdone, hadvances.reportable, fun hpos => absurd hpos hreceived⟩

/-- The loop, when nothing stands behind the event that completes the download. -/
theorem clientLoop_of_completesLast {es : List ClientEvent} (h : plugin.Sound)
    (hclient : plugin.client ≠ none ∨ es = []) (hlast : plugin.CompletesLast es) :
    match plugin.clientLoop es with
    | .error fault => fault.Inside
    | .ok plugin' => plugin'.Sound := by
  induction es generalizing plugin with
  | nil => exact h
  | cons e es ih =>
    obtain ⟨tc, htc⟩ : ∃ tc, plugin.client = some tc := by
      simpa [Option.ne_none_iff_exists'] using hclient
    have hevent := clientEvent_spec h htc e
    obtain ⟨hcompletes, hrest⟩ := hlast
    unfold clientLoop
    cases hresult : plugin.clientEvent e with
    | error fault =>
      rw [hresult] at hevent
      exact hevent.1
    | ok result =>
      obtain ⟨plugin', returns⟩ := result
      rw [hresult] at hevent
      obtain ⟨hsound, hfreed, -⟩ := hevent
      cases returns with
      | true => exact hsound
      | false =>
        refine ih hsound ?_ (hrest plugin' hresult)
        by_cases hnone : plugin'.client = none
        · exact .inr (hcompletes (hfreed.mp hnone))
        · exact .inl hnone

/-- The loop, when something stands behind the event that completes the download. -/
theorem clientLoop_of_not_completesLast {es : List ClientEvent} (h : plugin.Sound)
    (hclient : plugin.client ≠ none) (hlast : ¬plugin.CompletesLast es) :
    plugin.clientLoop es = .error .freedClient := by
  induction es generalizing plugin with
  | nil => exact absurd trivial hlast
  | cons e es ih =>
    obtain ⟨tc, htc⟩ := Option.ne_none_iff_exists'.mp hclient
    have hevent := clientEvent_spec h htc e
    unfold clientLoop
    by_cases hcompletes : plugin.Completes e
    · cases hresult : plugin.clientEvent e with
      | error fault =>
        rw [hresult] at hevent
        exact absurd hcompletes hevent.2
      | ok result =>
        obtain ⟨plugin', returns⟩ := result
        rw [hresult] at hevent
        obtain ⟨-, hfreed, hreturns⟩ := hevent
        have hnone := hfreed.mpr hcompletes
        cases returns with
        | true => exact absurd hnone (hreturns rfl)
        | false =>
          cases es with
          | nil =>
            refine absurd ⟨fun _ => rfl, fun _ _ => trivial⟩ hlast
          | cons e' es' =>
            have hfault : plugin'.clientEvent e' = .error .freedClient := by
              rw [clientEvent, hnone]
            simp only [clientLoop, hfault]
    · have hrest : ∃ plugin', plugin.clientEvent e = .ok (plugin', false) ∧
          ¬plugin'.CompletesLast es := by
        by_contra hall
        push Not at hall
        exact hlast ⟨fun hc => absurd hc hcompletes, hall⟩
      obtain ⟨plugin', hresult, hnot⟩ := hrest
      rw [hresult] at hevent
      obtain ⟨hsound, hfreed, -⟩ := hevent
      rw [hresult]
      exact ih hsound (fun hnone => hcompletes (hfreed.mp hnone)) hnot

/-- Without a client nothing is completed. -/
theorem completesLast_of_none (h : plugin.client = none) (es : List ClientEvent) :
    plugin.CompletesLast es := by
  have hfault (e : ClientEvent) : plugin.clientEvent e = .error .freedClient := by
    rw [clientEvent, h]
  cases es with
  | nil => trivial
  | cons e es =>
    refine ⟨?_, ?_⟩
    · rintro ⟨-, tc, htc, -⟩
      rw [h] at htc
      cases htc
    · intro plugin' hresult
      rw [hfault] at hresult
      cases hresult

/-- In a run of activations with any batches the freed client is not used, and reports are about
servers of the client, just if in no batch an event stands behind the one with which the last block
is downloaded. -/
theorem inside_iff_completesLast (socksAddr : InAddr) (authority : Node) (connect : Connect)
    (fileSize downBlockSize upBlockSize : Int) (now : ℕ) (batches : List (List ClientEvent)) :
    (∀ fault, runSteps activate
        (new socksAddr authority connect fileSize downBlockSize upBlockSize now) batches =
          .error fault → fault.Inside) ↔
      StepsMeet activate CompletesLast
        (new socksAddr authority connect fileSize downBlockSize upBlockSize now) batches := by
  refine forall_fault_iff_stepsMeet Sound PluginFault.Inside ?_ ?_ ?_ (sound_start rfl rfl)
  · intro plugin batch plugin' h hlast hactivate
    unfold activate at hactivate
    split at hactivate
    · obtain rfl := Except.ok.inj hactivate
      exact h
    · rename_i hclient
      have hloop := clientLoop_of_completesLast h (.inl (by simp [hclient])) hlast
      rw [hactivate] at hloop
      exact hloop
  · intro plugin batch fault h hlast hactivate
    unfold activate at hactivate
    split at hactivate
    · cases hactivate
    · rename_i hclient
      have hloop := clientLoop_of_completesLast h (.inl (by simp [hclient])) hlast
      rw [hactivate] at hloop
      exact hloop
  · intro plugin batch h hlast
    have hclient : plugin.client ≠ none := fun hnone => hlast (completesLast_of_none hnone batch)
    refine ⟨.freedClient, ?_, ?_⟩
    · obtain ⟨tc, htc⟩ := Option.ne_none_iff_exists'.mp hclient
      rw [activate, htc]
      exact clientLoop_of_not_completesLast h hclient hlast
    · rintro ⟨f, hf⟩
      cases hf

/-- A descriptor that is ready, with a clock that stands. -/
def wake (ready : ClientInput × Socket) : ClientEvent := ⟨ready.1, ready.2, .connected 5, 0⟩

/-- The authority has something to say in the same moment in which the only block ends. -/
theorem freedClient_of_laterEvent :
    ∃ fault, runSteps activate
      (new ⟨[255, 255, 255, 255], rfl⟩ ⟨⟨[10, 0, 0, 1], rfl⟩, ⟨[80, 35], rfl⟩⟩
        (.connected 5) 2 2 0 0)
      [[wake (TorrentClient.ready 5 [] [])],
        [wake (TorrentClient.ready 5 [.connected 6] [1, 10, 0, 0, 2, 144, 31])],
        [wake (TorrentClient.ready 6 [] [])], [wake (TorrentClient.ready 6 [] [88, 88])],
        [wake (TorrentClient.ready 6 [] (ascii "FINISHED")), wake (TorrentClient.ready 5 [] [0])]] =
      .error fault ∧ ¬fault.Inside := by
  refine ⟨.freedClient, by decide +kernel, ?_⟩
  rintro ⟨f, hf⟩
  cases hf

end Plugin

end ShadowExtras.Torrent
