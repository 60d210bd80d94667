import ShadowExtras.Foundation.Run
import ShadowExtras.FileTransfer.Filegetter

/-!
# The file getter service

`service-filegetter.c`: downloads one file again and again (`SFG_SINGLE`) or files that are picked
at random (`SFG_MULTI`), with pauses for thinking between them, and retries after a pause of a
minute when a download fails. It drives one `Filegetter`, which it starts anew before a retry.

`service_filegetter_activate` jumps between its labels `start_over` and `reactivate`. A `pass` is
what runs from one label up to the next one, or to the return; `control` says where the activation
is. So a run of the service is a list of events: an activation begins because a socket is ready or
because a sleep callback is delivered, and goes on pass by pass. Each pass brings the readings of
the clock and the outcomes of the calls that it makes.
-/

namespace ShadowExtras.FileTransfer

open Foundation

/-! ## Time -/

/-- The order of points in time. -/
instance : LE Timespec := ⟨fun a b => a.sec < b.sec ∨ a.sec = b.sec ∧ a.nsec ≤ b.nsec⟩

theorem Timespec.le_def {a b : Timespec} :
    a ≤ b ↔ a.sec < b.sec ∨ a.sec = b.sec ∧ a.nsec ≤ b.nsec := Iff.rfl

instance (a b : Timespec) : Decidable (a ≤ b) := decidable_of_iff _ Timespec.le_def.symm

/-- A time that is later by whole seconds. -/
def Timespec.after (t : Timespec) (seconds : Int) : Timespec := { t with sec := t.sec + seconds }

/-! ## Downloads -/

/-- `service_filegetter_server_args_t` -/
structure ServerArgs where
  host : Bytes
  port : Bytes
  deriving DecidableEq, Repr

/-- `service_filegetter_download_t` -/
structure Download where
  fspec : FileSpec
  sspec : ServerSpec
  deriving DecidableEq, Repr

/-- `htons((in_port_t) port)` -/
def htons (port : Int) : Octets 2 :=
  let n := (port % 65536).toNat
  ⟨[(n / 256).toUInt8, (n % 256).toUInt8], rfl⟩

/-- `service_filegetter_get_download_from_args`; `getaddr` is `service_filegetter_getaddr`. The
fields that are not set here are zero. -/
def getDownloadFromArgs (getaddr : Bytes → Octets 4) (http : ServerArgs) (socks : Option ServerArgs)
    (filepath : Bytes) : Option Download :=
  let isOnion := decide (ascii ".onion" <:+: http.host)
  let httpAddr := if isOnion then ServerSpec.zero.httpAddr else getaddr http.host
  let httpPort := htons (atoi http.port)
  let socksAddr := socks.elim ServerSpec.zero.socksAddr fun proxy => getaddr proxy.host
  let socksPort := socks.elim ServerSpec.zero.socksPort fun proxy => htons (atoi proxy.port)
  if filepath.head? ≠ some 47 then none
  else if ¬isOnion ∧ httpAddr.1 = [0, 0, 0, 0] ∨ httpPort.1 = [0, 0] then none
  else if isOnion ∧ socksAddr.1 = [0, 0, 0, 0] then none
  else some {
    fspec :=
      { remotePath := filepath.take strSize, localPath := [], doSave := false,
        saveToMemory := false }
    sspec :=
      { httpHostname := http.host.take strSize, httpAddr := httpAddr, httpPort := httpPort
        socksAddr := socksAddr, socksPort := socksPort, persistent := false, useHostname := isOnion
        hostnameLength := http.host.length } }

/-! ## The service -/

/-- `enum service_filegetter_state` -/
inductive ServiceState
  | none | thinking | downloading | done
  deriving DecidableEq, Repr

/-- `enum service_filegetter_type` -/
inductive ServiceType
  | single | multi
  deriving DecidableEq, Repr

/-- Where an activation is: it has returned, or it is at a label. -/
inductive Control
  | returned (code : GetterCode)
  | startOver (sockd : Int)
  | reactivate (sockd : Int)
  deriving DecidableEq, Repr

/-- The aggregate statistics that were reported, and the statistics of the downloads that had been
reported complete until then. -/
structure Report where
  total : FileStats
  completed : List FileStats
  deriving DecidableEq, Repr

/-- `service_filegetter_t`, with the label of the activation and histories. -/
structure ServiceFilegetter where
  state : ServiceState
  type : ServiceType
  fg : Filegetter
  /-- The downloads in the order of their keys. -/
  downloads : List Download
  currentDownload : Option Download
  /-- Are there think times, `think_times != NULL`? -/
  thinkTimes : Bool
  wakeup : Timespec
  expire : Timespec
  downloadsRequested : Int
  downloadsCompleted : Nat
  control : Control
  /-- History: the socket that was connected for the current download and was not closed yet. -/
  openSocket : Option Int
  /-- History: when the sleep callbacks are due that were requested and not delivered yet. -/
  callbacks : List Timespec
  /-- History: the time at which the last callback was delivered. -/
  delivered : Timespec
  /-- History: the statistics of the downloads reported complete. -/
  completed : List FileStats
  /-- History: the reports of aggregate statistics. -/
  reports : List Report
  deriving DecidableEq, Repr

/-- What happens when the next download is started: the random number, the outcomes of `fopen` and
of the connection, and the reading of the clock. -/
structure NextDownload where
  random : Nat
  fopenOk : Bool
  connection : Connect
  now : Timespec
  deriving DecidableEq, Repr

/-- What happens during one pass. -/
structure Pass where
  /-- The readings of the clock for the expiration and for the wakeup time. -/
  expireCheck : Timespec
  thinkCheck : Timespec
  /-- The download that is started after a pause. -/
  next : NextDownload
  getter : GetterEvent
  /-- The reading of the clock for a pause, the time when the callback is requested, and the think
  time in seconds. -/
  pauseFrom : Timespec
  sleepAt : Timespec
  sleeptime : Nat
  /-- The download that is started without a pause. -/
  following : NextDownload
  deriving DecidableEq, Repr

namespace ServiceFilegetter

/-- The zeroed service. -/
def zero (type : ServiceType) : ServiceFilegetter where
  state := .none
  type := type
  fg := { Filegetter.start with state := .idle }
  downloads := []
  currentDownload := none
  thinkTimes := false
  wakeup := ⟨0, 0⟩
  expire := ⟨0, 0⟩
  downloadsRequested := 0
  downloadsCompleted := 0
  control := .returned .success
  openSocket := none
  callbacks := []
  delivered := ⟨0, 0⟩
  completed := []
  reports := []

/-- The download that `service_filegetter_download_next` picks. A service with an empty tree of
downloads does not get beyond its start. -/
def picked (s : ServiceFilegetter) (next : NextDownload) : Option Download :=
  match s.type with
  | .multi => s.downloads[next.random % s.downloads.length]?
  | .single => s.currentDownload

/-- `service_filegetter_download_next` -/
def downloadNext (s : ServiceFilegetter) (next : NextDownload) : ServiceFilegetter × GetterCode :=
  match s.picked next with
  | none => ({ s with currentDownload := none }, .errInvalid)
  | some dl =>
    let (fg, result) := s.fg.download dl.sspec dl.fspec next.fopenOk next.connection next.now
    let s := { s with currentDownload := some dl, fg := fg }
    if result = .success then
      ({ s with state := .downloading, openSocket := some fg.sockd }, result)
    else (s, result)

/-- `service_filegetter_launch` -/
def launch (s : ServiceFilegetter) (next : NextDownload) : ServiceFilegetter × GetterCode :=
  { s with fg := Filegetter.start }.downloadNext next

/-- `service_filegetter_start_single` -/
def startSingle (getaddr : Bytes → Octets 4) (http : ServerArgs) (socks : Option ServerArgs)
    (filepath numDownloads : Bytes) (next : NextDownload) : ServiceFilegetter × GetterCode :=
  match getDownloadFromArgs getaddr http socks filepath with
  | none => (zero .single, .errInvalid)
  | some dl =>
    let s := { zero .single with
      currentDownload := some dl
      downloadsRequested := atoi numDownloads }
    if s.downloadsRequested ≤ 0 then (s, .errInvalid) else s.launch next

/-- `service_filegetter_start_multi`, for the lines of the specification file as servers and
paths. -/
def startMulti (getaddr : Bytes → Octets 4) (lines : List (ServerArgs × Bytes))
    (socks : Option ServerArgs) (thinkTimes : Bool) (runtimeSeconds : Bytes)
    (numDownloads : Option Bytes) (now : Timespec) (next : NextDownload) :
    ServiceFilegetter × GetterCode :=
  match lines.mapM fun line => getDownloadFromArgs getaddr line.1 socks line.2 with
  | none => (zero .multi, .errInvalid)
  | some downloads =>
    let runtime := atoi runtimeSeconds
    { zero .multi with
      thinkTimes := thinkTimes
      downloads := downloads
      expire := if runtime > 0 then now.after runtime else ⟨0, 0⟩
      downloadsRequested := numDownloads.elim 0 atoi }.launch next

/-! ## Activations -/

variable (s : ServiceFilegetter)

/-- Return from the activation. -/
def leave (code : GetterCode) : ServiceFilegetter := { s with control := .returned code }

/-- `filegetter_shutdown` of the getter. -/
def shutdown : ServiceFilegetter := { s with fg := s.fg.shutdown, openSocket := none }

/-- `service_filegetter_stop` -/
def stop : ServiceFilegetter :=
  let s := { s with thinkTimes := false, downloads := [] }
  if s.state ≠ .done then { s.shutdown with currentDownload := none, state := .done } else s

/-- `service_filegetter_expire`, and return. -/
def expired : ServiceFilegetter :=
  let report : Report := { total := s.fg.allstats, completed := s.completed }
  { s with reports := s.reports ++ [report] }.stop.leave .ok200

/-- Think until `wakeup`: a callback is requested. -/
def sleep (wakeup requested : Timespec) (seconds : Nat) : ServiceFilegetter :=
  { s with
    state := .thinking
    wakeup := wakeup
    callbacks := s.callbacks ++ [requested.after seconds] }

/-- Is the expiration of the service over? -/
def IsExpired (now : Timespec) : Prop :=
  (s.state = .thinking ∨ s.state = .downloading) ∧ s.expire.sec > 0 ∧ now.sec > s.expire.sec

instance (now : Timespec) : Decidable (s.IsExpired now) := by
  unfold IsExpired
  infer_instance

/-- The pass from `start_over`. -/
def startOver (sockd : Int) (p : Pass) : ServiceFilegetter :=
  if s.IsExpired p.expireCheck then s.expired
  else if s.state = .thinking ∧ p.thinkCheck.sec < s.wakeup.sec then s.leave .errWouldblock
  else
    let s := if s.state = .thinking then (s.downloadNext p.next).1 else s
    if s.state ≠ .downloading ∨ s.fg.sockd ≠ sockd then s.leave .errInvalid
    else { s with control := .reactivate sockd }

/-- The getter shut down because of an error; retry in a minute. -/
def retry (p : Pass) : ServiceFilegetter :=
  ({ s.shutdown with fg := Filegetter.start }.sleep (p.pauseFrom.after 60) p.sleepAt 60).leave
    .errWouldblock

/-- A download is complete. -/
def complete (sockd : Int) (p : Pass) : ServiceFilegetter :=
  let s := { s with
    downloadsCompleted := s.downloadsCompleted + 1
    state := .thinking
    completed := s.completed ++ [s.fg.curstats] }
  if s.downloadsRequested > 0 ∧ (s.downloadsCompleted : Int) ≥ s.downloadsRequested then s.expired
  else if s.type = .multi ∧ s.thinkTimes then
    let wakeup := p.pauseFrom.after p.sleeptime
    if s.expire.sec > 0 ∧ wakeup.sec > s.expire.sec then { s with wakeup := wakeup }.expired
    else { s.sleep wakeup p.sleepAt p.sleeptime with control := .startOver sockd }
  else { (s.downloadNext p.following).1 with control := .reactivate sockd }

/-- What the service does when the getter has returned. -/
def afterGetter (sockd : Int) (p : Pass) (code : GetterCode) : ServiceFilegetter :=
  if code = .errFatal ∨ code = .errSocksconn then s.retry p
  else if code ≠ .ok200 ∧ code ≠ .errWouldblock then s.shutdown.leave code
  else if code = .ok200 then s.complete sockd p
  else s.leave code

/-- The socket that is open after the getter has returned: the getter forgets a socket that it
closes, unless it fails to connect to the address that the proxy names. -/
def openAfter (fg : Filegetter) (code : GetterCode) : Option Int :=
  if fg.sockd = 0 ∨ code = .errSocksconn then none else some fg.sockd

/-- The pass from `reactivate`. -/
def reactivate (sockd : Int) (p : Pass) : Except Fault ServiceFilegetter :=
  match s.fg.activate p.getter with
  | .error fault => .error fault
  | .ok (fg, code) =>
    .ok ({ s with fg := fg, openSocket := openAfter fg code }.afterGetter sockd p code)

end ServiceFilegetter

/-! ## Runs -/

/-- What happens to a service. -/
inductive ServiceEvent
  /-- `filetransfer_activate`: a socket is ready. -/
  | activate (sockd : Int)
  /-- `_filetransfer_wakeupCallback`: the callback that is due at `due` is delivered. -/
  | wakeup (due now : Timespec)
  /-- The activation goes on to its next label, or returns. -/
  | pass (p : Pass)
  deriving DecidableEq, Repr

namespace ServiceFilegetter

/-- One event. A callback that was not requested is not delivered. -/
def step (s : ServiceFilegetter) (e : ServiceEvent) : Except Fault ServiceFilegetter :=
  match e, s.control with
  | .activate sockd, .returned _ => .ok { s with control := .startOver sockd }
  | .wakeup due now, .returned _ =>
    if due ∈ s.callbacks ∧ due ≤ now then
      .ok { s with callbacks := s.callbacks.erase due, delivered := now, control := .startOver 0 }
    else .ok s
  | .pass p, .startOver sockd => .ok (s.startOver sockd p)
  | .pass p, .reactivate sockd => s.reactivate sockd p
  | _, _ => .ok s

end ServiceFilegetter

end ShadowExtras.FileTransfer
