import Mathlib.Data.List.TakeWhile
import ShadowExtras.Foundation.TextFile
import ShadowExtras.FileTransfer.Cdf
import ShadowExtras.FileTransfer.DownloadBudget
import ShadowExtras.FileTransfer.HostAddress

/-!
# The download specification file

`service_filegetter_start_multi` reads a file with lines of the form `host:port:/path` and downloads
one of these files after the other, picked at random. `service_filegetter_import_download_specs`
cuts each line that `fgets` reads at its colons (`parseSpec`) and looks at the third token without
asking whether there is one. The address of its host is looked up with a callback that uses an unset
pointer when there is none. A host or a path that fills its field leaves no room for the NUL byte.
The number of downloads is not looked at either before a random number is divided by it.

What goes wrong is a `SpecFault`. `ParsesOrRejects` says what should be done with a file,
`WellSpecified` and `Refuses` when it is.
-/

namespace ShadowExtras.FileTransfer

open Foundation

/-- What ends the run of a service that is started with a specification file. -/
inductive SpecFault
  /-- `linebuffer[strlen(linebuffer) - 1]` of an empty string. -/
  | outOfBounds
  /-- A line has no third token. -/
  | missingToken
  /-- The pointer that `getaddrinfo` should have set. -/
  | unsetPointer
  /-- `rand() % 0` -/
  | divisionByZero
  /-- `cdf_free(NULL)` -/
  | nullPointer
  /-- Think times are freed that were freed. -/
  | doubleFree
  deriving DecidableEq, Repr

/-- `service_filegetter_multi_args_t`, without the file. -/
structure MultiArgs where
  /-- Is there a callback for sleeping? -/
  sleepCb : Bool
  /-- What `cdf_new` returns for the file of think times, if there is one. -/
  thinkTimes : Option (Option CumulativeDistribution)
  /-- What the callback for host names looks up. -/
  resolver : Resolver
  socksProxy : Option ServerArgs
  runtimeSeconds : Bytes
  numDownloads : Option Bytes

/-! ## Reading the file -/

/-- `sizeof(linebuffer)` -/
def linebufferSize : ℕ := 512

theorem one_lt_linebufferSize : 1 < linebufferSize := by
  unfold linebufferSize
  omega

def colon : Byte := 58

/-- `g_strsplit` at colons, of a string that is not empty. -/
def splitTokens : ℕ → Bytes → List Bytes
  | n + 2, s =>
    match s.dropWhile (· ≠ colon) with
    | [] => [s]
    | _ :: rest => s.takeWhile (· ≠ colon) :: splitTokens (n + 1) rest
  | _, s => [s]

/-- `g_strsplit(s, ":", maxTokens)` -/
def strsplit (s : Bytes) (maxTokens : ℕ) : List Bytes :=
  if s = [] then [] else splitTokens maxTokens s

/-- The string in the buffer. -/
def bufferString (piece : Bytes) : Bytes := piece.takeWhile (· ≠ 0)

/-- The string without the newline at its end. -/
def stripNewline (s : Bytes) : Bytes := if s.getLast? = some lf then s.dropLast else s

/-- The addresses of the hosts that resolve. -/
def MultiArgs.getaddr (a : MultiArgs) (host : Bytes) : Octets 4 :=
  (serviceGetaddr a.resolver host).getD (octets 0 0 0 0)

/-- `service_filegetter_get_download_from_args` looks up a host that has no address: that of the
server, unless it is an onion service, or that of the proxy, for a server with an address and a
port. -/
def MultiArgs.Unresolved (a : MultiArgs) (http : ServerArgs) (filepath : Bytes) : Prop :=
  filepath.head? = some 47 ∧
    (¬ascii ".onion" <:+: http.host ∧ serviceGetaddr a.resolver http.host = none ∨
      (ascii ".onion" <:+: http.host ∨ (a.getaddr http.host).1 ≠ [0, 0, 0, 0]) ∧
        (htons (atoi http.port)).1 ≠ [0, 0] ∧
          ∃ proxy ∈ a.socksProxy, serviceGetaddr a.resolver proxy.host = none)

instance (a : MultiArgs) (http : ServerArgs) (filepath : Bytes) :
    Decidable (a.Unresolved http filepath) :=
  inferInstanceAs (Decidable (_ ∧ _))

/-- `service_filegetter_get_download_from_args` -/
def MultiArgs.getDownload (a : MultiArgs) (http : ServerArgs) (filepath : Bytes) :
    Except SpecFault (Option Download) :=
  if a.Unresolved http filepath then .error .unsetPointer
  else .ok (getDownloadFromArgs a.getaddr http a.socksProxy filepath)

/-- One round of the loop of `service_filegetter_import_download_specs`: the download, none if the
line is rejected. -/
def parseSpec (a : MultiArgs) (piece : Bytes) : Except SpecFault (Option Download) :=
  if bufferString piece = [] then .error .outOfBounds
  else
    match strsplit (stripNewline (bufferString piece)) 3 with
    | host :: port :: filepath :: _ =>
      if colon ∈ filepath then .ok none
      else a.getDownload { host := host, port := port } filepath
    | _ => .error .missingToken

/-- The loop of `service_filegetter_import_download_specs`, for what `fgets` reads: the downloads in
the order of their keys, none if a line is rejected. -/
def importDownloadSpecs (a : MultiArgs) (dlTree : List Download) :
    List Bytes → Except SpecFault (Option (List Download))
  | [] => .ok (some dlTree)
  | piece :: pieces =>
    match parseSpec a piece with
    | .error fault => .error fault
    | .ok none => .ok none
    | .ok (some dl) => importDownloadSpecs a (dlTree ++ [dl]) pieces

/-- `cdf_free(sfg->think_times)` -/
def cdfFree : Option CumulativeDistribution → Except SpecFault Unit
  | none => .error .nullPointer
  | some cdf => if cdf.freed then .error .doubleFree else .ok ()

namespace ServiceFilegetter

/-- The service behind the import, which is launched. -/
def launchMulti (a : MultiArgs) (downloads : List Download) (now : Timespec) (next : NextDownload) :
    Except SpecFault (ServiceFilegetter × GetterCode) :=
  let runtime := atoi a.runtimeSeconds
  let s := { zero .multi with
    thinkTimes := a.thinkTimes.isSome
    downloads := downloads
    expire := if runtime > 0 then now.after runtime else ⟨0, 0⟩
    downloadsRequested := a.numDownloads.elim 0 atoi }
  -- the random number is divided by the number of downloads
  if downloads.length = 0 then .error .divisionByZero else .ok (s.launch next)

/-- `service_filegetter_start_multi`, for the contents of the specification file, none if there is
no file or it cannot be opened. -/
def startMultiFile (a : MultiArgs) (content : Option Bytes) (now : Timespec) (next : NextDownload) :
    Except SpecFault (ServiceFilegetter × GetterCode) :=
  if a.sleepCb = false then .ok (zero .multi, .errInvalid)
  else if a.thinkTimes = some none then .ok (zero .multi, .errInvalid)
  else
    match content.elim (.ok none) fun s =>
      importDownloadSpecs a [] (fgetsAll one_lt_linebufferSize s) with
    | .error fault => .error fault
    | .ok none =>
      match cdfFree a.thinkTimes.join with
      | .error fault => .error fault
      | .ok () => .ok (zero .multi, .errInvalid)
    | .ok (some downloads) => launchMulti a downloads now next

end ServiceFilegetter

/-! ## What the file says -/

/-- The parts of a line, up to its newline or a NUL byte. -/
structure Fields (line host port path : Bytes) : Prop where
  text : stripNewline (bufferString line) = host ++ colon :: (port ++ colon :: path)
  host : colon ∉ host
  port : colon ∉ port

/-- A field of `strSize` bytes holds a string and the NUL byte behind it: `strncpy` leaves none
behind a string that fills the field. -/
def HoldsString (field string : Bytes) : Prop := field = string ∧ string.length < strSize

/-- The download of a line of the form `host:port:/path`. -/
structure IsEntry (line : Bytes) (dl : Download) : Prop where
  fields : ∃ host port path, Fields line host port path ∧ colon ∉ path ∧ path.head? = some 47 ∧
    HoldsString dl.sspec.httpHostname host ∧ dl.sspec.httpPort = htons (atoi port) ∧
    HoldsString dl.fspec.remotePath path

/-- The service has a download for each line, and picks one of them whenever it picks a download. -/
structure PicksEntries (content : Bytes) (s : ServiceFilegetter) : Prop where
  entries : List.Forall₂ IsEntry (fileLines content) s.downloads
  picks : ∀ calls t, runSteps ServiceFilegetter.proceed s calls = .ok t → t.state ≠ .done → ∀ next,
    ∃ dl ∈ s.downloads, t.picked next = some dl

/-- The file is rejected, or the service picks its entries. -/
def ParsesOrRejects (a : MultiArgs) (content : Bytes) (now : Timespec) (next : NextDownload) :
    Prop :=
  ∃ s code, ServiceFilegetter.startMultiFile a (some content) now next = .ok (s, code) ∧
    (code = .errInvalid ∨ PicksEntries content s)

/-- A line has exactly two colons, and its parts make a download. -/
def AcceptsSpec (a : MultiArgs) (line : Bytes) (host port path : Bytes) : Prop :=
  Fields line host port path ∧ colon ∉ path ∧
    ∃ dl, a.getDownload ⟨host, port⟩ path = .ok (some dl)

/-- A line has more than two colons, or its parts make no download. -/
def RejectsSpec (a : MultiArgs) (line : Bytes) : Prop :=
  ∃ host port path, Fields line host port path ∧
    (colon ∈ path ∨ a.getDownload ⟨host, port⟩ path = .ok none)

/-- There is a line, and each fits into the buffer and makes a download that holds its host and
path. -/
structure WellSpecified (a : MultiArgs) (content : Bytes) : Prop where
  ne_nil : content ≠ []
  fits : ∀ line ∈ fileLines content, line.length < linebufferSize
  accepts : ∀ line ∈ fileLines content, ∃ host port path, AcceptsSpec a line host port path ∧
    host.length < strSize ∧ path.length < strSize

/-- Nothing is read, or a line is rejected when there are think times to free, before a line has too
few colons. -/
def Refuses (a : MultiArgs) (content : Bytes) : Prop :=
  a.sleepCb = false ∨ a.thinkTimes = some none ∨
    (∃ cdf, a.thinkTimes = some (some cdf) ∧ cdf.freed = false) ∧
      ∃ before piece after, fgetsAll one_lt_linebufferSize content = before ++ piece :: after ∧
        (∀ b ∈ before, ∃ host port path, AcceptsSpec a b host port path) ∧ RejectsSpec a piece

variable {a : MultiArgs} {content piece line host port path s : Bytes} {dl : Download}
  {downloads dlTree : List Download} {pieces : List Bytes} {now : Timespec} {next : NextDownload}

/-! ## Tokens -/

/-- A text without a colon is one token. -/
theorem splitTokens_of_notMem (n : ℕ) (h : colon ∉ s) : splitTokens (n + 2) s = [s] := by
  have hdrop : s.dropWhile (· ≠ colon) = [] := by
    rw [List.dropWhile_eq_nil_iff]
    intro b hb
    simpa using ne_of_mem_of_not_mem hb h
  rw [splitTokens, hdrop]

/-- The first token ends at the first colon. -/
theorem splitTokens_append (n : ℕ) (h : colon ∉ host) (rest : Bytes) :
    splitTokens (n + 2) (host ++ colon :: rest) = host :: splitTokens (n + 1) rest := by
  have hall : ∀ b ∈ host, decide (b ≠ colon) = true := by
    intro b hb
    simpa using ne_of_mem_of_not_mem hb h
  have hdrop : (host ++ colon :: rest).dropWhile (· ≠ colon) = colon :: rest := by
    rw [List.dropWhile_append_of_pos hall]
    simp
  have htake : (host ++ colon :: rest).takeWhile (· ≠ colon) = host := by
    rw [List.takeWhile_append_of_pos hall]
    simp
  rw [splitTokens, hdrop, htake]

/-- A line with its fields is split into them. -/
theorem Fields.strsplit_eq (h : Fields line host port path) :
    strsplit (stripNewline (bufferString line)) 3 = [host, port, path] := by
  have hne : host ++ colon :: (port ++ colon :: path) ≠ [] := by simp
  rw [h.text, strsplit, if_neg hne, splitTokens_append 1 h.host, splitTokens_append 0 h.port]
  rfl

/-- A line that has no three parts has less than three tokens. -/
theorem length_strsplit_lt (h : ¬∃ host port path, Fields line host port path) :
    (strsplit (stripNewline (bufferString line)) 3).length < 3 := by
  unfold strsplit
  split
  · simp
  · by_cases hfirst : colon ∈ stripNewline (bufferString line)
    · obtain ⟨host, rest, htext, hhost⟩ := List.eq_append_cons_of_mem hfirst
      rw [htext, splitTokens_append 1 hhost]
      by_cases hsecond : colon ∈ rest
      · obtain ⟨port, path, hrest, hport⟩ := List.eq_append_cons_of_mem hsecond
        exact absurd ⟨host, port, path, by rw [htext, hrest], hhost, hport⟩ h
      · rw [splitTokens_of_notMem 0 hsecond]
        simp
    · rw [splitTokens_of_notMem 1 hfirst]
      simp

/-- A line has one way to be split. -/
theorem Fields.eq {host' port' path' : Bytes} (h : Fields line host port path)
    (h' : Fields line host' port' path') : host = host' ∧ port = port' ∧ path = path' := by
  have hsame := h.strsplit_eq.symm.trans h'.strsplit_eq
  simpa using hsame

/-! ## One line -/

/-- A line with its fields is a download unless the path holds a colon. -/
theorem Fields.parseSpec_eq (h : Fields line host port path) : parseSpec a line =
    if colon ∈ path then .ok none else a.getDownload ⟨host, port⟩ path := by
  have hne : bufferString line ≠ [] := by
    intro hempty
    have htext := h.text
    rw [hempty] at htext
    simp [stripNewline] at htext
  rw [parseSpec, if_neg hne, h.strsplit_eq]

/-- A line without fields is a fault. -/
theorem parseSpec_of_no_fields (h : ¬∃ host port path, Fields line host port path) :
    ∃ fault, parseSpec a line = .error fault := by
  have hshort := length_strsplit_lt h
  unfold parseSpec
  split
  · exact ⟨_, rfl⟩
  · split
    · rename_i htokens
      rw [htokens] at hshort
      simp only [List.length_cons] at hshort
      omega
    · exact ⟨_, rfl⟩

/-- A line is accepted when its fields make a download. -/
theorem parseSpec_eq_some : parseSpec a line = .ok (some dl) ↔ ∃ host port path,
    Fields line host port path ∧ colon ∉ path ∧ a.getDownload ⟨host, port⟩ path =
      .ok (some dl) := by
  constructor
  · intro hparse
    by_cases h : ∃ host port path, Fields line host port path
    · obtain ⟨host, port, path, hfields⟩ := h
      rw [hfields.parseSpec_eq] at hparse
      split at hparse
      · simp at hparse
      · rename_i hpath
        exact ⟨host, port, path, hfields, hpath, hparse⟩
    · obtain ⟨fault, hfault⟩ := parseSpec_of_no_fields (a := a) h
      rw [hfault] at hparse
      cases hparse
  · rintro ⟨host, port, path, hfields, hpath, hdl⟩
    rw [hfields.parseSpec_eq, if_neg hpath, hdl]

/-- A line is rejected for a further colon or for its fields. -/
theorem parseSpec_eq_none : parseSpec a line = .ok none ↔ RejectsSpec a line := by
  constructor
  · intro hparse
    by_cases h : ∃ host port path, Fields line host port path
    · obtain ⟨host, port, path, hfields⟩ := h
      rw [hfields.parseSpec_eq] at hparse
      split at hparse
      · rename_i hpath
        exact ⟨host, port, path, hfields, .inl hpath⟩
      · exact ⟨host, port, path, hfields, .inr hparse⟩
    · obtain ⟨fault, hfault⟩ := parseSpec_of_no_fields (a := a) h
      rw [hfault] at hparse
      cases hparse
  · rintro ⟨host, port, path, hfields, hrejected⟩
    rw [hfields.parseSpec_eq]
    by_cases hpath : colon ∈ path
    · rw [if_pos hpath]
    · rw [if_neg hpath, hrejected.resolve_left hpath]

/-- A download is made of hosts that resolve. -/
theorem getDownload_eq_ok {http : ServerArgs} {result : Option Download}
    (h : a.getDownload http path = .ok result) :
    ¬a.Unresolved http path ∧ getDownloadFromArgs a.getaddr http a.socksProxy path = result := by
  unfold MultiArgs.getDownload at h
  split at h
  · cases h
  · rename_i hresolved
    exact ⟨hresolved, Except.ok.inj h⟩

/-- A download holds what its arguments say, as far as it fits. -/
theorem getDownloadFromArgs_eq_some {getaddr : Bytes → Octets 4} {http : ServerArgs}
    {socks : Option ServerArgs} (h : getDownloadFromArgs getaddr http socks path = some dl) :
    path.head? = some 47 ∧ dl.sspec.httpHostname = http.host.take strSize ∧
      dl.sspec.httpPort = htons (atoi http.port) ∧ dl.fspec.remotePath = path.take strSize := by
  unfold getDownloadFromArgs at h
  dsimp only at h
  by_cases hhead : path.head? = some 47
  · rw [if_neg (not_not.mpr hhead)] at h
    split_ifs at h
    all_goals
      obtain rfl := Option.some.inj h
      exact ⟨hhead, rfl, rfl, rfl⟩
  · rw [if_pos hhead] at h
    cases h

/-! ## All lines -/

/-- Accepted lines are put into the tree. -/
theorem importDownloadSpecs_of_forall₂
    (h : List.Forall₂ (fun piece dl => parseSpec a piece = .ok (some dl)) pieces downloads) :
    importDownloadSpecs a dlTree pieces = .ok (some (dlTree ++ downloads)) := by
  induction h generalizing dlTree with
  | nil => simp [importDownloadSpecs]
  | cons hpiece _ ih =>
    rw [importDownloadSpecs, hpiece]
    dsimp only
    rw [ih, List.append_assoc, List.singleton_append]

/-- The first rejected line ends the import. -/
theorem importDownloadSpecs_of_rejects {before after : List Bytes}
    (hbefore : ∀ b ∈ before, ∃ dl, parseSpec a b = .ok (some dl))
    (hpiece : parseSpec a piece = .ok none) :
    importDownloadSpecs a dlTree (before ++ piece :: after) = .ok none := by
  induction before generalizing dlTree with
  | nil => rw [List.nil_append, importDownloadSpecs, hpiece]
  | cons b before ih =>
    obtain ⟨dl, hb⟩ := hbefore b (by simp)
    rw [List.cons_append, importDownloadSpecs, hb]
    exact ih fun b hb => hbefore b (List.mem_cons_of_mem _ hb)

/-- The tree of an import that goes through holds a download for each line. -/
theorem importDownloadSpecs_eq_some
    (h : importDownloadSpecs a dlTree pieces = .ok (some downloads)) :
    ∃ more, downloads = dlTree ++ more ∧
      List.Forall₂ (fun piece dl => parseSpec a piece = .ok (some dl)) pieces more := by
  induction pieces generalizing dlTree with
  | nil =>
    rw [importDownloadSpecs] at h
    obtain rfl := Option.some.inj (Except.ok.inj h)
    exact ⟨[], by simp, .nil⟩
  | cons piece pieces ih =>
    rw [importDownloadSpecs] at h
    split at h
    · cases h
    · cases h
    · rename_i dl hpiece
      obtain ⟨more, rfl, hmore⟩ := ih h
      exact ⟨dl :: more, by simp, .cons hpiece hmore⟩

/-- An import that is refused has a rejected line. -/
theorem importDownloadSpecs_eq_none (h : importDownloadSpecs a dlTree pieces = .ok none) :
    ∃ before piece after, pieces = before ++ piece :: after ∧
      (∀ b ∈ before, ∃ dl, parseSpec a b = .ok (some dl)) ∧ parseSpec a piece = .ok none := by
  induction pieces generalizing dlTree with
  | nil => simp [importDownloadSpecs] at h
  | cons piece pieces ih =>
    rw [importDownloadSpecs] at h
    split at h
    · cases h
    · rename_i hpiece
      exact ⟨[], piece, pieces, by simp, by simp, hpiece⟩
    · rename_i dl hpiece
      obtain ⟨before, rejected, after, rfl, hbefore, hrejected⟩ := ih h
      refine ⟨piece :: before, rejected, after, by simp, ?_, hrejected⟩
      rw [List.forall_mem_cons]
      exact ⟨⟨dl, hpiece⟩, hbefore⟩

/-! ## Picking a download -/

/-- The service has these downloads until it is done. -/
structure PicksFrom (downloads : List Download) (s : ServiceFilegetter) : Prop where
  going : s.state ≠ .done → s.type = .multi ∧ s.downloads = downloads
  rests : s.state = .done → s.Resting

section Runs

variable {s t : ServiceFilegetter} {call : ServiceCall}

/-- A service that picks a download picks one of them. -/
theorem PicksFrom.picked (h : PicksFrom downloads s) (hne : downloads ≠ [])
    (hstate : s.state ≠ .done)
    (next : NextDownload) : ∃ dl ∈ downloads, s.picked next = some dl := by
  have hlt : next.random % downloads.length < downloads.length :=
    Nat.mod_lt _ (List.length_pos_of_ne_nil hne)
  refine ⟨downloads[next.random % downloads.length], List.getElem_mem hlt, ?_⟩
  obtain ⟨htype, hdownloads⟩ := h.going hstate
  rw [ServiceFilegetter.picked, htype, hdownloads]
  exact List.getElem?_eq_getElem hlt

/-- Another service with the same downloads. -/
theorem PicksFrom.congr (h : PicksFrom downloads s) (hstate : s.state ≠ .done)
    (htype : t.type = s.type)
    (hdownloads : t.downloads = s.downloads) (hrests : t.state = .done → t.Resting) :
    PicksFrom downloads t where
  going _ := ⟨htype.trans (h.going hstate).1, hdownloads.trans (h.going hstate).2⟩
  rests := hrests

/-- A service that is done. -/
theorem picksFrom_of_resting (hrests : s.Resting) : PicksFrom downloads s where
  going hgoes := absurd hrests.state hgoes
  rests _ := hrests

/-- The next download leaves the service as it is, but for what is downloaded. -/
theorem downloadNext_keeps (s : ServiceFilegetter) (next : NextDownload) :
    (s.downloadNext next).1.type = s.type ∧ (s.downloadNext next).1.downloads = s.downloads ∧
      ((s.downloadNext next).1.state = s.state ∨ (s.downloadNext next).1.state = .downloading) := by
  unfold ServiceFilegetter.downloadNext
  split
  · exact ⟨rfl, rfl, .inl rfl⟩
  · dsimp only
    split
    · exact ⟨rfl, rfl, .inr rfl⟩
    · exact ⟨rfl, rfl, .inl rfl⟩

/-- The next download is picked from the tree. -/
theorem PicksFrom.downloadNext (h : PicksFrom downloads s) (hstate : s.state ≠ .done)
    (next : NextDownload) :
    PicksFrom downloads (s.downloadNext next).1 ∧ (s.downloadNext next).1.state ≠ .done := by
  obtain ⟨htype, hdownloads, hgoes⟩ := downloadNext_keeps s next
  have hgoing : (s.downloadNext next).1.state ≠ .done := by
    rcases hgoes with hgoes | hgoes
    · rw [hgoes]
      exact hstate
    · simp [hgoes]
  exact ⟨h.congr hstate htype hdownloads fun hdone => absurd hdone hgoing, hgoing⟩

/-- A download that is started over was picked from the tree. -/
theorem PicksFrom.startOver (h : PicksFrom downloads s) (hstate : s.state ≠ .done) (sockd : Int)
    (p : Pass) :
    PicksFrom downloads (s.startOver sockd p) := by
  rcases startOver_cases s sockd p with ⟨-, hends⟩ | ⟨-, -, hends⟩ | ⟨t, ⟨-, hnext⟩, hends⟩
  · rw [hends]
    exact picksFrom_of_resting (ServiceFilegetter.resting_expired s)
  · rw [hends]
    exact h.congr hstate rfl rfl fun hdone => absurd hdone hstate
  · have ht : PicksFrom downloads t ∧ t.state ≠ .done := by
      rcases hnext with ⟨-, -, rfl⟩ | ⟨-, rfl⟩
      · exact h.downloadNext hstate p.next
      · exact ⟨h, hstate⟩
    rcases hends with hleaves | ⟨-, -, hgoes⟩
    · rw [hleaves]
      exact ht.1.congr ht.2 rfl rfl fun hdone => absurd hdone ht.2
    · rw [hgoes]
      exact ht.1.congr ht.2 rfl rfl fun hdone => absurd hdone ht.2

/-- After a complete download the next one is picked from the tree. -/
theorem PicksFrom.complete (h : PicksFrom downloads s) (hstate : s.state ≠ .done) (sockd : Int)
    (p : Pass) :
    PicksFrom downloads (s.complete sockd p) := by
  have hcounted : PicksFrom downloads s.counted :=
    h.congr hstate rfl rfl (by simp [ServiceFilegetter.counted])
  have hthinks : s.counted.state ≠ .done := by simp [ServiceFilegetter.counted]
  rcases complete_cases s sockd p with ⟨wakeup, hends⟩ | ⟨-, hends⟩ | ⟨-, hends⟩
  · rw [hends]
    exact picksFrom_of_resting (ServiceFilegetter.resting_expired _)
  · rw [hends]
    exact hcounted.congr hthinks rfl rfl (by simp [ServiceFilegetter.sleep])
  · obtain ⟨hnext, hgoing⟩ := hcounted.downloadNext hthinks p.following
    rw [hends]
    exact hnext.congr hgoing rfl rfl fun hdone => absurd hdone hgoing

/-- Whatever the getter returns, downloads are picked from the tree. -/
theorem PicksFrom.afterGetter (h : PicksFrom downloads s) (hstate : s.state ≠ .done) (sockd : Int)
    (p : Pass) (code : GetterCode) : PicksFrom downloads (s.afterGetter sockd p code) := by
  rcases afterGetter_cases s sockd p code with ⟨-, hends⟩ | ⟨-, -, hends⟩ | ⟨-, hends⟩ | ⟨-, hends⟩
  · rw [hends]
    exact h.congr hstate rfl rfl
      (by simp [ServiceFilegetter.retry, ServiceFilegetter.sleep, ServiceFilegetter.leave])
  · rw [hends]
    exact h.congr hstate rfl rfl fun hdone => absurd hdone hstate
  · rw [hends]
    exact h.complete hstate sockd p
  · rw [hends]
    exact h.congr hstate rfl rfl fun hdone => absurd hdone hstate

/-- A call of the service keeps the tree. -/
theorem PicksFrom.proceed (h : PicksFrom downloads s) (hstep : s.proceed call = .ok t) :
    PicksFrom downloads t := by
  by_cases hdone : s.state = .done
  · obtain ⟨u, hu, hrests, hunmoved⟩ := (h.rests hdone).proceed call
    obtain rfl : u = t := Except.ok.inj (hu.symm.trans hstep)
    exact picksFrom_of_resting hrests
  · rcases ServiceFilegetter.proceed_cases hstep with
      ⟨-, ⟨callbacks, delivered, control, rfl⟩ | ⟨code, hcontrol, rfl⟩ | ⟨sockd, p, rfl⟩⟩ |
      ⟨sockd, p, fg, code, -, rfl⟩
    · exact h.congr hdone rfl rfl fun hdone' => absurd hdone' hdone
    · exact picksFrom_of_resting (ServiceFilegetter.resting_stop s hcontrol)
    · exact h.startOver hdone sockd p
    · have hreturned : PicksFrom downloads (s.handBack fg code) :=
        h.congr hdone rfl rfl fun hdone' => absurd hdone' hdone
      exact hreturned.afterGetter hdone sockd p code

theorem PicksFrom.runSteps {calls : List ServiceCall} (h : PicksFrom downloads s)
    (hrun : Foundation.runSteps ServiceFilegetter.proceed s calls = .ok t) :
    PicksFrom downloads t :=
  invariant_of_steps (PicksFrom downloads) (fun _ _ _ hs hstep => hs.proceed hstep) h hrun

end Runs

/-! ## The launch -/

/-- A new getter takes every download. -/
theorem download_start_ne_errInvalid (hplain : dl.Plain) (next : NextDownload) :
    (Filegetter.start.download dl.sspec dl.fspec next.fopenOk next.connection next.now).2 ≠
      .errInvalid := by
  have hstate : Filegetter.start.state = .spec := rfl
  have hset : (Filegetter.start.setSpecs dl.sspec dl.fspec next.fopenOk).2 = .success := by
    simp [Filegetter.setSpecs, hstate, hplain.doSave]
  unfold Filegetter.download
  dsimp only
  rw [hset]
  split_ifs
  · simp
  · split <;> simp
  · split <;> simp
  · simp

/-- A service with downloads is launched, and picks from them. -/
theorem launch_of_ne_nil {s : ServiceFilegetter} (htype : s.type = .multi)
    (hdownloads : s.downloads = downloads)
    (hstate : s.state ≠ .done) (hne : downloads ≠ []) (hplain : ∀ dl ∈ downloads, dl.Plain)
    (next : NextDownload) :
    (s.launch next).2 ≠ .errInvalid ∧ (s.launch next).1.downloads = downloads ∧
      PicksFrom downloads (s.launch next).1 := by
  have hfrom : PicksFrom downloads { s with fg := Filegetter.start } :=
    ⟨fun _ => ⟨htype, hdownloads⟩, fun hdone => absurd hdone hstate⟩
  obtain ⟨dl, hdl, hpicked⟩ := hfrom.picked hne hstate next
  refine ⟨?_, (downloadNext_keeps _ next).2.1.trans hdownloads, (hfrom.downloadNext hstate next).1⟩
  have hstart := download_start_ne_errInvalid (hplain dl hdl) next
  unfold ServiceFilegetter.launch ServiceFilegetter.downloadNext
  rw [hpicked]
  dsimp only
  split
  · exact hstart
  · exact hstart

/-- Downloads that are there are launched. -/
theorem launchMulti_of_ne_nil (a : MultiArgs) (now : Timespec) (next : NextDownload)
    (hne : downloads ≠ []) (hplain : ∀ dl ∈ downloads, dl.Plain) :
    ∃ s code, ServiceFilegetter.launchMulti a downloads now next = .ok (s, code) ∧
    code ≠ .errInvalid ∧
      s.downloads = downloads ∧ PicksFrom downloads s := by
  have hlength : downloads.length ≠ 0 := by simpa using hne
  unfold ServiceFilegetter.launchMulti
  dsimp only
  rw [if_neg hlength]
  exact ⟨_, _, congrArg Except.ok Prod.mk.eta.symm,
    launch_of_ne_nil rfl rfl (by simp [ServiceFilegetter.zero])
    hne hplain next⟩

/-! ## The start -/

/-- The think times are freed in order when there are some, not freed before. -/
theorem cdfFree_eq_ok (h : a.thinkTimes ≠ some none) : cdfFree a.thinkTimes.join = .ok () ↔
    ∃ cdf, a.thinkTimes = some (some cdf) ∧ cdf.freed = false := by
  unfold cdfFree
  rcases hthink : a.thinkTimes with _ | _ | cdf
  · simp
  · exact absurd hthink h
  · cases hfreed : cdf.freed <;> simp [hfreed]

/-- Two relations between two lists hold for an element and the same other one. -/
theorem exists_of_forall₂ {α β : Type*} {R S : α → β → Prop} {l : List α} {m : List β} {x : α}
    (hR : List.Forall₂ R l m) (hS : List.Forall₂ S l m) (hx : x ∈ l) : ∃ y, R x y ∧ S x y := by
  induction hR with
  | nil => simp at hx
  | @cons a b l m hab _ ih =>
    obtain ⟨hab', htail⟩ := List.forall₂_cons.mp hS
    rcases List.mem_cons.mp hx with rfl | hx
    · exact ⟨b, hab, hab'⟩
    · exact ih htail hx

/-- A list of what each element has. -/
theorem forall₂_of_exists {α β : Type*} {R : α → β → Prop} {l : List α} (h : ∀ x ∈ l, ∃ y, R x y) :
    ∃ m, List.Forall₂ R l m := by
  induction l with
  | nil => exact ⟨[], .nil⟩
  | cons x l ih =>
    obtain ⟨y, hy⟩ := h x (by simp)
    obtain ⟨m, hm⟩ := ih fun x hx => h x (List.mem_cons_of_mem _ hx)
    exact ⟨y :: m, .cons hy hm⟩

/-- The downloads of lines are plain. -/
theorem plain_of_forall₂
    (h : List.Forall₂ (fun piece dl => parseSpec a piece = .ok (some dl)) pieces downloads) :
    ∀ dl ∈ downloads, dl.Plain := by
  induction h with
  | nil => simp
  | cons hpiece _ ih =>
    rw [List.forall_mem_cons]
    obtain ⟨host, port, path, -, -, hdl⟩ := parseSpec_eq_some.mp hpiece
    exact ⟨plain_of_getDownloadFromArgs (getDownload_eq_ok hdl).2, ih⟩

/-- What is accepted has a download. -/
theorem AcceptsSpec.parseSpec (h : AcceptsSpec a line host port path) :
    ∃ dl, parseSpec a line = .ok (some dl) := by
  obtain ⟨hfields, hpath, dl, hdl⟩ := h
  exact ⟨dl, parseSpec_eq_some.mpr ⟨host, port, path, hfields, hpath, hdl⟩⟩

/-- A line that makes a download is accepted. -/
theorem accepts_of_parseSpec (h : parseSpec a line = .ok (some dl)) :
    ∃ host port path, AcceptsSpec a line host port path := by
  obtain ⟨host, port, path, hfields, hpath, hdl⟩ := parseSpec_eq_some.mp h
  exact ⟨host, port, path, hfields, hpath, dl, hdl⟩

/-- The download of an accepted line is its entry exactly if its host and its path fit with a NUL
byte. -/
theorem isEntry_iff (hfields : Fields line host port path) (hpath : colon ∉ path)
    (hdl : a.getDownload ⟨host, port⟩ path = .ok (some dl)) :
    IsEntry line dl ↔ host.length < strSize ∧ path.length < strSize := by
  obtain ⟨hhead, hhost, hport, hremote⟩ := getDownloadFromArgs_eq_some (getDownload_eq_ok hdl).2
  constructor
  · rintro ⟨host', port', path', hfields', -, -, ⟨-, hhost'⟩, -, -, hremote'⟩
    obtain ⟨rfl, rfl, rfl⟩ := hfields.eq hfields'
    exact ⟨hhost', hremote'⟩
  · rintro ⟨hhostFits, hpathFits⟩
    rw [List.take_of_length_le hhostFits.le] at hhost
    rw [List.take_of_length_le hpathFits.le] at hremote
    exact ⟨host, port, path, hfields, hpath, hhead, ⟨hhost, hhostFits⟩, hport, hremote, hpathFits⟩

/-- If the downloads are the entries of the lines, the file is well specified. -/
theorem wellSpecified_of_entries (hne : downloads ≠ [])
    (hread : List.Forall₂ (fun piece dl => parseSpec a piece = .ok (some dl))
      (fgetsAll one_lt_linebufferSize content) downloads)
    (hentries : List.Forall₂ IsEntry (fileLines content) downloads) : WellSpecified a content := by
  have hfits : ∀ line ∈ fileLines content, line.length < linebufferSize := by
    intro line hline
    have hsame := hread.length_eq.trans hentries.length_eq.symm
    exact length_lt_of_length_fgetsAll one_lt_linebufferSize hsame hline
  rw [fgetsAll_eq_fileLines one_lt_linebufferSize hfits] at hread
  refine ⟨?_, hfits, fun line hline => ?_⟩
  · rintro rfl
    exact hne (List.forall₂_nil_left_iff.mp hentries)
  · obtain ⟨dl, hparse, hentry⟩ := exists_of_forall₂ hread hentries hline
    obtain ⟨host, port, path, hfields, hpath, hdl⟩ := parseSpec_eq_some.mp hparse
    exact ⟨host, port, path, ⟨hfields, hpath, dl, hdl⟩, (isEntry_iff hfields hpath hdl).mp hentry⟩

/-- From a well specified file the entries of its lines are read. -/
theorem WellSpecified.exists_entries (h : WellSpecified a content) :
    ∃ downloads, downloads ≠ [] ∧ List.Forall₂ IsEntry (fileLines content) downloads ∧
      List.Forall₂ (fun piece dl => parseSpec a piece = .ok (some dl))
        (fgetsAll one_lt_linebufferSize content) downloads := by
  have hlines : ∀ line ∈ fileLines content, ∃ dl, IsEntry line dl ∧
      parseSpec a line = .ok (some dl) := by
    intro line hline
    obtain ⟨host, port, path, ⟨hfields, hpath, dl, hdl⟩, hsizes⟩ := h.accepts line hline
    exact ⟨dl, (isEntry_iff hfields hpath hdl).mpr hsizes,
      parseSpec_eq_some.mpr ⟨host, port, path, hfields, hpath, hdl⟩⟩
  obtain ⟨downloads, hdownloads⟩ := forall₂_of_exists hlines
  rw [fgetsAll_eq_fileLines one_lt_linebufferSize h.fits]
  refine ⟨downloads, ?_, hdownloads.imp fun _ _ hboth => hboth.1,
    hdownloads.imp fun _ _ hboth => hboth.2⟩
  rintro rfl
  exact fileLines_ne_nil h.ne_nil (List.forall₂_nil_right_iff.mp hdownloads)

/-- The file is handled as it should be exactly if the service is refused in order, or the file is
well specified. -/
theorem parsesOrRejects_iff (a : MultiArgs) (content : Bytes) (now : Timespec)
    (next : NextDownload) :
    ParsesOrRejects a content now next ↔ Refuses a content ∨ WellSpecified a content := by
  unfold ParsesOrRejects ServiceFilegetter.startMultiFile
  by_cases hsleep : a.sleepCb = false
  · rw [if_pos hsleep]
    exact iff_of_true ⟨_, _, rfl, .inl rfl⟩ (.inl (.inl hsleep))
  by_cases hthink : a.thinkTimes = some none
  · rw [if_neg hsleep, if_pos hthink]
    exact iff_of_true ⟨_, _, rfl, .inl rfl⟩ (.inl (.inr (.inl hthink)))
  rw [if_neg hsleep, if_neg hthink]
  dsimp only [Option.elim]
  constructor
  · rintro ⟨s, code, hstart, hresult⟩
    cases himport : importDownloadSpecs a [] (fgetsAll one_lt_linebufferSize content) with
    | error fault => simp [himport] at hstart
    | ok result =>
      cases result with
      | none =>
        -- the line that is rejected was read, and think times were freed
        simp only [himport] at hstart
        split at hstart
        · cases hstart
        · rename_i hfree
          obtain ⟨before, piece, after, hpieces, hbefore, hpiece⟩ :=
            importDownloadSpecs_eq_none himport
          refine .inl
            (.inr (.inr ⟨(cdfFree_eq_ok hthink).mp hfree, before, piece, after, hpieces, ?_, ?_⟩))
          · intro b hb
            obtain ⟨dl, hdl⟩ := hbefore b hb
            exact accepts_of_parseSpec hdl
          · exact parseSpec_eq_none.mp hpiece
      | some downloads =>
        simp only [himport] at hstart
        obtain ⟨downloads, rfl, hread⟩ := importDownloadSpecs_eq_some himport
        have hne : downloads ≠ [] := by
          rintro rfl
          simp [ServiceFilegetter.launchMulti] at hstart
        obtain ⟨s', code', hlaunch, hcode, hdownloads, -⟩ :=
          launchMulti_of_ne_nil a now next hne (plain_of_forall₂ hread)
        rw [hlaunch] at hstart
        obtain ⟨rfl, rfl⟩ := Prod.mk.inj (Except.ok.inj hstart)
        have hpicks := hresult.resolve_left hcode
        have hentries := hpicks.entries
        rw [hdownloads] at hentries
        exact .inr (wellSpecified_of_entries hne hread hentries)
  · rintro ((hsleep' | hthink' | ⟨hcdf, before, piece, after, hpieces, hbefore, hpiece⟩) | hwell)
    · exact absurd hsleep' hsleep
    · exact absurd hthink' hthink
    · have himport : importDownloadSpecs a [] (fgetsAll one_lt_linebufferSize content) =
        .ok none := by
        rw [hpieces]
        refine importDownloadSpecs_of_rejects (fun b hb => ?_) (parseSpec_eq_none.mpr hpiece)
        obtain ⟨host, port, path, haccepts⟩ := hbefore b hb
        exact haccepts.parseSpec
      rw [himport]
      dsimp only
      rw [(cdfFree_eq_ok hthink).mpr hcdf]
      exact ⟨_, _, rfl, .inl rfl⟩
    · obtain ⟨downloads, hne, hentries, hread⟩ := hwell.exists_entries
      obtain ⟨s, code, hlaunch, -, hdownloads, hfrom⟩ :=
        launchMulti_of_ne_nil a now next hne (plain_of_forall₂ hread)
      rw [importDownloadSpecs_of_forall₂ hread]
      dsimp only
      rw [List.nil_append]
      refine ⟨s, code, hlaunch, .inr ⟨hdownloads.symm ▸ hentries, ?_⟩⟩
      intro calls t hrun hstate next'
      rw [hdownloads]
      exact (hfrom.runSteps hrun).picked hne hstate next'

/-- A service without think times and without a proxy, in a network in which every host has an
address. -/
def plainArgs : MultiArgs where
  sleepCb := true
  thinkTimes := none
  resolver := { inetAton := fun _ => none, getaddrinfo := fun _ => some (octets 10 0 0 1) }
  socksProxy := none
  runtimeSeconds := []
  numDownloads := none

/-- With an empty file a random number is divided by zero. -/
theorem not_parsesOrRejects_nil : ¬ParsesOrRejects plainArgs [] ⟨0, 0⟩
    { random := 1, fopenOk := true, connection := .failed, now := ⟨0, 0⟩ } := by
  rintro ⟨s, code, hstart, -⟩
  have hfault : ServiceFilegetter.startMultiFile plainArgs (some []) ⟨0, 0⟩
      { random := 1, fopenOk := true, connection := .failed, now := ⟨0, 0⟩ } =
        .error .divisionByZero := by
    simp [ServiceFilegetter.startMultiFile, plainArgs, importDownloadSpecs,
      ServiceFilegetter.launchMulti]
  rw [hfault] at hstart
  cases hstart

-- an onion service is reached through a proxy, which has to resolve
example : parseSpec { plainArgs with socksProxy := some ⟨ascii "p", ascii "9050"⟩ }
    (ascii "x.onion:80:/f\n") = .ok (some
      { fspec :=
          { remotePath := ascii "/f", localPath := [], doSave := false, saveToMemory := false }
        sspec :=
          { httpHostname := ascii "x.onion", httpAddr := octets 0 0 0 0, httpPort := htons 80
            socksAddr := octets 10 0 0 1, socksPort := htons 9050, persistent := false
            useHostname := true, hostnameLength := 7 } }) := by
  decide +kernel

/-! ## The parsed lines -/

/-- A map that goes through for each element goes through. -/
theorem mapM_of_forall₂ {α β : Type} {f : α → Option β} {l : List α} {m : List β}
    (h : List.Forall₂ (fun x y => f x = some y) l m) : l.mapM f = some m := by
  induction h with
  | nil => simp
  | cons hx _ ih => simp [List.mapM_cons, hx, ih]

/-- From a well specified file the service is started with the parts of its lines. -/
theorem WellSpecified.startMultiFile_eq (h : WellSpecified a content) (hsleep : a.sleepCb = true)
    (hthink : a.thinkTimes ≠ some none) (now : Timespec) (next : NextDownload) :
    ∃ lines : List (ServerArgs × Bytes),
      List.Forall₂ (fun line parts => Fields line parts.1.host parts.1.port parts.2)
        (fileLines content) lines ∧
      ServiceFilegetter.startMultiFile a (some content) now next =
        .ok (ServiceFilegetter.startMulti a.getaddr lines a.socksProxy a.thinkTimes.isSome
          a.runtimeSeconds a.numDownloads now next) := by
  have hlines : ∀ line ∈ fileLines content, ∃ r : (ServerArgs × Bytes) × Download,
      Fields line r.1.1.host r.1.1.port r.1.2 ∧
        getDownloadFromArgs a.getaddr r.1.1 a.socksProxy r.1.2 = some r.2 ∧
        parseSpec a line = .ok (some r.2) := by
    intro line hline
    obtain ⟨host, port, path, ⟨hfields, hpath, dl, hdl⟩, -⟩ := h.accepts line hline
    exact ⟨((⟨host, port⟩, path), dl), hfields, (getDownload_eq_ok hdl).2,
      parseSpec_eq_some.mpr ⟨host, port, path, hfields, hpath, hdl⟩⟩
  obtain ⟨parsed, hparsed⟩ := forall₂_of_exists hlines
  have hread : List.Forall₂ (fun piece dl => parseSpec a piece = .ok (some dl))
      (fgetsAll one_lt_linebufferSize content) (parsed.map Prod.snd) := by
    rw [fgetsAll_eq_fileLines one_lt_linebufferSize h.fits, List.forall₂_map_right_iff]
    exact hparsed.imp fun _ _ hall => hall.2.2
  have hmap : (parsed.map Prod.fst).mapM
      (fun parts => getDownloadFromArgs a.getaddr parts.1 a.socksProxy parts.2) =
        some (parsed.map Prod.snd) := by
    apply mapM_of_forall₂
    rw [List.forall₂_map_left_iff, List.forall₂_map_right_iff, List.forall₂_same]
    intro r hr
    obtain ⟨line, ⟨-, hdl, -⟩, -⟩ := exists_of_forall₂ hparsed.flip hparsed.flip hr
    exact hdl
  have hne : (parsed.map Prod.snd).length ≠ 0 := by
    rw [List.length_map, ← hparsed.length_eq]
    simpa using fileLines_ne_nil h.ne_nil
  refine ⟨parsed.map Prod.fst, ?_, ?_⟩
  · rw [List.forall₂_map_right_iff]
    exact hparsed.imp fun _ _ hall => hall.1
  · unfold ServiceFilegetter.startMultiFile ServiceFilegetter.startMulti
      ServiceFilegetter.launchMulti
    rw [if_neg (by simp [hsleep]), if_neg hthink]
    dsimp only [Option.elim]
    rw [importDownloadSpecs_of_forall₂ hread]
    dsimp only
    rw [List.nil_append, if_neg hne, hmap]

end ShadowExtras.FileTransfer
