import Mathlib.Data.List.Rotate
import ShadowExtras.Replay.Steps

/-!
# The rotation of the files

The replayer keeps two queues, the handles of all files and their paths. `change_pcap_file_to_send`
closes the handle at the head of the one queue, opens the path at the head of the other one again,
and moves both to the ends of their queues; the handle in use is a pointer to the new head.

`Rotation` is this part of the state with the handles on a heap, so that the pointer and the queues
may disagree. `Aligned` is what they agree on after every change. The second half connects it with
the replayer: whatever an activation does to the files is a sequence of reads and changes.
-/

namespace ShadowExtras.Replay

open Foundation

/-! ## The two queues -/

/-- A `pcap_t` on the heap. The path, and how often `get_next_packet` was called, are kept for
statements. -/
structure Handle (α : Type*) where
  path : α
  pcap : Pcap
  isOpen : Bool
  reads : Nat

/-- The part of `Pcap_Replay` that is about the files. -/
structure Rotation (α : Type*) where
  /-- The heap. -/
  handles : Nat → Option (Handle α)
  /-- How many handles were allocated. -/
  opened : Nat
  pcapStructQueue : List Nat
  pcapFilePathQueue : List α
  /-- The handle in use. -/
  pcap : Option Nat
  /-- The paths of the handles that were in use, in this order. -/
  replayed : List α

/-- Faults of the rotation. -/
inductive RotationFault
  /-- A function of libpcap is given a null pointer. -/
  | nullHandle
  /-- A function of libpcap is given a handle that was closed. -/
  | closedHandle
  /-- `pcap_to_reset->str` without a path. -/
  | nullPath
  deriving DecidableEq, Repr

/-- What happens to the files. -/
inductive RotationEvent
  /-- A call of `get_next_packet`. -/
  | next
  /-- A call of `change_pcap_file_to_send` that opens the file. -/
  | change
  deriving DecidableEq, Repr

namespace Rotation

variable {α : Type*} (file : α → Capture) (flow : Flow) (s : Rotation α)

/-- The heap after `pcap_open_offline`; the new handle has the number `s.opened`. -/
def openOffline (path : α) : Rotation α :=
  { s with
    handles := Function.update s.handles s.opened
      (some { path := path, pcap := Pcap.openOffline (file path), isOpen := true, reads := 0 })
    opened := s.opened + 1 }

/-- A handle that may be used. -/
def deref (p : Option Nat) : Except RotationFault (Handle α) :=
  match p.bind s.handles with
  | none => .error .nullHandle
  | some h => if h.isOpen then .ok h else .error .closedHandle

/-- The path of the handle in use. -/
def pathInUse : Option α := (s.pcap.bind s.handles).map Handle.path

/-- The pointer to the head of the handles. -/
def useHead : Rotation α :=
  let s' := { s with pcap := s.pcapStructQueue.head? }
  { s' with replayed := s.replayed ++ s'.pathInUse.toList }

/-- The loop of `pcap_replay_new` that opens the files. -/
def openAll : Rotation α → List α → Rotation α
  | s, [] => s
  | s, path :: paths =>
    openAll
      { s.openOffline file path with
        pcapFilePathQueue := s.pcapFilePathQueue ++ [path]
        pcapStructQueue := s.pcapStructQueue ++ [s.opened] } paths

/-- `pcap_replay_new`, up to the first handle in use. -/
def new (paths : List α) : Rotation α :=
  (openAll file
    { handles := fun _ => none, opened := 0, pcapStructQueue := [], pcapFilePathQueue := [],
      pcap := none, replayed := [] } paths).useHead

/-- The handle after `get_next_packet` has read from it, and whether there was a packet. -/
def readHandle (h : Handle α) : Bool × Handle α :=
  match readNext flow h.pcap.records h.pcap.buffer with
  | (records, buffer, some _) =>
    (true, { h with
      pcap := { h.pcap with records := records, buffer := buffer, taken := h.pcap.taken + 1 }
      reads := h.reads + 1 })
  | (records, buffer, none) =>
    (false, { h with
      pcap := { h.pcap with records := records, buffer := buffer }
      reads := h.reads + 1 })

/-- `get_next_packet`: whether there was one. -/
def getNextPacket : Except RotationFault (Bool × Rotation α) :=
  match s.pcap, s.deref s.pcap with
  | some p, .ok h =>
    .ok ((readHandle flow h).1,
      { s with handles := Function.update s.handles p (some (readHandle flow h).2) })
  | _, .error fault => .error fault
  | none, .ok _ => .error .nullHandle

/-- `change_pcap_file_to_send`; `opens` says whether `pcap_open_offline` succeeds. -/
def changePcapFileToSend (opens : Bool) : Except RotationFault (Bool × Rotation α) :=
  match s.pcapStructQueue, s.deref s.pcapStructQueue.head? with
  | p :: queue, .ok h =>
    let s := { s with
      pcapStructQueue := queue
      handles := Function.update s.handles p (some { h with isOpen := false }) }
    match s.pcapFilePathQueue with
    | [] => .error .nullPath
    | path :: paths =>
      if opens then
        .ok (true,
          { s.openOffline file path with
            pcapFilePathQueue := paths ++ [path]
            pcapStructQueue := queue ++ [s.opened] : Rotation α }.useHead)
      else .ok (false, s)
  | _, .error fault => .error fault
  | [], .ok _ => .error .nullHandle

/-- One step. -/
def step (s : Rotation α) : RotationEvent → Except RotationFault (Rotation α)
  | .next => (s.getNextPacket flow).map Prod.snd
  | .change => (s.changePcapFileToSend file true).map Prod.snd

/-! ## Alignment -/

/-- The path of an open handle. -/
def openPath (p : Nat) : Option α :=
  (s.handles p).bind fun h => if h.isOpen then some h.path else none

/-- After `k` changes, both queues have one entry for every file, the `i`-th handle is open and
belongs to the `i`-th path, the handle in use is the head, and the files were replayed in turn. -/
structure Aligned (paths : List α) (k : Nat) (s : Rotation α) : Prop where
  structQueue : s.pcapStructQueue.length = paths.length
  pathQueue : s.pcapFilePathQueue.length = paths.length
  belongs : s.pcapStructQueue.map s.openPath = s.pcapFilePathQueue.map some
  head : s.pcap = s.pcapStructQueue.head?
  cyclic : s.replayed = (List.range (k + 1)).filterMap fun i => paths[i % paths.length]?

/-- The handle in use is open and nothing was read from it. -/
def Unread (s : Rotation α) : Prop :=
  ∃ h, s.pcap.bind s.handles = some h ∧ h.isOpen = true ∧ h.reads = 0 ∧
    h.pcap = Pcap.openOffline (file h.path)

/-- How often the file was changed. -/
def changes (es : List RotationEvent) : Nat := es.count .change

variable {file flow s} {s' : Rotation α} {paths : List α} {k : Nat} {p : Nat}

/-- Between two steps: the queues hold distinct handles, those behind the head are as they were
opened. -/
structure Rotates (file : α → Capture) (paths : List α) (k : Nat) (s : Rotation α) : Prop where
  pathQueue : s.pcapFilePathQueue = paths.rotate k
  belongs : s.pcapStructQueue.map s.openPath = s.pcapFilePathQueue.map some
  distinct : s.pcapStructQueue.Nodup
  allocated : ∀ p ∈ s.pcapStructQueue, p < s.opened
  head : s.pcap = s.pcapStructQueue.head?
  fresh : ∀ p ∈ s.pcapStructQueue.tail, ∀ h ∈ s.handles p,
    h.reads = 0 ∧ h.pcap = Pcap.openOffline (file h.path)
  cyclic : s.replayed = (List.range (k + 1)).filterMap fun i => paths[i % paths.length]?

/-- A rotation keeps its queues aligned. -/
theorem Rotates.aligned (h : s.Rotates file paths k) : s.Aligned paths k := by
  have hlen : s.pcapStructQueue.length = s.pcapFilePathQueue.length := by
    simpa using congrArg List.length h.belongs
  have hpath : s.pcapFilePathQueue.length = paths.length := by rw [h.pathQueue, List.length_rotate]
  exact ⟨hlen.trans hpath, hpath, h.belongs, h.head, h.cyclic⟩

/-- The handle at the head of the queue. -/
theorem exists_of_openPath {path : α} (h : s.openPath p = some path) :
    ∃ hd, s.handles p = some hd ∧ hd.isOpen = true ∧ hd.path = path := by
  unfold openPath at h
  obtain ⟨hd, hhd, hopen⟩ := Option.bind_eq_some_iff.mp h
  split at hopen
  · exact ⟨hd, hhd, by assumption, Option.some.inj hopen⟩
  · simp at hopen

/-- The heap is the same but for one handle. -/
theorem openPath_update_of_ne {t : Rotation α} {q : Nat} {h : Option (Handle α)}
    (ht : t.handles = Function.update s.handles p h) (hne : q ≠ p) :
    t.openPath q = s.openPath q := by
  unfold openPath
  rw [ht, Function.update_of_ne hne]

/-- A handle of the queue is none that will be allocated. -/
theorem Rotates.ne_opened (h : s.Rotates file paths k) (hp : p ∈ s.pcapStructQueue) :
    p ≠ s.opened := Nat.ne_of_lt (h.allocated p hp)

/-- There is a handle in use. -/
theorem Rotates.exists_head (h : s.Rotates file paths k) (hne : paths ≠ []) :
    ∃ p queue path rest hd, s.pcapStructQueue = p :: queue ∧ s.pcapFilePathQueue = path :: rest ∧
      s.pcap = some p ∧ s.handles p = some hd ∧ hd.isOpen = true ∧ hd.path = path := by
  cases hq : s.pcapStructQueue with
  | nil =>
    have hlen := h.aligned.structQueue
    rw [hq, List.length_nil, eq_comm, List.length_eq_zero_iff] at hlen
    exact absurd hlen hne
  | cons p queue =>
    cases hpaths : s.pcapFilePathQueue with
    | nil =>
      have hlen := h.aligned.pathQueue
      rw [hpaths, List.length_nil, eq_comm, List.length_eq_zero_iff] at hlen
      exact absurd hlen hne
    | cons path rest =>
      have hbelongs := h.belongs
      rw [hq, hpaths, List.map_cons, List.map_cons] at hbelongs
      obtain ⟨hd, hhd, hopen, hpath⟩ := exists_of_openPath (List.cons.inj hbelongs).1
      refine ⟨p, queue, path, rest, hd, rfl, rfl, ?_, hhd, hopen, hpath⟩
      rw [h.head, hq, List.head?_cons]

/-- `get_next_packet` on an open handle. -/
theorem step_next (file : α → Capture) (flow : Flow) {hd : Handle α} (hpcap : s.pcap = some p)
    (hhd : s.handles p = some hd) (hopen : hd.isOpen = true) : s.step file flow .next =
      .ok { s with handles := Function.update s.handles p (some (readHandle flow hd).2) } := by
  have hderef : s.deref s.pcap = .ok hd := by simp [deref, hpcap, hhd, hopen]
  rw [step, getNextPacket, hderef, hpcap]
  rfl

/-- A read changes nothing but the handle at the head. -/
theorem Rotates.next (h : s.Rotates file paths k) (flow : Flow) (hne : paths ≠ []) :
    ∃ s', s.step file flow .next = .ok s' ∧ s'.Rotates file paths k := by
  obtain ⟨p, queue, path, rest, hd, hq, hpaths, hpcap, hhd, hopen, hpath⟩ := h.exists_head hne
  have hread : (readHandle flow hd).2.isOpen = true ∧ (readHandle flow hd).2.path = hd.path := by
    unfold readHandle
    split <;> exact ⟨hopen, rfl⟩
  refine ⟨_, step_next file flow hpcap hhd hopen, h.pathQueue, ?_, h.distinct, h.allocated, h.head,
    ?_, h.cyclic⟩
  · rw [← h.belongs]
    apply List.map_congr_left
    intro q _
    by_cases hqp : q = p
    · subst hqp
      simp [openPath, hhd, hopen, hread]
    · exact openPath_update_of_ne rfl hqp
  · intro q hmem h' hh'
    dsimp only at hmem hh'
    have hqp : q ≠ p := by
      rintro rfl
      have hdistinct := h.distinct
      rw [hq] at hdistinct hmem
      exact (List.nodup_cons.mp hdistinct).1 hmem
    rw [Option.mem_def, Function.update_of_ne hqp] at hh'
    exact h.fresh q hmem h' hh'

/-- While files are opened: the handles are those of the paths, and none was read. -/
structure Filled (file : α → Capture) (done : List α) (s : Rotation α) : Prop where
  pathQueue : s.pcapFilePathQueue = done
  belongs : s.pcapStructQueue.map s.openPath = s.pcapFilePathQueue.map some
  distinct : s.pcapStructQueue.Nodup
  allocated : ∀ p ∈ s.pcapStructQueue, p < s.opened
  fresh : ∀ p ∈ s.pcapStructQueue, ∀ h ∈ s.handles p,
    h.reads = 0 ∧ h.pcap = Pcap.openOffline (file h.path)

variable {done : List α}

/-- Open one more file. -/
theorem Filled.push (h : s.Filled file done) (path : α) :
    Filled file (done ++ [path])
      { s.openOffline file path with
        pcapFilePathQueue := s.pcapFilePathQueue ++ [path]
        pcapStructQueue := s.pcapStructQueue ++ [s.opened] } := by
  have hne : ∀ q ∈ s.pcapStructQueue, q ≠ s.opened := fun q hq => Nat.ne_of_lt (h.allocated q hq)
  constructor
  · rw [h.pathQueue]
  · dsimp only
    rw [List.map_append, List.map_append, ← h.belongs]
    congr 1
    · apply List.map_congr_left
      intro q hq
      exact openPath_update_of_ne rfl (hne q hq)
    · simp [openPath, openOffline]
  · refine List.nodup_append.mpr ⟨h.distinct, List.nodup_singleton _, ?_⟩
    intro q hq q' hq'
    rw [List.mem_singleton.mp hq']
    exact hne q hq
  · intro q hq
    dsimp only [openOffline] at hq ⊢
    rcases List.mem_append.mp hq with hq | hq
    · exact Nat.lt_succ_of_lt (h.allocated q hq)
    · rw [List.mem_singleton.mp hq]
      exact Nat.lt_succ_self _
  · intro q hq hd hhd
    dsimp only [openOffline] at hq hhd
    rcases List.mem_append.mp hq with hq | hq
    · rw [Option.mem_def, Function.update_of_ne (hne q hq)] at hhd
      exact h.fresh q hq hd hhd
    · rw [List.mem_singleton.mp hq, Option.mem_def, Function.update_self] at hhd
      obtain rfl := Option.some.inj hhd
      exact ⟨rfl, rfl⟩

/-- The loop of `pcap_replay_new`. -/
theorem Filled.openAll (h : s.Filled file done) (paths : List α) :
    (s.openAll file paths).Filled file (done ++ paths) ∧
      (s.openAll file paths).replayed = s.replayed := by
  induction paths generalizing s done with
  | nil => simpa [Rotation.openAll] using h
  | cons path paths ih =>
    obtain ⟨hfilled, hreplayed⟩ := ih (h.push path)
    rw [List.append_assoc] at hfilled
    exact ⟨hfilled, hreplayed⟩

/-- The handle at the head is the next one in use, and it belongs to the file whose turn it is. -/
theorem Filled.useHead (h : s.Filled file done) (hdone : done = paths.rotate k) (hne : paths ≠ [])
    (hreplayed : s.replayed = (List.range k).filterMap fun i => paths[i % paths.length]?) :
    s.useHead.Rotates file paths k ∧ s.useHead.Unread file := by
  have hlen : s.pcapStructQueue.length = paths.length := by
    have hmap := congrArg List.length h.belongs
    simpa [h.pathQueue, hdone] using hmap
  obtain ⟨p, queue, hq⟩ : ∃ p queue, s.pcapStructQueue = p :: queue := by
    apply List.exists_cons_of_length_pos
    rw [hlen]
    exact List.length_pos_iff.mpr hne
  have hlt : k % paths.length < paths.length := Nat.mod_lt _ (List.length_pos_iff.mpr hne)
  have hturn : s.pcapFilePathQueue.head? = paths[k % paths.length]? := by
    rw [h.pathQueue, hdone, ← List.rotate_mod, List.head?_rotate hlt]
  obtain ⟨path, rest, hpaths⟩ : ∃ path rest, s.pcapFilePathQueue = path :: rest := by
    apply List.exists_cons_of_length_pos
    rw [h.pathQueue, hdone, List.length_rotate]
    exact List.length_pos_iff.mpr hne
  have hbelongs := h.belongs
  rw [hq, hpaths, List.map_cons, List.map_cons] at hbelongs
  obtain ⟨hd, hhd, hopen, hpath⟩ := exists_of_openPath (List.cons.inj hbelongs).1
  have hmem : p ∈ s.pcapStructQueue := by simp [hq]
  refine ⟨⟨h.pathQueue.trans hdone, h.belongs, h.distinct, h.allocated, rfl, ?_, ?_⟩, hd, ?_, hopen,
    ?_⟩
  · intro q hq'
    exact h.fresh q (List.mem_of_mem_tail hq')
  · have huse : ({ s with pcap := s.pcapStructQueue.head? } : Rotation α).pathInUse =
      some path := by
      simp [pathInUse, hq, hhd, hpath]
    rw [hpaths, List.head?_cons] at hturn
    rw [List.range_succ, List.filterMap_append, ← hreplayed]
    simp [Rotation.useHead, huse, ← hturn]
  · simp [Rotation.useHead, hq, hhd]
  · exact h.fresh p hmem hd hhd

/-- The handles are those that libpcap returns for the paths. -/
theorem Filled.pcaps (h : s.Filled file done) :
    (s.pcapStructQueue.map fun p => (s.handles p).map Handle.pcap) =
      done.map fun path => some (Pcap.openOffline (file path)) := by
  have hopen : ∀ q ∈ s.pcapStructQueue, (s.handles q).map Handle.pcap =
      (s.openPath q).map fun path => Pcap.openOffline (file path) := by
    intro q hq
    have hmem : s.openPath q ∈ s.pcapFilePathQueue.map some := by
      rw [← h.belongs]
      exact List.mem_map_of_mem hq
    obtain ⟨path, -, hpath⟩ := List.mem_map.mp hmem
    obtain ⟨hd, hhd, -, rfl⟩ := exists_of_openPath hpath.symm
    rw [← hpath, hhd, Option.map_some, Option.map_some, (h.fresh q hq hd hhd).2]
  rw [List.map_congr_left hopen, ← h.pathQueue]
  have hmapped :=
    congrArg (List.map (Option.map fun path => Pcap.openOffline (file path))) h.belongs
  simpa only [List.map_map, Function.comp_def, Option.map_some] using hmapped

/-- The files after `pcap_replay_new` has opened them. -/
theorem exists_filled_new (file : α → Capture) (paths : List α) :
    ∃ s : Rotation α, new file paths = s.useHead ∧ s.Filled file paths ∧ s.replayed = [] := by
  have hempty : Filled file []
      { handles := fun _ => none, opened := 0, pcapStructQueue := [], pcapFilePathQueue := [],
        pcap := none, replayed := [] } := by
    constructor <;> simp
  exact ⟨_, rfl, hempty.openAll paths⟩

/-- The files are open and the first one is in use. -/
theorem rotates_new (file : α → Capture) (hne : paths ≠ []) :
    (new file paths).Rotates file paths 0 := by
  obtain ⟨s, hs, hfilled, hreplayed⟩ := exists_filled_new file paths
  rw [hs]
  exact (hfilled.useHead (List.rotate_zero paths).symm hne hreplayed).1

/-- `change_pcap_file_to_send` with an open handle and a path at the heads. -/
theorem step_change (file : α → Capture) (flow : Flow) {queue : List Nat} {path : α} {rest : List α}
    {hd : Handle α}
    (hq : s.pcapStructQueue = p :: queue) (hpaths : s.pcapFilePathQueue = path :: rest)
    (hhd : s.handles p = some hd) (hopen : hd.isOpen = true) : s.step file flow .change =
      .ok (useHead
        { openOffline file
            { s with handles := Function.update s.handles p (some { hd with isOpen := false }) }
            path with
          pcapFilePathQueue := rest ++ [path]
          pcapStructQueue := queue ++ [s.opened] }) := by
  have hderef : s.deref s.pcapStructQueue.head? = .ok hd := by simp [deref, hq, hhd, hopen]
  rw [step, changePcapFileToSend, hderef, hq]
  dsimp only
  rw [hpaths]
  rfl

/-- A change closes the head and opens the same file again at the end. -/
theorem Rotates.change (h : s.Rotates file paths k) (flow : Flow) (hne : paths ≠ []) :
    ∃ s', s.step file flow .change = .ok s' ∧ s'.Rotates file paths (k + 1) ∧ s'.Unread file := by
  obtain ⟨p, queue, path, rest, hd, hq, hpaths, -, hhd, hopen, -⟩ := h.exists_head hne
  have hdistinct := h.distinct
  rw [hq, List.nodup_cons] at hdistinct
  have hnep : ∀ q ∈ queue, q ≠ p := by
    rintro q hmem rfl
    exact hdistinct.1 hmem
  have hclosed : Filled file rest { s with
      pcapStructQueue := queue
      pcapFilePathQueue := rest
      handles := Function.update s.handles p (some { hd with isOpen := false }) } := by
    constructor
    · rfl
    · have hbelongs := h.belongs
      rw [hq, hpaths, List.map_cons, List.map_cons] at hbelongs
      rw [← (List.cons.inj hbelongs).2]
      apply List.map_congr_left
      intro q hmem
      exact openPath_update_of_ne rfl (hnep q hmem)
    · exact hdistinct.2
    · intro q hmem
      exact h.allocated q (by rw [hq]; exact List.mem_cons_of_mem _ hmem)
    · intro q hmem h' hh'
      dsimp only at hmem hh'
      rw [Option.mem_def, Function.update_of_ne (hnep q hmem)] at hh'
      exact h.fresh q (by rw [hq]; exact hmem) h' hh'
  have hrotate : rest ++ [path] = paths.rotate (k + 1) := by
    rw [← List.rotate_rotate, ← h.pathQueue, hpaths, List.rotate_cons_succ, List.rotate_zero]
  exact ⟨_, step_change file flow hq hpaths hhd hopen,
    (hclosed.push path).useHead hrotate hne h.cyclic⟩

/-- Whatever happened before it, a change of the file leaves the queues aligned, the handle at the
head in use and unread, and the files have been replayed in turn. -/
theorem aligned_of_change (file : α → Capture) (flow : Flow) (paths : List α) (hne : paths ≠ [])
    (es : List RotationEvent) :
    ∃ s, runSteps (step file flow) (new file paths) (es ++ [.change]) = .ok s ∧
      s.Aligned paths (changes es + 1) ∧ s.Unread file := by
  obtain ⟨s, hrun, hs⟩ : ∃ s, runSteps (step file flow) (new file paths) es = .ok s ∧
      s.Rotates file paths (changes es) := by
    induction es using List.reverseRecOn with
    | nil => exact ⟨_, rfl, rotates_new file hne⟩
    | append_singleton es e ih =>
      obtain ⟨s, hrun, hs⟩ := ih
      cases e with
      | next =>
        obtain ⟨s', hstep, hs'⟩ := hs.next flow hne
        refine ⟨s', ?_, by simpa [changes] using hs'⟩
        rw [runSteps_append_of_ok hrun, runSteps_cons_of_ok hstep, runSteps_nil]
      | change =>
        obtain ⟨s', hstep, hs', -⟩ := hs.change flow hne
        refine ⟨s', ?_, by simpa [changes] using hs'⟩
        rw [runSteps_append_of_ok hrun, runSteps_cons_of_ok hstep, runSteps_nil]
  obtain ⟨s', hstep, hs', hunread⟩ := hs.change flow hne
  refine ⟨s', ?_, hs'.aligned, hunread⟩
  rw [runSteps_append_of_ok hrun, runSteps_cons_of_ok hstep, runSteps_nil]

/-- Two files, the first one read once before each change. -/
theorem aligned_of_change_twice :
    ∃ s, runSteps (step (fun _ : Bool => []) clientFlow) (new (fun _ => []) [false, true])
        ([.next, .change, .next] ++ [.change]) = .ok s ∧
      s.Aligned [false, true] (changes [.next, .change, .next] + 1) ∧ s.Unread fun _ => [] :=
  aligned_of_change (fun _ => []) clientFlow [false, true] (by decide) [.next, .change, .next]

/-! ## The files of a replayer -/

/-- The replayer sees the handles through its pointer and its queue. -/
structure Shows (file : α → Capture) (s : Rotation α) (r : PcapReplay) : Prop where
  pcap : r.pcap = (s.pcap.bind s.handles).map Handle.pcap
  pcapStructQueue : r.pcapStructQueue.map some =
    s.pcapStructQueue.tail.map fun p => (s.handles p).map Handle.pcap
  pcapFilePathQueue : r.pcapFilePathQueue = s.pcapFilePathQueue.map file

variable {r r' : PcapReplay} {found : Bool}

/-- What a replayer shows depends on its queues. -/
theorem Shows.same (h : s.Shows file r) (hsame : r.Same r') : s.Shows file r' := by
  constructor
  · rw [hsame.pcap, h.pcap]
  · rw [hsame.pcapStructQueue, h.pcapStructQueue]
  · rw [hsame.pcapFilePathQueue, h.pcapFilePathQueue]

/-- `get_next_packet` of the replayer is a read. -/
theorem Shows.getNextPacket (h : s.Shows file r) (hs : s.Rotates file paths k) (hne : paths ≠ [])
    (hnext : r.getNextPacket = .ok (found, r')) :
    ∃ s', s.step file r.flow .next = .ok s' ∧ s'.Rotates file paths k ∧ s'.Shows file r' ∧
      r'.flow = r.flow := by
  obtain ⟨p, queue, path, rest, hd, hq, hpaths, hpcap, hhd, hopen, hpath⟩ := hs.exists_head hne
  have hr : r.pcap = some hd.pcap := by simp [h.pcap, hpcap, hhd]
  have hstep := step_next file r.flow hpcap hhd hopen
  obtain ⟨s', hs', hrotates⟩ := hs.next r.flow hne
  obtain rfl := Except.ok.inj (hstep.symm.trans hs')
  have hread : r'.pcap = some (readHandle r.flow hd).2.pcap ∧
      r'.pcapStructQueue = r.pcapStructQueue ∧ r'.pcapFilePathQueue = r.pcapFilePathQueue ∧
      r'.flow = r.flow := by
    unfold PcapReplay.getNextPacket at hnext
    unfold readHandle
    rw [hr] at hnext
    dsimp only at hnext
    cases hfound : (readNext r.flow hd.pcap.records hd.pcap.buffer).2.2 with
    | none => grind
    | some found => grind
  refine ⟨_, hs', hrotates, ⟨?_, ?_, ?_⟩, hread.2.2.2⟩
  · rw [hread.1]
    simp [hpcap]
  · rw [hread.2.1, h.pcapStructQueue]
    apply List.map_congr_left
    intro q hmem
    have hqp : q ≠ p := by
      rintro rfl
      have hdistinct := hs.distinct
      rw [hq] at hdistinct hmem
      exact (List.nodup_cons.mp hdistinct).1 hmem
    dsimp only
    rw [Function.update_of_ne hqp]
  · rw [hread.2.2.1, h.pcapFilePathQueue]

/-- `change_pcap_file_to_send` of the replayer is a change. -/
theorem Shows.change (h : s.Shows file r) (flow : Flow) (hs : s.Rotates file paths k)
    (hne : paths ≠ []) (hchange : r.changePcapFileToSend true = (found, r')) :
    found = true ∧ r'.flow = r.flow ∧
      ∃ s', s.step file flow .change = .ok s' ∧ s'.Rotates file paths (k + 1) ∧
        s'.Shows file r' := by
  obtain ⟨p, queue, path, rest, hd, hq, hpaths, hpcap, hhd, hopen, hpath⟩ := hs.exists_head hne
  obtain ⟨s', hs', hrotates, -⟩ := hs.change flow hne
  have hstep := step_change file flow hq hpaths hhd hopen
  obtain rfl := Except.ok.inj (hstep.symm.trans hs')
  have hdistinct := hs.distinct
  rw [hq, List.nodup_cons] at hdistinct
  have hqueue : (r.pcapStructQueue ++ [Pcap.openOffline (file path)]).map some =
      (queue ++ [s.opened]).map fun q => ((openOffline file { s with
        handles := Function.update s.handles p (some { hd with isOpen := false }) } path).handles
          q).map Handle.pcap := by
    rw [List.map_append, List.map_append, h.pcapStructQueue, hq]
    congr 1
    · apply List.map_congr_left
      intro q hmem
      have hqp : q ≠ p := by
        rintro rfl
        exact hdistinct.1 hmem
      have hqo : q ≠ s.opened := hs.ne_opened (by rw [hq]; exact List.mem_cons_of_mem _ hmem)
      dsimp only [openOffline]
      rw [Function.update_of_ne hqo, Function.update_of_ne hqp]
    · simp [openOffline]
  unfold PcapReplay.changePcapFileToSend at hchange
  rw [h.pcapFilePathQueue, hpaths, List.map_cons] at hchange
  dsimp only at hchange
  rw [if_pos rfl] at hchange
  obtain ⟨first, others, hfirst⟩ :
      ∃ first others, r.pcapStructQueue ++ [Pcap.openOffline (file path)] = first :: others :=
    List.exists_cons_of_ne_nil (by simp)
  obtain ⟨q, qs, hqs⟩ : ∃ q qs, queue ++ [s.opened] = q :: qs :=
    List.exists_cons_of_ne_nil (by simp)
  rw [hfirst, hqs, List.map_cons, List.map_cons] at hqueue
  rw [hfirst] at hchange
  obtain ⟨rfl, rfl⟩ := Prod.mk.inj hchange
  refine ⟨rfl, rfl, _, hs', hrotates, ?_, ?_, ?_⟩
  · simp only [useHead, hqs, List.head?_cons, Option.bind_some]
    exact (List.cons.inj hqueue).1
  · simp only [useHead, hqs, List.tail_cons]
    exact (List.cons.inj hqueue).2
  · simp [useHead]

end Rotation

namespace PcapReplay

open Rotation

variable {α : Type*} {file : α → Capture} {paths : List α} {r r' u : PcapReplay} {a : Activation}
variable {found : Bool} {flow : Flow}

/-- The files of the replayer are in a state that reads and changes lead to. -/
def Tracks (file : α → Capture) (flow : Flow) (paths : List α) (r : PcapReplay) : Prop :=
  r.flow = flow ∧ ∃ es s, runSteps (Rotation.step file flow) (Rotation.new file paths) es = .ok s ∧
    s.Rotates file paths (changes es) ∧ s.Shows file r

theorem Tracks.same (h : r.Tracks file flow paths) (hsame : r.Same r') :
    r'.Tracks file flow paths := by
  obtain ⟨hflow, es, s, hrun, hs, hshows⟩ := h
  exact ⟨hsame.flow.trans hflow, es, s, hrun, hs, hshows.same hsame⟩

/-- Reading a packet keeps the track of the files. -/
theorem Tracks.getNextPacket (h : r.Tracks file flow paths) (hne : paths ≠ [])
    (hnext : r.getNextPacket = .ok (found, r')) : r'.Tracks file flow paths := by
  obtain ⟨rfl, es, s, hrun, hs, hshows⟩ := h
  obtain ⟨s', hstep, hs', hshows', hflow⟩ := hshows.getNextPacket hs hne hnext
  refine ⟨hflow, es ++ [.next], s', ?_, ?_, hshows'⟩
  · rw [runSteps_append_of_ok hrun, runSteps_cons_of_ok hstep, runSteps_nil]
  · simpa [changes] using hs'

/-- A restart keeps the track of the files. -/
theorem Tracks.restarted (h : r.Tracks file flow paths) (hne : paths ≠ [])
    (hrestart : r.Restarted true r') : r'.Tracks file flow paths := by
  obtain ⟨u, f, hsame, hf, hu⟩ := hrestart
  obtain ⟨hflow, es, s, hrun, hs, hshows⟩ := h.same hsame
  unfold restart at hu
  obtain ⟨changed, v, hchange⟩ : ∃ changed v, u.changePcapFileToSend true = (changed, v) :=
    ⟨_, _, rfl⟩
  obtain ⟨rfl, hflow', s', hstep, hs', hshows'⟩ := hshows.change flow hs hne hchange
  have hv : v.Tracks file flow paths := by
    refine ⟨hflow'.trans hflow, es ++ [.change], s', ?_, ?_, hshows'⟩
    · rw [runSteps_append_of_ok hrun, runSteps_cons_of_ok hstep, runSteps_nil]
    · simpa [changes] using hs'
  rw [hchange] at hu
  dsimp only at hu
  cases hnext : v.getNextPacket with
  | error fault => simp [hnext] at hu
  | ok next =>
    obtain ⟨found, w⟩ := next
    have hw := hv.getNextPacket hne hnext
    rw [hnext] at hu
    cases found with
    | false =>
      obtain rfl := Except.ok.inj hu
      exact hw.same ⟨rfl, rfl, rfl, rfl, rfl, rfl, rfl⟩
    | true =>
      obtain rfl := Except.ok.inj hu
      exact hw.same (hf w)

/-- Sending and freeing packets leave the files alone. -/
theorem Tracks.frame (h : r.Tracks file flow paths) (hflow : r'.flow = r.flow)
    (hpcap : r'.pcap = r.pcap) (hstructs : r'.pcapStructQueue = r.pcapStructQueue)
    (hpaths : r'.pcapFilePathQueue = r.pcapFilePathQueue) : r'.Tracks file flow paths := by
  obtain ⟨hr, es, s, hrun, hs, hshows⟩ := h
  refine ⟨hflow.trans hr, es, s, hrun, hs, ?_, ?_, ?_⟩
  · rw [hpcap, hshows.pcap]
  · rw [hstructs, hshows.pcapStructQueue]
  · rw [hpaths, hshows.pcapFilePathQueue]

/-- Every activation keeps the track of the files. -/
theorem Tracks.step (h : r.Tracks file flow paths) (hne : paths ≠ []) (hreopens : a.reopens = true)
    (hstep : step r a = .ok r') : r'.Tracks file flow paths := by
  rcases step_cases hstep with ⟨-, hsame⟩ | ⟨-, t, u, hnext, hsend, hrestart⟩ |
    ⟨-, t, hnext, u, hsend, hrest⟩
  · exact h.same hsame
  · rw [hreopens] at hrestart
    have hfreed : Tracks file flow paths { u with nextPacket := none } := by
      obtain ⟨p, hd, -, -, -, rfl⟩ := sendPacket_spec hsend
      exact (h.getNextPacket hne hnext).frame rfl rfl rfl rfl
    exact hfreed.restarted hne hrestart
  · have hu : u.Tracks file flow paths := by
      split at hsend
      · obtain ⟨p, hd, -, -, -, rfl⟩ := sendPacket_spec hsend
        exact (h.getNextPacket hne hnext).frame rfl rfl rfl rfl
      · exact hsend ▸ h.getNextPacket hne hnext
    split at hrest
    · rw [hreopens] at hrest
      exact hu.restarted hne hrest
    · exact hu.same hrest

/-- A replayer that has found its first packet. -/
theorem tracks_new (hne : paths ≠ []) (hnew : PcapReplay.new flow (paths.map file) = some r) :
    r.Tracks file flow paths := by
  obtain ⟨s, hs, hfilled, -⟩ := exists_filled_new file paths
  have hpcaps := hfilled.pcaps
  unfold PcapReplay.new at hnew
  cases hopened : (paths.map file).map Pcap.openOffline with
  | nil => simp [hopened] at hnew
  | cons h rest =>
    cases hq : s.pcapStructQueue with
    | nil => simp [hq, hne] at hpcaps
    | cons p queue =>
      have hopened' := congrArg (List.map some) hopened
      rw [List.map_map, List.map_map, List.map_cons] at hopened'
      rw [hq, List.map_cons] at hpcaps
      obtain ⟨hhead, htail⟩ := List.cons.inj (hpcaps.trans hopened')
      rw [hopened] at hnew
      dsimp only at hnew
      split at hnew
      swap
      · simp at hnew
      · rename_i t hnext
        obtain rfl := Option.some.inj hnew
        refine Tracks.getNextPacket ?_ hne hnext
        refine ⟨rfl, [], _, rfl, rotates_new file hne, ?_⟩
        rw [hs]
        refine ⟨?_, ?_, ?_⟩
        · simp only [useHead, hq, List.head?_cons, Option.bind_some]
          exact hhead.symm
        · simp only [useHead, hq, List.tail_cons]
          exact htail.symm
        · simp only [useHead]
          rw [hfilled.pathQueue]

/-- What happens to the files in a run of the replayer that can open them is a sequence of reads and
changes. -/
theorem tracks_of_run {as : List Activation} (hne : paths ≠ [])
    (hnew : PcapReplay.new flow (paths.map file) = some r) (hreopens : ∀ a ∈ as, a.reopens = true)
    (hrun : runSteps PcapReplay.step r as = .ok r') : r'.Tracks file flow paths :=
  invariant_of_stepsMeet (P := fun _ a => a.reopens = true) (Tracks file flow paths)
    (fun _ _ _ h hopens hstep => h.step hne hopens hstep) (tracks_new hne hnew)
    (stepsMeet_of_forall_mem fun _ => hreopens) hrun

end PcapReplay

end ShadowExtras.Replay
