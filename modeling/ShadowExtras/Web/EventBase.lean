import Mathlib.Data.UInt
import Mathlib.Logic.Function.Basic
import ShadowExtras.Foundation.Run

/-!
# The event base

`myevent_base` maps the descriptors that it monitors to their `myevent_socket_t`. A loop collects a
batch of ready descriptors from epoll and triggers the event of one after the other, as the map has
it at that moment: the callbacks that run meanwhile may have deleted events of the same batch, or
may have registered others under the same numbers. An event takes itself out of the map when it is
destroyed.

A step is one operation, or one turn of the innermost loop that is running; what a callback does are
the steps between two turns. The batches and the results of `epoll_ctl` are left to the
surroundings, and so is what `trigger` does, apart from the calls. Faults are assertions that fail.
-/

namespace ShadowExtras.Web

open Foundation

/-- A descriptor; the constructor of an event asserts that it is not negative. -/
abbrev Fd := Nat

/-- A `myevent_socket_t` object. -/
abbrev Mev := Nat

/-- What happens to an event. -/
inductive MevEntry
  | triggered (mev : Mev)
  | deleted (mev : Mev)
  deriving DecidableEq, Repr

/-- An assertion that fails. -/
inductive EventBaseFault
  /-- `nfds != -1` in a loop. -/
  | epollWait
  /-- `! inMap(fd2mev_, fd)` in `add_event`. -/
  | inMap
  /-- `what & (EPOLLIN | EPOLLOUT)` in `add_event`. -/
  | what
  /-- `myassert(0)` in `mod_event`. -/
  | epollCtl
  deriving DecidableEq, Repr

/-- `myevent_base`, its events and its loops. -/
structure EventBase where
  /-- `fd2mev_`; a key may be mapped to `NULL`. -/
  fd2mev : Fd → Option (Option Mev)
  /-- `fd_` of an event. -/
  fdOf : Mev → Fd
  /-- The number of events created so far; the next one gets this number. -/
  nextMev : Nat
  /-- What the loops that are running have left of their batches, the innermost first. -/
  batches : List (List (Fd × UInt32))
  /-- The descriptors that were added and not deleted since, with the events they were added for. -/
  added : Fd → Option Mev
  /-- The calls of `trigger` and the destructions, in order. -/
  log : List MevEntry

namespace EventBase

/-- `EPOLLIN` -/
def epollIn : UInt32 := 1

/-- `EPOLLOUT` -/
def epollOut : UInt32 := 4

/-- A base without events. -/
def new : EventBase where
  fd2mev _ := none
  fdOf _ := 0
  nextMev := 0
  batches := []
  added _ := none
  log := []

section Operations

variable (s : EventBase)

/-- The event was created and is not destroyed. -/
def Alive (mev : Mev) : Prop := mev < s.nextMev ∧ .deleted mev ∉ s.log

instance (mev : Mev) : Decidable (s.Alive mev) := by
  unfold Alive
  infer_instance

/-- The constructor of `myevent_socket_t`. -/
def create (fd : Fd) : EventBase :=
  { s with fdOf := Function.update s.fdOf s.nextMev fd, nextMev := s.nextMev + 1 }

/-- `myevent_base::add_event` -/
def addEvent (mev : Mev) (what : UInt32) : Except EventBaseFault EventBase :=
  let fd := s.fdOf mev
  if (s.fd2mev fd).isSome then .error .inMap
  else if what &&& (epollIn ||| epollOut) = 0 then .error .what
  else .ok
    { s with
      fd2mev := Function.update s.fd2mev fd (some (some mev))
      added := Function.update s.added fd (some mev) }

/-- `myevent_base::mod_event`; `rv` is the result of `epoll_ctl`. -/
def modEvent (rv : Int) : Except EventBaseFault EventBase :=
  if rv ≠ 0 then .error .epollCtl else .ok s

/-- `myevent_base::del_event` -/
def delEvent (fd : Fd) : EventBase :=
  { s with fd2mev := Function.update s.fd2mev fd none, added := Function.update s.added fd none }

/-- `myevent_socket_t::~myevent_socket_t` -/
def destroy (mev : Mev) : EventBase :=
  { s.delEvent (s.fdOf mev) with log := s.log ++ [.deleted mev] }

/-- The beginning of `myevent_base::loop_nonblock`, or of `dispatch`, which waits. -/
def loop (ready : Option (List (Fd × UInt32))) : Except EventBaseFault EventBase :=
  match ready with
  | none => .error .epollWait
  | some batch => .ok { s with batches := batch :: s.batches }

/-- `mev->trigger(epevs[i].events)` -/
def trigger (mev : Mev) : EventBase := { s with log := s.log ++ [.triggered mev] }

/-- A turn of the innermost loop; `fd2mev_[d]` inserts a `NULL` for a descriptor that is not a
key. -/
def turn : EventBase :=
  match s.batches with
  | [] => s
  | [] :: rest => { s with batches := rest }
  | ((d, _) :: batch) :: rest =>
    let s := { s with batches := batch :: rest }
    match s.fd2mev d with
    | some (some mev) => s.trigger mev
    | some none => s
    | none => { s with fd2mev := Function.update s.fd2mev d (some none) }

end Operations

/-- What the program does with the base. -/
inductive Step
  | create (fd : Fd)
  | addEvent (mev : Mev) (what : UInt32)
  | modEvent (fd : Fd) (what : UInt32) (rv : Int)
  | delEvent (fd : Fd)
  | destroy (mev : Mev)
  | loopNonblock (ready : Option (List (Fd × UInt32)))
  | dispatch (ready : Option (List (Fd × UInt32)))
  | turn
  deriving DecidableEq, Repr

/-- One step. Nothing is done with an event that does not exist. -/
def step (s : EventBase) : Step → Except EventBaseFault EventBase
  | .create fd => .ok (s.create fd)
  | .addEvent mev what => if s.Alive mev then s.addEvent mev what else .ok s
  | .modEvent _ _ rv => s.modEvent rv
  | .delEvent fd => .ok (s.delEvent fd)
  | .destroy mev => if s.Alive mev then .ok (s.destroy mev) else .ok s
  | .loopNonblock ready => s.loop ready
  | .dispatch ready => s.loop ready
  | .turn => .ok s.turn

/-! ## Which descriptors are keys -/

/-- The base tracks its descriptors: the keys are those that were added and not deleted since, each
with its event; no event was triggered after it was destroyed; and an event can be added for any
other descriptor. -/
structure Tracks (s : EventBase) : Prop where
  keys : ∀ fd, s.fd2mev fd = (s.added fd).map some
  log : s.log.Pairwise fun a b => ∀ mev, a = .deleted mev → b ≠ .triggered mev
  addable : ∀ mev what, s.added (s.fdOf mev) = none → s.addEvent mev what ≠ .error .inMap

/-- When a loop comes to a descriptor of its batch, the descriptor is still registered. -/
def StillAdded (s : EventBase) : Step → Prop
  | .turn =>
    match s.batches with
    | ((d, _) :: _) :: _ => s.added d ≠ none
    | _ => True
  | _ => True

/-- What is kept: the events in the map exist. -/
structure Kept (s : EventBase) : Prop where
  keys : ∀ fd, s.fd2mev fd = (s.added fd).map some
  log : s.log.Pairwise fun a b => ∀ mev, a = .deleted mev → b ≠ .triggered mev
  alive : ∀ fd mev, s.added fd = some mev → s.fdOf mev = fd ∧ s.Alive mev
  old : ∀ mev, .deleted mev ∈ s.log → mev < s.nextMev

variable {s s' : EventBase} {e : Step} {mev : Mev} {fd : Fd}

/-- A new event base is kept. -/
theorem kept_new : new.Kept := by
  constructor
  · exact fun _ => rfl
  · exact List.Pairwise.nil
  · intro fd mev h
    simp [new] at h
  · intro mev h
    simp [new] at h

/-- An event that is not a key can be added. -/
theorem Kept.tracks (h : s.Kept) : s.Tracks := by
  refine ⟨h.keys, h.log, fun mev what hnone => ?_⟩
  unfold addEvent
  simp only [h.keys, hnone, Option.map_none, Option.isSome_none, Bool.false_eq_true, if_false]
  split <;> simp

/-- A new event keeps the base. -/
theorem Kept.create (h : s.Kept) (fd : Fd) : (s.create fd).Kept := by
  refine ⟨h.keys, h.log, fun k mev hmev => ?_, fun mev hmev => Nat.lt_succ_of_lt (h.old mev hmev)⟩
  obtain ⟨hfd, hlt, hnot⟩ := h.alive k mev hmev
  refine ⟨?_, Nat.lt_succ_of_lt hlt, hnot⟩
  change Function.update s.fdOf s.nextMev fd mev = k
  rw [Function.update_of_ne (Nat.ne_of_lt hlt)]
  exact hfd

/-- An event that is added keeps the base. -/
theorem Kept.addEvent {what : UInt32} (h : s.Kept) (halive : s.Alive mev)
    (hadd : s.addEvent mev what = .ok s') : s'.Kept := by
  unfold EventBase.addEvent at hadd
  dsimp only at hadd
  split at hadd
  · simp at hadd
  · split at hadd
    · simp at hadd
    · obtain rfl := Except.ok.inj hadd
      refine ⟨fun fd => ?_, h.log, fun fd mev' hmev => ?_, h.old⟩
      · by_cases hfd : fd = s.fdOf mev
        · simp [hfd]
        · simp only [Function.update_of_ne hfd]
          exact h.keys fd
      · by_cases hfd : fd = s.fdOf mev
        · subst hfd
          obtain rfl : mev = mev' := by simpa using hmev
          exact ⟨rfl, halive⟩
        · simp only [Function.update_of_ne hfd] at hmev
          exact h.alive fd mev' hmev

/-- An event that is deleted keeps the base. -/
theorem Kept.delEvent (h : s.Kept) (fd : Fd) : (s.delEvent fd).Kept := by
  refine ⟨fun k => ?_, h.log, fun k mev hmev => ?_, h.old⟩
  · by_cases hk : k = fd
    · simp [EventBase.delEvent, hk]
    · simp only [EventBase.delEvent, Function.update_of_ne hk]
      exact h.keys k
  · by_cases hk : k = fd
    · simp [EventBase.delEvent, hk] at hmev
    · simp only [EventBase.delEvent, Function.update_of_ne hk] at hmev
      exact h.alive k mev hmev

/-- A destroyed event is not in the map: it could only be there under its own descriptor. -/
theorem Kept.destroy (h : s.Kept) (halive : s.Alive mev) : (s.destroy mev).Kept := by
  have hdeleted := h.delEvent (s.fdOf mev)
  refine ⟨hdeleted.keys, ?_, fun k mev' hmev => ?_, fun mev' hmev => ?_⟩
  · refine List.pairwise_append.mpr ⟨h.log, List.pairwise_singleton _ _, fun a _ b hb mev' _ => ?_⟩
    rw [List.mem_singleton.mp hb]
    simp
  · obtain ⟨hfd, hlt, hnot⟩ := hdeleted.alive k mev' hmev
    refine ⟨hfd, hlt, fun hmem => ?_⟩
    rcases List.mem_append.mp hmem with hmem | hmem
    · exact hnot hmem
    · obtain rfl : mev' = mev := by simpa using hmem
      have hfd : s.fdOf mev' = k := hfd
      rw [← hfd] at hmev
      simp [EventBase.destroy, EventBase.delEvent] at hmev
  · rcases List.mem_append.mp hmev with hmem | hmem
    · exact h.old mev' hmem
    · obtain rfl : mev' = mev := by simpa using hmem
      exact halive.1

/-- Only events in the map are triggered. -/
theorem Kept.trigger (h : s.Kept) (hmev : s.added fd = some mev) : (s.trigger mev).Kept := by
  obtain ⟨-, -, hnot⟩ := h.alive fd mev hmev
  refine ⟨h.keys, ?_, fun k mev' hmev' => ?_, fun mev' hmem => ?_⟩
  · refine List.pairwise_append.mpr ⟨h.log, List.pairwise_singleton _ _, ?_⟩
    intro a ha b hb mev' hdeleted htriggered
    rw [List.mem_singleton.mp hb] at htriggered
    obtain rfl := MevEntry.triggered.inj htriggered
    exact hnot (hdeleted ▸ ha)
  · obtain ⟨hfd, hlt, hnot'⟩ := h.alive k mev' hmev'
    refine ⟨hfd, hlt, fun hmem => ?_⟩
    rcases List.mem_append.mp hmem with hmem | hmem
    · exact hnot' hmem
    · simp at hmem
  · rcases List.mem_append.mp hmem with hmem | hmem
    · exact h.old mev' hmem
    · simp at hmem

/-- A turn whose events are still added keeps the base. -/
theorem Kept.turn (h : s.Kept) (hadded : s.StillAdded .turn) : s.turn.Kept := by
  unfold StillAdded at hadded
  unfold EventBase.turn
  have hpopped : ∀ batches, Kept { s with batches := batches } :=
    fun batches => ⟨h.keys, h.log, h.alive, h.old⟩
  cases hbatches : s.batches with
  | nil => exact h
  | cons batch rest =>
    cases batch with
    | nil => exact hpopped rest
    | cons ready batch =>
      obtain ⟨d, events⟩ := ready
      simp only [hbatches] at hadded
      obtain ⟨mev, hmev⟩ := Option.ne_none_iff_exists'.mp hadded
      have hkey := h.keys d
      rw [hmev, Option.map_some] at hkey
      simp only [hkey]
      exact (hpopped (batch :: rest)).trigger hmev

/-- Every step whose events are still added keeps the base. -/
theorem Kept.step (h : s.Kept) (hadded : s.StillAdded e) (hstep : s.step e = .ok s') :
    s'.Kept := by
  cases e with
  | create fd =>
    obtain rfl := Except.ok.inj hstep
    exact h.create fd
  | addEvent mev what =>
    simp only [EventBase.step] at hstep
    split at hstep
    · rename_i halive
      exact h.addEvent halive hstep
    · obtain rfl := Except.ok.inj hstep
      exact h
  | modEvent fd what rv =>
    simp only [EventBase.step, modEvent] at hstep
    split at hstep
    · simp at hstep
    · obtain rfl := Except.ok.inj hstep
      exact h
  | delEvent fd =>
    obtain rfl := Except.ok.inj hstep
    exact h.delEvent fd
  | destroy mev =>
    simp only [EventBase.step] at hstep
    split at hstep
    · rename_i halive
      obtain rfl := Except.ok.inj hstep
      exact h.destroy halive
    · obtain rfl := Except.ok.inj hstep
      exact h
  | loopNonblock ready | dispatch ready =>
    simp only [EventBase.step, loop] at hstep
    split at hstep
    · simp at hstep
    · obtain rfl := Except.ok.inj hstep
      exact ⟨h.keys, h.log, h.alive, h.old⟩
  | turn =>
    obtain rfl := Except.ok.inj hstep
    exact h.turn hadded

/-- A descriptor that was deleted meanwhile becomes a key. -/
theorem Kept.not_tracks_turn (h : s.Kept) (hadded : ¬s.StillAdded .turn) : ¬s.turn.Tracks := by
  unfold StillAdded at hadded
  intro htracks
  cases hbatches : s.batches with
  | nil => simp [hbatches] at hadded
  | cons batch rest =>
    cases batch with
    | nil => simp [hbatches] at hadded
    | cons ready batch =>
      obtain ⟨d, events⟩ := ready
      simp only [hbatches, ne_eq, not_not] at hadded
      have hkey := h.keys d
      rw [hadded, Option.map_none] at hkey
      have hturn : s.turn = { s with
          batches := batch :: rest, fd2mev := Function.update s.fd2mev d (some none) } := by
        unfold EventBase.turn
        simp only [hbatches, hkey]
      have hafter := htracks.keys d
      rw [hturn] at hafter
      simp [hadded] at hafter

/-- In every state that the program goes through, also in the middle of a loop, the base tracks its
descriptors, if and only if every descriptor of a batch is still registered when its turn comes. -/
theorem tracks_iff_stillAdded (es : List Step) :
    (∀ s, Visits step new es s → s.Tracks) ↔ StepsMeet step StillAdded new es := by
  refine forall_visits_iff_stepsMeet_of_leaves Kept Tracks (fun s hs => hs.tracks)
    (fun s e s' hs hadded hstep => hs.step hadded hstep) (fun s e hs hadded => ?_) kept_new
  cases e with
  | turn => exact ⟨s.turn, rfl, hs.not_tracks_turn hadded⟩
  | create fd => exact absurd trivial hadded
  | addEvent mev what => exact absurd trivial hadded
  | modEvent fd what rv => exact absurd trivial hadded
  | delEvent fd => exact absurd trivial hadded
  | destroy mev => exact absurd trivial hadded
  | loopNonblock ready => exact absurd trivial hadded
  | dispatch ready => exact absurd trivial hadded

/-- Two descriptors are ready, and the callback of the first destroys the event of the second. After
the loop the second one is a key, with no event, and a new event for it cannot be added. -/
theorem not_tracks_destroyed :
    let es : List Step := [.create 5, .create 6, .addEvent 0 1, .addEvent 1 1,
      .loopNonblock (some [(5, 1), (6, 1)]), .turn, .destroy 1, .turn, .turn, .create 6]
    ∃ s, runSteps step new es = .ok s ∧ s.batches = [] ∧ s.added 6 = none ∧
      s.fd2mev 6 = some none ∧ s.Alive 2 ∧ s.fdOf 2 = 6 ∧ s.addEvent 2 1 = .error .inMap ∧
      ¬s.Tracks := by
  refine ⟨_, rfl, rfl, rfl, rfl, by decide, rfl, rfl, fun h => ?_⟩
  exact absurd (h.keys 6) (by decide)

end EventBase

end ShadowExtras.Web
