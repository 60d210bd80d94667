import ShadowExtras.Foundation.Bytes

/-!
# Byte streams through a non-blocking socket

What a program sees of a connected stream socket: a call to `send` or `recv` passes some bytes,
finds the peer closed, or fails with an `errno`. The environment picks the outcome, an `Answer`;
how many bytes it lets pass is bounded by what the call asks for and, for `recv`, by what has
arrived.

The abstract view of an output stream is a `Pipe`: the bytes that went out already and those that
are still to go. Issuing appends to the second part and delivering moves a front piece of it to the
first, so what was delivered is at all times an initial segment of what was issued, and all of it
once nothing is pending. A sender refines a pipe when each of its steps is one of these moves.
-/

namespace Foundation

variable {α : Type*}

/-- Why a call on a non-blocking socket fails. -/
inductive Errno
  | wouldBlock
  | notConn
  | already
  | other
  deriving DecidableEq, Repr

/-- What the environment does with one call on a socket. -/
inductive Answer
  /-- At most `k + 1` bytes pass. -/
  | ready (k : Nat)
  /-- The peer has closed the connection. -/
  | closed
  /-- The call fails. -/
  | failed (errno : Errno)
  deriving DecidableEq, Repr

/-- The return value of `send` for `len` bytes: the number accepted, or an `errno`. A request for no
bytes, like a closed peer, gives zero. -/
def Answer.send (a : Answer) (len : Nat) : Except Errno Nat :=
  match a with
  | .ready k => .ok (min (k + 1) len)
  | .closed => .ok 0
  | .failed errno => .error errno

/-- `send` accepts no more than it is given. -/
theorem Answer.le_of_send_eq_ok {a : Answer} {len n : Nat} (h : a.send len = .ok n) : n ≤ len := by
  cases a with
  | ready k =>
    obtain rfl : min (k + 1) len = n := by simpa [Answer.send] using h
    exact Nat.min_le_right _ _
  | closed =>
    obtain rfl : 0 = n := by simpa [Answer.send] using h
    exact Nat.zero_le _
  | failed errno => simp [Answer.send] at h

/-- The outcome of `recv` for at most `len` bytes on a stream whose next bytes are `incoming`: the
bytes received, or an `errno`. A request for no bytes, like a closed peer, gives none; where
nothing has arrived `recv` would block. -/
def Answer.recv (a : Answer) (incoming : List α) (len : Nat) : Except Errno (List α) :=
  match a with
  | .ready k =>
    if len = 0 then .ok []
    else if incoming.length = 0 then .error .wouldBlock
    else .ok (incoming.take (min (k + 1) len))
  | .closed => .ok []
  | .failed errno => .error errno

/-- What `recv` delivers is the beginning of what is on the stream. -/
theorem Answer.prefix_of_recv_eq_ok {a : Answer} {incoming bytes : List α} {len : Nat}
    (h : a.recv incoming len = .ok bytes) : bytes <+: incoming := by
  cases a with
  | ready k =>
    simp only [Answer.recv] at h
    split_ifs at h
    · obtain rfl : [] = bytes := by simpa using h
      exact List.nil_prefix
    · obtain rfl : incoming.take (min (k + 1) len) = bytes := by simpa using h
      exact List.take_prefix _ _
  | closed =>
    obtain rfl : [] = bytes := by simpa [Answer.recv] using h
    exact List.nil_prefix
  | failed errno => simp [Answer.recv] at h

/-- A `recv` with room on a stream that has bytes delivers some of them. -/
theorem Answer.recv_ready {incoming : List α} {len : Nat} (k : Nat) (hlen : len ≠ 0)
    (hincoming : incoming ≠ []) :
    (Answer.ready k).recv incoming len = .ok (incoming.take (min (k + 1) len)) := by
  simp [Answer.recv, hlen, hincoming]

/-! ## Output streams -/

/-- An output stream: what went out and what is still to go. -/
@[ext] structure Pipe (α : Type*) where
  /-- What the peer's side has accepted, in order. -/
  delivered : List α
  /-- What has been issued and not yet delivered, in order. -/
  pending : List α

namespace Pipe

variable (p : Pipe α)

/-- Everything ever issued, in order. -/
def issued : List α := p.delivered ++ p.pending

/-- Append to what is to go out. -/
def issue (xs : List α) : Pipe α := { p with pending := p.pending ++ xs }

/-- Let the first `n` pending items go. -/
def deliver (n : Nat) : Pipe α :=
  { delivered := p.delivered ++ p.pending.take n, pending := p.pending.drop n }

@[simp] theorem issued_issue (xs : List α) : (p.issue xs).issued = p.issued ++ xs := by
  simp [issued, issue]

@[simp] theorem issued_deliver (n : Nat) : (p.deliver n).issued = p.issued := by
  simp [issued, deliver]

@[simp] theorem deliver_zero : p.deliver 0 = p := by
  simp [deliver]

/-- What was delivered is an initial segment of what was issued. -/
theorem delivered_prefix_issued : p.delivered <+: p.issued := List.prefix_append _ _

/-- Everything was delivered once nothing is pending. -/
theorem delivered_eq_issued_of_pending_eq_nil (h : p.pending = []) : p.delivered = p.issued := by
  simp [issued, h]

end Pipe

end Foundation
