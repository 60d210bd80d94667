import ShadowExtras.Foundation.Stream

/-!
# Sockets as an activation sees them

A program that is woken up for a socket calls `send` and `recv` on it a few times. A `Socket` is
what it finds there: the bytes that have arrived, what it has sent so far, and the outcomes of its
next calls. When the outcomes run out, a call would block.
-/

namespace Foundation

/-- A connected stream socket. -/
structure Socket where
  /-- What the peer sends and was not received yet. -/
  incoming : Bytes
  /-- History: the bytes that `send` accepted. -/
  sent : Bytes
  /-- Environment: the outcomes of the next calls. -/
  answers : List Answer
  deriving DecidableEq, Repr

namespace Socket

/-- The outcome of the next call. -/
def nextAnswer (s : Socket) : Answer := s.answers.headD (.failed .wouldBlock)

/-- `send`: the number of bytes that are accepted, or an `errno`. -/
def send (s : Socket) (message : Bytes) : Except Errno ℕ × Socket :=
  let outcome := s.nextAnswer.send message.length
  (outcome,
    { s with
      sent := s.sent ++ message.take (outcome.toOption.getD 0)
      answers := s.answers.tail })

/-- `recv` for at most `len` bytes: the bytes that are received, or an `errno`. -/
def recv (s : Socket) (len : ℕ) : Except Errno Bytes × Socket :=
  let outcome := s.nextAnswer.recv s.incoming len
  (outcome,
    { s with
      incoming := s.incoming.drop (outcome.toOption.getD []).length
      answers := s.answers.tail })

/-- No bytes have passed between two moments. -/
def Same (s s' : Socket) : Prop := s'.incoming = s.incoming ∧ s'.sent = s.sent

theorem Same.refl (s : Socket) : s.Same s := ⟨rfl, rfl⟩

theorem Same.trans {s₁ s₂ s₃ : Socket} (h : s₁.Same s₂) (h' : s₂.Same s₃) : s₁.Same s₃ :=
  ⟨h'.1.trans h.1, h'.2.trans h.2⟩

variable {s s' : Socket} {message bytes : Bytes} {len n : ℕ} {errno : Errno}

/-- What `send` accepts is a front piece of the message. -/
theorem sent_of_send (h : s.send message = (.ok n, s')) :
    n ≤ message.length ∧ s'.incoming = s.incoming ∧ s'.sent = s.sent ++ message.take n := by
  obtain ⟨houtcome, rfl⟩ := Prod.mk.inj h
  refine ⟨Answer.le_of_send_eq_ok houtcome, rfl, ?_⟩
  simp [houtcome, Except.toOption]

/-- A `send` that fails does nothing. -/
theorem same_of_send_error (h : s.send message = (.error errno, s')) : s.Same s' := by
  obtain ⟨houtcome, rfl⟩ := Prod.mk.inj h
  refine ⟨rfl, ?_⟩
  simp [houtcome, Except.toOption]

/-- `recv` takes a front piece of what has arrived. -/
theorem incoming_of_recv (h : s.recv len = (.ok bytes, s')) :
    s.incoming = bytes ++ s'.incoming ∧ s'.sent = s.sent := by
  obtain ⟨houtcome, rfl⟩ := Prod.mk.inj h
  obtain ⟨rest, hrest⟩ := Answer.prefix_of_recv_eq_ok houtcome
  refine ⟨?_, rfl⟩
  simp only [houtcome, Except.toOption, Option.getD_some]
  rw [← hrest, List.drop_left]

/-- A `recv` that fails does nothing. -/
theorem same_of_recv_error (h : s.recv len = (.error errno, s')) : s.Same s' := by
  obtain ⟨houtcome, rfl⟩ := Prod.mk.inj h
  refine ⟨?_, rfl⟩
  simp [houtcome, Except.toOption]

/-- A `send` that accepts nothing does nothing. -/
theorem same_of_send_zero (h : s.send message = (.ok 0, s')) : s.Same s' := by
  obtain ⟨-, hincoming, hsent⟩ := sent_of_send h
  exact ⟨hincoming, by simpa using hsent⟩

/-- A `recv` that returns nothing does nothing. -/
theorem same_of_recv_nil (h : s.recv len = (.ok [], s')) : s.Same s' := by
  obtain ⟨hincoming, hsent⟩ := incoming_of_recv h
  exact ⟨hincoming.symm, hsent⟩

/-- `recv` takes no more than there is room for. -/
theorem length_le_of_recv (h : s.recv len = (.ok bytes, s')) : bytes.length ≤ len := by
  have houtcome : s.nextAnswer.recv s.incoming len = .ok bytes := (Prod.mk.inj h).1
  cases hanswer : s.nextAnswer with
  | ready k =>
    rw [hanswer] at houtcome
    simp only [Answer.recv] at houtcome
    split_ifs at houtcome
    · obtain rfl : [] = bytes := by simpa using houtcome
      exact Nat.zero_le _
    · obtain rfl : s.incoming.take (min (k + 1) len) = bytes := by simpa using houtcome
      rw [List.length_take]
      omega
  | closed =>
    rw [hanswer] at houtcome
    obtain rfl : [] = bytes := by simpa [Answer.recv] using houtcome
    exact Nat.zero_le _
  | failed errno => simp [hanswer, Answer.recv] at houtcome

end Socket

end Foundation
