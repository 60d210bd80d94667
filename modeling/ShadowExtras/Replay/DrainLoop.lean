import ShadowExtras.Replay.PcapReplay

/-!
# Emptying the socket

A server that goes on with another file waits for its client: at the next readable event it calls
`recv` until that fails, and drops what it gets (`drainLoop`). The socket does not block, so `recv`
fails when nothing is there; once the client has closed the connection and everything is read, it
returns zero for ever. The loop takes zero for data like any other length.

A `Client` sends some bytes before each of a number of calls, and then is silent or has closed the
connection. `Pauses` says that some call finds nothing while the connection is open: then the loop
ends, and else it does not.
-/

namespace ShadowExtras.Replay

open Foundation

/-- `MTU` -/
def mtu : ℕ := 2000

/-- What the connected client does. -/
structure Client where
  /-- The bytes that were sent and not received. -/
  pending : ℕ
  /-- The bytes that arrive before each of the next calls. -/
  arrivals : List ℕ
  /-- Does the client close the connection after that, or send nothing more? -/
  closes : Bool
  deriving DecidableEq, Repr

/-- The result of `recv` with a buffer of `MTU` bytes, none for `-1`. -/
def Client.recv (c : Client) : Option ℕ × Client :=
  match c.arrivals with
  | n :: arrivals =>
    if c.pending + n = 0 then (none, { c with arrivals := arrivals })
    else
      let numBytes := min (c.pending + n) mtu
      (some numBytes, { c with pending := c.pending + n - numBytes, arrivals := arrivals })
  | [] =>
    if c.pending = 0 then (if c.closes then some 0 else none, c)
    else
      let numBytes := min c.pending mtu
      (some numBytes, { c with pending := c.pending - numBytes })

/-- The loop of `_pcap_activateServer`, for a number of rounds: the lengths that it takes for
pending packets, none if it has not ended. -/
def drainLoop : ℕ → Client → Option (List ℕ)
  | 0, _ => none
  | rounds + 1, c =>
    match c.recv with
    | (none, _) => some []
    | (some numBytes, c) => (drainLoop rounds c).map (numBytes :: ·)

/-- The loop ends, and takes no end of the stream for a pending packet. -/
def DrainsPending (c : Client) : Prop := ∃ rounds taken, drainLoop rounds c = some taken ∧ 0 ∉ taken

/-- Some call finds nothing to receive while the connection is open. -/
def PausesAt : ℕ → List ℕ → Bool → Prop
  | _, [], closes => closes = false
  | pending, n :: arrivals, closes =>
    pending + n = 0 ∨ PausesAt (pending + n - min (pending + n) mtu) arrivals closes

instance decidablePausesAt : ∀ pending arrivals closes, Decidable (PausesAt pending arrivals closes)
  | _, [], closes => inferInstanceAs (Decidable (closes = false))
  | pending, n :: arrivals, closes =>
    have := decidablePausesAt (pending + n - min (pending + n) mtu) arrivals closes
    inferInstanceAs (Decidable (_ ∨ _))

/-- The client leaves the connection open until a call finds nothing to receive. -/
def Client.Pauses (c : Client) : Prop := PausesAt c.pending c.arrivals c.closes

instance (c : Client) : Decidable c.Pauses := inferInstanceAs (Decidable (PausesAt _ _ _))

variable {c : Client}

/-! ## One round -/

/-- One round of the loop. -/
theorem drainLoop_succ_of_some {c' : Client} {numBytes rounds : ℕ}
    (hrecv : c.recv = (some numBytes, c')) :
    drainLoop (rounds + 1) c = (drainLoop rounds c').map (numBytes :: ·) := by
  rw [drainLoop, hrecv]

/-- When `recv` fails, the loop has ended. -/
theorem drainsPending_of_none {c' : Client} (hrecv : c.recv = (none, c')) : DrainsPending c :=
  ⟨1, [], by rw [drainLoop, hrecv], by simp⟩

/-- A round that receives something goes on. -/
theorem drainsPending_iff_of_some {c' : Client} {numBytes : ℕ}
    (hrecv : c.recv = (some numBytes, c'))
    (hpos : numBytes ≠ 0) : DrainsPending c ↔ DrainsPending c' := by
  constructor
  · rintro ⟨rounds, taken, hloop, htaken⟩
    cases rounds with
    | zero => simp [drainLoop] at hloop
    | succ rounds =>
      rw [drainLoop_succ_of_some hrecv] at hloop
      obtain ⟨rest, hrest, rfl⟩ := Option.map_eq_some_iff.mp hloop
      exact ⟨rounds, rest, hrest, fun hzero => htaken (List.mem_cons_of_mem _ hzero)⟩
  · rintro ⟨rounds, taken, hloop, htaken⟩
    refine ⟨rounds + 1, numBytes :: taken,
      by rw [drainLoop_succ_of_some hrecv, hloop, Option.map_some], ?_⟩
    rw [List.mem_cons, not_or]
    exact ⟨hpos.symm, htaken⟩

/-! ## The end of the stream -/

/-- After the client has closed the connection the loop does not end. -/
theorem drainLoop_of_closed (hpending : c.pending = 0) (harrivals : c.arrivals = [])
    (hcloses : c.closes = true) (rounds : ℕ) : drainLoop rounds c = none := by
  have hrecv : c.recv = (some 0, c) := by simp [Client.recv, hpending, harrivals, hcloses]
  induction rounds with
  | zero => simp [drainLoop]
  | succ rounds ih => rw [drainLoop_succ_of_some hrecv, ih, Option.map_none]

/-- With nothing more to arrive the loop ends exactly if the client is silent. -/
theorem drainsPending_iff_of_nil (harrivals : c.arrivals = []) :
    DrainsPending c ↔ c.closes = false := by
  induction hpending : c.pending using Nat.strong_induction_on generalizing c with
  | _ pending ih =>
    by_cases hzero : c.pending = 0
    · cases hcloses : c.closes with
      | true =>
        simp only [Bool.true_eq_false, iff_false]
        rintro ⟨rounds, taken, hloop, -⟩
        rw [drainLoop_of_closed hzero harrivals hcloses] at hloop
        cases hloop
      | false =>
        have hrecv : c.recv = (none, c) := by simp [Client.recv, hzero, harrivals, hcloses]
        simp [drainsPending_of_none hrecv]
    · have hrecv : c.recv =
        (some (min c.pending mtu), { c with pending := c.pending - min c.pending mtu }) := by
        simp [Client.recv, harrivals, hzero]
      have hpos : min c.pending mtu ≠ 0 := by
        unfold mtu
        omega
      rw [drainsPending_iff_of_some hrecv hpos]
      apply ih (c.pending - min c.pending mtu) (by omega)
      · exact harrivals
      · rfl

/-- The loop ends, and takes no end of the stream for a pending packet, exactly if the client leaves
the connection open until a call finds nothing to receive. -/
theorem drainsPending_iff_pauses (c : Client) : DrainsPending c ↔ c.Pauses := by
  unfold Client.Pauses
  induction harrivals : c.arrivals generalizing c with
  | nil => rw [drainsPending_iff_of_nil harrivals, PausesAt]
  | cons n arrivals ih =>
    rw [PausesAt]
    by_cases hzero : c.pending + n = 0
    · have hrecv : c.recv = (none, { c with arrivals := arrivals }) := by
        unfold Client.recv
        rw [harrivals]
        exact if_pos hzero
      exact iff_of_true (drainsPending_of_none hrecv) (.inl hzero)
    · have hrecv : c.recv = (some (min (c.pending + n) mtu),
          { c with pending := c.pending + n - min (c.pending + n) mtu, arrivals := arrivals }) := by
        unfold Client.recv
        rw [harrivals]
        exact if_neg hzero
      have hpos : min (c.pending + n) mtu ≠ 0 := by
        unfold mtu
        omega
      rw [drainsPending_iff_of_some hrecv hpos, ih _ (by rfl), or_iff_right hzero]

/-- A client that sends some bytes and closes the connection. -/
theorem not_drainsPending_closed :
    ¬DrainsPending { pending := 3000, arrivals := [], closes := true } := by
  rw [drainsPending_iff_of_nil (by rfl)]
  simp

/-! ## The server -/

/-- `recv` returns zero only when the client has closed the connection and everything is read. -/
theorem closed_of_recv {c' : Client} (hrecv : c.recv = (some 0, c')) :
    c.pending = 0 ∧ c.arrivals = [] ∧ c.closes = true := by
  unfold Client.recv at hrecv
  cases harrivals : c.arrivals with
  | cons n arrivals =>
    simp only [harrivals] at hrecv
    split at hrecv
    · simp at hrecv
    · rename_i hzero
      have hmin : min (c.pending + n) mtu = 0 := Option.some.inj (Prod.mk.inj hrecv).1
      unfold mtu at hmin
      omega
  | nil =>
    simp only [harrivals] at hrecv
    split at hrecv
    · rename_i hzero
      split at hrecv
      · rename_i hcloses
        exact ⟨hzero, by rfl, hcloses⟩
      · simp at hrecv
    · rename_i hzero
      have hmin : min c.pending mtu = 0 := Option.some.inj (Prod.mk.inj hrecv).1
      unfold mtu at hmin
      omega

/-- A loop that ends has taken no end of the stream for a pending packet. -/
theorem zero_notMem_of_drainLoop {rounds : ℕ} {taken : List ℕ}
    (hloop : drainLoop rounds c = some taken) :
    0 ∉ taken := by
  induction rounds generalizing c taken with
  | zero => simp [drainLoop] at hloop
  | succ rounds ih =>
    rcases hrecv : c.recv with ⟨_ | numBytes, c'⟩
    · rw [drainLoop, hrecv] at hloop
      obtain rfl := Option.some.inj hloop
      simp
    · rw [drainLoop_succ_of_some hrecv] at hloop
      obtain ⟨rest, hrest, rfl⟩ := Option.map_eq_some_iff.mp hloop
      rw [List.mem_cons, not_or]
      refine ⟨?_, ih hrest⟩
      rintro rfl
      obtain ⟨hpending, harrivals, hcloses⟩ := closed_of_recv hrecv
      have hnever := drainLoop_of_closed hpending harrivals hcloses (rounds + 1)
      rw [drainLoop_succ_of_some hrecv, hrest] at hnever
      cases hnever

/-- A server that waits for its client comes back from a readable event exactly if the client leaves
the connection open until a call finds nothing to receive. -/
theorem PcapReplay.activateServer_waiting {s : PcapReplay} {a : Activation}
    (hwaits : s.isAllowedToSend = false) (hin : a.epollin = true)
    (hdrains : a.drains = true ↔ ∃ rounds taken, drainLoop rounds c = some taken) :
    s.activateServer a = .ok { s with isAllowedToSend := true } ↔ c.Pauses := by
  have hends : (∃ rounds taken, drainLoop rounds c = some taken) ↔ DrainsPending c := by
    constructor
    · rintro ⟨rounds, taken, hloop⟩
      exact ⟨rounds, taken, hloop, zero_notMem_of_drainLoop hloop⟩
    · rintro ⟨rounds, taken, hloop, -⟩
      exact ⟨rounds, taken, hloop⟩
  rw [← drainsPending_iff_pauses, ← hends, ← hdrains]
  unfold activateServer
  rw [if_pos ⟨hin, hwaits⟩]
  cases a.drains <;> simp

end ShadowExtras.Replay
