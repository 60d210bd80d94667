import ShadowExtras.Web.Handler
import ShadowExtras.Web.HttpResponse

/-!
# The vectors of the receive loops

`Connection::http_receive` and `Handler::recv_from_client` receive into the vectors that
`evbuffer_reserve_space` offers: one call of `recv` for each, until one of them gets less than it
asked for. They count the vectors that were filled and commit as many *from the front*. A vector for
which `recv` would block is passed over, but not by the commit: if the next one is filled, the
vector in front is committed in its place, with all its room and whatever the memory held.

`vectorLoop` is this loop with the memory of the vectors. The models of the two functions take from
it what was received: `recvLoop_eq_vectorLoop` for the connection, `vectorLoop_of_recvLoop` for the
handler.
-/

namespace ShadowExtras.Web

open Foundation

/-! ## The loop -/

/-- How the loop over the vectors ends. -/
inductive LoopEnd
  /-- All vectors were used. -/
  | allUsed
  /-- `recv` got less than it asked for. -/
  | short
  /-- `recv` returned 0. -/
  | eof
  /-- `recv` failed. -/
  | error
  deriving DecidableEq, Repr

/-- What the loop over the vectors leaves. -/
structure VectorLoop where
  /-- The vectors, each up to its `iov_len`. -/
  vectors : List Bytes
  numToCommit : ℕ
  /-- History: the bytes that `recv` returned. -/
  received : Bytes
  ends : LoopEnd
  deriving DecidableEq, Repr

/-- The loop over the vectors, which are given by the memory they offer. -/
def vectorLoop (nToAdd : ℕ) : List Bytes → List RecvResult → VectorLoop
  | v :: vs, .wouldBlock :: results =>
    let rest := vectorLoop nToAdd vs results
    { rest with vectors := v :: rest.vectors }
  | v :: vs, .bytes d :: results =>
    let len := min v.length nToAdd
    let d := d.take len
    if d = [] then ⟨v :: vs, 0, [], .eof⟩
    else if d.length < len then ⟨d :: vs, 1, d, .short⟩
    else
      let rest := vectorLoop nToAdd vs results
      ⟨d :: rest.vectors, rest.numToCommit + 1, d ++ rest.received, rest.ends⟩
  | v :: vs, .eof :: _ => ⟨v :: vs, 0, [], .eof⟩
  | v :: vs, .error :: _ => ⟨v :: vs, 0, [], .error⟩
  | vs, _ => ⟨vs, 0, [], .allUsed⟩

/-- The vectors that `evbuffer_commit_space` is given. -/
def VectorLoop.committed (loop : VectorLoop) : List Bytes := loop.vectors.take loop.numToCommit

/-- `recv` would block for a vector, and fills the next one. -/
def SkipsVector (nToAdd : ℕ) : List ℕ → List RecvResult → Prop
  | _ :: size :: _, .wouldBlock :: .bytes d :: _ => d.take (min size nToAdd) ≠ []
  | _ :: sizes, .wouldBlock :: results => SkipsVector nToAdd sizes results
  | size :: sizes, .bytes d :: results =>
    min size nToAdd ≤ d.length ∧ SkipsVector nToAdd sizes results
  | _, _ => False

/-- `recv_from_client` gives up. -/
def LoopEnd.closes : LoopEnd → Bool
  | .eof | .error => true
  | _ => false

/-- How the loop ends, which does not depend on what the memory holds. -/
def endOf (nToAdd : ℕ) (sizes : List ℕ) (results : List RecvResult) : LoopEnd :=
  (vectorLoop nToAdd (sizes.map fun size => List.replicate size 0) results).ends

/-! ## The two functions -/

section Passes

variable (E : Evbuffer) (b : E.Buf) (memory : List Bytes) (results : List RecvResult)

/-- The end of a pass: what is in the buffer when it is processed. -/
def commitLoop (n : ℕ) (loop : VectorLoop) : E.Buf :=
  if loop.numToCommit = 0 then (E.reserve b n).1 else E.commit (E.reserve b n).1 loop.committed

/-- `Connection::http_receive`, from `read_more` to `handle_response`: the buffer. -/
def httpReceivePass : Except HttpFault E.Buf :=
  let loop := vectorLoop nToAdd memory results
  if loop.ends = .error then .error .recv else .ok (commitLoop E b nToAdd loop)

/-- `n_to_add` of `Handler` -/
def clientToAdd : ℕ := 1024 * 2

/-- `Handler::recv_from_client`, from `read_more` to `process_inbuf_`: the buffer. A client that has
closed the connection gets no answer, so what it sent is not committed. -/
def recvFromClientPass : E.Buf :=
  let loop := vectorLoop clientToAdd memory results
  if loop.ends.closes then (E.reserve b clientToAdd).1 else commitLoop E b clientToAdd loop

end Passes

/-! ## What is committed -/

section Loop

variable {n : ℕ} {memory : List Bytes} {sizes : List ℕ} {results : List RecvResult}

/-- A vector that is filled is not skipped. -/
@[simp] theorem skipsVector_bytes (n size : ℕ) (sizes : List ℕ) (d : Bytes)
    (results : List RecvResult) :
    SkipsVector n (size :: sizes) (.bytes d :: results) ↔
      min size n ≤ d.length ∧ SkipsVector n sizes results := by
  cases sizes <;> rw [SkipsVector]

/-- What was received and how the loop ends is the same for all memory of these sizes. -/
theorem vectorLoop_congr {memory memory' : List Bytes} (n : ℕ) (results : List RecvResult)
    (h : memory.map List.length = memory'.map List.length) :
    (vectorLoop n memory results).received = (vectorLoop n memory' results).received ∧
      (vectorLoop n memory results).numToCommit = (vectorLoop n memory' results).numToCommit ∧
      (vectorLoop n memory results).ends = (vectorLoop n memory' results).ends := by
  induction memory generalizing memory' results with
  | nil =>
    obtain rfl : memory' = [] := by simpa using h.symm
    exact ⟨rfl, rfl, rfl⟩
  | cons v vs ih =>
    obtain ⟨v', vs', rfl⟩ : ∃ v' vs', memory' = v' :: vs' := by
      cases memory' with
      | nil => simp at h
      | cons v' vs' => exact ⟨v', vs', rfl⟩
    simp only [List.map_cons, List.cons.injEq] at h
    obtain ⟨hsize, hsizes⟩ := h
    rcases results with _ | ⟨result, results⟩
    · simp [vectorLoop]
    · cases result with
      | wouldBlock => simpa [vectorLoop] using ih results hsizes
      | eof => simp [vectorLoop]
      | error => simp [vectorLoop]
      | bytes d =>
        obtain ⟨hreceived, hcommit, hends⟩ := ih results hsizes
        simp only [vectorLoop, hsize]
        split_ifs
        · exact ⟨rfl, rfl, rfl⟩
        · exact ⟨rfl, rfl, rfl⟩
        · exact ⟨by rw [hreceived], by rw [hcommit], hends⟩

/-- How the loop over the vectors ends depends on their lengths. -/
theorem endOf_eq (h : memory.map List.length = sizes) (results : List RecvResult) :
    (vectorLoop n memory results).ends = endOf n sizes results := by
  refine (vectorLoop_congr n results ?_).2.2
  rw [h, List.map_map]
  simp [Function.comp_def]

/-- What is committed fits into the vectors. -/
theorem fitsInto_committed (n : ℕ) (memory : List Bytes) (results : List RecvResult) :
    FitsInto (vectorLoop n memory results).committed (memory.map List.length) := by
  unfold VectorLoop.committed
  induction memory generalizing results with
  | nil => cases results <;> simp [vectorLoop, FitsInto]
  | cons v vs ih =>
    rcases results with _ | ⟨result, results⟩
    · simp [vectorLoop, FitsInto]
    · cases result with
      | wouldBlock =>
        simp only [vectorLoop, List.map_cons]
        have hrest := ih results
        cases hcommit : (vectorLoop n vs results).numToCommit with
        | zero => exact trivial
        | succ k =>
          rw [hcommit] at hrest
          have hfront := fitsInto_take hrest k
          rw [List.take_take, Nat.min_eq_left (Nat.le_succ k)] at hfront
          exact ⟨le_rfl, hfront⟩
      | eof => exact trivial
      | error => exact trivial
      | bytes d =>
        have hlength : (d.take (min v.length n)).length ≤ v.length := by
          rw [List.length_take]
          omega
        simp only [vectorLoop]
        split_ifs
        · exact trivial
        · exact ⟨hlength, trivial⟩
        · exact ⟨hlength, ih results⟩

/-- Behind a vector that was passed over nothing is received, unless a vector is skipped. -/
theorem vectorLoop_of_not_skips {size : ℕ} (h : memory.map List.length = sizes)
    (hskips : ¬SkipsVector n (size :: sizes) (.wouldBlock :: results)) :
    (vectorLoop n memory results).numToCommit = 0 ∧
    (vectorLoop n memory results).received = [] := by
  induction memory generalizing size sizes results with
  | nil => cases results <;> exact ⟨rfl, rfl⟩
  | cons v vs ih =>
    rcases results with _ | ⟨result, results⟩
    · exact ⟨rfl, rfl⟩
    · obtain rfl := h
      cases result with
      | wouldBlock => exact @ih _ results _ rfl hskips
      | eof => exact ⟨rfl, rfl⟩
      | error => exact ⟨rfl, rfl⟩
      | bytes d =>
        have hempty : d.take (min v.length n) = [] := not_not.mp hskips
        simp [vectorLoop, hempty]

/-- Behind a vector that was skipped something is received, whatever the memory holds. -/
theorem vectorLoop_of_skips {size : ℕ}
    (hskips : SkipsVector n (size :: sizes) (.wouldBlock :: results)) :
    ∃ c, ∀ memory : List Bytes, memory.map List.length = sizes →
      0 < (vectorLoop n memory results).numToCommit ∧
        ∃ rest, (vectorLoop n memory results).received = c :: rest := by
  induction sizes generalizing size results with
  | nil => cases results <;> simp [SkipsVector] at hskips
  | cons size' sizes ih =>
    rcases results with _ | ⟨result, results⟩
    · simp [SkipsVector] at hskips
    · cases result with
      | wouldBlock =>
        obtain ⟨c, hc⟩ := ih hskips
        refine ⟨c, fun memory hmemory => ?_⟩
        obtain ⟨v, vs, rfl⟩ : ∃ v vs, memory = v :: vs := List.exists_cons_of_length_pos (by
          rw [← List.length_map, hmemory]
          simp)
        exact hc vs (List.cons.inj hmemory).2
      | eof => simp [SkipsVector] at hskips
      | error => simp [SkipsVector] at hskips
      | bytes d =>
        have hsome : d.take (min size' n) ≠ [] := hskips
        obtain ⟨c, d', hd⟩ := List.exists_cons_of_ne_nil hsome
        refine ⟨c, fun memory hmemory => ?_⟩
        obtain ⟨v, vs, rfl⟩ : ∃ v vs, memory = v :: vs := List.exists_cons_of_length_pos (by
          rw [← List.length_map, hmemory]
          simp)
        rw [List.map_cons, List.cons.injEq] at hmemory
        simp only [vectorLoop, hmemory.1, hd, reduceCtorEq, if_false]
        split_ifs <;> simp

/-- What is committed is what was received, if no vector is skipped. -/
theorem committed_of_not_skips (h : memory.map List.length = sizes)
    (hskips : ¬SkipsVector n sizes results) :
    (vectorLoop n memory results).committed.flatten = (vectorLoop n memory results).received := by
  unfold VectorLoop.committed
  induction memory generalizing sizes results with
  | nil => cases results <;> simp [vectorLoop]
  | cons v vs ih =>
    obtain rfl := h
    rcases results with _ | ⟨result, results⟩
    · simp [vectorLoop]
    · cases result with
      | wouldBlock =>
        obtain ⟨hcommit, hreceived⟩ := vectorLoop_of_not_skips rfl hskips
        simp [vectorLoop, hcommit, hreceived]
      | eof => simp [vectorLoop]
      | error => simp [vectorLoop]
      | bytes d =>
        simp only [vectorLoop]
        split_ifs with hempty hshort
        · simp
        · simp
        · have hfull : min v.length n ≤ d.length := by
            rw [List.length_take] at hshort
            omega
          have hrest : ¬SkipsVector n (vs.map List.length) results :=
            fun hskip => hskips ((skipsVector_bytes ..).mpr ⟨hfull, hskip⟩)
          rw [List.take_succ_cons, List.flatten_cons, ih rfl hrest]

/-- If a vector is skipped, there is memory for which something else is committed. -/
theorem exists_committed_ne (hn : 0 < n) (hsizes : ∀ size ∈ sizes, 0 < size)
    (hskips : SkipsVector n sizes results) :
    ∃ memory : List Bytes, memory.map List.length = sizes ∧
      (vectorLoop n memory results).committed.flatten ≠ (vectorLoop n memory results).received := by
  unfold VectorLoop.committed
  induction sizes generalizing results with
  | nil => cases results <;> simp [SkipsVector] at hskips
  | cons size sizes ih =>
    have hsize := hsizes size List.mem_cons_self
    rcases results with _ | ⟨result, results⟩
    · simp [SkipsVector] at hskips
    · cases result with
      | wouldBlock =>
        obtain ⟨c, hc⟩ := vectorLoop_of_skips hskips
        have hrest : (sizes.map fun size => List.replicate size (0 : Byte)).map List.length =
            sizes := by
          simp [Function.comp_def]
        obtain ⟨hcommit, rest, hreceived⟩ := hc _ hrest
        -- the memory of the skipped vector begins with another byte
        refine ⟨List.replicate size (c + 1) :: sizes.map fun size => List.replicate size 0, ?_, ?_⟩
        · rw [List.map_cons, hrest, List.length_replicate]
        · obtain ⟨k, hk⟩ := Nat.exists_eq_succ_of_ne_zero hcommit.ne'
          obtain ⟨m, rfl⟩ := Nat.exists_eq_succ_of_ne_zero hsize.ne'
          simp only [vectorLoop, hk, hreceived, List.take_succ_cons, List.flatten_cons,
            List.replicate_succ, List.cons_append, ne_eq, List.cons.injEq]
          rintro ⟨hbyte, -⟩
          simp at hbyte
      | eof => simp [SkipsVector] at hskips
      | error => simp [SkipsVector] at hskips
      | bytes d =>
        obtain ⟨hfull, hrest⟩ : min size n ≤ d.length ∧ SkipsVector n sizes results :=
          (skipsVector_bytes ..).mp hskips
        obtain ⟨memory, hmemory, hne⟩ :=
          ih (fun size hmem => hsizes size (List.mem_cons_of_mem _ hmem)) hrest
        refine ⟨List.replicate size 0 :: memory,
          by rw [List.map_cons, hmemory, List.length_replicate], ?_⟩
        have hlength : (d.take (min size n)).length = min size n := List.length_take_of_le hfull
        have hsome : d.take (min size n) ≠ [] := List.ne_nil_of_length_pos (by omega)
        simp only [vectorLoop, List.length_replicate, if_neg hsome]
        rw [if_neg (by omega)]
        simpa using hne

/-- What is committed is what was received, whatever the memory holds, just if no vector is
skipped. -/
theorem committed_eq_received_iff (hn : 0 < n) (hsizes : ∀ size ∈ sizes, 0 < size) :
    (∀ memory : List Bytes, memory.map List.length = sizes →
      (vectorLoop n memory results).committed.flatten = (vectorLoop n memory results).received) ↔
      ¬SkipsVector n sizes results := by
  constructor
  · intro h hskips
    obtain ⟨memory, hmemory, hne⟩ := exists_committed_ne hn hsizes hskips
    exact hne (h memory hmemory)
  · intro hskips memory hmemory
    exact committed_of_not_skips hmemory hskips

/-! ## The models of the two functions -/

/-- What the model of the connection commits and receives is what this loop does. -/
theorem recvLoop_eq_vectorLoop {results : List NumRead} {stream : Bytes} {f : Filled}
    (h : HttpConnection.recvLoop sizes results stream = .ok f) :
    ∃ (memory : List Bytes) (outcomes : List RecvResult), memory.map List.length = sizes ∧
      (f.vectors <+: (vectorLoop nToAdd memory outcomes).vectors ∧
        f.numToCommit = (vectorLoop nToAdd memory outcomes).numToCommit ∧
        f.numToCommit ≤ f.vectors.length) ∧
      stream = (vectorLoop nToAdd memory outcomes).received ++ f.rest := by
  induction sizes generalizing results stream f with
  | nil =>
    cases results <;> obtain rfl := Except.ok.inj h <;>
      exact ⟨[], [], rfl, ⟨List.prefix_rfl, rfl, le_rfl⟩, rfl⟩
  | cons size sizes ih =>
    have hsizes : ((size :: sizes).map fun size => List.replicate size (0 : Byte)).map List.length =
        size :: sizes := by
      simp [Function.comp_def]
    cases results with
    | nil =>
      obtain rfl := Except.ok.inj h
      exact ⟨_, [], hsizes, ⟨List.nil_prefix, rfl, le_rfl⟩, rfl⟩
    | cons result results =>
      cases result with
      | error => simp [HttpConnection.recvLoop] at h
      | wouldBlock held =>
        simp only [HttpConnection.recvLoop] at h
        split at h
        · cases h
        · rename_i r hr
          obtain rfl := Except.ok.inj h
          obtain ⟨memory, outcomes, hmemory, ⟨hvectors, hcommit, hle⟩, hstream⟩ := ih hr
          refine ⟨held.takeD size 0 :: memory, .wouldBlock :: outcomes, ?_, ⟨?_, hcommit, ?_⟩,
            hstream⟩
          · rw [List.map_cons, hmemory, List.takeD_length]
          · exact (List.prefix_cons_inj _).mpr hvectors
          · exact hle.trans (Nat.le_succ _)
      | bytes k =>
        simp only [HttpConnection.recvLoop] at h
        have hgot : (stream.take (min k (min size nToAdd))).take (min size nToAdd) =
            stream.take (min k (min size nToAdd)) := by
          rw [List.take_take, Nat.min_eq_right (Nat.min_le_right _ _)]
        have hsplit : stream = stream.take (min k (min size nToAdd)) ++
            stream.drop (stream.take (min k (min size nToAdd))).length :=
          (List.prefix_iff_eq_append.mp (List.take_prefix _ stream)).symm
        generalize stream.take (min k (min size nToAdd)) = got at h hgot hsplit
        split_ifs at h with hempty hshort
        · obtain rfl := Except.ok.inj h
          exact ⟨_, [.eof], hsizes, ⟨List.nil_prefix, rfl, le_rfl⟩, rfl⟩
        · obtain rfl := Except.ok.inj h
          refine ⟨_, [.bytes got], hsizes, ?_⟩
          simp only [vectorLoop, List.map_cons, List.length_replicate, hgot, if_neg hempty,
            if_pos hshort]
          exact ⟨⟨by simp, by simp, by simp⟩, hsplit⟩
        · split at h
          · cases h
          · rename_i r hr
            obtain rfl := Except.ok.inj h
            obtain ⟨memory, outcomes, hmemory, ⟨hvectors, hcommit, hle⟩, hstream⟩ := ih hr
            refine ⟨List.replicate size 0 :: memory, .bytes got :: outcomes, ?_, ?_⟩
            · rw [List.map_cons, hmemory, List.length_replicate]
            · simp only [vectorLoop, List.length_replicate, hgot, if_neg hempty, if_neg hshort]
              refine ⟨⟨(List.prefix_cons_inj _).mpr hvectors, by rw [hcommit], ?_⟩, ?_⟩
              · simpa using hle
              · rw [List.append_assoc, ← hstream]
                exact hsplit

/-- What the model of the handler commits is what this loop receives, unless it closes; where it
stops at a fault, bytes were received behind a vector that was passed over. -/
theorem vectorLoop_of_recvLoop {vectors : List (ℕ × RecvResult)}
    (h : memory.map List.length = vectors.map Prod.fst) (data : Bytes) (skipped : Bool) :
    let loop := vectorLoop clientToAdd memory (vectors.map Prod.snd)
    match recvLoop vectors data skipped with
    | .ok .closed => loop.ends.closes = true
    | .ok (.bytes data' _) => loop.ends.closes = false ∧ data' = data ++ loop.received
    | .error _ => loop.received ≠ [] := by
  induction vectors generalizing memory data skipped with
  | nil =>
    obtain rfl : memory = [] := by simpa using h
    exact ⟨rfl, (List.append_nil data).symm⟩
  | cons vector vectors ih =>
    obtain ⟨size, result⟩ := vector
    obtain ⟨v, vs, rfl⟩ : ∃ v vs, memory = v :: vs := List.exists_cons_of_length_pos (by
      rw [← List.length_map, h]
      simp)
    simp only [List.map_cons, List.cons.injEq] at h
    obtain ⟨rfl, hsizes⟩ := h
    cases result with
    | eof => simp [recvLoop, vectorLoop, LoopEnd.closes]
    | error => simp [recvLoop, vectorLoop, LoopEnd.closes]
    | wouldBlock => exact ih hsizes data true
    | bytes d =>
      have hlen : min v.length (2 * 1024) = min v.length clientToAdd := rfl
      simp only [recvLoop, List.map_cons, vectorLoop, hlen]
      generalize d.take (min v.length clientToAdd) = got
      split_ifs with hempty hskipped hshort hshort
      · rfl
      · exact hempty
      · simp [hempty]
      · exact ⟨rfl, rfl⟩
      · have hrest := ih hsizes (data ++ got) skipped
        split
        · rename_i hresult
          rw [hresult] at hrest
          exact hrest
        · rename_i hresult
          rw [hresult] at hrest
          exact ⟨hrest.1, by rw [hrest.2, List.append_assoc]⟩
        · simp [hempty]

end Loop

/-! ## The buffer -/

section Buffer

variable {E : Evbuffer} {b : E.Buf} {memory : List Bytes} {results : List RecvResult} {n : ℕ}

/-- A pass adds what the loop commits. -/
theorem bytes_commitLoop (h : memory.map List.length = (E.reserve b n).2) :
    E.bytes (commitLoop E b n (vectorLoop n memory results)) =
      E.bytes b ++ (vectorLoop n memory results).committed.flatten := by
  unfold commitLoop
  split
  · rename_i hnone
    rw [Evbuffer.bytes_reserve, VectorLoop.committed, hnone, List.take_zero, List.flatten_nil,
      List.append_nil]
  · apply Evbuffer.bytes_commit
    rw [← h]
    exact fitsInto_committed n memory results

/-- A pass adds what was received, whatever the memory holds, just if no vector is skipped. -/
theorem bytes_commitLoop_iff (hn : 0 < n) :
    (∀ memory : List Bytes, memory.map List.length = (E.reserve b n).2 →
      E.bytes (commitLoop E b n (vectorLoop n memory results)) =
        E.bytes b ++ (vectorLoop n memory results).received) ↔
      ¬SkipsVector n (E.reserve b n).2 results := by
  rw [← committed_eq_received_iff hn fun size => E.pos_of_mem_reserve]
  constructor
  · intro h memory hmemory
    have hbytes := h memory hmemory
    rw [bytes_commitLoop hmemory] at hbytes
    exact List.append_cancel_left hbytes
  · intro h memory hmemory
    rw [bytes_commitLoop hmemory, h memory hmemory]

/-- The loop does not end with an error when no `recv` fails. -/
theorem ends_ne_error (n : ℕ) (memory : List Bytes) (h : .error ∉ results) :
    (vectorLoop n memory results).ends ≠ .error := by
  induction memory generalizing results with
  | nil => cases results <;> simp [vectorLoop]
  | cons v vs ih =>
    rcases results with _ | ⟨result, results⟩
    · simp [vectorLoop]
    · have hrest : .error ∉ results := fun hmem => h (List.mem_cons_of_mem _ hmem)
      cases result with
      | wouldBlock => exact ih hrest
      | eof => simp [vectorLoop]
      | error => exact absurd List.mem_cons_self h
      | bytes d =>
        simp only [vectorLoop]
        split_ifs
        · simp
        · simp
        · exact ih hrest

/-- The bytes of a body: what is notified and drained are the front bytes of the buffer, just if
they stand in no more extents than there are vectors. -/
theorem handleBody_iff (c : HttpConnection E) (found : Bool) (hlen : 0 < c.bodyLen) :
    (∃ handled, c.handleBody true found = .ok handled ∧
      HttpConnection.bodyBytes handled.notices = (E.bytes c.inbuf).take c.bodyLen.toNat ∧
      E.bytes handled.conn.inbuf = (E.bytes c.inbuf).drop c.bodyLen.toNat) ↔
      (E.peek c.inbuf c.bodyLen.toNat).length ≤ 2 := by
  have hdata : (HttpConnection.consumed c.bodyLen.toNat (E.peek c.inbuf c.bodyLen.toNat)).flatten =
      (E.bytes c.inbuf).take c.bodyLen.toNat := by
    rw [HttpConnection.flatten_consumed, Evbuffer.take_flatten_peek]
  have hdrop : (E.bytes c.inbuf).drop ((E.bytes c.inbuf).take c.bodyLen.toNat).length =
      (E.bytes c.inbuf).drop c.bodyLen.toNat := by
    rw [List.length_take]
    rcases Nat.le_total c.bodyLen.toNat (E.bytes c.inbuf).length with hle | hle
    · rw [Nat.min_eq_left hle]
    · rw [Nat.min_eq_right hle, List.drop_length, List.drop_eq_nil_of_le hle]
  unfold HttpConnection.handleBody
  rw [if_neg (not_not.mpr hlen)]
  simp only [Bool.not_true, Bool.false_eq_true, if_false]
  constructor
  · rintro ⟨handled, hresult, -⟩
    by_contra hmany
    rw [if_pos (by omega)] at hresult
    cases hresult
  · intro hfew
    rw [if_neg (by omega)]
    split_ifs
    · refine ⟨_, rfl, ?_, ?_⟩
      · rw [HttpConnection.bodyBytes_append_rspBodyDone, HttpConnection.bodyBytes_rspBodyData,
          hdata]
      · rw [Evbuffer.bytes_drain, hdata, hdrop]
    · refine ⟨_, rfl, ?_, ?_⟩
      · rw [HttpConnection.bodyBytes_rspBodyData, hdata]
      · rw [Evbuffer.bytes_drain, hdata, hdrop]

/-- For every layout of the buffer and all results of `recv`: the connection adds what it received
just if no vector is skipped; the handler does so too, but adds nothing when the client has closed;
and the body is taken from the front of the buffer just if it stands in no more extents than there
are vectors. -/
theorem vectors_exact (E : Evbuffer) (b : E.Buf) (results : List RecvResult) (c : HttpConnection E)
    (found : Bool) :
    (.error ∉ results →
      ((∀ memory : List Bytes, memory.map List.length = (E.reserve b nToAdd).2 →
        ∃ b', httpReceivePass E b memory results = .ok b' ∧
          E.bytes b' = E.bytes b ++ (vectorLoop nToAdd memory results).received) ↔
        ¬SkipsVector nToAdd (E.reserve b nToAdd).2 results)) ∧
    (if (endOf clientToAdd (E.reserve b clientToAdd).2 results).closes = true then
      ∀ memory : List Bytes, memory.map List.length = (E.reserve b clientToAdd).2 →
        E.bytes (recvFromClientPass E b memory results) = E.bytes b
    else
      ((∀ memory : List Bytes, memory.map List.length = (E.reserve b clientToAdd).2 →
        E.bytes (recvFromClientPass E b memory results) =
          E.bytes b ++ (vectorLoop clientToAdd memory results).received) ↔
        ¬SkipsVector clientToAdd (E.reserve b clientToAdd).2 results)) ∧
    (0 < c.bodyLen →
      ((∃ handled, c.handleBody true found = .ok handled ∧
        HttpConnection.bodyBytes handled.notices = (E.bytes c.inbuf).take c.bodyLen.toNat ∧
        E.bytes handled.conn.inbuf = (E.bytes c.inbuf).drop c.bodyLen.toNat) ↔
        (E.peek c.inbuf c.bodyLen.toNat).length ≤ 2)) := by
  refine ⟨fun hnone => ?_, ?_, handleBody_iff c found⟩
  · have hpass (memory : List Bytes) : httpReceivePass E b memory results =
        .ok (commitLoop E b nToAdd (vectorLoop nToAdd memory results)) :=
      if_neg (ends_ne_error nToAdd memory hnone)
    rw [← bytes_commitLoop_iff (by decide)]
    simp only [hpass, Except.ok.injEq, exists_eq_left']
  · split_ifs with hcloses
    · intro memory hmemory
      rw [recvFromClientPass, endOf_eq hmemory, if_pos hcloses, Evbuffer.bytes_reserve]
    · rw [← bytes_commitLoop_iff (by decide)]
      have hpass (memory : List Bytes) (hmemory : memory.map List.length =
          (E.reserve b clientToAdd).2) :
          recvFromClientPass E b memory results =
            commitLoop E b clientToAdd (vectorLoop clientToAdd memory results) := by
        rw [recvFromClientPass, endOf_eq hmemory, if_neg hcloses]
      constructor
      · intro h memory hmemory
        rw [← hpass memory hmemory]
        exact h memory hmemory
      · intro h memory hmemory
        rw [hpass memory hmemory]
        exact h memory hmemory

/-- Of the room that is reserved, one byte is left of an earlier extent. -/
def splitRoom : Evbuffer :=
  { Evbuffer.chunked with
    reserve := fun b n => (b, [1, n + 1])
    extents_reserve := fun _ _ => rfl
    length_reserve := fun _ _ => by simp
    pos_of_mem_reserve := fun {b n s} hs => by
      rcases List.mem_pair.mp hs with rfl | rfl <;> omega
    flatten_commit := fun {b n ps} _ => by
      show (b.1 ++ ps.filter (· ≠ [])).flatten = b.1.flatten ++ ps.flatten
      rw [List.flatten_append, flatten_filter_ne_nil]
    length_commit := fun {b n ps} _ => by
      show (dropExtents b.1.flatten.length (b.1 ++ ps.filter (· ≠ []))).length ≤ ps.length
      rw [dropExtents_append b.1 fun f hf => by simpa using (List.mem_filter.mp hf).2]
      exact List.length_filter_le _ _ }

/-- A byte arrives between two calls of `recv`; the client closes behind a byte; and a body stands
in three extents. -/
theorem vectors_not_exact :
    (∃ (memory : List Bytes) (b : splitRoom.Buf),
      memory.map List.length = (splitRoom.reserve splitRoom.new nToAdd).2 ∧
      httpReceivePass splitRoom splitRoom.new memory [.wouldBlock, .bytes [97]] = .ok b ∧
      splitRoom.bytes b ≠ splitRoom.bytes splitRoom.new ++
        (vectorLoop nToAdd memory [.wouldBlock, .bytes [97]]).received) ∧
    (∃ memory : List Bytes, memory.map List.length =
      (splitRoom.reserve splitRoom.new clientToAdd).2 ∧
      splitRoom.bytes (recvFromClientPass splitRoom splitRoom.new memory [.bytes [97], .eof]) ≠
        splitRoom.bytes splitRoom.new ++
          (vectorLoop clientToAdd memory [.bytes [97], .eof]).received) ∧
    ∃ c : HttpConnection splitRoom, 0 < c.bodyLen ∧ c.handleBody true false = .error .overrun := by
  refine ⟨?_, ?_, ?_⟩
  · obtain ⟨room, hroom⟩ : ∃ room : Bytes, room.length = nToAdd + 1 :=
      ⟨List.replicate (nToAdd + 1) 0, List.length_replicate⟩
    have htake : [(97 : Byte)].take nToAdd = [97] := rfl
    have hloop : vectorLoop nToAdd [[0], room] [.wouldBlock, .bytes [97]] =
        ⟨[[0], [97]], 1, [97], .short⟩ := by
      simp only [vectorLoop, hroom, Nat.min_eq_right (Nat.le_succ nToAdd), htake]
      rfl
    refine ⟨[[0], room], commitLoop splitRoom splitRoom.new nToAdd ⟨[[0], [97]], 1, [97], .short⟩,
      ?_, ?_, ?_⟩
    · rw [List.map_cons, List.map_cons, hroom]
      rfl
    · rw [httpReceivePass, hloop]
      exact if_neg (by simp)
    · rw [hloop]
      decide
  · obtain ⟨room, hroom⟩ : ∃ room : Bytes, room.length = clientToAdd + 1 :=
      ⟨List.replicate (clientToAdd + 1) 0, List.length_replicate⟩
    have hloop : vectorLoop clientToAdd [[0], room] [.bytes [97], .eof] =
        ⟨[[97], room], 1, [97], .eof⟩ := rfl
    refine ⟨[[0], room], ?_, ?_⟩
    · rw [List.map_cons, List.map_cons, hroom]
      rfl
    · have hpass : recvFromClientPass splitRoom splitRoom.new [[0], room] [.bytes [97], .eof] =
          (splitRoom.reserve splitRoom.new clientToAdd).1 := by
        rw [recvFromClientPass, hloop]
        rfl
      rw [hpass, Evbuffer.bytes_reserve, hloop]
      simp
  · exact ⟨{ HttpConnection.new splitRoom with
      inbuf := (⟨[[1], [2], [3]], by simp⟩ : { es : List Bytes // ∀ e ∈ es, e ≠ [] })
      rspState := .body
      bodyLen := 3 }, by decide, rfl⟩

end Buffer

end ShadowExtras.Web
