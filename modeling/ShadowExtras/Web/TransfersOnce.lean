import ShadowExtras.Web.HttpResponse
import ShadowExtras.Web.Transfers

/-!
# Every body is delivered once

A retry asks for the bytes behind those that the request was told. This is right as long as nobody
else tells the request about bytes: the connection that failed was released, but its read handler
may still run, in the same call of `trigger` after the event handler, and hands out what it
receives. `DeliversOnce` says that it finds nothing of a body. Then every request whose response is
complete was told its file, byte for byte, whatever failed in between.
-/

namespace ShadowExtras.Web

open Foundation

namespace Transfers

variable {E : Evbuffer} {w w' : Transfers E} {r : ReqId} {c d : Nat} {l : Link E}
variable {ask : ReqId → Resource} {serve : NetLoc → Bytes → Bytes} {file : ReqId → Bytes}

/-! ## The condition -/

/-- `recv` would block. -/
def blocks : NumRead → Bool
  | .wouldBlock _ => true
  | _ => false

/-- `recv` returns data. -/
def delivers : NumRead → Bool
  | .bytes n => 0 < n
  | _ => false

/-- No data is received behind a vector that was skipped. -/
def NoSkip (results : List NumRead) : Prop :=
  results.Pairwise fun a b => blocks a = true → delivers b = false

instance (results : List NumRead) : Decidable (NoSkip results) := by
  unfold NoSkip
  infer_instance

/-- A connection that was released finds no byte of a body, and the others commit what they
received. -/
def DeliversOnce (w : Transfers E) (choice : TransferChoice) : Prop :=
  match choice, w.label with
  | .go, .handleResponse c _ _ => (w.conn c).released = true →
      (w.conn c).http.rspState = .body → E.bytes (w.conn c).http.inbuf = []
  | .recv results, .readMore c _ _ => (w.conn c).released = false → NoSkip results
  | _, _ => True

instance (w : Transfers E) (choice : TransferChoice) : Decidable (w.DeliversOnce choice) := by
  unfold DeliversOnce
  split <;> infer_instance

/-- The server answers every request for the file of a user's request, with or without a range. -/
structure Serves (ask : ReqId → Resource) (serve : NetLoc → Bytes → Bytes) (file : ReqId → Bytes) :
    Prop where
  ne_nil : ∀ r, file r ≠ []
  answer : ∀ r k, k < (file r).length →
    HttpConnection.IsResponse ((file r).drop k)
      (serve (ask r).netloc (requestText (ask r).path (ask r).headers k))

/-! ## The invariant -/

/-- The request is active on a connection that is not released. -/
def Serving (w : Transfers E) (r : ReqId) (c : Nat) : Prop :=
  r ∈ (w.conn c).active ∧ (w.conn c).released = false

/-- What a connection will receive is what its active request lacks. -/
def Matches (file : ReqId → Bytes) (w : Transfers E) (l : Link E) : Prop :=
  match l.active with
  | [] => l.http.AtRest ∧ l.toRecv = []
  | r :: _ => ∃ rest, file r = w.data r ++ rest ∧
      l.http.Lacks rest (E.bytes l.http.inbuf ++ l.toRecv)

/-- Every request is in one place, and what it was told is a first part of its file. -/
structure Sound (file : ReqId → Bytes) (w : Transfers E) : Prop where
  nodup : w.waiting.Nodup
  single : ∀ c, (w.conn c).active = [] ∨ ∃ r, (w.conn c).active = [r]
  once : ∀ r c d, w.Serving r c → w.Serving r d → c = d
  waits : ∀ r ∈ w.waiting, r ∉ w.done ∧ (∀ c, ¬w.Serving r c) ∧
    (w.request r).firstBytePos = (w.request r).bodySize
  finished : ∀ r ∈ w.done, w.data r = file r ∧ ∀ c, ¬w.Serving r c
  partly : ∀ r, r ∉ w.done → ∃ rest, rest ≠ [] ∧ file r = w.data r ++ rest
  counted : ∀ r, (w.request r).bodySize = (w.data r).length ∧
    (w.request r).firstBytePos ≤ (w.request r).bodySize
  fresh : ∀ r, w.nextReq ≤ r → w.data r = [] ∧ r ∉ w.done ∧ r ∉ w.waiting ∧ ∀ c, ¬w.Serving r c
  streams : ∀ c, (w.conn c).released = false → Matches file w (w.conn c)

/-- Nothing was transferred. -/
theorem sound_new (hfile : ∀ r, file r ≠ []) (maxRetries : Nat) :
    Sound file (new E maxRetries) := by
  have hnot : ∀ r c, ¬(new E maxRetries).Serving r c := fun r c h => by
    simp [Serving, new, newLink] at h
  constructor
  · exact List.nodup_nil
  · exact fun c => .inl rfl
  · exact fun r c d h => absurd h (hnot r c)
  · exact fun r hr => by simp [new] at hr
  · exact fun r hr => by simp [new] at hr
  · exact fun r _ => ⟨file r, hfile r, rfl⟩
  · exact fun r => ⟨rfl, le_rfl⟩
  · exact fun r _ => ⟨rfl, by simp [new], by simp [new], hnot r⟩
  · exact fun c _ => ⟨HttpConnection.atRest_new E, rfl⟩

/-! ## Connections -/

@[simp] theorem conn_setConn : (w.setConn c l).conn = Function.update w.conn c l := rfl

theorem serving_setConn_self : (w.setConn c l).Serving r c ↔ r ∈ l.active ∧ l.released = false := by
  simp [Serving]

theorem serving_setConn_of_ne (h : d ≠ c) : (w.setConn c l).Serving r d ↔ w.Serving r d := by
  simp [Serving, h]

/-- A change that keeps the active requests of a connection. -/
theorem serving_setConn_of_eq (hactive : l.active = (w.conn c).active)
    (hreleased : l.released = (w.conn c).released) :
    (w.setConn c l).Serving r d ↔ w.Serving r d := by
  by_cases hd : d = c
  · subst hd
    rw [serving_setConn_self, hactive, hreleased, Serving]
  · exact serving_setConn_of_ne hd

/-- The bytes told to other requests do not matter. -/
theorem Matches.congr (h : Matches file w l) (hdata : ∀ r ∈ l.active, w'.data r = w.data r) :
    Matches file w' l := by
  unfold Matches at h ⊢
  split
  · rename_i hnil
    simpa only [hnil] using h
  · rename_i r rest hcons
    simp only [hcons] at h
    rw [hdata r (by simp [hcons])]
    exact h

/-- A change of a connection that keeps its active requests. -/
theorem Sound.setConn (h : Sound file w) (hactive : l.active = (w.conn c).active)
    (hreleased : l.released = (w.conn c).released)
    (hmatches : l.released = false → Matches file w l) : Sound file (w.setConn c l) := by
  have hserving : ∀ r d, (w.setConn c l).Serving r d ↔ w.Serving r d := fun r d =>
    serving_setConn_of_eq hactive hreleased
  constructor
  · exact h.nodup
  · intro d
    by_cases hd : d = c
    · subst hd
      simpa [hactive] using h.single d
    · simpa [hd] using h.single d
  · intro r d e hd he
    exact h.once r d e ((hserving r d).mp hd) ((hserving r e).mp he)
  · intro r hr
    obtain ⟨hdone, hnot, hpos⟩ := h.waits r hr
    exact ⟨hdone, fun d => (hserving r d).not.mpr (hnot d), hpos⟩
  · intro r hr
    obtain ⟨hdata, hnot⟩ := h.finished r hr
    exact ⟨hdata, fun d => (hserving r d).not.mpr (hnot d)⟩
  · exact h.partly
  · exact h.counted
  · intro r hr
    obtain ⟨hdata, hdone, hwaiting, hnot⟩ := h.fresh r hr
    exact ⟨hdata, hdone, hwaiting, fun d => (hserving r d).not.mpr (hnot d)⟩
  · intro d hd
    by_cases hdc : d = c
    · subst hdc
      simp only [conn_setConn, Function.update_self] at hd ⊢
      exact (hmatches hd).congr fun _ _ => rfl
    · simp only [conn_setConn, Function.update_of_ne hdc] at hd ⊢
      exact (h.streams d hd).congr fun _ _ => rfl

/-- A change of the label. -/
theorem Sound.setLabel (h : Sound file w) (label : TransferLabel) :
    Sound file { w with label := label } :=
  ⟨h.nodup, h.single, h.once, h.waits, h.finished, h.partly, h.counted, h.fresh,
    fun c hc => (h.streams c hc).congr fun _ _ => rfl⟩

/-! ## Requests -/

/-- A new request keeps the transfers sound. -/
theorem Sound.submit (h : Sound file w) : Sound file (w.submit ask) := by
  obtain ⟨hdata, hdone, hwaiting, hnot⟩ := h.fresh w.nextReq le_rfl
  constructor
  · exact List.nodup_append.mpr ⟨h.nodup, List.nodup_singleton _, by
      rintro a ha b hb rfl
      exact hwaiting (List.mem_singleton.mp hb ▸ ha)⟩
  · exact h.single
  · exact h.once
  · intro r hr
    rcases List.mem_append.mp hr with hr | hr
    · obtain ⟨hrdone, hrnot, hrpos⟩ := h.waits r hr
      have hne : r ≠ w.nextReq := fun heq => hwaiting (heq ▸ hr)
      refine ⟨hrdone, hrnot, ?_⟩
      simpa [Transfers.submit, hne] using hrpos
    · obtain rfl := List.mem_singleton.mp hr
      exact ⟨hdone, hnot, by simp [Transfers.submit]⟩
  · exact h.finished
  · exact h.partly
  · intro r
    by_cases hr : r = w.nextReq
    · subst hr
      simp [Transfers.submit, hdata]
    · simpa [Transfers.submit, hr] using h.counted r
  · intro r hr
    have hlt : w.nextReq < r := hr
    obtain ⟨hrdata, hrdone, hrwaiting, hrnot⟩ := h.fresh r hlt.le
    refine ⟨hrdata, hrdone, ?_, hrnot⟩
    simp only [Transfers.submit, List.mem_append, List.mem_singleton, not_or]
    exact ⟨hrwaiting, hlt.ne'⟩
  · exact fun c hc => (h.streams c hc).congr fun _ _ => rfl

/-- A waiting request is written: what the server sends is what the request lacks. -/
theorem Sound.writeToOutbuf (h : Sound file w) (hserve : Serves ask serve file) :
    Sound file (w.writeToOutbuf ask serve r c) := by
  unfold Transfers.writeToOutbuf
  dsimp only
  split_ifs with hfits
  · obtain ⟨hwaiting, hactive⟩ := hfits
    obtain ⟨hdone, hnot, hpos⟩ := h.waits r hwaiting
    set l : Link E := { w.conn c with
      http := { (w.conn c).http with firstBytePos := (w.request r).firstBytePos }
      active := [r]
      toRecv := (w.conn c).toRecv ++ serve (ask r).netloc (w.textOf ask r) } with hl
    set v : Transfers E := { w with waiting := w.waiting.erase r } with hv
    have hself : ∀ q d, (v.setConn c l).Serving q d →
        w.Serving q d ∨ (q = r ∧ d = c) := by
      intro q d hq
      by_cases hd : d = c
      · subst hd
        rw [serving_setConn_self] at hq
        exact .inr ⟨by simpa [hl] using hq.1, rfl⟩
      · exact .inl ((serving_setConn_of_ne hd).mp hq)
    constructor
    · exact h.nodup.erase r
    · intro d
      by_cases hd : d = c
      · subst hd
        exact .inr ⟨r, by simp [hl]⟩
      · simpa [hd] using h.single d
    · intro q d e hd he
      rcases hself q d hd with hd | ⟨hqr, hdc⟩
      · rcases hself q e he with he | ⟨hqr, -⟩
        · exact h.once q d e hd he
        · exact absurd hd (hqr ▸ hnot d)
      · rcases hself q e he with he | ⟨-, hec⟩
        · exact absurd he (hqr ▸ hnot e)
        · rw [hdc, hec]
    · intro q hq
      have hne : q ≠ r := (h.nodup.mem_erase_iff.mp hq).1
      obtain ⟨hqdone, hqnot, hqpos⟩ := h.waits q (h.nodup.mem_erase_iff.mp hq).2
      refine ⟨hqdone, fun d hd => ?_, hqpos⟩
      rcases hself q d hd with hd | ⟨rfl, -⟩
      · exact hqnot d hd
      · exact hne rfl
    · intro q hq
      obtain ⟨hdata, hqnot⟩ := h.finished q hq
      refine ⟨hdata, fun d hd => ?_⟩
      rcases hself q d hd with hd | ⟨rfl, -⟩
      · exact hqnot d hd
      · exact hdone hq
    · exact h.partly
    · exact h.counted
    · intro q hq
      obtain ⟨hdata, hqdone, hqwaiting, hqnot⟩ := h.fresh q hq
      refine ⟨hdata, hqdone, fun hmem => hqwaiting (List.mem_of_mem_erase hmem), fun d hd => ?_⟩
      rcases hself q d hd with hd | ⟨rfl, -⟩
      · exact hqnot d hd
      · exact hqwaiting hwaiting
    · intro d hd
      by_cases hdc : d = c
      · subst hdc
        simp only [conn_setConn, Function.update_self] at hd ⊢
        have hrest := h.streams d hd
        simp only [Matches, hactive] at hrest
        obtain ⟨hatRest, htoRecv⟩ := hrest
        obtain ⟨rest, hne, hfile⟩ := h.partly r hdone
        have hk : (w.request r).firstBytePos = (w.data r).length := by
          rw [hpos, (h.counted r).1]
        have hdrop : (file r).drop (w.request r).firstBytePos = rest := by
          rw [hk, hfile, List.drop_left]
        have hlt : (w.request r).firstBytePos < (file r).length := by
          have := List.length_pos_iff.mpr hne
          rw [hk, hfile, List.length_append]
          omega
        have hanswer := hserve.answer r _ hlt
        rw [hdrop] at hanswer
        simp only [Matches, hl]
        refine ⟨rest, hfile, ?_⟩
        simp only [HttpConnection.Lacks, hatRest.rspState, hatRest.inbuf, htoRecv, List.nil_append]
        exact ⟨hatRest.bodyLen, hanswer⟩
      · simp only [conn_setConn, Function.update_of_ne hdc] at hd ⊢
        exact (h.streams d hd).congr fun _ _ => rfl
  · exact h

/-- A request that is nowhere waits again, or has failed. -/
theorem Sound.retry (h : Sound file w) (hr : r < w.nextReq) (hdone : r ∉ w.done)
    (hwaiting : r ∉ w.waiting) (hnot : ∀ c, ¬w.Serving r c) : Sound file (w.retry r) := by
  unfold Transfers.retry
  dsimp only
  split
  · exact ⟨h.nodup, h.single, h.once, h.waits, h.finished, h.partly, h.counted, h.fresh,
      fun c hc => (h.streams c hc).congr fun _ _ => rfl⟩
  · have hcounted := h.counted r
    have hpos : (if 0 < (w.request r).bodySize then (w.request r).bodySize
        else (w.request r).firstBytePos) = (w.request r).bodySize := by
      split_ifs <;> omega
    rw [hpos]
    constructor
    · refine List.nodup_append.mpr ⟨h.nodup, List.nodup_singleton _, ?_⟩
      rintro a ha b hb rfl
      exact hwaiting (List.mem_singleton.mp hb ▸ ha)
    · exact h.single
    · exact h.once
    · intro q hq
      by_cases hqr : q = r
      · subst hqr
        exact ⟨hdone, hnot, by simp⟩
      · have hmem : q ∈ w.waiting := by simpa [hqr] using hq
        obtain ⟨hqdone, hqnot, hqpos⟩ := h.waits q hmem
        exact ⟨hqdone, hqnot, by simpa [hqr] using hqpos⟩
    · exact h.finished
    · exact h.partly
    · intro q
      by_cases hqr : q = r
      · subst hqr
        simpa using hcounted.1
      · simpa [hqr] using h.counted q
    · intro q hq
      have hne : q ≠ r := by
        rintro rfl
        exact absurd hr (Nat.not_lt_of_le hq)
      obtain ⟨hqdata, hqdone, hqwaiting, hqnot⟩ := h.fresh q hq
      exact ⟨hqdata, hqdone, by simp [hqwaiting, hne], hqnot⟩
    · exact fun c hc => (h.streams c hc).congr fun _ _ => rfl

/-! ## Failures -/

/-- A connection is released. -/
theorem Sound.unusable (h : Sound file w) (hstep : w.unusable c = .ok w') : Sound file w' := by
  unfold Transfers.unusable at hstep
  dsimp only at hstep
  split_ifs at hstep with hreleased
  obtain rfl := Except.ok.inj hstep
  have hfalse : (w.conn c).released = false := by simpa using hreleased
  set l : Link E := { w.conn c with released := true } with hl
  have hserving : ∀ r d, (w.setConn c l).Serving r d ↔ d ≠ c ∧ w.Serving r d := by
    intro r d
    by_cases hd : d = c
    · subst hd
      simp [serving_setConn_self, hl]
    · simp [serving_setConn_of_ne hd, hd]
  have hsound : Sound file (w.setConn c l) := by
    constructor
    · exact h.nodup
    · intro d
      by_cases hd : d = c
      · subst hd
        simpa [hl] using h.single d
      · simpa [hd] using h.single d
    · intro r d e hd he
      exact h.once r d e ((hserving r d).mp hd).2 ((hserving r e).mp he).2
    · intro r hr
      obtain ⟨hdone, hnot, hpos⟩ := h.waits r hr
      exact ⟨hdone, fun d hd => hnot d ((hserving r d).mp hd).2, hpos⟩
    · intro r hr
      obtain ⟨hdata, hnot⟩ := h.finished r hr
      exact ⟨hdata, fun d hd => hnot d ((hserving r d).mp hd).2⟩
    · exact h.partly
    · exact h.counted
    · intro r hr
      obtain ⟨hdata, hdone, hwaiting, hnot⟩ := h.fresh r hr
      exact ⟨hdata, hdone, hwaiting, fun d hd => hnot d ((hserving r d).mp hd).2⟩
    · intro d hd
      by_cases hdc : d = c
      · subst hdc
        simp [hl] at hd
      · simp only [conn_setConn, Function.update_of_ne hdc] at hd ⊢
        exact (h.streams d hd).congr fun _ _ => rfl
  rcases h.single c with hactive | ⟨r, hactive⟩
  · rw [hactive]
    exact hsound
  · rw [hactive]
    have hmine : w.Serving r c := ⟨by simp [hactive], hfalse⟩
    have hwaiting : r ∉ w.waiting := fun hmem => (h.waits r hmem).2.1 c hmine
    have hdone : r ∉ w.done := fun hmem => (h.finished r hmem).2 c hmine
    have hlt : r < w.nextReq := by
      by_contra hle
      exact (h.fresh r (Nat.le_of_not_lt hle)).2.2.2 c hmine
    refine hsound.retry hlt hdone hwaiting fun d hd => ?_
    obtain ⟨hne, hother⟩ := (hserving r d).mp hd
    exact hne (h.once r d c hother hmine)

/-- An error keeps the transfers sound. -/
theorem Sound.onErr {reported : Bool} (h : Sound file w)
    (hstep : w.onErr c reported = .ok w') : Sound file w' := by
  unfold Transfers.onErr at hstep
  split_ifs at hstep
  · split at hstep
    · simp at hstep
    · rename_i v hunusable
      obtain rfl := Except.ok.inj hstep
      have hv := h.unusable hunusable
      exact hv.setConn rfl rfl fun hreleased => (hv.streams c hreleased).congr fun _ _ => rfl
  · obtain rfl := Except.ok.inj hstep
    exact h

/-- The end of the stream keeps the transfers sound. -/
theorem Sound.onRdhup (h : Sound file w) (c : Nat) (reported : Bool) :
    Sound file (w.onRdhup c reported) := by
  unfold Transfers.onRdhup
  split_ifs
  · exact h.setConn rfl rfl fun hreleased => (h.streams c hreleased).congr fun _ _ => rfl
  · exact h

/-- An event keeps the transfers sound. -/
theorem Sound.trigger {epollerr epollrdhup epollin : Bool} (h : Sound file w)
    (hstep : w.trigger c epollerr epollrdhup epollin = .ok w') : Sound file w' := by
  unfold Transfers.trigger at hstep
  split_ifs at hstep
  split at hstep
  · simp at hstep
  · rename_i w₁ herr
    have hsound := (h.onErr herr).onRdhup c epollrdhup
    unfold Transfers.onRead at hstep
    split_ifs at hstep
    · exact hsound.unusable hstep
    · obtain rfl := Except.ok.inj hstep
      exact hsound.setLabel _
    · obtain rfl := Except.ok.inj hstep
      exact hsound

/-! ## What is received -/

/-- When no vector is skipped, what is committed is what was received. -/
theorem recvLoop_of_noSkip {sizes : List Nat} {results : List NumRead} {stream : Bytes} {f : Filled}
    (hno : NoSkip results) (hstep : HttpConnection.recvLoop sizes results stream = .ok f) :
    FitsInto (f.vectors.take f.numToCommit) sizes ∧
      stream = (f.vectors.take f.numToCommit).flatten ++ f.rest := by
  refine HttpConnection.recvLoop_spec (hno.imp ?_) hstep
  rintro a b hskip held n rfl rfl
  simpa [delivers] using hskip rfl

/-- Bytes go from the socket to `inbuf_`. -/
theorem Matches.received {inbuf : E.Buf} {toRecv : Bytes} (h : Matches file w l)
    (hbytes : E.bytes inbuf ++ toRecv = E.bytes l.http.inbuf ++ l.toRecv) :
    Matches file w { l with http := { l.http with inbuf := inbuf }, toRecv := toRecv } := by
  unfold Matches at h ⊢
  cases hactive : l.active with
  | nil =>
    simp only [hactive] at h ⊢
    obtain ⟨hatRest, htoRecv⟩ := h
    rw [hatRest.inbuf, htoRecv, List.append_nil, List.append_eq_nil_iff] at hbytes
    exact ⟨⟨hatRest.rspState, hatRest.bodyLen, hbytes.1⟩, hbytes.2⟩
  | cons r rest =>
    simp only [hactive] at h ⊢
    rw [hbytes]
    exact h

/-- Receiving keeps the transfers sound. -/
theorem Sound.readMore {found eof : Bool} {results : List NumRead} (h : Sound file w)
    (hno : (w.conn c).released = false → NoSkip results)
    (hstep : w.readMore c found eof results = .ok w') : Sound file w' := by
  unfold Transfers.readMore at hstep
  dsimp only at hstep
  split at hstep
  · simp at hstep
  · rename_i f hrecv
    split_ifs at hstep with hzero heof
    all_goals
      have hmatches : ∀ inbuf, ((w.conn c).released = false → E.bytes inbuf ++ f.rest =
          E.bytes (w.conn c).http.inbuf ++ (w.conn c).toRecv) →
          (w.conn c).released = false → Matches file w { w.conn c with
            http := { (w.conn c).http with inbuf := inbuf }, toRecv := f.rest } :=
        fun inbuf hbytes hreleased => (h.streams c hreleased).received (hbytes hreleased)
    · refine Sound.unusable ?_ hstep
      refine (h.setLabel .idle).setConn rfl rfl fun hreleased =>
        (hmatches _ (fun hr => ?_) hreleased).congr fun _ _ => rfl
      have hstream := (recvLoop_of_noSkip (hno hr) hrecv).2
      simp only [hzero, List.take_zero, List.flatten_nil, List.nil_append] at hstream
      rw [Evbuffer.bytes_reserve, hstream]
    · obtain rfl := Except.ok.inj hstep
      refine (h.setLabel .idle).setConn rfl rfl fun hreleased =>
        (hmatches _ (fun hr => ?_) hreleased).congr fun _ _ => rfl
      have hstream := (recvLoop_of_noSkip (hno hr) hrecv).2
      simp only [hzero, List.take_zero, List.flatten_nil, List.nil_append] at hstream
      rw [Evbuffer.bytes_reserve, hstream]
    · obtain rfl := Except.ok.inj hstep
      refine (h.setLabel _).setConn rfl rfl fun hreleased =>
        (hmatches _ (fun hr => ?_) hreleased).congr fun _ _ => rfl
      obtain ⟨hfits, hstream⟩ := recvLoop_of_noSkip (hno hr) hrecv
      rw [Evbuffer.bytes_commit hfits, List.append_assoc, ← hstream]

/-! ## What is handed out -/

/-- What a request is told by notices. -/
theorem foldl_notify (notices : List Notice) (w : Transfers E) :
    ∃ request data done, notices.foldl (notify r) w =
        { w with request := request, data := data, done := done } ∧
      data = Function.update w.data r (w.data r ++ HttpConnection.bodyBytes notices) ∧
      (∀ q, (request q).firstBytePos = (w.request q).firstBytePos ∧ (request q).bodySize =
        (w.request q).bodySize + if q = r then (HttpConnection.bodyBytes notices).length else 0) ∧
      ∀ q, q ∈ done ↔ q ∈ w.done ∨ q = r ∧ .rspBodyDone ∈ notices := by
  induction notices generalizing w with
  | nil => exact ⟨w.request, w.data, w.done, rfl, by simp, by simp, by simp⟩
  | cons notice notices ih =>
    obtain ⟨request, data, done, hfold, hdata, hrequest, hdone⟩ := ih (notify r w notice)
    refine ⟨request, data, done, ?_, ?_, fun q => ?_, fun q => ?_⟩
    · rw [List.foldl_cons, hfold]
      cases notice <;> rfl
    · rw [hdata]
      cases notice <;> simp [notify, HttpConnection.bodyBytes, HttpConnection.bodyData]
    · obtain ⟨hpos, hsize⟩ := hrequest q
      rw [hpos, hsize]
      cases notice with
      | rspMeta status headers => simp [notify, HttpConnection.bodyBytes, HttpConnection.bodyData]
      | rspBodyDone => simp [notify, HttpConnection.bodyBytes, HttpConnection.bodyData]
      | rspBodyData bytes =>
        by_cases hq : q = r
        · subst hq
          simp [notify, HttpConnection.bodyBytes, HttpConnection.bodyData]
          omega
        · simp [notify, hq]
    · rw [hdone]
      cases notice with
      | rspMeta status headers => simp [notify]
      | rspBodyData bytes => simp [notify]
      | rspBodyDone =>
        simp [notify]
        tauto

/-- A request that was told nothing. -/
theorem Sound.told_nothing {request : ReqId → Request} {done : List ReqId} (h : Sound file w)
    (hrequest : ∀ q, (request q).firstBytePos = (w.request q).firstBytePos ∧
      (request q).bodySize = (w.request q).bodySize)
    (hdone : ∀ q, q ∈ done ↔ q ∈ w.done) :
    Sound file { w with request := request, done := done } := by
  constructor
  · exact h.nodup
  · exact h.single
  · exact h.once
  · intro q hq
    obtain ⟨hqdone, hqnot, hqpos⟩ := h.waits q hq
    refine ⟨(hdone q).not.mpr hqdone, hqnot, ?_⟩
    rw [(hrequest q).1, (hrequest q).2, hqpos]
  · exact fun q hq => h.finished q ((hdone q).mp hq)
  · exact fun q hq => h.partly q ((hdone q).not.mp hq)
  · intro q
    rw [(hrequest q).1, (hrequest q).2]
    exact h.counted q
  · intro q hq
    obtain ⟨hqdata, hqdone, hqwaiting, hqnot⟩ := h.fresh q hq
    exact ⟨hqdata, (hdone q).not.mpr hqdone, hqwaiting, hqnot⟩
  · exact fun d hd => (h.streams d hd).congr fun _ _ => rfl

/-- A request is told the next part of its file by the connection that serves it. -/
theorem Sound.told {request : ReqId → Request} {data : ReqId → Bytes} {done : List ReqId}
    {notices : List Notice} {content' : Bytes} (h : Sound file w) (hserving : w.Serving r c)
    (hfile : file r = w.data r ++ (HttpConnection.bodyBytes notices ++ content'))
    (hnotices : .rspBodyDone ∈ notices ↔ content' = [])
    (hdata : data = Function.update w.data r (w.data r ++ HttpConnection.bodyBytes notices))
    (hrequest : ∀ q, (request q).firstBytePos = (w.request q).firstBytePos ∧ (request q).bodySize =
      (w.request q).bodySize + if q = r then (HttpConnection.bodyBytes notices).length else 0)
    (hdone : ∀ q, q ∈ done ↔ q ∈ w.done ∨ q = r ∧ .rspBodyDone ∈ notices)
    (hactive : l.active = if content' = [] then [] else [r])
    (hreleased : l.released = (w.conn c).released)
    (hatRest : content' = [] → l.http.AtRest ∧ l.toRecv = [])
    (hlacks : content' ≠ [] → l.http.Lacks content' (E.bytes l.http.inbuf ++ l.toRecv)) :
    Sound file ({ w with request := request, data := data, done := done }.setConn c l) := by
  set v : Transfers E := { w with request := request, data := data, done := done }
  have hkeeps : ∀ q d, (v.setConn c l).Serving q d → w.Serving q d := by
    intro q d hq
    by_cases hd : d = c
    · subst hd
      rw [serving_setConn_self, hactive] at hq
      split_ifs at hq
      · simp at hq
      · obtain rfl : q = r := by simpa using hq.1
        exact hserving
    · exact (serving_setConn_of_ne hd).mp hq
  have hrdone : r ∉ w.done := fun hmem => (h.finished r hmem).2 c hserving
  have hrwaiting : r ∉ w.waiting := fun hmem => (h.waits r hmem).2.1 c hserving
  have hother : ∀ q, q ≠ r → data q = w.data q := fun q hq => by
    rw [hdata, Function.update_of_ne hq]
  have hself : data r = w.data r ++ HttpConnection.bodyBytes notices := by
    rw [hdata, Function.update_self]
  constructor
  · exact h.nodup
  · intro d
    by_cases hd : d = c
    · subst hd
      simp only [conn_setConn, Function.update_self, hactive]
      split_ifs
      · exact .inl rfl
      · exact .inr ⟨r, rfl⟩
    · simpa [v, hd] using h.single d
  · exact fun q d e hd he => h.once q d e (hkeeps q d hd) (hkeeps q e he)
  · intro q hq
    obtain ⟨hqdone, hqnot, hqpos⟩ := h.waits q hq
    have hne : q ≠ r := fun heq => hrwaiting (heq ▸ hq)
    refine ⟨fun hmem => ?_, fun d hd => hqnot d (hkeeps q d hd), ?_⟩
    · rcases (hdone q).mp hmem with hmem | ⟨heq, -⟩
      · exact hqdone hmem
      · exact hne heq
    · have hq' := hrequest q
      simp only [if_neg hne, Nat.add_zero] at hq'
      change (request q).firstBytePos = (request q).bodySize
      rw [hq'.1, hq'.2, hqpos]
  · intro q hq
    rcases (hdone q).mp hq with hq | ⟨rfl, hmem⟩
    · have hne : q ≠ r := fun heq => hrdone (heq ▸ hq)
      obtain ⟨hqdata, hqnot⟩ := h.finished q hq
      exact ⟨(hother q hne).trans hqdata, fun d hd => hqnot d (hkeeps q d hd)⟩
    · have hnil : content' = [] := hnotices.mp hmem
      refine ⟨?_, fun d hd => ?_⟩
      · change data q = file q
        rw [hself, hfile, hnil, List.append_nil]
      · by_cases hdc : d = c
        · subst hdc
          rw [serving_setConn_self, hactive, if_pos hnil] at hd
          simp at hd
        · exact hdc (h.once q d c (hkeeps q d hd) hserving)
  · intro q hq
    by_cases hqr : q = r
    · subst hqr
      refine ⟨content', fun hnil => hq ?_, ?_⟩
      · exact (hdone q).mpr (.inr ⟨rfl, hnotices.mpr hnil⟩)
      · change file q = data q ++ content'
        rw [hself, hfile, List.append_assoc]
    · have hmem : q ∉ w.done := fun hmem => hq ((hdone q).mpr (.inl hmem))
      obtain ⟨rest, hne, hrest⟩ := h.partly q hmem
      exact ⟨rest, hne, by rw [hrest]; exact congrArg (· ++ rest) (hother q hqr).symm⟩
  · intro q
    obtain ⟨hpos, hsize⟩ := hrequest q
    obtain ⟨hcount, hle⟩ := h.counted q
    change (request q).bodySize = (data q).length ∧ (request q).firstBytePos ≤ (request q).bodySize
    rw [hpos, hsize]
    by_cases hqr : q = r
    · subst hqr
      rw [if_pos rfl, hself, List.length_append]
      omega
    · rw [if_neg hqr, hother q hqr]
      omega
  · intro q hq
    obtain ⟨hqdata, hqdone, hqwaiting, hqnot⟩ := h.fresh q hq
    have hne : q ≠ r := fun heq => hqnot c (heq ▸ hserving)
    refine ⟨(hother q hne).trans hqdata, fun hmem => ?_, hqwaiting,
      fun d hd => hqnot d (hkeeps q d hd)⟩
    rcases (hdone q).mp hmem with hmem | ⟨heq, -⟩
    · exact hqdone hmem
    · exact hne heq
  · intro d hd
    by_cases hdc : d = c
    · subst hdc
      simp only [conn_setConn, Function.update_self] at hd ⊢
      unfold Matches
      rw [hactive]
      by_cases hnil : content' = []
      · rw [if_pos hnil]
        exact hatRest hnil
      · rw [if_neg hnil]
        refine ⟨content', ?_, hlacks hnil⟩
        change file r = data r ++ content'
        rw [hself, hfile, List.append_assoc]
    · simp only [conn_setConn, Function.update_of_ne hdc] at hd ⊢
      refine (h.streams d hd).congr fun q hq => ?_
      have hne : q ≠ r := by
        rintro rfl
        exact hdc (h.once q d c ⟨hq, hd⟩ hserving)
      exact hother q hne

/-- A round of the parser that hands out nothing. -/
theorem Sound.handled {eof : Bool} {hd : Handled E} (h : Sound file w)
    (hnotDone : .rspBodyDone ∉ hd.notices)
    (hmatches : (w.conn c).released = false →
      Matches file w { w.conn c with http := hd.conn }) : Sound file (w.handled c eof hd) := by
  unfold Transfers.handled
  dsimp only
  rw [if_neg hnotDone]
  exact (h.setLabel _).setConn rfl rfl fun hreleased => (hmatches hreleased).congr fun _ _ => rfl

/-- A round of the parser. -/
theorem Sound.handleResponse {found eof : Bool} (h : Sound file w)
    (honce : (w.conn c).released = true → (w.conn c).http.rspState = .body →
      E.bytes (w.conn c).http.inbuf = [])
    (hstep : w.handleResponse c found eof = .ok w') : Sound file w' := by
  unfold Transfers.handleResponse at hstep
  dsimp only at hstep
  split at hstep
  · simp at hstep
  · rename_i hd hhandle
    obtain rfl := Except.ok.inj hstep
    rcases h.single c with hactive | ⟨r, hactive⟩
    · -- nothing is expected
      rw [hactive]
      unfold Transfers.handled
      dsimp only
      rw [hactive, List.tail_nil, ite_self]
      refine (h.setLabel _).setConn hactive.symm rfl fun hreleased => ?_
      have hmatches := h.streams c hreleased
      simp only [Matches, hactive] at hmatches ⊢
      obtain ⟨hconn, -, -⟩ := hmatches.1.handleResponse hhandle
      rw [hconn]
      exact hmatches
    · rw [hactive]
      obtain ⟨request, data, done, hfold, hdata, hrequest, hdone⟩ :=
        foldl_notify (r := r) hd.notices (w.handled c eof hd)
      dsimp only
      rw [hfold]
      cases hreleased : (w.conn c).released with
      | true =>
        obtain ⟨hbytes, hnotDone⟩ :=
          HttpConnection.quiet_of_no_body (honce hreleased) hhandle
        have hsame : data = (w.handled c eof hd).data := by
          rw [hdata, hbytes, List.append_nil, Function.update_eq_self]
        rw [hsame]
        refine Sound.told_nothing (h.handled hnotDone fun hfalse => ?_) (fun q => ?_) fun q => ?_
        · simp [hreleased] at hfalse
        · simpa [hbytes] using hrequest q
        · simpa [hnotDone] using hdone q
      | false =>
        have hserving : w.Serving r c := ⟨by simp [hactive], hreleased⟩
        have hmatches := h.streams c hreleased
        simp only [Matches, hactive] at hmatches
        obtain ⟨content, hfile, hlacks⟩ := hmatches
        have hcontent : content ≠ [] := by
          have hrdone : r ∉ w.done := fun hmem => (h.finished r hmem).2 c hserving
          obtain ⟨rest, hne, hrest⟩ := h.partly r hrdone
          rw [hfile] at hrest
          rw [List.append_cancel_left hrest]
          exact hne
        obtain ⟨content', hprogress⟩ := hlacks.handleResponse hcontent hhandle
        rw [hprogress.bodyBytes] at hfile
        refine (h.setLabel _).told hserving hfile hprogress.done hdata hrequest hdone ?_ rfl
          hprogress.atRest hprogress.lacks
        simp only [hprogress.done, hactive]
        split_ifs <;> rfl

/-! ## Runs -/

/-- Every step that delivers once keeps the transfers sound. -/
theorem Sound.step (hserve : Serves ask serve file) {choice : TransferChoice} (h : Sound file w)
    (honce : w.DeliversOnce choice) (hstep : step ask serve w choice = .ok w') :
    Sound file w' := by
  unfold Transfers.step at hstep
  split at hstep
  · obtain rfl := Except.ok.inj hstep
    exact h.submit
  · obtain rfl := Except.ok.inj hstep
    exact h.writeToOutbuf hserve
  · exact h.trigger hstep
  · exact h.unusable hstep
  · rename_i c found eof hlabel
    simp only [DeliversOnce, hlabel] at honce
    exact h.readMore honce hstep
  · rename_i c found eof hlabel
    simp only [DeliversOnce, hlabel] at honce
    exact h.handleResponse honce hstep
  · obtain rfl := Except.ok.inj hstep
    exact h

/-- In every run whose steps deliver once, a request that is reported done was told its file. -/
theorem data_eq_file_of_deliversOnce (hserve : Serves ask serve file) (maxRetries : Nat)
    (choices : List TransferChoice)
    (honce : StepsMeet (step ask serve) DeliversOnce (new E maxRetries) choices)
    (hrun : runSteps (step ask serve) (new E maxRetries) choices = .ok w) :
    ∀ r ∈ w.done, w.data r = file r := by
  have hsound : Sound file w :=
    invariant_of_stepsMeet (Sound file) (fun v choice v' hv hmeets hstep =>
      hv.step hserve hmeets hstep)
      (sound_new hserve.ne_nil maxRetries) honce hrun
  exact fun r hr => (hsound.finished r hr).1

/-! ## A server for one file -/

/-- The only request is for one file. -/
def askFor (path : Bytes) : ReqId → Resource := fun _ =>
  { netloc := (ascii "h", 80), path := path, headers := [] }

/-- The response for the bytes of the file from `k` on. -/
def rangeResponse (content : Bytes) (k : Nat) : Bytes :=
  let size := content.length
  let header := if k = 0 then [ascii "HTTP/1.1 200 OK"]
    else [ascii "HTTP/1.1 206 OK",
      ascii "Content-Range: bytes " ++ decimal k ++ ascii "-" ++ decimal (size - 1) ++ ascii "/" ++
        decimal size]
  joinLines (header ++ [ascii "Content-Length: " ++ decimal (size - k)]) ++
    (crlf ++ content.drop k)

/-- The server finds the range by printing the requests for all of them. -/
def serveFile (path content : Bytes) : NetLoc → Bytes → Bytes := fun _ text =>
  rangeResponse content
    (((List.range content.length).find? fun k => text == requestText path [] k).getD 0)

theorem serveFile_abc : ∀ k < 3, serveFile (ascii "/f") (ascii "abc") (ascii "h", 80)
    (requestText (ascii "/f") [] k) = rangeResponse (ascii "abc") k := by
  decide +kernel

/-- The server serves a file of three bytes. -/
theorem serves_abc : Serves (askFor (ascii "/f")) (serveFile (ascii "/f") (ascii "abc"))
    fun _ => ascii "abc" := by
  constructor
  · exact fun _ => by decide
  · intro r k hk
    have hlt : k < 3 := hk
    change HttpConnection.IsResponse _ (serveFile (ascii "/f") (ascii "abc") (ascii "h", 80)
      (requestText (ascii "/f") [] k))
    rw [serveFile_abc k hlt]
    interval_cases k
    · exact ⟨ascii "HTTP/1.1 200 OK", [ascii "Content-Length: 3"], by decide +kernel,
        ⟨by decide +kernel, by decide +kernel, by decide +kernel⟩, by decide +kernel⟩
    · exact ⟨ascii "HTTP/1.1 206 OK",
        [ascii "Content-Range: bytes 1-2/3", ascii "Content-Length: 2"], by decide +kernel,
        ⟨by decide +kernel, by decide +kernel, by decide +kernel⟩, by decide +kernel⟩
    · exact ⟨ascii "HTTP/1.1 206 OK",
        [ascii "Content-Range: bytes 2-2/3", ascii "Content-Length: 1"], by decide +kernel,
        ⟨by decide +kernel, by decide +kernel, by decide +kernel⟩, by decide +kernel⟩

/-- The file `abc` is requested, and its first byte arrives. -/
def firstByte : List TransferChoice :=
  [.submit, .write 0 0, .trigger 0 false false true, .recv [.bytes 39], .go, .go, .go, .go,
    .recv [.wouldBlock []]]

/-- The connection fails, and the bytes from the second on arrive on another one. -/
theorem data_eq_file_of_deliversOnce_abc :
    ∃ w : Transfers Evbuffer.chunked,
      runSteps (step (askFor (ascii "/f")) (serveFile (ascii "/f") (ascii "abc"))) (new _ 3)
        (firstByte ++ [.trigger 0 true false false, .write 0 1, .trigger 1 false false true,
          .recv [.bytes 100], .go, .go, .go, .go, .go]) = .ok w ∧
      w.done = [0] ∧ w.data 0 = ascii "abc" := by
  set choices : List TransferChoice := firstByte ++ [.trigger 0 true false false, .write 0 1,
    .trigger 1 false false true, .recv [.bytes 100], .go, .go, .go, .go, .go] with hchoices
  have hmeets : StepsMeet (step (askFor (ascii "/f")) (serveFile (ascii "/f") (ascii "abc")))
      DeliversOnce (new Evbuffer.chunked 3) choices := by
    rw [hchoices]
    decide +kernel
  have hdone : (runSteps (step (askFor (ascii "/f")) (serveFile (ascii "/f") (ascii "abc")))
      (new Evbuffer.chunked 3) choices).map (fun w => w.done) = .ok [0] := by
    rw [hchoices]
    decide +kernel
  cases hrun : runSteps (step (askFor (ascii "/f")) (serveFile (ascii "/f") (ascii "abc")))
      (new Evbuffer.chunked 3) choices with
  | error f => simp [hrun, Except.map] at hdone
  | ok w =>
    have hw : w.done = [0] := by simpa [hrun, Except.map] using hdone
    exact ⟨w, rfl, hw, data_eq_file_of_deliversOnce serves_abc 3 choices hmeets hrun 0
      (by simp [hw])⟩

/-- The mask reports an error and input together: after the retry was written to another connection,
the second byte arrives on the connection that failed, and then again in the response to the
retry. -/
theorem not_data_eq_file_released :
    Serves (askFor (ascii "/f")) (serveFile (ascii "/f") (ascii "abc")) (fun _ => ascii "abc") ∧
      (runSteps (step (askFor (ascii "/f")) (serveFile (ascii "/f") (ascii "abc")))
        (new Evbuffer.chunked 3)
        (firstByte ++ [.trigger 0 true false true, .write 0 1, .recv [.bytes 1], .go,
          .recv [.wouldBlock []], .trigger 1 false false true, .recv [.bytes 100],
          .go, .go, .go, .go, .go])).map (fun w => (w.done, w.data 0)) =
        .ok ([0], ascii "abbc") :=
  ⟨serves_abc, by decide +kernel⟩

end Transfers

end ShadowExtras.Web
