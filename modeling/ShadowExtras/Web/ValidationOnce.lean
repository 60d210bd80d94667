import ShadowExtras.Foundation.Lookup
import ShadowExtras.Web.HttpResponse
import ShadowExtras.Web.TransfersOnce
import ShadowExtras.Web.Validation

/-!
# Every resource is checked over its own bytes

A request that was never retried has one place: it waits, or it is active on one connection, and the
metadata it was told came from there. So the browser sets up at most one context for a request, and
before any byte of its body. If it sets up one at all, which it does when the first metadata arrive
before the first retry, the context has absorbed what was delivered when the request is finished.
-/

namespace ShadowExtras.Web

open Foundation

namespace Transfers

variable {E : Evbuffer} {w w' : Transfers E} {r : ReqId} {c : Nat} {l : Link E} {met : List ReqId}
variable {ask : ReqId → Resource} {serve : NetLoc → Bytes → Bytes}

/-! ## Attempts -/

/-- The places of the requests; `met` are those that were told metadata. -/
structure Attempts (met : List ReqId) (w : Transfers E) : Prop where
  single : ∀ c, (w.conn c).active = [] ∨ ∃ r, (w.conn c).active = [r]
  body : ∀ c, (w.conn c).http.rspState = .body → ∃ r, (w.conn c).active = [r] ∧ r ∈ met
  count : ∀ r, (w.request r).numRetries = 0 → w.waiting.count r ≤ 1
  waits : ∀ r ∈ w.waiting, (w.request r).numRetries = 0 → r ∉ met ∧ ∀ c, r ∉ (w.conn c).active
  once : ∀ r c d, (w.request r).numRetries = 0 → r ∈ (w.conn c).active → r ∈ (w.conn d).active →
    c = d
  first : ∀ r c, (w.request r).numRetries = 0 → r ∈ (w.conn c).active → r ∈ met →
    (w.conn c).http.rspState = .body
  fresh : ∀ r, w.nextReq ≤ r → r ∉ w.waiting ∧ r ∉ met ∧ w.data r = [] ∧ ∀ c, r ∉ (w.conn c).active
  size : ∀ r, (w.request r).bodySize = (w.data r).length

/-- Nothing was attempted. -/
theorem attempts_new (maxRetries : Nat) : Attempts [] (new E maxRetries) where
  single := fun _ => .inl rfl
  body := by simp [new, newLink, HttpConnection.new]
  count := by simp [new]
  waits := by simp [new]
  once := by simp [new, newLink]
  first := by simp
  fresh := by simp [new, newLink]
  size := by simp [new]

/-- A change that leaves the places alone. -/
theorem Attempts.congr (h : Attempts met w) (hwaiting : w'.waiting = w.waiting)
    (hrequest : w'.request = w.request) (hnext : w'.nextReq = w.nextReq) (hdata : w'.data = w.data)
    (hconn : ∀ c, (w'.conn c).active = (w.conn c).active ∧
      ((w'.conn c).http.rspState = .body ↔ (w.conn c).http.rspState = .body)) :
      Attempts met w' := by
  constructor
  · intro c
    rw [(hconn c).1]
    exact h.single c
  · intro c
    rw [(hconn c).1, (hconn c).2]
    exact h.body c
  · rw [hrequest, hwaiting]
    exact h.count
  · intro r hr hzero
    rw [hwaiting] at hr
    rw [hrequest] at hzero
    obtain ⟨hmet, hactive⟩ := h.waits r hr hzero
    refine ⟨hmet, fun c => ?_⟩
    rw [(hconn c).1]
    exact hactive c
  · intro r c d hzero hc hd
    rw [hrequest] at hzero
    rw [(hconn c).1] at hc
    rw [(hconn d).1] at hd
    exact h.once r c d hzero hc hd
  · intro r c hzero hc hmet
    rw [hrequest] at hzero
    rw [(hconn c).1] at hc
    rw [(hconn c).2]
    exact h.first r c hzero hc hmet
  · intro r hr
    rw [hnext] at hr
    obtain ⟨hwaits, hmet, hnone, hactive⟩ := h.fresh r hr
    rw [hwaiting, hdata]
    refine ⟨hwaits, hmet, hnone, fun c => ?_⟩
    rw [(hconn c).1]
    exact hactive c
  · rw [hrequest, hdata]
    exact h.size

/-- A change of a connection that keeps its active requests. -/
theorem Attempts.setConn (h : Attempts met w) (hactive : l.active = (w.conn c).active)
    (hbody : l.http.rspState = .body ↔ (w.conn c).http.rspState = .body) :
    Attempts met (w.setConn c l) := by
  refine h.congr rfl rfl rfl rfl fun d => ?_
  by_cases hd : d = c
  · subst hd
    simpa using ⟨hactive, hbody⟩
  · simp [hd]

/-- The requests of the connections were submitted. -/
theorem Attempts.lt (h : Attempts met w) (hr : r ∈ (w.conn c).active) : r < w.nextReq := by
  by_contra hle
  exact (h.fresh r (Nat.le_of_not_lt hle)).2.2.2 c hr

/-- An idle connection is not in the middle of a body. -/
theorem Attempts.ne_body (h : Attempts met w) (hactive : (w.conn c).active = []) :
    (w.conn c).http.rspState ≠ .body := by
  intro hbody
  obtain ⟨r, hr, -⟩ := h.body c hbody
  rw [hactive] at hr
  cases hr

/-- A new request was not attempted. -/
theorem Attempts.submit (h : Attempts met w) : Attempts met (w.submit ask) := by
  obtain ⟨hwaiting, hmet, hdata, hactive⟩ := h.fresh w.nextReq le_rfl
  have hother : ∀ r, r ≠ w.nextReq → (w.submit ask).request r = w.request r := by
    intro r hr
    simp [Transfers.submit, hr]
  constructor
  · exact h.single
  · exact h.body
  · intro r hzero
    by_cases hr : r = w.nextReq
    · subst hr
      simp [Transfers.submit, List.count_eq_zero.mpr hwaiting]
    · rw [hother r hr] at hzero
      have hcount := h.count r hzero
      simpa [Transfers.submit, List.count_singleton, Ne.symm hr] using hcount
  · intro r hr hzero
    rcases List.mem_append.mp hr with hr | hr
    · have hne : r ≠ w.nextReq := fun heq => hwaiting (heq ▸ hr)
      rw [hother r hne] at hzero
      exact h.waits r hr hzero
    · obtain rfl := List.mem_singleton.mp hr
      exact ⟨hmet, hactive⟩
  · intro r c d hzero hc hd
    have hne : r ≠ w.nextReq := fun heq => hactive c (heq ▸ hc)
    rw [hother r hne] at hzero
    exact h.once r c d hzero hc hd
  · intro r c hzero hc hmem
    have hne : r ≠ w.nextReq := fun heq => hactive c (heq ▸ hc)
    rw [hother r hne] at hzero
    exact h.first r c hzero hc hmem
  · intro r hr
    have hlt : w.nextReq < r := hr
    obtain ⟨hrwaiting, hrmet, hrdata, hractive⟩ := h.fresh r hlt.le
    refine ⟨?_, hrmet, hrdata, hractive⟩
    simp only [Transfers.submit, List.mem_append, List.mem_singleton, not_or]
    exact ⟨hrwaiting, hlt.ne'⟩
  · intro r
    by_cases hr : r = w.nextReq
    · subst hr
      simp [Transfers.submit, hdata]
    · rw [hother r hr]
      exact h.size r

/-- Writing a request attempts it. -/
theorem Attempts.writeToOutbuf (h : Attempts met w) :
    Attempts met (w.writeToOutbuf ask serve r c) := by
  unfold Transfers.writeToOutbuf
  dsimp only
  split_ifs with hfits
  · obtain ⟨hwaiting, hidle⟩ := hfits
    have hnobody := h.ne_body hidle
    set l : Link E := { w.conn c with
      http := { (w.conn c).http with firstBytePos := (w.request r).firstBytePos }
      active := [r]
      toRecv := (w.conn c).toRecv ++ serve (ask r).netloc (w.textOf ask r) } with hl
    set v : Transfers E := { w with waiting := w.waiting.erase r } with hv
    have hactive : ∀ q d, q ∈ ((v.setConn c l).conn d).active →
        q ∈ (w.conn d).active ∨ q = r ∧ d = c := by
      intro q d hq
      by_cases hd : d = c
      · subst hd
        exact .inr ⟨by simpa [hl] using hq, rfl⟩
      · exact .inl (by simpa [hd] using hq)
    constructor
    · intro d
      by_cases hd : d = c
      · subst hd
        exact .inr ⟨r, by simp [hl]⟩
      · simpa [hd] using h.single d
    · intro d hbody
      by_cases hd : d = c
      · subst hd
        simp only [conn_setConn, Function.update_self, hl] at hbody
        exact absurd hbody hnobody
      · simp only [conn_setConn, Function.update_of_ne hd] at hbody ⊢
        exact h.body d hbody
    · intro q hzero
      exact (List.erase_sublist.count_le q).trans (h.count q hzero)
    · intro q hq hzero
      obtain ⟨hmet, hnone⟩ := h.waits q (List.mem_of_mem_erase hq) hzero
      refine ⟨hmet, fun d hd => ?_⟩
      rcases hactive q d hd with hd | ⟨rfl, -⟩
      · exact hnone d hd
      · -- the request waited once, and does so no more
        have hcount := h.count q hzero
        have hpos : 0 < (w.waiting.erase q).count q := List.count_pos_iff.mpr hq
        rw [List.count_erase_self] at hpos
        omega
    · intro q d e hzero hd he
      rcases hactive q d hd with hqd | ⟨hqr, hdc⟩
      · rcases hactive q e he with hqe | ⟨hqr, -⟩
        · exact h.once q d e hzero hqd hqe
        · subst hqr
          exact absurd hqd ((h.waits q hwaiting hzero).2 d)
      · rcases hactive q e he with hqe | ⟨-, hec⟩
        · subst hqr
          exact absurd hqe ((h.waits q hwaiting hzero).2 e)
        · rw [hdc, hec]
    · intro q d hzero hd hmem
      rcases hactive q d hd with hqd | ⟨rfl, rfl⟩
      · have hne : d ≠ c := by
          rintro rfl
          rw [hidle] at hqd
          cases hqd
        simp only [conn_setConn, Function.update_of_ne hne]
        exact h.first q d hzero hqd hmem
      · exact absurd hmem (h.waits q hwaiting hzero).1
    · intro q hq
      obtain ⟨hqwaiting, hqmet, hqdata, hqactive⟩ := h.fresh q hq
      refine ⟨fun hmem => hqwaiting (List.mem_of_mem_erase hmem), hqmet, hqdata, fun d hd => ?_⟩
      rcases hactive q d hd with hd | ⟨rfl, -⟩
      · exact hqactive d hd
      · exact hqwaiting hwaiting
    · exact h.size
  · exact h

/-- A request that was submitted waits again, or has failed. -/
theorem Attempts.retry (h : Attempts met w) (hr : r < w.nextReq) : Attempts met (w.retry r) := by
  unfold Transfers.retry
  dsimp only
  split
  · exact h.congr rfl rfl rfl rfl fun _ => ⟨rfl, Iff.rfl⟩
  · set q' : Request := { w.request r with
      numRetries := (w.request r).numRetries + 1
      firstBytePos := if 0 < (w.request r).bodySize then (w.request r).bodySize
        else (w.request r).firstBytePos } with hq'
    have hzero : ∀ q, (Function.update w.request r q' q).numRetries = 0 →
        q ≠ r ∧ (w.request q).numRetries = 0 := by
      intro q hq
      by_cases hqr : q = r
      · subst hqr
        simp [hq'] at hq
      · exact ⟨hqr, by simpa [hqr] using hq⟩
    constructor
    · exact h.single
    · exact h.body
    · intro q hq
      obtain ⟨hne, hq⟩ := hzero q hq
      simpa [List.count_singleton, Ne.symm hne] using h.count q hq
    · intro q hmem hq
      obtain ⟨hne, hq⟩ := hzero q hq
      have hmem : q ∈ w.waiting := by simpa [hne] using hmem
      exact h.waits q hmem hq
    · exact fun q c d hq => h.once q c d (hzero q hq).2
    · exact fun q c hq => h.first q c (hzero q hq).2
    · intro q hq
      have hne : q ≠ r := by
        rintro rfl
        exact absurd hr (Nat.not_lt_of_le hq)
      obtain ⟨hqwaiting, hqmet, hqdata, hqactive⟩ := h.fresh q hq
      exact ⟨by simp [hqwaiting, hne], hqmet, hqdata, hqactive⟩
    · intro q
      by_cases hqr : q = r
      · subst hqr
        simpa [hq'] using h.size q
      · simpa [hqr] using h.size q

/-! ## Steps that tell nothing -/

/-- The places are kept, and no data is delivered. -/
structure Silent (met : List ReqId) (w w' : Transfers E) : Prop where
  attempts : Attempts met w'
  data : w'.data = w.data

/-- An unusable connection tells its requests nothing of a response. -/
theorem Attempts.unusable (h : Attempts met w) (hstep : w.unusable c = .ok w') :
    Silent met w w' := by
  unfold Transfers.unusable at hstep
  dsimp only at hstep
  split_ifs at hstep
  obtain rfl := Except.ok.inj hstep
  set l : Link E := { w.conn c with released := true } with hl
  have hreleased : Attempts met (w.setConn c l) := h.setConn rfl Iff.rfl
  rcases h.single c with hactive | ⟨r, hactive⟩
  · rw [hactive]
    exact ⟨hreleased, rfl⟩
  · rw [hactive]
    have hlt : r < w.nextReq := h.lt (c := c) (by simp [hactive])
    refine ⟨hreleased.retry hlt, ?_⟩
    simp only [List.foldl_cons, List.foldl_nil, Transfers.retry]
    split <;> rfl

/-- An error tells nothing of a response. -/
theorem Attempts.onErr {reported : Bool} (h : Attempts met w)
    (hstep : w.onErr c reported = .ok w') : Silent met w w' := by
  unfold Transfers.onErr at hstep
  split_ifs at hstep
  · split at hstep
    · simp at hstep
    · rename_i v hunusable
      obtain rfl := Except.ok.inj hstep
      obtain ⟨hattempts, hdata⟩ := h.unusable hunusable
      exact ⟨hattempts.setConn rfl Iff.rfl, hdata⟩
  · obtain rfl := Except.ok.inj hstep
    exact ⟨h, rfl⟩

/-- The end of the stream tells nothing of a response. -/
theorem Attempts.onRdhup (h : Attempts met w) (c : Nat) (reported : Bool) :
    Silent met w (w.onRdhup c reported) := by
  unfold Transfers.onRdhup
  split_ifs
  · exact ⟨h.setConn rfl Iff.rfl, rfl⟩
  · exact ⟨h, rfl⟩

theorem Attempts.setLabel (h : Attempts met w) (label : TransferLabel) :
    Attempts met { w with label := label } :=
  h.congr rfl rfl rfl rfl fun _ => ⟨rfl, Iff.rfl⟩

/-- An event tells nothing of a response before it is read. -/
theorem Attempts.trigger {epollerr epollrdhup epollin : Bool} (h : Attempts met w)
    (hstep : w.trigger c epollerr epollrdhup epollin = .ok w') : Silent met w w' := by
  unfold Transfers.trigger at hstep
  split_ifs at hstep
  split at hstep
  · simp at hstep
  · rename_i w₁ herr
    obtain ⟨h₁, hdata₁⟩ := h.onErr herr
    obtain ⟨h₂, hdata₂⟩ := h₁.onRdhup c epollrdhup
    unfold Transfers.onRead at hstep
    split_ifs at hstep
    · obtain ⟨h₃, hdata₃⟩ := h₂.unusable hstep
      exact ⟨h₃, hdata₃.trans (hdata₂.trans hdata₁)⟩
    · obtain rfl := Except.ok.inj hstep
      exact ⟨h₂.setLabel _, hdata₂.trans hdata₁⟩
    · obtain rfl := Except.ok.inj hstep
      exact ⟨h₂, hdata₂.trans hdata₁⟩

/-- Receiving tells nothing of a response before it is parsed. -/
theorem Attempts.readMore {found eof : Bool} {results : List NumRead} (h : Attempts met w)
    (hstep : w.readMore c found eof results = .ok w') : Silent met w w' := by
  unfold Transfers.readMore at hstep
  dsimp only at hstep
  split at hstep
  · simp at hstep
  · rename_i f hrecv
    split_ifs at hstep
    · have hidle := (h.setLabel .idle).setConn (c := c) (l := { w.conn c with
        http := { (w.conn c).http with inbuf := (E.reserve (w.conn c).http.inbuf nToAdd).1 }
        toRecv := f.rest }) rfl Iff.rfl
      obtain ⟨hattempts, hdata⟩ := hidle.unusable hstep
      exact ⟨hattempts, hdata⟩
    · obtain rfl := Except.ok.inj hstep
      exact ⟨(h.setLabel .idle).setConn rfl Iff.rfl, rfl⟩
    · obtain rfl := Except.ok.inj hstep
      exact ⟨(h.setLabel _).setConn rfl Iff.rfl, rfl⟩

/-! ## Rounds of the parser -/

/-- Notices do not change the retry counters. -/
theorem numRetries_foldl_notify (notices : List Notice) (w : Transfers E) (q : ReqId) :
    ((notices.foldl (notify r) w).request q).numRetries = (w.request q).numRetries := by
  induction notices generalizing w with
  | nil => rfl
  | cons notice notices ih =>
    rw [List.foldl_cons, ih]
    cases notice with
    | rspMeta status headers => rfl
    | rspBodyDone => rfl
    | rspBodyData data =>
      by_cases hq : q = r
      · subst hq
        simp [notify]
      · simp [notify, hq]

/-- The active request of a connection was told `bytes`. -/
theorem Attempts.told {met' : List ReqId} {bytes : Bytes} (h : Attempts met w)
    (hactive : (w.conn c).active = [r]) (hmet : ∀ q, q ∈ met' ↔ q ∈ met ∨ q = r ∧ r ∈ met')
    (hwaiting : w'.waiting = w.waiting) (hnext : w'.nextReq = w.nextReq)
    (hconn : w'.conn = Function.update w.conn c l)
    (hretries : ∀ q, (w'.request q).numRetries = (w.request q).numRetries)
    (hdata : w'.data = Function.update w.data r (w.data r ++ bytes))
    (hsize : ∀ q, (w'.request q).bodySize =
      (w.request q).bodySize + if q = r then bytes.length else 0)
    (hl : l.active = [] ∨ l.active = [r])
    (hbody : l.http.rspState = .body → l.active = [r] ∧ r ∈ met')
    (hfirst : l.active = [r] → (w.request r).numRetries = 0 → r ∈ met' → l.http.rspState = .body) :
    Attempts met' w' := by
  have hserves : r ∈ (w.conn c).active := by simp [hactive]
  have hplaces : ∀ q d, q ∈ (w'.conn d).active → q ∈ (w.conn d).active := by
    intro q d hq
    rw [hconn] at hq
    by_cases hd : d = c
    · subst hd
      rw [Function.update_self] at hq
      rw [hactive]
      rcases hl with hl | hl
      · rw [hl] at hq
        cases hq
      · rwa [hl] at hq
    · rwa [Function.update_of_ne hd] at hq
  have hother : ∀ q, q ≠ r → (q ∈ met' ↔ q ∈ met) := by
    intro q hq
    simp [hmet q, hq]
  constructor
  · intro d
    rw [hconn]
    by_cases hd : d = c
    · subst hd
      rw [Function.update_self]
      exact hl.imp_right fun hl => ⟨r, hl⟩
    · rw [Function.update_of_ne hd]
      exact h.single d
  · intro d
    rw [hconn]
    by_cases hd : d = c
    · subst hd
      rw [Function.update_self]
      exact fun hb => ⟨r, hbody hb⟩
    · rw [Function.update_of_ne hd]
      intro hb
      obtain ⟨q, hq, hqmet⟩ := h.body d hb
      exact ⟨q, hq, (hmet q).mpr (.inl hqmet)⟩
  · intro q hzero
    rw [hretries] at hzero
    rw [hwaiting]
    exact h.count q hzero
  · intro q hq hzero
    rw [hwaiting] at hq
    rw [hretries] at hzero
    obtain ⟨hqmet, hqactive⟩ := h.waits q hq hzero
    have hne : q ≠ r := fun heq => hqactive c (heq ▸ hserves)
    exact ⟨(hother q hne).not.mpr hqmet, fun d hd => hqactive d (hplaces q d hd)⟩
  · intro q d e hzero hd he
    rw [hretries] at hzero
    exact h.once q d e hzero (hplaces q d hd) (hplaces q e he)
  · intro q d hzero hd hq
    rw [hretries] at hzero
    have hqd := hplaces q d hd
    rw [hconn] at hd ⊢
    by_cases hdc : d = c
    · subst hdc
      rw [Function.update_self] at hd ⊢
      obtain rfl : q = r := by simpa [hactive] using hqd
      rcases hl with hl | hl
      · rw [hl] at hd
        cases hd
      · exact hfirst hl hzero hq
    · rw [Function.update_of_ne hdc]
      have hne : q ≠ r := by
        rintro rfl
        exact hdc (h.once q d c hzero hqd hserves)
      exact h.first q d hzero hqd ((hother q hne).mp hq)
  · intro q hq
    rw [hnext] at hq
    obtain ⟨hqwaiting, hqmet, hqdata, hqactive⟩ := h.fresh q hq
    have hne : q ≠ r := fun heq => hqactive c (heq ▸ hserves)
    rw [hwaiting, hdata, Function.update_of_ne hne]
    exact ⟨hqwaiting, (hother q hne).not.mpr hqmet, hqdata, fun d hd => hqactive d (hplaces q d hd)⟩
  · intro q
    rw [hsize, hdata]
    by_cases hq : q = r
    · subst hq
      simp [h.size q]
    · simp [hq, h.size q]

/-- What a round of the parser leaves. -/
structure Responded (w : Transfers E) (c : Nat) (r : ReqId) (h : Handled E) (w' : Transfers E) :
    Prop where
  waiting : w'.waiting = w.waiting
  nextReq : w'.nextReq = w.nextReq
  failed : w'.failed = w.failed
  retries : ∀ q, (w'.request q).numRetries = (w.request q).numRetries
  data : w'.data = Function.update w.data r (w.data r ++ HttpConnection.bodyBytes h.notices)
  size : ∀ q, (w'.request q).bodySize =
    (w.request q).bodySize + if q = r then (HttpConnection.bodyBytes h.notices).length else 0
  conn : w'.conn = Function.update w.conn c { w.conn c with
    http := h.conn
    active := if .rspBodyDone ∈ h.notices then (w.conn c).active.tail else (w.conn c).active }

/-- The notices of a response are told one after the other. -/
theorem responded_of_foldl (eof : Bool) (h : Handled E) :
    Responded w c r h (h.notices.foldl (notify r) (w.handled c eof h)) := by
  have hretries := numRetries_foldl_notify (r := r) h.notices (w.handled c eof h)
  obtain ⟨request, data, done, hfold, hdata, hrequest, -⟩ :=
    foldl_notify (r := r) h.notices (w.handled c eof h)
  rw [hfold] at hretries ⊢
  exact ⟨rfl, rfl, rfl, hretries, hdata, fun q => (hrequest q).2, rfl⟩

end Transfers

namespace Validation

variable {E : Evbuffer} {url : ReqId → Bytes} {md5 : Bytes → Bytes} {v v' : Validation E}
  {r : ReqId} {c : Nat} {ask : ReqId → Resource} {serve : NetLoc → Bytes → Bytes}

/-! ## The invariant -/

/-- What was expected of the resource was checked over the delivered body. -/
def Checked (md5 : Bytes → Bytes) (f : Finish) : Prop :=
  ∀ eo ∈ f.expected, ∀ d ∈ eo.hexMd5Digest, f.digest = some (md5 f.body) ∧
    (f.valid = true ↔ f.body.length = eo.bodySize ∧ cString (md5 f.body) = cString d)

/-- A request that was told metadata is counted once, and its context has absorbed what was
delivered. -/
structure Recorded (url : ReqId → Bytes) (md5 : Bytes → Bytes) (v : Validation E) : Prop where
  attempts : v.transfers.Attempts v.met
  unmet : ∀ r, r ∉ v.met →
    r ∉ v.counted ∧ v.req2mdctx.lookup r = none ∧ v.transfers.data r = []
  counted : ∀ r ∈ v.met, v.counted.count r = 1
  digests : ∀ r ∈ v.met, v.Unfinished r → (v.expectedDigest url r).isSome = true →
    v.req2mdctx.lookup r = some (v.transfers.data r)
  total : v.totalnumobjects = UInt16.ofNat v.counted.length
  finished : ∀ f ∈ v.finishes, f.success = true → f.req ∈ v.met ∧ Checked md5 f

/-- What is recorded was validated. -/
theorem Recorded.validated (h : Recorded url md5 v) : v.Validated md5 := by
  intro f hf hsuccess
  obtain ⟨hmet, hchecked⟩ := h.finished f hf hsuccess
  exact ⟨h.counted f.req hmet, hchecked⟩

/-- Nothing is recorded. -/
theorem recorded_new (maxRetries : Nat) (expectedObjects : List (Bytes × ExpectedObj)) :
    Recorded url md5 (new E maxRetries expectedObjects) where
  attempts := Transfers.attempts_new maxRetries
  unmet := by simp [new, Transfers.new]
  counted := by simp [new]
  digests := by simp [new]
  total := by simp [new]
  finished := by simp [new]

/-- A step of the transfers that tells nothing. -/
theorem Recorded.silent {w : Transfers E} (h : Recorded url md5 v)
    (hw : Transfers.Silent v.met v.transfers w) : Recorded url md5 { v with transfers := w } where
  attempts := hw.attempts
  unmet := by
    intro r hr
    rw [hw.data]
    exact h.unmet r hr
  counted := h.counted
  digests := by
    intro r hr hunfinished hexpected
    rw [hw.data]
    exact h.digests r hr hunfinished hexpected
  total := h.total
  finished := h.finished

/-! ## The end of a response -/

/-- What `validate_one_resource` leaves and finds. -/
theorem validateOneResource_spec (name : Bytes) (size : Nat) (digest : Option Bytes) :
    ∃ failed errors, v.validateOneResource name size digest =
      ({ v with
          expectedObjects := v.expectedObjects.filter fun p => p.1 ≠ name
          validateFailed := failed
          totalnumerrorobjects := errors },
        ((v.expectedObjects.lookup name).map fun eo =>
          matchesExpected eo size digest).getD false) := by
  unfold validateOneResource
  cases hlookup : v.expectedObjects.lookup name with
  | none =>
    have hfilter : v.expectedObjects.filter (fun p => p.1 ≠ name) = v.expectedObjects := by
      apply List.filter_eq_self.mpr
      intro p hp
      have hne := List.lookup_eq_none_iff.mp hlookup p hp
      simpa using Ne.symm (by simpa using hne)
    exact ⟨true, v.totalnumerrorobjects + 1, by rw [hfilter]; rfl⟩
  | some eo =>
    dsimp only
    split
    · rename_i hmatches
      exact ⟨v.validateFailed, v.totalnumerrorobjects, by simp [hmatches]⟩
    · rename_i hmatches
      exact ⟨true, v.totalnumerrorobjects + 1, by simp [hmatches]⟩

/-- An object is as expected just if its size and its digest are. -/
theorem matchesExpected_iff {eo : ExpectedObj} {d actual : Bytes} {size : Nat}
    (hd : eo.hexMd5Digest = some d) :
    matchesExpected eo size (some actual) = true ↔
      size = eo.bodySize ∧ cString actual = cString d := by
  unfold matchesExpected
  rw [hd]
  split
  · rename_i hsize
    simp [hsize]
  · rename_i hsize
    rw [not_not] at hsize
    simp [hsize]

/-- What the end of a response leaves. -/
theorem responseFinishedCb_spec (v : Validation E) (url : ReqId → Bytes) (md5 : Bytes → Bytes)
    (r : ReqId) (success : Bool) :
    ∃ failed errors, v.responseFinishedCb url md5 r success = { v with
      expectedObjects := v.expectedObjects.filter fun p => p.1 ≠ url r
      req2mdctx := v.req2mdctx.filter fun p => p.1 ≠ r
      validateFailed := failed
      totalnumerrorobjects := errors
      finishes := v.finishes ++ [{
        req := r
        success := success
        body := v.transfers.data r
        digest := (v.req2mdctx.lookup r).map md5
        expected := v.expectedObjects.lookup (url r)
        valid := ((v.expectedObjects.lookup (url r)).map fun eo => matchesExpected eo
          (v.transfers.request r).bodySize ((v.req2mdctx.lookup r).map md5)).getD false }] } := by
  obtain ⟨failed, errors, hvalidate⟩ := validateOneResource_spec (v := { v with
    req2mdctx := v.req2mdctx.filter fun p => p.1 ≠ r }) (url r) (v.transfers.request r).bodySize
    ((v.req2mdctx.lookup r).map md5)
  refine ⟨failed, errors, ?_⟩
  unfold responseFinishedCb
  dsimp only
  rw [hvalidate]

/-- The end of a response records its check. -/
theorem Recorded.responseFinishedCb {success : Bool} (h : Recorded url md5 v)
    (hok : success = true → r ∈ v.met ∧ v.Unfinished r) :
    Recorded url md5 (v.responseFinishedCb url md5 r success) := by
  obtain ⟨failed, errors, hspec⟩ := responseFinishedCb_spec v url md5 r success
  rw [hspec]
  constructor
  · exact h.attempts
  · intro q hq
    obtain ⟨hcounted, hctx, hdata⟩ := h.unmet q hq
    refine ⟨hcounted, ?_, hdata⟩
    rw [lookup_filter_ne, hctx, ite_self]
  · exact h.counted
  · intro q hq hunfinished hexpected
    have hne : q ≠ r := by
      rintro rfl
      exact hunfinished _ (List.mem_append_right _ (List.mem_singleton.mpr rfl)) rfl
    have hbefore : v.Unfinished q := fun f hf => hunfinished f (List.mem_append_left _ hf)
    have hstill : (v.expectedDigest url q).isSome = true := by
      unfold expectedDigest at hexpected ⊢
      dsimp only at hexpected
      rw [lookup_filter_ne] at hexpected
      split at hexpected
      · cases hexpected
      · exact hexpected
    rw [lookup_filter_ne, if_neg hne]
    exact h.digests q hq hbefore hstill
  · exact h.total
  · intro f hf hsuccess
    rcases List.mem_append.mp hf with hf | hf
    · exact h.finished f hf hsuccess
    · obtain rfl := List.mem_singleton.mp hf
      obtain ⟨hmet, hunfinished⟩ := hok hsuccess
      refine ⟨hmet, ?_⟩
      intro eo heo d hd
      have heo : v.expectedObjects.lookup (url r) = some eo := heo
      have hd : eo.hexMd5Digest = some d := hd
      have hexpected : (v.expectedDigest url r).isSome = true := by
        simp [expectedDigest, heo, hd]
      have hctx := h.digests r hmet hunfinished hexpected
      simp only [hctx, heo, Option.map_some, Option.getD_some]
      refine ⟨trivial, ?_⟩
      rw [matchesExpected_iff hd, h.attempts.size]

/-- A request that failed is recorded as such. -/
theorem Recorded.reportFailed (h : Recorded url md5 v) (failed : List ReqId) :
    Recorded url md5 (v.reportFailed url md5 failed) := by
  unfold Validation.reportFailed
  induction failed generalizing v with
  | nil => exact h
  | cons r failed ih =>
    rw [List.foldl_cons]
    apply ih
    exact h.responseFinishedCb (by simp)

/-! ## Metadata and data -/

/-- The metadata of a response arrive before the first retry, or not for the first time. -/
theorem Recorded.responseMetaCb {w : Transfers E} {v₁ : Validation E} (h : Recorded url md5 v)
    (hw : w.Attempts (v.met ++ [r])) (hdata : w.data = v.transfers.data)
    (hretries : (w.request r).numRetries = (v.transfers.request r).numRetries)
    (htime : (v.transfers.request r).numRetries = 0 ∧ r ∉ v.met ∨
      (v.transfers.request r).numRetries ≠ 0 ∧ r ∈ v.met)
    (hstep : { v with transfers := w }.responseMetaCb url r = .ok v₁) : Recorded url md5 v₁ := by
  unfold Validation.responseMetaCb at hstep
  dsimp only at hstep
  rw [hretries] at hstep
  have hmem : ∀ q, q ∈ v.met ++ [r] ↔ q ∈ v.met ∨ q = r := by simp
  rcases htime with ⟨hzero, hnot⟩ | ⟨hsome, hmet⟩
  · rw [if_pos hzero] at hstep
    obtain ⟨hcounted, hctx, hnone⟩ := h.unmet r hnot
    split at hstep
    · cases hstep
    · obtain rfl := Except.ok.inj hstep
      constructor
      · exact hw
      · intro q hq
        obtain ⟨hqmet, hqr⟩ := not_or.mp ((hmem q).not.mp hq)
        obtain ⟨hqcounted, hqctx, hqdata⟩ := h.unmet q hqmet
        refine ⟨?_, ?_, by rw [hdata, hqdata]⟩
        · simp [hqcounted, hqr]
        · dsimp only
          split
          · rw [lookup_concat _ _ _ _ hctx, if_neg hqr, hqctx]
          · exact hqctx
      · intro q hq
        rcases (hmem q).mp hq with hq | rfl
        · have hne : q ≠ r := fun heq => hnot (heq ▸ hq)
          simp [h.counted q hq, Ne.symm hne]
        · simp [List.count_eq_zero.mpr hcounted]
      · intro q hq hunfinished hexpected
        rcases (hmem q).mp hq with hq | rfl
        · have hne : q ≠ r := fun heq => hnot (heq ▸ hq)
          dsimp only
          rw [hdata, ← h.digests q hq hunfinished hexpected]
          split
          · rw [lookup_concat _ _ _ _ hctx, if_neg hne]
          · rfl
        · dsimp only
          rw [hdata, hnone]
          split
          · rw [lookup_concat _ _ _ _ hctx, if_pos rfl]
          · rename_i hunexpected
            exact absurd hexpected hunexpected
      · simp only [h.total, List.length_append, List.length_singleton, UInt16.ofNat_add]
        rfl
      · intro f hf hsuccess
        obtain ⟨hfmet, hchecked⟩ := h.finished f hf hsuccess
        exact ⟨(hmem _).mpr (.inl hfmet), hchecked⟩
  · rw [if_neg hsome] at hstep
    obtain rfl := Except.ok.inj hstep
    have hsame : ∀ q, q ∈ v.met ++ [r] ↔ q ∈ v.met := by
      intro q
      rw [hmem]
      exact or_iff_left_of_imp fun heq => heq ▸ hmet
    constructor
    · exact hw
    · intro q hq
      dsimp only
      rw [hdata]
      exact h.unmet q ((hsame q).not.mp hq)
    · exact fun q hq => h.counted q ((hsame q).mp hq)
    · intro q hq hunfinished hexpected
      dsimp only
      rw [hdata]
      exact h.digests q ((hsame q).mp hq) hunfinished hexpected
    · exact h.total
    · intro f hf hsuccess
      obtain ⟨hfmet, hchecked⟩ := h.finished f hf hsuccess
      exact ⟨(hsame _).mpr hfmet, hchecked⟩

/-- Data that come in two pieces are hashed like one. -/
theorem responseBodyDataCb_append (r : ReqId) (data bytes : Bytes) :
    (v.responseBodyDataCb r data).responseBodyDataCb r bytes =
      v.responseBodyDataCb r (data ++ bytes) := by
  unfold responseBodyDataCb
  simp only [List.map_map]
  congr 1
  apply List.map_congr_left
  intro p _
  by_cases hp : p.1 = r
  · simp [hp]
  · simp [hp]

/-- No data change nothing. -/
theorem responseBodyDataCb_nil (r : ReqId) : v.responseBodyDataCb r [] = v := by
  unfold responseBodyDataCb
  have hmap : v.req2mdctx.map (fun p => if p.1 = r then (p.1, p.2 ++ []) else p) = v.req2mdctx := by
    simp
  rw [hmap]

/-- The parts of a body one after the other. -/
theorem runSteps_tell_rspBodyData (r : ReqId) (data : List Bytes) :
    runSteps (tell url md5) v (data.map fun d => (r, Notice.rspBodyData d)) =
      .ok (v.responseBodyDataCb r data.flatten) := by
  induction data generalizing v with
  | nil => rw [List.map_nil, runSteps_nil, List.flatten_nil, responseBodyDataCb_nil]
  | cons d data ih =>
    rw [List.map_cons, runSteps_cons_of_ok rfl, ih, responseBodyDataCb_append, List.flatten_cons]

/-- The hash follows the data of the response. -/
theorem Recorded.responseBodyDataCb {w : Transfers E} {bytes : Bytes} (h : Recorded url md5 v)
    (hmet : r ∈ v.met) (hw : w.Attempts v.met)
    (hdata : w.data = Function.update v.transfers.data r (v.transfers.data r ++ bytes)) :
    Recorded url md5 ({ v with transfers := w }.responseBodyDataCb r bytes) := by
  unfold Validation.responseBodyDataCb
  constructor
  · exact hw
  · intro q hq
    have hne : q ≠ r := fun heq => hq (heq ▸ hmet)
    dsimp only
    rw [lookup_map_update _ q r (· ++ bytes), if_neg hne, hdata, Function.update_of_ne hne]
    exact h.unmet q hq
  · exact h.counted
  · intro q hq hunfinished hexpected
    dsimp only
    rw [lookup_map_update _ q r (· ++ bytes), hdata, h.digests q hq hunfinished hexpected]
    by_cases hqr : q = r
    · subst hqr
      simp
    · simp [hqr]
  · exact h.total
  · exact h.finished

/-! ## Steps and runs -/

/-- A step that is not a round of the parser tells nothing. -/
theorem silent_or_handleResponse {w w' : Transfers E} {met : List ReqId} {choice : TransferChoice}
    (h : w.Attempts met) (hstep : w.step ask serve choice = .ok w') :
    Transfers.Silent met w w' ∧ told w choice = [] ∨
      ∃ c found eof, choice = .go ∧ w.label = .handleResponse c found eof ∧
        w.handleResponse c found eof = .ok w' := by
  unfold Transfers.step at hstep
  split at hstep
  · obtain rfl := Except.ok.inj hstep
    exact .inl ⟨⟨h.submit, rfl⟩, rfl⟩
  · obtain rfl := Except.ok.inj hstep
    refine .inl ⟨⟨h.writeToOutbuf, ?_⟩, rfl⟩
    unfold Transfers.writeToOutbuf
    dsimp only
    split <;> rfl
  · exact .inl ⟨h.trigger hstep, rfl⟩
  · exact .inl ⟨h.unusable hstep, rfl⟩
  · exact .inl ⟨h.readMore hstep, rfl⟩
  · rename_i c found eof hlabel
    exact .inr ⟨c, found, eof, rfl, hlabel, hstep⟩
  · obtain rfl := Except.ok.inj hstep
    refine .inl ⟨⟨h, rfl⟩, ?_⟩
    unfold told
    split
    · rename_i c found eof hlabel _ _ _ _ _ hnot
      exact absurd hlabel (hnot c found eof rfl)
    · rfl

/-- A round of the parser on a connection with an active request, and the callbacks for it. -/
theorem Recorded.round {w : Transfers E} {hd : Handled E} {v₁ : Validation E}
    (h : Recorded url md5 v) (hactive : (v.transfers.conn c).active = [r])
    (hround : HttpConnection.Round (v.transfers.conn c).http true hd)
    (hw : Transfers.Responded v.transfers c r hd w)
    (htime : ∀ notice ∈ hd.notices, v.InTime (r, notice))
    (hrun : runSteps (tell url md5) { v with transfers := w } (hd.notices.map (r, ·)) = .ok v₁) :
    Recorded url md5 v₁ := by
  have hmine : r ∈ (v.transfers.conn c).active := by simp [hactive]
  have hmet : (v.transfers.conn c).http.rspState = .body → r ∈ v.met := by
    intro hbody
    obtain ⟨q, hq, hqmet⟩ := h.attempts.body c hbody
    rw [hactive] at hq
    obtain rfl : r = q := by simpa using hq
    exact hqmet
  have hfirst : (v.transfers.request r).numRetries = 0 →
      (v.transfers.conn c).http.rspState ≠ .body →
      r ∉ v.met := fun hzero hbefore hmem => hbefore (h.attempts.first r c hzero hmine hmem)
  have hsame : ∀ q, q ∈ v.met ↔ q ∈ v.met ∨ q = r ∧ r ∈ v.met := fun q =>
    (or_iff_left_of_imp fun heq => heq.1 ▸ heq.2).symm
  cases hround with
  | quiet hnotices hbefore hafter =>
    rw [hnotices] at hrun
    obtain rfl := Except.ok.inj hrun
    have hdata := hw.data
    rw [hnotices, HttpConnection.bodyBytes_nil, List.append_nil, Function.update_eq_self] at hdata
    refine h.silent ⟨h.attempts.told hactive hsame hw.waiting hw.nextReq hw.conn hw.retries hw.data
      hw.size ?_ ?_ ?_, hdata⟩
    · simp [hnotices, hactive]
    · exact fun hbody => absurd hbody hafter
    · exact fun _ hzero hmem => absurd hmem (hfirst hzero hbefore)
  | rspMeta status headers hnotices hbefore hafter =>
    rw [hnotices] at hrun
    have htold : v.InTime (r, .rspMeta status headers) := htime _ (by simp [hnotices])
    have hnobody : (v.transfers.conn c).http.rspState ≠ .body := by simp [hbefore]
    have hcases : (v.transfers.request r).numRetries = 0 ∧ r ∉ v.met ∨
        (v.transfers.request r).numRetries ≠ 0 ∧ r ∈ v.met := by
      by_cases hzero : (v.transfers.request r).numRetries = 0
      · exact .inl ⟨hzero, hfirst hzero hnobody⟩
      · exact .inr ⟨hzero, htold.resolve_left hzero⟩
    have hdata := hw.data
    rw [hnotices, HttpConnection.bodyBytes_rspMeta, List.append_nil, Function.update_eq_self]
      at hdata
    rw [List.map_singleton] at hrun
    obtain ⟨v₂, hstep, hlast⟩ := runSteps_cons_eq_ok.mp hrun
    obtain rfl := Except.ok.inj hlast
    refine h.responseMetaCb ?_ hdata (hw.retries r) hcases hstep
    refine h.attempts.told hactive ?_ hw.waiting hw.nextReq hw.conn hw.retries hw.data hw.size ?_ ?_
      ?_
    · simp
    · simp [hnotices, hactive]
    · simp [hnotices, hactive]
    · exact fun _ _ _ => hafter
  | rspBodyData data hnotices hbefore hafter =>
    have hnotDone : .rspBodyDone ∉ hd.notices := by simp [hnotices]
    have hbytes : HttpConnection.bodyBytes hd.notices = data.flatten := by
      rw [hnotices, HttpConnection.bodyBytes_rspBodyData]
    rw [hnotices, List.map_map] at hrun
    obtain rfl := Except.ok.inj ((runSteps_tell_rspBodyData r data).symm.trans hrun)
    refine h.responseBodyDataCb (hmet hbefore) ?_ (hbytes ▸ hw.data)
    refine h.attempts.told hactive hsame hw.waiting hw.nextReq hw.conn hw.retries hw.data hw.size
      ?_ ?_ ?_
    · simp [hnotDone, hactive]
    · simp [hnotDone, hactive, hmet hbefore]
    · exact fun _ _ _ => hafter
  | rspBodyDone data hnotices hbefore hafter =>
    have hdone : .rspBodyDone ∈ hd.notices := by simp [hnotices]
    have hbytes : HttpConnection.bodyBytes hd.notices = data.flatten := by
      rw [hnotices, HttpConnection.bodyBytes_append_rspBodyDone,
        HttpConnection.bodyBytes_rspBodyData]
    have hunfinished : v.Unfinished r := htime _ hdone
    rw [hnotices, List.map_append, List.map_map] at hrun
    obtain ⟨v₂, hbody, hlast⟩ := runSteps_append.mp hrun
    obtain rfl := Except.ok.inj ((runSteps_tell_rspBodyData r data).symm.trans hbody)
    obtain rfl := Except.ok.inj hlast
    refine Recorded.responseFinishedCb ?_ fun _ => ⟨hmet hbefore, hunfinished⟩
    refine h.responseBodyDataCb (hmet hbefore) ?_ (hbytes ▸ hw.data)
    refine h.attempts.told hactive hsame hw.waiting hw.nextReq hw.conn hw.retries hw.data hw.size
      ?_ ?_ ?_
    · simp [hdone, hactive]
    · simp [hafter]
    · simp [hdone, hactive]

/-- Every step that is told in time keeps the records. -/
theorem Recorded.step {choice : TransferChoice} (h : Recorded url md5 v)
    (htime : v.ToldInTime choice)
    (hstep : v.step url md5 ask serve choice = .ok v') : Recorded url md5 v' := by
  unfold Validation.step at hstep
  split at hstep
  · cases hstep
  · rename_i w hw
    split at hstep
    · cases hstep
    · rename_i v₁ hrun
      obtain rfl := Except.ok.inj hstep
      apply Recorded.reportFailed
      rcases silent_or_handleResponse h.attempts hw with
        ⟨hsilent, htold⟩ | ⟨c, found, eof, rfl, hlabel, hhandle⟩
      · rw [htold] at hrun
        obtain rfl := Except.ok.inj hrun
        exact h.silent hsilent
      · unfold Transfers.handleResponse at hhandle
        dsimp only at hhandle
        unfold ToldInTime at htime
        simp only [told, hlabel] at htime hrun
        split at hhandle
        · cases hhandle
        · rename_i hd hparse
          simp only [hparse] at htime hrun
          obtain rfl := Except.ok.inj hhandle
          have hround := HttpConnection.round_of_handleResponse hparse
          rcases h.attempts.single c with hactive | ⟨r, hactive⟩
          · -- without an active request the parser hands out nothing
            simp only [hactive] at hrun ⊢
            obtain rfl := Except.ok.inj hrun
            rw [hactive] at hround
            cases hround with
            | quiet hnotices hbefore hafter =>
              refine h.silent ⟨?_, rfl⟩
              unfold Transfers.handled
              refine (h.attempts.setLabel _).setConn ?_ ?_
              · simp [hnotices]
              · exact iff_of_false hafter hbefore
            | rspMeta _ _ _ _ _ htrue => simp at htrue
            | rspBodyData _ _ _ _ htrue => simp at htrue
            | rspBodyDone _ _ _ _ htrue => simp at htrue
          · simp only [hactive] at hrun htime ⊢
            have hresponded :=
              Transfers.responded_of_foldl (w := v.transfers) (c := c) (r := r) eof hd
            rw [hactive] at hround
            refine h.round hactive hround hresponded ?_ hrun
            intro notice hnotice
            exact htime _ (List.mem_map_of_mem hnotice)

/-- In every run in which the metadata and the ends of the responses come in time, every resource
that is reported finished with success was checked over the body that was delivered, and counted
once in `totalnumobjects_`. -/
theorem validated_of_toldInTime (url : ReqId → Bytes) (md5 : Bytes → Bytes) (ask : ReqId → Resource)
    (serve : NetLoc → Bytes → Bytes) (maxRetries : Nat)
    (expectedObjects : List (Bytes × ExpectedObj)) (choices : List TransferChoice)
    (htime : StepsMeet (step url md5 ask serve) ToldInTime
      (new E maxRetries expectedObjects) choices)
    (hrun : runSteps (step url md5 ask serve) (new E maxRetries expectedObjects) choices = .ok v) :
    v.Validated md5 ∧ v.totalnumobjects = UInt16.ofNat v.counted.length := by
  have hrecorded : Recorded url md5 v :=
    invariant_of_stepsMeet (Recorded url md5) (fun _ _ _ hv hmeets hstep => hv.step hmeets hstep)
      (recorded_new maxRetries expectedObjects) htime hrun
  exact ⟨hrecorded.validated, hrecorded.total⟩

/-! ## A page with one file -/

/-- The url of the only request. -/
def urlOfFile : ReqId → Bytes := fun _ => ascii "http://h/f"

/-- The digest of `abc`. -/
def md5OfAbc : Bytes := ascii "900150983cd24fb0d6963f7d28e17f72"

/-- The digest of `abd`. -/
def md5OfAbd : Bytes := ascii "4911e516e5aa21d327512e0c8b197616"

/-- The digest function, on the file. -/
def md5File : Bytes → Bytes := fun _ => md5OfAbc

/-- The page consists of a file of three bytes. -/
def expectedFile (digest : Bytes) : List (Bytes × ExpectedObj) :=
  [(ascii "http://h/f", { bodySize := 3, hexMd5Digest := some digest })]

/-- A step of the page load; the server has the file `abc`. -/
def stepFile : Validation Evbuffer.chunked → TransferChoice →
    Except ValidationFault (Validation Evbuffer.chunked) :=
  step urlOfFile md5File (Transfers.askFor (ascii "/f"))
    (Transfers.serveFile (ascii "/f") (ascii "abc"))

/-- The first byte of the file arrives and the connection fails; the other bytes arrive on another
connection. -/
def failsInBody : List TransferChoice :=
  Transfers.firstByte ++ [.trigger 0 true false false, .write 0 1, .trigger 1 false false true,
    .recv [.bytes 100], .go, .go, .go, .go, .go]

/-- The connection fails before the status line; the file arrives on another one. -/
def failsAtOnce : List TransferChoice :=
  [.submit, .write 0 0, .trigger 0 true false false, .write 0 1, .trigger 1 false false true,
    .recv [.bytes 100], .go, .go, .go, .go]

/-- A failure in the body: the digest of the whole body is compared. -/
theorem validated_of_toldInTime_failsInBody :
    ∃ v, runSteps stepFile (new Evbuffer.chunked 3 (expectedFile md5OfAbd)) failsInBody = .ok v ∧
      v.finishes.map (fun f => (f.body, f.digest, f.valid)) =
        [(ascii "abc", some md5OfAbc, false)] ∧
      v.Validated md5File ∧ v.totalnumobjects = UInt16.ofNat v.counted.length := by
  have hmeets : StepsMeet stepFile ToldInTime (new Evbuffer.chunked 3 (expectedFile md5OfAbd))
      failsInBody := by
    decide +kernel
  have hfinishes : (runSteps stepFile (new Evbuffer.chunked 3 (expectedFile md5OfAbd))
      failsInBody).map (fun v => v.finishes.map fun f => (f.body, f.digest, f.valid)) =
        .ok [(ascii "abc", some md5OfAbc, false)] := by
    decide +kernel
  cases hrun : runSteps stepFile (new Evbuffer.chunked 3 (expectedFile md5OfAbd)) failsInBody with
  | error f => simp [hrun, Except.map] at hfinishes
  | ok v =>
    refine ⟨v, rfl, by simpa [hrun, Except.map] using hfinishes, ?_⟩
    exact validated_of_toldInTime urlOfFile md5File _ _ 3
      (expectedFile md5OfAbd) failsInBody hmeets hrun

/-- A failure before the status line: the resource is finished with success, but neither is it
counted nor is its digest compared, so that it is taken for the file that was expected. -/
theorem not_validated_failsAtOnce :
    ∃ v, runSteps stepFile (new Evbuffer.chunked 3 (expectedFile md5OfAbd)) failsAtOnce = .ok v ∧
      v.finishes.map (fun f => (f.success, f.body, f.digest, f.valid)) =
        [(true, ascii "abc", none, true)] ∧
      v.totalnumobjects = 0 ∧ ¬v.Validated md5File := by
  have hfinishes : (runSteps stepFile (new Evbuffer.chunked 3 (expectedFile md5OfAbd))
      failsAtOnce).map (fun v => v.finishes.map fun f => (f.success, f.body, f.digest, f.valid)) =
        .ok [(true, ascii "abc", none, true)] := by
    decide +kernel
  have hcounts : (runSteps stepFile (new Evbuffer.chunked 3 (expectedFile md5OfAbd))
      failsAtOnce).map (fun v => (v.totalnumobjects, v.counted)) = .ok (0, []) := by
    decide +kernel
  cases hrun : runSteps stepFile (new Evbuffer.chunked 3 (expectedFile md5OfAbd)) failsAtOnce with
  | error f => simp [hrun, Except.map] at hfinishes
  | ok v =>
    simp only [hrun, Except.map, Except.ok.injEq] at hfinishes
    simp only [hrun, Except.map, Except.ok.injEq, Prod.mk.injEq] at hcounts
    obtain ⟨htotal, hcounted⟩ := hcounts
    refine ⟨v, rfl, hfinishes, htotal, ?_⟩
    intro hvalidated
    obtain ⟨f, hf⟩ : ∃ f, v.finishes = [f] := by
      apply List.length_eq_one_iff.mp
      simpa using congrArg List.length hfinishes
    have hsuccess : f.success = true := by
      rw [hf] at hfinishes
      simpa using (Prod.mk.inj (List.singleton_inj.mp hfinishes)).1
    have hcount := (hvalidated f (by simp [hf]) hsuccess).1
    simp [hcounted] at hcount

end Validation

end ShadowExtras.Web
