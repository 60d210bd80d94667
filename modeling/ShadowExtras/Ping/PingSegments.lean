import ShadowExtras.Ping.PingRecords

/-!
# How a stream of pings may be cut

The ping server hears of each `recv` on its own, so what it records of a stream of pings depends on
how the stream is cut. A record is recorded when its two lines with their ends are in one piece. It
is recorded twice when the piece goes on to the end of the record and stops there, since a blank
part then stands for the third line and another one for what follows it; and it is not recorded when
the piece stops before the end of the second line.

`Fair` says how the stream may be cut, and `recorded_of_fair` that each complete record is then
recorded once, in order. When the pings have cookies and times of their own there is no other way:
`recorded_iff_fair`.
-/

namespace ShadowExtras.Ping

open Foundation Torrent

/-! ## Runs -/

/-- The bytes that an activation receives, if there are any. -/
def PingInput.bytes (i : PingInput) (listening : Int) : Option Bytes :=
  if i.sockd = listening then none
  else
    match i.received with
    | .error _ | .ok [] => none
    | .ok (b :: bs) => some (b :: bs)

/-- What the activations of a run receive. -/
def received (listening : Int) (inputs : List PingInput) : List Bytes :=
  inputs.filterMap fun i => i.bytes listening

/-- In a run, no index outside of the buffer is used, and the server appends one entry for each of
the pings, in order, with its cookie and its time. -/
def Recorded (ps : PingServer) (inputs : List PingInput) (records : List SentPing) : Prop :=
  ∃ ps' infos, runSteps step ps inputs = .ok ps' ∧ ps'.pings = ps.pings ++ infos ∧
    infos.map PingInfo.heard = records.map SentPing.heard

variable {ps ps' : PingServer} {i : PingInput} {inputs : List PingInput}

/-- An activation that receives nothing does nothing. -/
theorem step_of_none (h : i.bytes ps.sockd = none) : step ps i = .ok ps := by
  unfold PingInput.bytes at h
  unfold step activate
  split_ifs at h ⊢
  · rfl
  · split at h
    · rename_i errno hreceived
      rw [hreceived]
      cases errno <;> rfl
    · rename_i hreceived
      rw [hreceived]
      rfl
    · cases h

/-- An activation that receives something. -/
theorem step_of_some {u : Bytes} (h : i.bytes ps.sockd = some u) :
    step ps i =
      if u.length < bufSize then
        .ok { ps with pings := ps.pings ++ (heardIn u).map fun h => h.info i.now }
      else .error .outOfBounds := by
  unfold PingInput.bytes at h
  unfold step activate
  split_ifs at h with hsockd
  rw [if_neg hsockd]
  split at h
  · cases h
  · cases h
  · rename_i b bs hreceived
    obtain rfl := Option.some.inj h
    rw [hreceived]
    simp only
    split_ifs <;> rfl

/-- A run records what is heard in each piece, as long as none fills the buffer. -/
theorem runSteps_eq (hlength : ∀ u ∈ received ps.sockd inputs, u.length < bufSize) :
    ∃ ps' infos, runSteps step ps inputs = .ok ps' ∧ ps'.pings = ps.pings ++ infos ∧
      infos.map PingInfo.heard = (received ps.sockd inputs).flatMap heardIn := by
  induction inputs generalizing ps with
  | nil => exact ⟨ps, [], rfl, by simp, rfl⟩
  | cons i inputs ih =>
    cases hbytes : i.bytes ps.sockd with
    | none =>
      have hreceived : received ps.sockd (i :: inputs) = received ps.sockd inputs := by
        simp [received, hbytes]
      rw [hreceived] at hlength ⊢
      rw [runSteps_cons_of_ok (step_of_none hbytes)]
      exact ih hlength
    | some u =>
      have hreceived : received ps.sockd (i :: inputs) = u :: received ps.sockd inputs := by
        simp [received, hbytes]
      rw [hreceived] at hlength ⊢
      obtain ⟨hu, hrest⟩ := List.forall_mem_cons.mp hlength
      have hstep := step_of_some hbytes
      rw [if_pos hu] at hstep
      obtain ⟨ps', infos, hrun, hpings, hinfos⟩ :=
        @ih { ps with pings := ps.pings ++ (heardIn u).map fun h => h.info i.now } hrest
      refine ⟨ps', (heardIn u).map (fun h => h.info i.now) ++ infos, ?_, ?_, ?_⟩
      · rw [runSteps_cons_of_ok hstep]
        exact hrun
      · rw [hpings, List.append_assoc]
      · rw [List.map_append, hinfos, List.flatMap_cons, List.map_map]
        congr 1
        exact List.map_id _

/-- A run in which a piece fills the buffer writes outside of it. -/
theorem length_of_runSteps (hrun : runSteps step ps inputs = .ok ps') :
    ∀ u ∈ received ps.sockd inputs, u.length < bufSize := by
  induction inputs generalizing ps with
  | nil => simp [received]
  | cons i inputs ih =>
    obtain ⟨ps₁, hstep, hrest⟩ := runSteps_cons_eq_ok.mp hrun
    cases hbytes : i.bytes ps.sockd with
    | none =>
      have hreceived : received ps.sockd (i :: inputs) = received ps.sockd inputs := by
        simp [received, hbytes]
      obtain rfl : ps = ps₁ := Except.ok.inj ((step_of_none hbytes).symm.trans hstep)
      rw [hreceived]
      exact ih hrest
    | some u =>
      have hreceived : received ps.sockd (i :: inputs) = u :: received ps.sockd inputs := by
        simp [received, hbytes]
      rw [step_of_some hbytes] at hstep
      split_ifs at hstep with hu
      obtain rfl := Except.ok.inj hstep
      rw [hreceived]
      have htail : ∀ u ∈ received ps.sockd inputs, u.length < bufSize :=
        @ih { ps with pings := ps.pings ++ (heardIn u).map fun h => h.info i.now } hrest
      exact List.forall_mem_cons.mpr ⟨hu, htail⟩

/-- What a run records depends on the pieces alone. -/
theorem recorded_iff {records : List SentPing} :
    Recorded ps inputs records ↔
      (∀ u ∈ received ps.sockd inputs, u.length < bufSize) ∧
        (received ps.sockd inputs).flatMap heardIn = records.map SentPing.heard := by
  constructor
  · rintro ⟨ps', infos, hrun, hpings, hinfos⟩
    have hlength := length_of_runSteps hrun
    obtain ⟨ps'', infos', hrun', hpings', hinfos'⟩ := runSteps_eq hlength
    obtain rfl := Except.ok.inj (hrun.symm.trans hrun')
    obtain rfl := List.append_cancel_left (hpings.symm.trans hpings')
    exact ⟨hlength, hinfos'.symm.trans hinfos⟩
  · rintro ⟨hlength, hheard⟩
    obtain ⟨ps', infos, hrun, hpings, hinfos⟩ := runSteps_eq hlength
    exact ⟨ps', infos, hrun, hpings, hinfos.trans hheard⟩

/-! ## Where a stream may be cut -/

/-- How the rest of a stream may be cut: what is left of the line end of a record that was heard
already, the complete records, and, behind them, an incomplete record of the ping `next`. -/
inductive Fair (next : SentPing) : Bytes → List SentPing → List Bytes → Prop
  /-- The incomplete record: its two lines do not come as one piece. -/
  | incomplete {us : List Bytes} (hlines : us.head? ≠ some next.lines) : Fair next [] [] us
  /-- The last line end of a record that was heard, alone. -/
  | separator {ps : List SentPing} {us : List Bytes} (hus : Fair next [] ps us) :
      Fair next crlf ps (crlf :: us)
  /-- One half of it, alone. -/
  | half {ps : List SentPing} {us : List Bytes} (hus : Fair next [lf] ps us) :
      Fair next crlf ps ([cr] :: us)
  /-- The other half, alone. -/
  | otherHalf {ps : List SentPing} {us : List Bytes} (hus : Fair next [] ps us) :
      Fair next [lf] ps ([lf] :: us)
  /-- Some records, the last of them without its last line end. -/
  | records {front : Bytes} {qs : List SentPing} {p : SentPing} {ps : List SentPing}
      {us : List Bytes} (hfront : front = [] ∨ front = crlf)
      (hlength : (front ++ (recordsText qs ++ p.lines)).length < bufSize)
      (hus : Fair next crlf ps us) :
      Fair next front (qs ++ p :: ps) ((front ++ (recordsText qs ++ p.lines)) :: us)
  /-- All complete records, with a beginning of the incomplete one. -/
  | last {front : Bytes} {ps : List SentPing} {v : Bytes} {us : List Bytes}
      (hfront : front = [] ∨ front = crlf)
      (hlength : (front ++ (recordsText ps ++ v)).length < bufSize)
      (hne : v ≠ []) (hcookie : ps = [] ∨ v ≠ cookieLine next.cookie) (hlines : v ≠ next.lines) :
      Fair next front ps ((front ++ (recordsText ps ++ v)) :: us)
  /-- The half of a line end, with a beginning of the incomplete record. -/
  | lastHalf {v : Bytes} {us : List Bytes} (hne : v ≠ []) : Fair next [lf] [] ((lf :: v) :: us)

/-- The pieces of a stream: none is empty, and there is no NUL in them. -/
def Clean (us : List Bytes) : Prop := ∀ u ∈ us, u ≠ [] ∧ ∀ b ∈ u, b ≠ 0

/-- What is heard in a buffer without NUL. -/
theorem heardIn_eq {u : Bytes} (hne : u ≠ []) (hnul : ∀ b ∈ u, b ≠ 0) :
    heardIn u = (Reading.start.reads u).heard := by
  rw [heardIn, cString_eq_self hnul, parts, if_neg hne]
  rfl

variable {next p : SentPing} {records qs : List SentPing} {front tail u v w : Bytes}
    {us : List Bytes}

/-- A line end in front of the first record changes nothing. -/
theorem reads_front (hfront : front = [] ∨ front = crlf) (s : Bytes) :
    Reading.start.reads (front ++ s) = Reading.start.reads s := by
  rcases hfront with rfl | rfl
  · rfl
  · rw [Reading.reads_crlf, Reading.part_nil_of_eq _ (.inl rfl)]

/-- What is heard in a piece behind its complete records. -/
theorem heard_piece (hfront : front = [] ∨ front = crlf) (qs : List SentPing) (v : Bytes) :
    (Reading.start.reads (front ++ (recordsText qs ++ v))).heard =
      ((Reading.start.after qs).reads v).heard := by
  rw [reads_front hfront, Reading.reads_text]

/-- Every record is heard once. -/
theorem heard_start_after (qs : List SentPing) :
    (Reading.start.after qs).heard = qs.map SentPing.heard := by
  rw [Reading.heard_after]
  rfl

/-- A piece that ends inside of a record, but not behind a line. -/
theorem heard_piece_within (hfront : front = [] ∨ front = crlf) (hv : v <+: p.record) (hne : v ≠ [])
    (hcookie : v ≠ cookieLine p.cookie) (hlines : v ≠ p.lines) (hrecord : v ≠ p.record) :
    (Reading.start.reads (front ++ (recordsText qs ++ v))).heard = qs.map SentPing.heard := by
  rw [heard_piece hfront, heard_reads_of_prefix _ hv hne hcookie hlines hrecord, heard_start_after]

/-- A piece that ends behind the second line of a record. -/
theorem heard_piece_lines (hfront : front = [] ∨ front = crlf) :
    (Reading.start.reads (front ++ (recordsText qs ++ p.lines))).heard =
      (qs ++ [p]).map SentPing.heard := by
  rw [heard_piece hfront, Reading.heard_reads_lines, heard_start_after, List.map_append]
  rfl

/-- A piece that ends behind a record records it twice. -/
theorem heard_piece_nil (hfront : front = [] ∨ front = crlf) :
    (Reading.start.reads (front ++ (recordsText (qs ++ [p]) ++ []))).heard =
      (qs ++ [p]).map SentPing.heard ++ [p.heard] := by
  rw [heard_piece hfront, Reading.reads_nil, Reading.after_concat,
    Reading.part_nil_of_ne _ p.cookie_ne p.time_ne]
  rfl

/-- A piece that ends behind the first line of a record, with no record in front. -/
theorem heard_cookieLine (hfront : front = [] ∨ front = crlf) :
    (Reading.start.reads (front ++ (recordsText [] ++ cookieLine p.cookie))).heard = [] := by
  rw [heard_piece hfront, Reading.reads_cookieLine, Reading.part_nil_of_eq _ (.inr rfl)]
  rfl

/-- A piece that ends behind the first line of a record, with a record in front, records its cookie
with the time of that one. -/
theorem heard_piece_cookieLine {q : SentPing} (hfront : front = [] ∨ front = crlf) :
    (Reading.start.reads (front ++ (recordsText (qs ++ [q]) ++ cookieLine p.cookie))).heard =
      (qs ++ [q]).map SentPing.heard ++ [⟨p.cookie, q.time⟩] := by
  rw [heard_piece hfront, Reading.reads_cookieLine, Reading.after_concat,
    Reading.part_nil_of_ne _ p.cookie_ne q.time_ne]
  rfl

/-- The pieces of an incomplete record behind its first bytes. -/
theorem heard_behind (hclean : Clean us) (hflat : v ++ us.flatten = tail) (hne : v ≠ [])
    (htail : tail <+: next.record) :
    (∀ u ∈ us, u.length < bufSize) ∧ us.flatMap heardIn = [] := by
  obtain ⟨rest, hrest⟩ := htail
  obtain ⟨b, v, rfl⟩ := List.exists_cons_of_ne_nil hne
  have hrecord : next.record.tail = v ++ (us.flatten ++ rest) := by
    rw [← hrest, ← hflat]
    simp
  have hwithin : ∀ u ∈ us, u <:+: next.record.tail := by
    intro u hu
    rw [hrecord]
    have hus : u <:+: us.flatten := List.infix_of_mem_flatten hu
    exact hus.trans ⟨v, rest, by simp⟩
  constructor
  · intro u hu
    have hle := (hwithin u hu).length_le
    have hlength := length_record_le next
    rw [List.length_tail] at hle
    unfold bufSize
    omega
  · rw [List.flatMap_eq_nil_iff]
    intro u hu
    rw [heardIn_eq (hclean u hu).1 (hclean u hu).2, List.eq_nil_iff_forall_not_mem]
    intro h hh
    exact absurd (heard_reads_within rfl (hwithin u hu) hh) (by simp [Reading.start])

/-- The pieces of an incomplete record. -/
theorem heard_incomplete (hclean : Clean us) (hflat : us.flatten = tail)
    (htail : tail <+: next.record)
    (hrest : tail ≠ next.record) (hlines : us.head? ≠ some next.lines) :
    (∀ u ∈ us, u.length < bufSize) ∧ us.flatMap heardIn = [] := by
  cases us with
  | nil => simp
  | cons u us =>
    obtain ⟨⟨hne, hnul⟩, hus⟩ := List.forall_mem_cons.mp hclean
    rw [List.flatten_cons] at hflat
    obtain ⟨hlength, hheard⟩ := heard_behind hus hflat hne htail
    have hu : u <+: tail := ⟨us.flatten, hflat⟩
    have hrecord : u ≠ next.record := by
      rintro rfl
      exact hrest (htail.eq_of_length_le hu.length_le)
    have hnone : heardIn u = [] := by
      have hpiece : u = [] ++ (recordsText [] ++ u) := by
        rw [recordsText_nil, List.nil_append, List.nil_append]
      rw [heardIn_eq hne hnul, hpiece]
      by_cases hcookie : u = cookieLine next.cookie
      · rw [hcookie]
        exact heard_cookieLine (.inl rfl)
      · have hlines : u ≠ next.lines := fun heq => hlines (by rw [heq]; rfl)
        exact heard_piece_within (.inl rfl) (hu.trans htail) hne hcookie hlines hrecord
    refine ⟨List.forall_mem_cons.mpr ⟨?_, hlength⟩, by rw [List.flatMap_cons, hnone, hheard]; rfl⟩
    have hle := (hu.trans htail).length_le
    have hmax := length_record_le next
    unfold bufSize
    omega

/-- The line end behind the second line. -/
theorem flatten_behind_records {qs ps : List SentPing}
    (h : (recordsText qs ++ p.lines) ++ us.flatten = recordsText (qs ++ p :: ps) ++ tail) :
    us.flatten = crlf ++ (recordsText ps ++ tail) := by
  rw [recordsText_append, recordsText_cons, p.record_eq_lines] at h
  simp only [List.append_assoc] at h
  exact List.append_cancel_left (List.append_cancel_left h)

/-- A stream that is cut fairly is recorded. -/
theorem heard_of_fair (hfair : Fair next front records us) (hclean : Clean us)
    (htail : tail <+: next.record)
    (hrest : tail ≠ next.record) (hflat : us.flatten = front ++ (recordsText records ++ tail)) :
    (∀ u ∈ us, u.length < bufSize) ∧ us.flatMap heardIn = records.map SentPing.heard := by
  induction hfair with
  | incomplete hlines => exact heard_incomplete hclean hflat htail hrest hlines
  | separator hus ih =>
    obtain ⟨-, hclean⟩ := List.forall_mem_cons.mp hclean
    obtain ⟨hlength, hheard⟩ := ih hclean (List.append_cancel_left hflat)
    have hnone : heardIn crlf = [] := by decide
    exact ⟨List.forall_mem_cons.mpr ⟨by decide, hlength⟩,
      by rw [List.flatMap_cons, hnone, hheard]; rfl⟩
  | half hus ih =>
    obtain ⟨-, hclean⟩ := List.forall_mem_cons.mp hclean
    obtain ⟨hlength, hheard⟩ := ih hclean (List.cons.inj hflat).2
    have hnone : heardIn [cr] = [] := by decide
    exact ⟨List.forall_mem_cons.mpr ⟨by decide, hlength⟩,
      by rw [List.flatMap_cons, hnone, hheard]; rfl⟩
  | otherHalf hus ih =>
    obtain ⟨-, hclean⟩ := List.forall_mem_cons.mp hclean
    obtain ⟨hlength, hheard⟩ := ih hclean (List.cons.inj hflat).2
    have hnone : heardIn [lf] = [] := by decide
    exact ⟨List.forall_mem_cons.mpr ⟨by decide, hlength⟩,
      by rw [List.flatMap_cons, hnone, hheard]; rfl⟩
  | records hfront hu hus ih =>
    obtain ⟨⟨hne, hnul⟩, hclean⟩ := List.forall_mem_cons.mp hclean
    rw [List.flatten_cons, List.append_assoc] at hflat
    obtain ⟨hlength, hheard⟩ := ih hclean (flatten_behind_records (List.append_cancel_left hflat))
    refine ⟨List.forall_mem_cons.mpr ⟨hu, hlength⟩, ?_⟩
    rw [List.flatMap_cons, heardIn_eq hne hnul, heard_piece_lines hfront, hheard, ← List.map_append,
      List.append_assoc]
    rfl
  | @last front records v us hfront hu hv hcookie hlines =>
    obtain ⟨⟨hne, hnul⟩, hclean⟩ := List.forall_mem_cons.mp hclean
    have hbehind : v ++ us.flatten = tail := by
      rw [List.flatten_cons] at hflat
      simp only [List.append_assoc] at hflat
      exact List.append_cancel_left (List.append_cancel_left hflat)
    have hbegins : v <+: tail := ⟨us.flatten, hbehind⟩
    have hrecord : v ≠ next.record := by
      rintro rfl
      exact hrest (htail.eq_of_length_le hbegins.length_le)
    obtain ⟨hlength, hheard⟩ := heard_behind hclean hbehind hv htail
    refine ⟨List.forall_mem_cons.mpr ⟨hu, hlength⟩, ?_⟩
    have hpiece : heardIn (front ++ (recordsText records ++ v)) = records.map SentPing.heard := by
      rw [heardIn_eq hne hnul]
      by_cases heq : v = cookieLine next.cookie
      · obtain rfl := hcookie.resolve_right (not_not.mpr heq)
        rw [heq]
        exact heard_cookieLine hfront
      · exact heard_piece_within hfront (hbegins.trans htail) hv heq hlines hrecord
    rw [List.flatMap_cons, hpiece, hheard, List.append_nil]
  | @lastHalf v us hv =>
    obtain ⟨⟨hne, hnul⟩, hclean⟩ := List.forall_mem_cons.mp hclean
    have hbehind : v ++ us.flatten = tail := (List.cons.inj hflat).2
    have hbegins : v <+: tail := ⟨us.flatten, hbehind⟩
    obtain ⟨hlength, hheard⟩ := heard_behind hclean hbehind hv htail
    refine ⟨List.forall_mem_cons.mpr ⟨?_, hlength⟩, ?_⟩
    · have hle := (hbegins.trans htail).length_le
      have hmax := length_record_le next
      rw [List.length_cons]
      unfold bufSize
      omega
    · have hpiece : heardIn (lf :: v) = [] := by
        rw [heardIn_eq hne hnul, List.eq_nil_iff_forall_not_mem]
        intro h hh
        have hrecord : v <+: next.record ++ [] := by
          rw [List.append_nil]
          exact hbegins.trans htail
        rcases cookieStands_of_mem_heard_lf rfl hrecord hh with hstart | hstands
        · simp [Reading.start] at hstart
        · exact not_cookieStands_nil _ hstands
      rw [List.flatMap_cons, hpiece, hheard]
      rfl

/-! ## Pings that can be told from each other -/

/-- No two pings have the same cookie, the incomplete one included, and no two complete ones the
same time. -/
structure Telling (records : List SentPing) (next : SentPing) : Prop where
  cookies : ((records ++ [next]).map SentPing.cookie).Nodup
  times : (records.map SentPing.time).Nodup

/-- The cookie of a ping is not that of a later one. -/
theorem Telling.cookie_ne {ps : List SentPing} (h : Telling (qs ++ p :: ps) next) :
    ∀ q ∈ ps ++ [next], p.cookie ≠ q.cookie := by
  intro q hq heq
  have hnodup := h.cookies
  rw [List.append_assoc, List.cons_append, List.map_append, List.map_cons] at hnodup
  have hlater := (List.nodup_cons.mp (List.nodup_append.mp hnodup).2.1).1
  exact hlater (heq ▸ List.mem_map_of_mem hq)

/-- Neither the cookie nor the time of a ping is that of the one before. -/
theorem Telling.ne_before {q : SentPing} {ps : List SentPing}
    (h : Telling (qs ++ [q] ++ p :: ps) next) :
    q.cookie ≠ p.cookie ∧ q.time ≠ p.time := by
  have hassoc : qs ++ [q] ++ p :: ps = qs ++ q :: (p :: ps) := by simp
  rw [hassoc] at h
  refine ⟨h.cookie_ne p (by simp), fun heq => ?_⟩
  have hnodup := h.times
  rw [List.map_append, List.map_cons] at hnodup
  have hlater := (List.nodup_cons.mp (List.nodup_append.mp hnodup).2.1).1
  exact hlater (by rw [heq, List.map_cons]; exact List.mem_cons_self)

/-- Later records tell as much. -/
theorem Telling.later {ps : List SentPing} (h : Telling (qs ++ p :: ps) next) :
    Telling ps next := by
  have hsub : ps.Sublist (qs ++ p :: ps) :=
    (List.sublist_cons_self p ps).trans (List.sublist_append_right qs (p :: ps))
  refine ⟨h.cookies.sublist ?_, h.times.sublist (hsub.map _)⟩
  exact (hsub.append_right [next]).map _

/-- A beginning of the stream ends in a complete record or behind all of them. -/
theorem prefix_recordsText (h : w <+: recordsText records ++ tail) :
    (∃ v, w = recordsText records ++ v ∧ v <+: tail) ∨
      ∃ qs p ps v, records = qs ++ p :: ps ∧ w = recordsText qs ++ v ∧ v <+: p.record ∧
      v ≠ p.record := by
  induction records generalizing w with
  | nil => exact .inl ⟨w, rfl, h⟩
  | cons p ps ih =>
    rw [recordsText_cons, List.append_assoc] at h
    have hbehind : ∀ w', w = p.record ++ w' → w' <+: recordsText ps ++ tail →
        (∃ v, w = recordsText (p :: ps) ++ v ∧ v <+: tail) ∨
          ∃ qs p' ps' v, p :: ps = qs ++ p' :: ps' ∧ w = recordsText qs ++ v ∧ v <+: p'.record ∧
            v ≠ p'.record := by
      rintro w' rfl hw'
      rcases ih hw' with ⟨v, rfl, hv⟩ | ⟨qs, p', ps', v, rfl, rfl, hv⟩
      · exact .inl ⟨v, by rw [recordsText_cons, List.append_assoc], hv⟩
      · exact .inr ⟨p :: qs, p', ps', v, rfl, by rw [recordsText_cons, List.append_assoc], hv⟩
    rcases prefix_append_cases h with hshort | ⟨w', -, rfl, hw'⟩
    · by_cases heq : w = p.record
      · exact hbehind [] (by rw [heq, List.append_nil]) List.nil_prefix
      · exact .inr ⟨[], p, ps, w, rfl, rfl, hshort, heq⟩
    · exact hbehind w' rfl hw'

/-- A ping whose first byte has been received is not heard in the pieces that follow. -/
theorem not_mem_heard_behind {ps : List SentPing} (hclean : Clean us)
    (hflat : v ++ us.flatten = p.record ++ (recordsText ps ++ tail)) (hne : v ≠ [])
    (htail : tail <+: next.record) (htelling : ∀ q ∈ ps ++ [next], p.cookie ≠ q.cookie) :
    p.heard ∉ us.flatMap heardIn := by
  intro hmem
  obtain ⟨u, hu, hh⟩ := List.mem_flatMap.mp hmem
  obtain ⟨b, v, rfl⟩ := List.exists_cons_of_ne_nil hne
  have hrecord : p.record ≠ [] := by
    rw [p.record_eq]
    exact List.append_ne_nil_of_left_ne_nil (List.append_ne_nil_of_left_ne_nil (by decide) _) _
  obtain ⟨c, front, hfront⟩ := List.exists_cons_of_ne_nil hrecord
  have hwithin : u <:+: p.record.tail ++ (recordsText ps ++ tail) := by
    rw [hfront] at hflat ⊢
    have hbehind : v ++ us.flatten = front ++ (recordsText ps ++ tail) := (List.cons.inj hflat).2
    rw [List.tail_cons, ← hbehind]
    exact (List.infix_of_mem_flatten hu).trans (List.suffix_append _ _).isInfix
  rw [heardIn_eq (hclean u hu).1 (hclean u hu).2] at hh
  rcases cookieStands_of_mem_heard rfl List.suffix_rfl hwithin hh with hstart | hstands
  · simp [Reading.start] at hstart
  · obtain ⟨q, hq, heq⟩ := hstands.exists_mem htail
    exact htelling q hq heq

/-- What is heard cannot go on with something else than the next ping. -/
theorem cons_inj_of_append {α β : Type*} {f : α → β} {qs : List α} {x : β} {xs ys zs : List β}
    (h : (qs.map f ++ x :: xs) ++ ys = qs.map f ++ zs) : x :: (xs ++ ys) = zs := by
  rw [List.append_assoc] at h
  exact List.append_cancel_left h

/-- A piece that ends behind all complete records, when nothing else is heard in it. -/
theorem fair_last {rest : List Heard} (hfront : front = [] ∨ front = crlf)
    (hw : recordsText records ++ v ≠ [])
    (hlength : (front ++ (recordsText records ++ v)).length < bufSize)
    (hheard : (Reading.start.reads (front ++ (recordsText records ++ v))).heard ++ rest =
      records.map SentPing.heard) :
    Fair next front records ((front ++ (recordsText records ++ v)) :: us) := by
  have hcount := congrArg List.length hheard
  have hlines : v ≠ next.lines := by
    rintro rfl
    rw [heard_piece_lines hfront] at hcount
    simp at hcount
  rcases List.eq_nil_or_concat' records with rfl | ⟨rs, q, rfl⟩
  · exact .last hfront hlength hw (.inl rfl) hlines
  · have hne : v ≠ [] := by
      rintro rfl
      rw [heard_piece_nil hfront] at hcount
      simp at hcount
    have hcookie : v ≠ cookieLine next.cookie := by
      rintro rfl
      rw [heard_piece_cookieLine hfront] at hcount
      simp at hcount
    exact .last hfront hlength hne (.inr hcookie) hlines

/-- A piece that ends inside of the record of the ping which comes next: this is heard in time only
if the piece ends behind its second line. -/
theorem lines_of_heard {ps : List SentPing} {rest : List Heard} (hfront : front = [] ∨ front = crlf)
    (hw : recordsText qs ++ v ≠ []) (hv : v <+: p.record) (hrecord : v ≠ p.record)
    (htelling : Telling (qs ++ p :: ps) next)
    (hheard : (Reading.start.reads (front ++ (recordsText qs ++ v))).heard ++ rest =
      (qs ++ p :: ps).map SentPing.heard)
    (hlater : v ≠ [] → p.heard ∉ rest) : v = p.lines := by
  by_contra hlines
  rw [List.map_append, List.map_cons] at hheard
  -- Without an entry for `p` in this piece, it would have to be heard later.
  have hsilent : v ≠ [] →
      (Reading.start.reads (front ++ (recordsText qs ++ v))).heard ≠ qs.map SentPing.heard := by
    intro hne hnothing
    rw [hnothing] at hheard
    apply hlater hne
    rw [List.append_cancel_left hheard]
    exact List.mem_cons_self
  rcases List.eq_nil_or_concat' qs with rfl | ⟨rs, q, rfl⟩
  · by_cases hcookie : v = cookieLine p.cookie
    · exact hsilent hw (by rw [hcookie]; exact heard_cookieLine hfront)
    · exact hsilent hw (heard_piece_within hfront hv hw hcookie hlines hrecord)
  · obtain ⟨hcookies, htimes⟩ := htelling.ne_before
    by_cases hne : v = []
    · rw [hne, heard_piece_nil hfront] at hheard
      have hsame := (List.cons.inj (cons_inj_of_append hheard)).1
      exact hcookies (congrArg Heard.cookie hsame)
    · by_cases hcookie : v = cookieLine p.cookie
      · rw [hcookie, heard_piece_cookieLine hfront] at hheard
        have hsame := (List.cons.inj (cons_inj_of_append hheard)).1
        exact htimes (congrArg Heard.sentTime hsame)
      · exact hsilent hne (heard_piece_within hfront hv hne hcookie hlines hrecord)

/-- A piece that goes on behind what is left of a line end. -/
theorem fair_piece (hfront : front = [] ∨ front = crlf) (hw : w ≠ [])
    (hclean : Clean ((front ++ w) :: us))
    (htail : tail <+: next.record) (hflat : w ++ us.flatten = recordsText records ++ tail)
    (hlength : (front ++ w).length < bufSize)
    (hheard : heardIn (front ++ w) ++ us.flatMap heardIn = records.map SentPing.heard)
    (htelling : Telling records next)
    (ih : ∀ ps, us.flatten = crlf ++ (recordsText ps ++ tail) →
      us.flatMap heardIn = ps.map SentPing.heard →
      Telling ps next → Fair next crlf ps us) :
    Fair next front records ((front ++ w) :: us) := by
  obtain ⟨⟨hne, hnul⟩, hus⟩ := List.forall_mem_cons.mp hclean
  rw [heardIn_eq hne hnul] at hheard
  rcases prefix_recordsText ⟨us.flatten, hflat⟩ with ⟨v, rfl, -⟩ |
      ⟨qs, p, ps, v, rfl, rfl, hv, hrecord⟩
  · exact fair_last hfront hw hlength hheard
  · have hlater : v ≠ [] → p.heard ∉ us.flatMap heardIn := by
      intro hne
      rw [recordsText_append, recordsText_cons, List.append_assoc, List.append_assoc] at hflat
      refine not_mem_heard_behind hus ?_ hne htail htelling.cookie_ne
      rw [List.append_cancel_left hflat, List.append_assoc]
    obtain rfl := lines_of_heard hfront hw hv hrecord htelling hheard hlater
    rw [heard_piece_lines hfront, List.map_append, List.map_append] at hheard
    have hrest := (List.cons.inj (cons_inj_of_append hheard)).2
    exact .records hfront hlength (ih ps (flatten_behind_records hflat) hrest htelling.later)

theorem record_ne_nil (p : SentPing) : p.record ≠ [] := by
  rw [p.record_eq]
  exact List.append_ne_nil_of_left_ne_nil (List.append_ne_nil_of_left_ne_nil (by decide) _) _

/-- A piece that begins with half of a line end and goes on: behind it no complete record is
left. -/
theorem fair_half (hv : v ≠ []) (hclean : Clean ((lf :: v) :: us)) (htail : tail <+: next.record)
    (hflat : v ++ us.flatten = recordsText records ++ tail)
    (hheard : heardIn (lf :: v) ++ us.flatMap heardIn = records.map SentPing.heard)
    (htelling : Telling records next) : Fair next [lf] records ((lf :: v) :: us) := by
  obtain ⟨⟨hne, hnul⟩, hus⟩ := List.forall_mem_cons.mp hclean
  cases records with
  | nil => exact .lastHalf hv
  | cons p ps =>
    exfalso
    rw [recordsText_cons, List.append_assoc] at hflat
    have hlater : ∀ q ∈ ps ++ [next], p.cookie ≠ q.cookie := @Telling.cookie_ne _ _ [] _ htelling
    have hmem : p.heard ∈ heardIn (lf :: v) ++ us.flatMap heardIn := by
      rw [hheard]
      exact List.mem_cons_self
    rcases List.mem_append.mp hmem with hfirst | hrest
    · rw [heardIn_eq hne hnul] at hfirst
      rcases cookieStands_of_mem_heard_lf rfl ⟨us.flatten, hflat⟩ hfirst with hstart | hstands
      · simp [Reading.start] at hstart
      · obtain ⟨q, hq, heq⟩ := hstands.exists_mem htail
        exact hlater q hq heq
    · exact not_mem_heard_behind hus hflat hv htail hlater hrest

/-- A stream of pings that can be told from each other is recorded only when it is cut fairly. -/
theorem fair_of_heard (hfront : front = [] ∨ front = crlf ∨ front = [lf]) (hclean : Clean us)
    (htail : tail <+: next.record) (hflat : us.flatten = front ++ (recordsText records ++ tail))
    (hlength : ∀ u ∈ us, u.length < bufSize)
    (hheard : us.flatMap heardIn = records.map SentPing.heard)
    (htelling : Telling records next) : Fair next front records us := by
  induction us generalizing front records with
  | nil =>
    obtain ⟨rfl, hrecords⟩ := List.append_eq_nil_iff.mp hflat.symm
    cases records with
    | nil => exact .incomplete (by simp)
    | cons p ps =>
      rw [recordsText_cons, List.append_assoc] at hrecords
      exact absurd (List.append_eq_nil_iff.mp hrecords).1 (record_ne_nil p)
  | cons u us ih =>
    obtain ⟨⟨hne, -⟩, hus⟩ := List.forall_mem_cons.mp hclean
    obtain ⟨hu, hrest⟩ := List.forall_mem_cons.mp hlength
    rw [List.flatten_cons] at hflat
    rw [List.flatMap_cons] at hheard
    have hih : ∀ {front records}, front = [] ∨ front = crlf ∨ front = [lf] →
        us.flatten = front ++ (recordsText records ++ tail) →
        us.flatMap heardIn = records.map SentPing.heard → Telling records next →
        Fair next front records us :=
      fun hfront hflat hheard htelling => ih hfront hus hflat hrest hheard htelling
    rcases hfront with rfl | rfl | rfl
    · have hfair : Fair next [] records (([] ++ u) :: us) :=
        fair_piece (.inl rfl) hne hclean htail hflat hu
        hheard htelling fun ps => hih (.inr (.inl rfl))
      exact hfair
    · rcases prefix_append_cases ⟨us.flatten, hflat⟩ with hshort | ⟨w, hw, rfl, -⟩
      · have hcases : u = [cr] ∨ u = crlf := by
          rcases prefix_line_cases (l := []) (s := []) hshort with hcr | ⟨w, rfl, hw⟩
          · rcases List.prefix_cons_iff.mp hcr with rfl | ⟨w, rfl, hw⟩
            · exact absurd rfl hne
            · rw [List.prefix_nil.mp hw]
              exact .inl rfl
          · rw [List.prefix_nil.mp hw]
            exact .inr rfl
        rcases hcases with rfl | rfl
        · have hnone : heardIn [cr] = [] := by decide
          rw [hnone] at hheard
          exact .half (hih (.inr (.inr rfl)) (List.cons.inj hflat).2 hheard htelling)
        · have hnone : heardIn crlf = [] := by decide
          rw [hnone] at hheard
          exact .separator (hih (.inl rfl) (List.append_cancel_left hflat) hheard htelling)
      · rw [List.append_assoc] at hflat
        exact fair_piece (.inr rfl) hw hclean htail
          (List.append_cancel_left hflat) hu hheard htelling
          fun ps => hih (.inr (.inl rfl))
    · obtain ⟨b, v, rfl⟩ := List.exists_cons_of_ne_nil hne
      obtain ⟨rfl, hbehind⟩ : b = lf ∧ v ++ us.flatten = recordsText records ++ tail :=
        List.cons.inj hflat
      by_cases hv : v = []
      · subst hv
        have hnone : heardIn [lf] = [] := by decide
        rw [hnone] at hheard
        exact .otherHalf (hih (.inl rfl) hbehind hheard htelling)
      · exact fair_half hv hclean htail hbehind hheard htelling

/-! ## Runs over a stream -/

/-- The pieces of a stream of pings are clean. -/
theorem clean_of_flatten (hne : ∀ u ∈ us, u ≠ []) (htail : tail <+: next.record)
    (hflat : us.flatten = recordsText records ++ tail) : Clean us := by
  intro u hu
  refine ⟨hne u hu, fun b hb => ?_⟩
  have hmem : b ∈ recordsText records ++ tail := by
    rw [← hflat]
    exact List.mem_flatten.mpr ⟨u, hu, hb⟩
  rcases List.mem_append.mp hmem with hrecords | hnext
  · obtain ⟨r, hr, hb⟩ := List.mem_flatten.mp hrecords
    obtain ⟨p, -, rfl⟩ := List.mem_map.mp hr
    exact p.ne_zero_of_mem_record hb
  · exact next.ne_zero_of_mem_record (htail.subset hnext)

/-- What is received is not empty. -/
theorem ne_nil_of_mem_received {listening : Int} : ∀ u ∈ received listening inputs, u ≠ [] := by
  intro u hu
  obtain ⟨i, -, hi⟩ := List.mem_filterMap.mp hu
  unfold PingInput.bytes at hi
  split_ifs at hi
  split at hi
  · cases hi
  · cases hi
  · rw [← Option.some.inj hi]
    exact List.cons_ne_nil _ _

/-- However a stream of complete pings with an incomplete one behind them arrives, each of the
complete ones is recorded once, in order, if the stream is cut fairly; and only then, if the pings
can be told from each other. -/
theorem recorded_iff_fair {n : ℕ} (hn : n < next.record.length)
    (hflat : (received ps.sockd inputs).flatten = recordsText records ++ next.record.take n) :
    (Fair next [] records (received ps.sockd inputs) → Recorded ps inputs records) ∧
      (Telling records next →
        (Recorded ps inputs records ↔ Fair next [] records (received ps.sockd inputs))) := by
  have htail : next.record.take n <+: next.record := List.take_prefix n _
  have hrest : next.record.take n ≠ next.record := by
    intro heq
    have hlength := congrArg List.length heq
    rw [List.length_take, Nat.min_eq_left (Nat.le_of_lt hn)] at hlength
    exact (Nat.ne_of_lt hn) hlength
  have hclean := clean_of_flatten ne_nil_of_mem_received htail hflat
  have hfair : Fair next [] records (received ps.sockd inputs) → Recorded ps inputs records :=
    fun hfair => recorded_iff.mpr (heard_of_fair hfair hclean htail hrest hflat)
  refine ⟨hfair, fun htelling => ⟨fun hrecorded => ?_, hfair⟩⟩
  obtain ⟨hlength, hheard⟩ := recorded_iff.mp hrecorded
  exact fair_of_heard (.inl rfl) hclean htail hflat hlength hheard htelling

/-- A server that listens at descriptor 3. -/
def server : PingServer where
  sockd := 3
  pings := []

/-- Some bytes arrive on its connection at descriptor 7. -/
def arrive (bytes : Bytes) : PingInput where
  sockd := 7
  accepts := []
  received := .ok bytes
  now := 9

theorem cookie_ne_zero (n : Fin 9) : UInt32.ofNat (n.val + 1) ≠ 0 := by
  revert n
  decide

theorem time_ne_zero (n : Fin 9) : UInt64.ofNat (n.val + 1) ≠ 0 := by
  revert n
  decide

/-- Some pings with different numbers. -/
def ping (n : Fin 9) : SentPing where
  cookie := .ofNat (n.val + 1)
  time := .ofNat (n.val + 1)
  cookie_ne := cookie_ne_zero n
  time_ne := time_ne_zero n

/-- Two pings, cut in front of the last line end. -/
def cutFairly : List PingInput := [arrive ((ping 1).record ++ (ping 2).lines), arrive crlf]

/-- They are recorded. -/
theorem recorded_iff_fair_two :
    Recorded server cutFairly [ping 1, ping 2] ∧
      (Recorded server cutFairly [ping 1, ping 2] ↔
        Fair (ping 3) [] [ping 1, ping 2] (received server.sockd cutFairly)) := by
  have hreceived : received server.sockd cutFairly =
      [[] ++ (recordsText [ping 1] ++ (ping 2).lines), crlf] := by decide +kernel
  have hfair : Fair (ping 3) [] [ping 1, ping 2] (received server.sockd cutFairly) := by
    have hrest : Fair (ping 3) crlf [] [crlf] := .separator (.incomplete (by simp))
    have hlength : ([] ++ (recordsText [ping 1] ++ (ping 2).lines)).length < bufSize := by
      decide +kernel
    have hsplit : [ping 1, ping 2] = [ping 1] ++ ping 2 :: [] := rfl
    rw [hreceived, hsplit]
    exact .records (.inl rfl) hlength hrest
  have htelling : Telling [ping 1, ping 2] (ping 3) := ⟨by decide, by decide⟩
  have hflat : (received server.sockd cutFairly).flatten =
      recordsText [ping 1, ping 2] ++ (ping 3).record.take 0 := by
    decide +kernel
  obtain ⟨hrecorded, hiff⟩ := recorded_iff_fair (by decide +kernel) hflat
  exact ⟨hrecorded hfair, hiff htelling⟩

/-- A ping that arrives whole is recorded twice. -/
theorem not_recorded_whole :
    ¬∀ (ps : PingServer) (inputs : List PingInput) (records : List SentPing) (next : SentPing)
    (n : ℕ),
      n < next.record.length → (∀ u ∈ received ps.sockd inputs, u.length ≤ bufSize) →
        (received ps.sockd inputs).flatten = recordsText records ++ next.record.take n →
          Recorded ps inputs records := by
  intro hall
  have hrecorded := hall server [arrive (ping 1).record] [ping 1] (ping 1) 0 (by decide +kernel)
    (by decide +kernel) (by decide +kernel)
  have htwice : (received server.sockd [arrive (ping 1).record]).flatMap heardIn =
      [(ping 1).heard, (ping 1).heard] := by decide +kernel
  have honce := (recorded_iff.mp hrecorded).2
  rw [htwice] at honce
  cases honce

/-! ## One ping -/

/-- The loop appends copies of the record until there is enough. -/
theorem appendPings_eq {record : Bytes} (hrecord : record ≠ []) {pingSize rounds : ℕ} {buf : Bytes}
    (hrounds : pingSize ≤ buf.length + rounds) :
    ∃ copies, appendPings record pingSize rounds buf =
      buf ++ (List.replicate copies record).flatten ∧
      pingSize ≤ (buf ++ (List.replicate copies record).flatten).length := by
  induction rounds generalizing buf with
  | zero => exact ⟨0, by simp [appendPings], by simpa using hrounds⟩
  | succ rounds ih =>
    rw [appendPings]
    split
    · have hpos := List.length_pos_iff.mpr hrecord
      have hmore : pingSize ≤ (buf ++ record).length + rounds := by
        rw [List.length_append]
        omega
      obtain ⟨copies, heq, hlength⟩ := ih hmore
      refine ⟨copies + 1, ?_, ?_⟩
      · rw [heq, List.replicate_succ, List.flatten_cons, List.append_assoc]
      · rw [List.replicate_succ, List.flatten_cons, ← List.append_assoc]
        exact hlength
    · rename_i henough
      exact ⟨0, by simp, by simpa using henough⟩

/-- The first bytes of copies of a text are whole copies and the beginning of another one. -/
theorem take_flatten_replicate {α : Type*} {l : List α} (hl : l ≠ []) {copies k : ℕ}
    (hk : k ≤ copies * l.length) :
    (List.replicate copies l).flatten.take k =
      (List.replicate (k / l.length) l).flatten ++ l.take (k % l.length) := by
  have hpos := List.length_pos_iff.mpr hl
  have hdiv := Nat.div_add_mod' k l.length
  have hlength : (List.replicate (k / l.length) l).flatten.length = k / l.length * l.length := by
    rw [List.length_flatten, List.map_replicate, List.sum_replicate, smul_eq_mul]
  have hle : k / l.length ≤ copies := Nat.div_le_of_le_mul (by rwa [Nat.mul_comm])
  obtain ⟨more, rfl⟩ := Nat.exists_eq_add_of_le hle
  have hrest : k - (List.replicate (k / l.length) l).flatten.length = k % l.length := by
    rw [hlength]
    omega
  rw [List.replicate_add, List.flatten_append, List.take_append, hrest,
    List.take_of_length_le (by rw [hlength]; omega)]
  congr 1
  cases more with
  | zero =>
    have hmod : k % l.length = 0 := by
      rw [Nat.add_zero] at hk
      omega
    simp [hmod]
  | succ more =>
    rw [List.replicate_succ, List.flatten_cons,
      List.take_append_of_le_length (Nat.le_of_lt (Nat.mod_lt k hpos))]

/-- A message of the client is a stream of complete records of one ping, with an incomplete one
behind them. -/
theorem sendPing_eq (p : SentPing) (pingSize : ℕ) :
    sendPing p.cookie p.time pingSize =
      recordsText (List.replicate (pingSize / p.record.length) p) ++
        p.record.take (pingSize % p.record.length) := by
  obtain ⟨copies, heq, hlength⟩ :=
    appendPings_eq (record_ne_nil p) (Nat.le_add_left pingSize ([] : Bytes).length)
  have henough : pingSize ≤ copies * p.record.length := by
    rw [List.nil_append, List.length_flatten, List.map_replicate, List.sum_replicate, smul_eq_mul]
      at hlength
    exact hlength
  have hrecord : pingRecord p.cookie p.time = p.record := rfl
  rw [sendPing, hrecord, heq, List.nil_append, take_flatten_replicate (record_ne_nil p) henough,
    recordsText, List.map_replicate]

end ShadowExtras.Ping
