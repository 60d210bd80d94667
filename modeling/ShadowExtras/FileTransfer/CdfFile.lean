import Mathlib.Data.List.DropRight
import ShadowExtras.Foundation.Bytes
import ShadowExtras.FileTransfer.Cdf

/-!
# The file of a distribution

`cdf_parse` reads records with `fscanf(f, "%lf %lf\n", …)` up to the end of the file. A record is
two numbers; white space before, between and behind them is skipped, so the ends of lines do not
matter. When a record is malformed, the list of the records before it is freed, and returned all the
same. What `%lf` reads may be a nan, with which no comparison holds: `cdfentry_compare` then puts
the entry in front, and there is no order of the values.

How a number is written is left to a `Scanner`, and what the numbers other than nan are to a linear
order. `IsRecords` says what a file of records is, `AllOrNothing` what should be made of it. A file
of lines is one of records (`isRecords_flatten`), and without nan the distribution is the one of
`Cdf` (`newFromFile_eq_new`).
-/

namespace ShadowExtras.FileTransfer

open Foundation

/-- `%lf` behind white space: the number, none for a nan, and what is left of the text. -/
structure Scanner (α : Type*) where
  scan : Bytes → Option (Option α × Bytes)
  /-- A number has at least one character. -/
  consumes : ∀ {s x rest}, scan s = some (x, rest) → rest.length < s.length
  /-- White space ends a number. -/
  stops : ∀ {s b}, isSpace b = true → ∀ t,
    scan (s ++ b :: t) = (scan s).map fun r => (r.1, r.2 ++ b :: t)

/-- `CumulativeDistributionEntry` as it is read from a file; none is a nan. -/
structure FileEntry (α : Type*) where
  fraction : Option α
  value : Option α
  deriving DecidableEq, Repr

/-- `CumulativeDistribution` as it is made from a file. -/
structure FileDistribution (α : Type*) where
  entries : List (FileEntry α)
  /-- Was the list of entries freed? -/
  freed : Bool
  deriving DecidableEq, Repr

namespace FileEntry

variable {α : Type*} [LinearOrder α]

/-- `entryA->value > entryB->value` -/
def above (a b : FileEntry α) : Bool :=
  match a.value, b.value with
  | some x, some y => decide (y < x)
  | _, _ => false

/-- `entryA->value <= entryB->value` -/
def AtMost (a b : FileEntry α) : Prop := ∃ x ∈ a.value, ∃ y ∈ b.value, x ≤ y

/-- `g_list_insert_sorted` with `cdfentry_compare`: in front of the first entry that the new one is
not above. -/
def insert (entry : FileEntry α) (entries : List (FileEntry α)) : List (FileEntry α) :=
  entries.orderedInsert (fun a b => a.above b = false) entry

/-- Entries one after the other. -/
def insertAll (entries : List (FileEntry α)) : List (FileEntry α) :=
  entries.foldl (fun list entry => insert entry list) []

/-- An entry without a nan. -/
def ofEntry (entry : CumulativeDistributionEntry) : FileEntry ℚ where
  fraction := some entry.fraction
  value := some entry.value

end FileEntry

namespace CumulativeDistribution

variable {α : Type*}

/-- White space in a format. -/
def skipSpace (s : Bytes) : Bytes := s.dropWhile isSpace

/-- `fscanf(f, "%lf %lf\n", &(entry->value), &(entry->fraction))`: the entry and the rest of the
file, none if the result is not two. -/
def record (number : Scanner α) (s : Bytes) : Option (FileEntry α × Bytes) :=
  match number.scan (skipSpace s) with
  | none => none
  | some (value, s) =>
    match number.scan (skipSpace s) with
    | none => none
    | some (fraction, s) => some ({ fraction := fraction, value := value }, skipSpace s)

theorem length_skipSpace_le (s : Bytes) : (skipSpace s).length ≤ s.length :=
  (List.dropWhile_sublist _).length_le

/-- A record is two numbers, with white space in front of and behind each. -/
theorem record_eq_some {number : Scanner α} {s rest : Bytes} {entry : FileEntry α} :
    record number s = some (entry, rest) ↔
      ∃ s₁ s₂, number.scan (skipSpace s) = some (entry.value, s₁) ∧
      number.scan (skipSpace s₁) = some (entry.fraction, s₂) ∧ rest = skipSpace s₂ := by
  unfold record
  constructor
  · intro h
    split at h
    · cases h
    · rename_i value s₁ hvalue
      split at h
      · cases h
      · rename_i fraction s₂ hfraction
        obtain ⟨rfl, rfl⟩ := Prod.mk.inj (Option.some.inj h)
        exact ⟨s₁, s₂, hvalue, hfraction, by rfl⟩
  · rintro ⟨s₁, s₂, hvalue, hfraction, rfl⟩
    simp only [hvalue, hfraction]

/-- A record is taken off the text. -/
theorem length_record_lt {number : Scanner α} {s rest : Bytes} {entry : FileEntry α}
    (h : record number s = some (entry, rest)) : rest.length < s.length := by
  obtain ⟨s₁, s₂, hvalue, hfraction, rfl⟩ := record_eq_some.mp h
  have hfirst := number.consumes hvalue
  have hsecond := number.consumes hfraction
  have hs := length_skipSpace_le s
  have hs₁ := length_skipSpace_le s₁
  have hs₂ := length_skipSpace_le s₂
  omega

/-- The results of `fscanf` in the loop of `cdf_parse`, which ends at the end of the file or when
the result is not two. -/
def scans (number : Scanner α) (s : Bytes) : List (Option (FileEntry α)) :=
  match _h : record number s with
  | none => [none]
  | some (entry, rest) => some entry :: if rest = [] then [] else scans number rest
termination_by s.length
decreasing_by exact length_record_lt _h

section Files

variable [LinearOrder α]

/-- The loop of `cdf_parse`, for the results of `fscanf`. A malformed record frees the list, and the
list is returned all the same. -/
def parseFile (entries : List (FileEntry α)) : List (Option (FileEntry α)) → FileDistribution α
  | [] => { entries := entries, freed := false }
  | none :: _ => { entries := entries, freed := true }
  | some entry :: scans => parseFile (entry.insert entries) scans

/-- `cdf_new` of a file that can be opened. -/
def newFromFile (number : Scanner α) (s : Bytes) : Option (FileDistribution α) :=
  let cdf := parseFile [] (scans number s)
  if cdf.entries = [] then none else some cdf

end Files

/-! ## Files of records -/

/-- The text is a list of records. -/
inductive IsRecords (number : Scanner α) : Bytes → List (FileEntry α) → Prop
  | blank {s} : skipSpace s = [] → IsRecords number s []
  | record {s entry rest entries} : record number s = some (entry, rest) →
      IsRecords number rest entries →
      IsRecords number s (entry :: entries)

/-- A file of records gives all of them, sorted by their values, and any other file gives
nothing. -/
structure AllOrNothing [LinearOrder α] (number : Scanner α) (s : Bytes) : Prop where
  all : ∀ entries, IsRecords number s entries → entries ≠ [] →
    ∃ cdf, newFromFile number s = some cdf ∧
    cdf.entries.Perm entries ∧ cdf.entries.Pairwise FileEntry.AtMost
  nothing : (¬∃ entries, entries ≠ [] ∧ IsRecords number s entries) → newFromFile number s = none
  /-- What is returned was not freed. -/
  kept : ∀ cdf, newFromFile number s = some cdf → cdf.freed = false

/-- The values have an order: none of them is a nan, unless there is one only. -/
def Ordered (entries : List (FileEntry α)) : Prop :=
  entries.length ≤ 1 ∨ ∀ entry ∈ entries, entry.value ≠ none

variable {number : Scanner α} {s t rest : Bytes} {entry : FileEntry α}
    {entries : List (FileEntry α)}

/-- There is no number in an empty text. -/
theorem scan_nil (number : Scanner α) : number.scan [] = none := by
  cases h : number.scan [] with
  | none => rfl
  | some r =>
    have hlt := number.consumes h
    simp at hlt

theorem skipSpace_skipSpace (s : Bytes) : skipSpace (skipSpace s) = skipSpace s :=
  List.dropWhile_idempotent _ _

/-- White space in front of a record is skipped. -/
@[simp] theorem record_skipSpace (number : Scanner α) (s : Bytes) :
    record number (skipSpace s) = record number s := by
  unfold record
  rw [skipSpace_skipSpace]

/-- White space alone has no record. -/
theorem record_eq_none_of_blank (h : skipSpace s = []) : record number s = none := by
  unfold record
  rw [h, scan_nil]

/-- What is left behind a record does not begin with white space. -/
theorem skipSpace_rest (h : record number s = some (entry, rest)) : skipSpace rest = rest := by
  obtain ⟨s₁, s₂, -, -, rfl⟩ := record_eq_some.mp h
  exact skipSpace_skipSpace s₂

/-- White space in front of the records is skipped. -/
theorem isRecords_skipSpace : IsRecords number (skipSpace s) entries ↔
    IsRecords number s entries := by
  constructor
  · rintro (hblank | ⟨hrecord, hrest⟩)
    · exact .blank (by rwa [skipSpace_skipSpace] at hblank)
    · exact .record (by rwa [record_skipSpace] at hrecord) hrest
  · rintro (hblank | ⟨hrecord, hrest⟩)
    · exact .blank (by rwa [skipSpace_skipSpace])
    · exact .record (by rwa [record_skipSpace]) hrest

/-! ## The loop -/

/-- What is no record ends the scan. -/
theorem scans_of_none (h : record number s = none) : scans number s = [none] := by
  rw [scans]
  split
  · rfl
  · simp_all

/-- A record is scanned, then what follows it. -/
theorem scans_of_some (h : record number s = some (entry, rest)) :
    scans number s = some entry :: if rest = [] then [] else scans number rest := by
  rw [scans]
  split
  · simp_all
  · rename_i entry' rest' h'
    rw [h] at h'
    obtain ⟨rfl, rfl⟩ := Prod.mk.inj (Option.some.inj h')
    rfl

/-- The loop finds the records of a file, if there is one. -/
theorem IsRecords.scans_eq (h : IsRecords number s entries) (hne : entries ≠ []) :
    scans number s = entries.map some := by
  induction h with
  | blank hblank => exact absurd rfl hne
  | @record s entry rest entries hrecord hrest ih =>
    rw [scans_of_some hrecord, List.map_cons]
    congr 1
    split
    · rename_i hend
      subst hend
      cases hrest with
      | blank => rfl
      | record hrecord' => simp [record_eq_none_of_blank (s := []) (by simp [skipSpace])]
          at hrecord'
    · rename_i hend
      apply ih
      rintro rfl
      cases hrest with
      | blank hblank => exact hend ((skipSpace_rest hrecord).symm.trans hblank)

/-! ## The list -/

section Lists

variable [LinearOrder α]

/-- The list holds the entries that were put in. -/
theorem perm_insertAll_file (entries : List (FileEntry α)) :
    (FileEntry.insertAll entries).Perm entries := by
  induction entries using List.reverseRecOn with
  | nil => exact List.Perm.refl _
  | append_singleton entries entry ih =>
    have hlist : FileEntry.insertAll (entries ++ [entry]) =
        entry.insert (FileEntry.insertAll entries) := by simp [FileEntry.insertAll]
    rw [hlist]
    have hfront : (entry.insert (FileEntry.insertAll entries)).Perm (entry :: entries) :=
      (List.perm_orderedInsert _ _ _).trans (ih.cons entry)
    exact hfront.trans (List.perm_append_singleton entry entries).symm

/-- Entries with values stay sorted. -/
theorem pairwise_insert (hvalue : entry.value ≠ none) (hvalues : ∀ e ∈ entries, e.value ≠ none)
    (hsorted : entries.Pairwise FileEntry.AtMost) :
    (entry.insert entries).Pairwise FileEntry.AtMost := by
  induction entries with
  | nil => simp [FileEntry.insert]
  | cons e entries ih =>
    rw [List.forall_mem_cons] at hvalues
    rw [List.pairwise_cons] at hsorted
    obtain ⟨x, hx⟩ := Option.ne_none_iff_exists'.mp hvalue
    obtain ⟨y, hy⟩ := Option.ne_none_iff_exists'.mp hvalues.1
    have habove : entry.above e = decide (y < x) := by simp [FileEntry.above, hx, hy]
    by_cases hxy : y < x
    · have hinsert : entry.insert (e :: entries) = e :: entry.insert entries := by
        simp [FileEntry.insert, habove, hxy]
      rw [hinsert, List.pairwise_cons]
      refine ⟨fun e' he' => ?_, ih hvalues.2 hsorted.2⟩
      rcases (List.mem_orderedInsert _).mp he' with rfl | he'
      · exact ⟨y, hy, x, hx, hxy.le⟩
      · exact hsorted.1 e' he'
    · have hinsert : entry.insert (e :: entries) = entry :: e :: entries := by
        simp [FileEntry.insert, habove, hxy]
      rw [hinsert, List.pairwise_cons, List.pairwise_cons]
      have hle : entry.AtMost e := ⟨x, hx, y, hy, not_lt.mp hxy⟩
      refine ⟨fun e' he' => ?_, hsorted⟩
      rcases List.mem_cons.mp he' with rfl | he'
      · exact hle
      · obtain ⟨y', hy', z, hz, hyz⟩ := hsorted.1 e' he'
        obtain rfl : y = y' := Option.some.inj (hy.symm.trans hy')
        exact ⟨x, hx, z, hz, (not_lt.mp hxy).trans hyz⟩

/-- Entries with values are sorted. -/
theorem pairwise_insertAll (hvalues : ∀ e ∈ entries, e.value ≠ none) :
    (FileEntry.insertAll entries).Pairwise FileEntry.AtMost := by
  induction entries using List.reverseRecOn with
  | nil => exact List.Pairwise.nil
  | append_singleton entries entry ih =>
    have hbefore : ∀ e ∈ entries, e.value ≠ none := fun e he => hvalues e (by simp [he])
    have hlist : FileEntry.insertAll (entries ++ [entry]) =
        entry.insert (FileEntry.insertAll entries) := by simp [FileEntry.insertAll]
    rw [hlist]
    refine pairwise_insert (hvalues entry (by simp)) (fun e he => ?_) (ih hbefore)
    exact hbefore e ((perm_insertAll_file entries).mem_iff.mp he)

/-- In a list that is sorted a nan is alone. -/
theorem ordered_of_pairwise (h : entries.Pairwise FileEntry.AtMost) : Ordered entries := by
  by_cases hone : entries.length ≤ 1
  · exact .inl hone
  · refine .inr fun entry hentry => ?_
    obtain ⟨before, after, rfl⟩ := List.append_of_mem hentry
    obtain ⟨hbefore, hafter, hacross⟩ := List.pairwise_append.mp h
    cases after with
    | cons e after =>
      obtain ⟨x, hx, -⟩ := (List.pairwise_cons.mp hafter).1 e (by simp)
      exact fun hnone => by simp [hnone] at hx
    | nil =>
      cases before with
      | nil => simp at hone
      | cons e before =>
        obtain ⟨-, -, x, hx, -⟩ := hacross e (by simp) entry (by simp)
        exact fun hnone => by simp [hnone] at hx

/-- The inserted entries are in order just if no comparison was with nan. -/
theorem pairwise_insertAll_iff :
    (FileEntry.insertAll entries).Pairwise FileEntry.AtMost ↔ Ordered entries := by
  have hperm := perm_insertAll_file entries
  constructor
  · intro h
    refine (ordered_of_pairwise h).imp (fun hone => hperm.length_eq ▸ hone) fun hvalues e he => ?_
    exact hvalues e (hperm.mem_iff.mpr he)
  · rintro (hone | hvalues)
    · rw [← hperm.length_eq] at hone
      cases hlist : FileEntry.insertAll entries with
      | nil => exact List.Pairwise.nil
      | cons e rest =>
        rw [hlist, List.length_cons] at hone
        have hnil : rest = [] := List.length_eq_zero_iff.mp (by omega)
        rw [hnil]
        exact List.pairwise_singleton _ _
    · exact pairwise_insertAll hvalues

/-- The loop of `cdf_parse` over entries. -/
theorem parseFile_map_some (list entries : List (FileEntry α)) :
    parseFile list (entries.map some) =
      { entries := entries.foldl (fun list entry => entry.insert list) list, freed := false } := by
  induction entries generalizing list with
  | nil => rfl
  | cons entry entries ih => exact ih (entry.insert list)

/-- Once there is an entry, the loop returns a list. -/
theorem parseFile_entries_ne_nil (scans : List (Option (FileEntry α))) (hne : entries ≠ []) :
    (parseFile entries scans).entries ≠ [] := by
  induction scans generalizing entries with
  | nil => exact hne
  | cons scan scans ih =>
    cases scan with
    | none => exact hne
    | some entry =>
      apply ih
      have hmem : entry ∈ entry.insert entries := (List.mem_orderedInsert _).mpr (.inl rfl)
      exact List.ne_nil_of_mem hmem

/-- Nothing is returned exactly if the text does not begin with a record. -/
theorem newFromFile_eq_none_iff : newFromFile number s = none ↔ record number s = none := by
  unfold newFromFile
  cases hrecord : record number s with
  | none => simp [scans_of_none hrecord, parseFile]
  | some r =>
    obtain ⟨entry, rest⟩ := r
    have hmem : entry ∈ entry.insert [] := (List.mem_orderedInsert _).mpr (.inl rfl)
    have hlist := parseFile_entries_ne_nil (if rest = [] then [] else scans number rest)
      (List.ne_nil_of_mem hmem)
    rw [scans_of_some hrecord]
    dsimp only [parseFile]
    rw [if_neg hlist]
    simp

/-- From a file of records the list of all records is returned. -/
theorem IsRecords.newFromFile_eq (h : IsRecords number s entries) (hne : entries ≠ []) :
    newFromFile number s = some { entries := FileEntry.insertAll entries, freed := false } := by
  have hlist : FileEntry.insertAll entries ≠ [] := by
    intro hnil
    have hperm := perm_insertAll_file entries
    rw [hnil] at hperm
    exact hne (List.nil_perm.mp hperm)
  unfold newFromFile
  rw [h.scans_eq hne, parseFile_map_some]
  exact if_neg hlist

/-- The distribution of a file is all or nothing exactly if the file is one of records with values
that have an order, or does not begin with a record. -/
theorem allOrNothing_iff (number : Scanner α) (s : Bytes) :
    AllOrNothing number s ↔
      (∃ entries, IsRecords number s entries ∧ Ordered entries) ∨ record number s = none := by
  constructor
  · intro h
    by_contra hnot
    obtain ⟨hno, hbegins⟩ := not_or.mp hnot
    apply hbegins
    rw [← newFromFile_eq_none_iff]
    apply h.nothing
    rintro ⟨entries, hne, hentries⟩
    obtain ⟨cdf, hcdf, hperm, hsorted⟩ := h.all entries hentries hne
    obtain rfl := Option.some.inj ((hentries.newFromFile_eq hne).symm.trans hcdf)
    exact hno ⟨entries, hentries, pairwise_insertAll_iff.mp hsorted⟩
  · intro h
    by_cases hbegins : record number s = none
    · have hnothing := newFromFile_eq_none_iff.mpr hbegins
      refine ⟨?_, fun _ => hnothing, ?_⟩
      · rintro entries (hblank | ⟨hrecord, -⟩) hne
        · exact absurd rfl hne
        · rw [hbegins] at hrecord
          cases hrecord
      · intro cdf hcdf
        rw [hnothing] at hcdf
        cases hcdf
    · obtain ⟨entries, hentries, hordered⟩ := h.resolve_right hbegins
      have hne : entries ≠ [] := by
        rintro rfl
        cases hentries with
        | blank hblank => exact hbegins (record_eq_none_of_blank hblank)
      have hnew := hentries.newFromFile_eq hne
      refine ⟨?_, fun hno => absurd ⟨entries, hne, hentries⟩ hno, ?_⟩
      · intro entries' hentries' hne'
        have hsame : entries'.map some = entries.map some :=
          (hentries'.scans_eq hne').symm.trans (hentries.scans_eq hne)
        obtain rfl := List.map_injective_iff.mpr (Option.some_injective _) hsame
        exact ⟨_, hnew, perm_insertAll_file entries', pairwise_insertAll_iff.mpr hordered⟩
      · intro cdf hcdf
        rw [hnew] at hcdf
        obtain rfl := Option.some.inj hcdf
        rfl

end Lists

/-! ## Files without nan -/

/-- Entries without nan are inserted as in `Cdf`. -/
theorem insert_ofEntry (entry : CumulativeDistributionEntry)
    (entries : List CumulativeDistributionEntry) :
    (FileEntry.ofEntry entry).insert (entries.map FileEntry.ofEntry) =
      (insert entry entries).map FileEntry.ofEntry := by
  have hcompare : ∀ a b : CumulativeDistributionEntry,
      a.value ≤ b.value ↔ (FileEntry.ofEntry a).above (FileEntry.ofEntry b) = false := by
    intro a b
    simp [FileEntry.above, FileEntry.ofEntry]
  unfold insert insertSorted FileEntry.insert
  exact (List.map_orderedInsert _ _ _ _ _ (fun e _ => hcompare e entry) fun e _ =>
    hcompare entry e).symm

/-- The distribution, with entries of a file. -/
def FileDistribution.ofDistribution (cdf : CumulativeDistribution) : FileDistribution ℚ where
  entries := cdf.entries.map FileEntry.ofEntry
  freed := cdf.freed

/-- A file without nan is parsed as before. -/
theorem parseFile_ofEntry (entries : List CumulativeDistributionEntry)
    (found : List (Option CumulativeDistributionEntry)) :
    parseFile (entries.map FileEntry.ofEntry) (found.map (Option.map FileEntry.ofEntry)) =
      FileDistribution.ofDistribution (parse entries found) := by
  induction found generalizing entries with
  | nil => rfl
  | cons scan found ih =>
    cases scan with
    | none => rfl
    | some entry =>
      simp only [List.map_cons, Option.map_some, parseFile, parse, insert_ofEntry]
      exact ih _

/-- Where `fscanf` finds no nan, the file gives the distribution of what it finds. -/
theorem newFromFile_eq_new {number : Scanner ℚ} {found : List (Option CumulativeDistributionEntry)}
    (hscans : scans number s = found.map (Option.map FileEntry.ofEntry)) :
    newFromFile number s = (new found).map FileDistribution.ofDistribution := by
  have hparse := parseFile_ofEntry [] found
  rw [List.map_nil] at hparse
  unfold newFromFile new
  rw [hscans, hparse]
  dsimp only [FileDistribution.ofDistribution]
  by_cases hnil : (parse [] found).entries = []
  · simp [hnil]
  · rw [if_neg hnil, if_neg (by simpa using hnil)]
    rfl

/-! ## Lines -/

/-- White space is skipped in the first text, then in the second one. -/
theorem skipSpace_append (s t : Bytes) :
    skipSpace (s ++ t) = if skipSpace s = [] then skipSpace t else skipSpace s ++ t := by
  unfold skipSpace
  rw [List.dropWhile_append]
  simp [List.isEmpty_iff]

/-- A record is read from its line. -/
theorem record_append (h : record number s = some (entry, [])) :
    record number (s ++ lf :: t) = some (entry, skipSpace t) := by
  have hspace : isSpace lf = true := by decide
  obtain ⟨s₁, s₂, hvalue, hfraction, hend⟩ := record_eq_some.mp h
  have hfirst : skipSpace s ≠ [] := by
    intro hblank
    rw [hblank, scan_nil] at hvalue
    cases hvalue
  have hsecond : skipSpace s₁ ≠ [] := by
    intro hblank
    rw [hblank, scan_nil] at hfraction
    cases hfraction
  refine record_eq_some.mpr ⟨s₁ ++ lf :: t, s₂ ++ lf :: t, ?_, ?_, ?_⟩
  · rw [skipSpace_append, if_neg hfirst, number.stops hspace, hvalue, Option.map_some]
  · rw [skipSpace_append, if_neg hsecond, number.stops hspace, hfraction, Option.map_some]
  · rw [skipSpace_append, if_pos hend.symm]
    simp [skipSpace, hspace]

/-- A file in which each line is blank or holds one record is a file of these records. -/
theorem isRecords_flatten {lines : List (Bytes × Option (FileEntry α))}
    (hblank : ∀ line, (line, none) ∈ lines → skipSpace line = [])
    (hrecord : ∀ line entry, (line, some entry) ∈ lines → record number line = some (entry, [])) :
    IsRecords number (lines.map fun l => l.1 ++ [lf]).flatten (lines.filterMap Prod.snd) := by
  induction lines with
  | nil => exact .blank (by simp [skipSpace])
  | cons line lines ih =>
    obtain ⟨line, found⟩ := line
    have hlines := ih (fun l hl => hblank l (List.mem_cons_of_mem _ hl))
      (fun l e hl => hrecord l e (List.mem_cons_of_mem _ hl))
    rw [List.map_cons, List.flatten_cons, List.append_assoc, List.singleton_append]
    cases found with
    | none =>
      have hline : skipSpace line = [] := hblank line (by simp)
      rw [List.filterMap_cons_none (by rfl), ← isRecords_skipSpace, skipSpace_append, if_pos hline]
      have hspace : isSpace lf = true := by decide
      rw [skipSpace, List.dropWhile_cons_of_pos hspace]
      exact isRecords_skipSpace.mpr hlines
    | some entry =>
      have hline := record_append (t := (lines.map fun l => l.1 ++ [lf]).flatten)
        (hrecord line entry (by simp))
      rw [List.filterMap_cons_some (by rfl)]
      exact .record hline (isRecords_skipSpace.mpr hlines)

/-! ## Plain numbers -/

/-- A prefix ends at the latest in front of what it may not hold. -/
theorem takeWhile_append_cons {p : Byte → Bool} {b : Byte} (hb : p b = false) (s t : Bytes) :
    (s ++ b :: t).takeWhile p = s.takeWhile p := by
  induction s with
  | nil => simp [hb]
  | cons a s ih => simp only [List.cons_append, List.takeWhile_cons, ih]

/-- What follows a prefix, up to what the prefix may not hold and behind it. -/
theorem dropWhile_append_cons {p : Byte → Bool} {b : Byte} (hb : p b = false) (s t : Bytes) :
    (s ++ b :: t).dropWhile p = s.dropWhile p ++ b :: t := by
  induction s with
  | nil => simp [hb]
  | cons a s ih =>
    simp only [List.cons_append, List.dropWhile_cons, ih]
    split <;> simp

/-- White space is no digit and no point. -/
theorem isDigit_of_isSpace {b : Byte} (hb : isSpace b = true) : isDigit b = false ∧ b ≠ 46 := by
  have hnat : b.toNat = 32 ∨ 9 ≤ b.toNat ∧ b.toNat ≤ 13 := by
    simpa [isSpace, UInt8.le_iff_toNat_le, ← UInt8.toNat_inj] using hb
  constructor
  · rw [Bool.eq_false_iff]
    intro hdigit
    have hrange : 48 ≤ b.toNat ∧ b.toNat ≤ 57 := by
      simpa [isDigit, UInt8.le_iff_toNat_le] using hdigit
    omega
  · rintro rfl
    have hpoint : (46 : Byte).toNat = 46 := by decide
    omega

/-- The point and the digits behind it. -/
def scanFraction : Bytes → ℚ × Bytes
  | 46 :: s =>
    let digits := s.takeWhile isDigit
    (leadingNat 0 digits / 10 ^ digits.length, s.dropWhile isDigit)
  | s => (0, s)

/-- A fraction that is read makes no text longer. -/
theorem length_scanFraction_le (s : Bytes) : (scanFraction s).2.length ≤ s.length := by
  unfold scanFraction
  split
  · rename_i s
    have hle : (s.dropWhile isDigit).length ≤ s.length := (List.dropWhile_sublist _).length_le
    simp only [List.length_cons]
    omega
  · exact le_rfl

/-- White space ends a fraction. -/
theorem scanFraction_append_cons {b : Byte} (hb : isSpace b = true) (s t : Bytes) :
    scanFraction (s ++ b :: t) = ((scanFraction s).1, (scanFraction s).2 ++ b :: t) := by
  obtain ⟨hdigit, hpoint⟩ := isDigit_of_isSpace hb
  cases s with
  | nil => simp [scanFraction, hpoint]
  | cons c s =>
    by_cases hc : c = 46
    · subst hc
      simp only [List.cons_append, scanFraction, takeWhile_append_cons hdigit,
        dropWhile_append_cons hdigit]
    · simp [scanFraction, hc]

/-- A prefix without white space does not go on behind it. -/
theorem caselessPrefix_append_cons {needle : Bytes} {b : Byte} (hb : toLower b ∉ needle.map toLower)
    (s t : Bytes) : caselessPrefix needle (s ++ b :: t) = caselessPrefix needle s := by
  induction needle generalizing s with
  | nil => simp [caselessPrefix]
  | cons n needle ih =>
    rw [List.map_cons, List.mem_cons, not_or] at hb
    cases s with
    | nil =>
      have hne : (toLower n == toLower b) = false := by simpa using Ne.symm hb.1
      simp [caselessPrefix, hne]
    | cons c s => simp only [List.cons_append, caselessPrefix, ih hb.2]

/-- The letters of a nan. -/
def nanLetters : Bytes := ascii "nan"

/-- White space is no letter of nan. -/
theorem toLower_notMem_nanLetters {b : Byte} (hb : isSpace b = true) :
    toLower b ∉ nanLetters.map toLower := by
  have hnat : b.toNat = 32 ∨ 9 ≤ b.toNat ∧ b.toNat ≤ 13 := by
    simpa [isSpace, UInt8.le_iff_toNat_le, ← UInt8.toNat_inj] using hb
  have hsame : toLower b = b := by
    unfold toLower
    rw [if_neg]
    rintro ⟨hlow, -⟩
    rw [UInt8.le_iff_toNat_le] at hlow
    have hA : (65 : Byte).toNat = 65 := by decide
    omega
  have hletters : nanLetters.map toLower = [110, 97, 110] := by decide
  rw [hsame, hletters]
  rintro hmem
  have hn : (110 : Byte).toNat = 110 := by decide
  have ha : (97 : Byte).toNat = 97 := by decide
  simp only [List.mem_cons, List.not_mem_nil, or_false] at hmem
  rcases hmem with rfl | rfl | rfl <;> omega

/-- A nan, or the digits at the front of a text and those behind a point. -/
def scanPlain (s : Bytes) : Option (Option ℚ × Bytes) :=
  if caselessPrefix nanLetters s then some (none, s.drop 3)
  else
    let digits := s.takeWhile isDigit
    if digits = [] then none
    else
      let (fraction, rest) := scanFraction (s.dropWhile isDigit)
      some (some (leadingNat 0 digits + fraction), rest)

/-- Numbers without a sign and an exponent, and nan. -/
def plainNumber : Scanner ℚ where
  scan := scanPlain
  consumes := by
    intro s x rest h
    unfold scanPlain at h
    dsimp only at h
    split at h
    · rename_i hnan
      obtain ⟨-, rfl⟩ := Prod.mk.inj (Option.some.inj h)
      have hthree : nanLetters.length = 3 := by decide
      have hle := length_le_of_caselessPrefix hnan
      rw [List.length_drop]
      omega
    · split at h
      · cases h
      · rename_i hdigits
        obtain ⟨-, rfl⟩ := Prod.mk.inj (Option.some.inj h)
        have hsplit : (s.takeWhile isDigit).length + (s.dropWhile isDigit).length = s.length := by
          rw [← List.length_append, List.takeWhile_append_dropWhile]
        have hpos := List.length_pos_of_ne_nil hdigits
        have hle := length_scanFraction_le (s.dropWhile isDigit)
        omega
  stops := by
    intro s b hb t
    unfold scanPlain
    obtain ⟨hdigit, -⟩ := isDigit_of_isSpace hb
    rw [caselessPrefix_append_cons (toLower_notMem_nanLetters hb)]
    split
    · rename_i hnan
      have hthree : nanLetters.length = 3 := by decide
      have hle := length_le_of_caselessPrefix hnan
      rw [List.drop_append_of_le_length (by omega)]
      rfl
    · rw [takeWhile_append_cons hdigit, dropWhile_append_cons hdigit, scanFraction_append_cons hb]
      dsimp only
      split <;> rfl

/-- A record, and a line that is none. -/
def malformed : Bytes := ascii "1 0.5\n2 x\n"

/-- The value of the second record is a nan. -/
def withNan : Bytes := ascii "3 0.5\nnan 0.5\n"

/-- The record before the malformed one is returned, in a list that was freed. Two records of which
one has a nan for its value are not sorted. -/
theorem not_allOrNothing_malformed :
    ¬AllOrNothing plainNumber malformed ∧ ¬AllOrNothing plainNumber withNan := by
  constructor
  · intro h
    have hfirst : record plainNumber malformed = some (⟨some (1 / 2), some 1⟩, ascii "2 x\n") := by
      decide +kernel
    have hsecond : record plainNumber (ascii "2 x\n") = none := by decide +kernel
    have hreturned : newFromFile plainNumber malformed = some ⟨[⟨some (1 / 2), some 1⟩], true⟩ := by
      unfold newFromFile
      rw [scans_of_some hfirst, scans_of_none hsecond]
      decide +kernel
    exact absurd (h.kept _ hreturned) (by simp)
  · intro h
    have hfirst : record plainNumber withNan = some
        (⟨some (1 / 2), some 3⟩, ascii "nan 0.5\n") := by
      decide +kernel
    have hsecond : record plainNumber (ascii "nan 0.5\n") = some (⟨some (1 / 2), none⟩, []) := by
      decide +kernel
    have hrecords : IsRecords plainNumber withNan [⟨some (1 / 2), some 3⟩, ⟨some (1 / 2), none⟩] :=
      .record hfirst (.record hsecond (.blank rfl))
    obtain ⟨cdf, -, hperm, hsorted⟩ := h.all _ hrecords (by simp)
    rcases ordered_of_pairwise hsorted with hone | hvalues
    · rw [hperm.length_eq] at hone
      simp at hone
    · exact hvalues ⟨some (1 / 2), none⟩ (hperm.mem_iff.mpr (by simp)) rfl

end CumulativeDistribution

end ShadowExtras.FileTransfer
