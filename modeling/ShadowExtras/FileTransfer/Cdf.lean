import Mathlib.Data.Rat.Defs
import Mathlib.Algebra.Order.Field.Rat
import Mathlib.Tactic.Linarith
import Mathlib.Tactic.NormNum
import ShadowExtras.Foundation.SortedInsert

/-!
# Cumulative distributions

`cdf.c`: a distribution is a list of entries, each a value with the fraction of the samples that are
at most as large, in the order of the values. `cdf_new` reads the entries from a file,
`cdf_newFromQueue` makes them from samples, `cdf_generate` from three numbers. `cdf_getValue` looks
a percentile up, from the front of the list or, for the upper half, from its back.

Numbers are exact. A file is what the calls of `fscanf` find in it, one result for each line. What
goes wrong is a `CdfFault`: a failed assertion, an entry that is not there, a list that was freed.
-/

namespace ShadowExtras.FileTransfer

open Foundation

/-- `CumulativeDistributionEntry` -/
structure CumulativeDistributionEntry where
  fraction : ℚ
  value : ℚ
  deriving DecidableEq, Repr

/-- `CumulativeDistribution` -/
structure CumulativeDistribution where
  entries : List CumulativeDistributionEntry
  /-- Was the list of entries freed? -/
  freed : Bool
  deriving DecidableEq, Repr

/-- What ends the run of a program that uses a distribution. -/
inductive CdfFault
  | assertion
  /-- `prev_entry` is `NULL`. -/
  | missingEntry
  /-- The list of entries is used after it was freed. -/
  | freed
  deriving DecidableEq, Repr

namespace CumulativeDistribution

/-! ## Constructors -/

/-- `g_list_insert_sorted` with `cdfentry_compare` -/
def insert (entry : CumulativeDistributionEntry) (entries : List CumulativeDistributionEntry) :
    List CumulativeDistributionEntry :=
  insertSorted CumulativeDistributionEntry.value entry entries

/-- The loop of `cdf_parse`, for the results of `fscanf` up to the end of the file. A line that does
not hold two numbers frees the list, and the list is returned all the same. -/
def parse (entries : List CumulativeDistributionEntry) :
    List (Option CumulativeDistributionEntry) → CumulativeDistribution
  | [] => { entries := entries, freed := false }
  | none :: _ => { entries := entries, freed := true }
  | some entry :: scans => parse (insert entry entries) scans

/-- `cdf_new` -/
def new (scans : List (Option CumulativeDistributionEntry)) : Option CumulativeDistribution :=
  let cdf := parse [] scans
  if cdf.entries = [] then none else some cdf

/-- `_cdf_addEntry` -/
def addEntry (list : List CumulativeDistributionEntry) (data : ℚ) :
    Except CdfFault (List CumulativeDistributionEntry) :=
  if list = [] then .error .assertion else .ok (insert { fraction := 0, value := data } list)

/-- The loop of `cdf_newFromQueue`. -/
def accumulate (increment cumFrac : ℚ) :
    List CumulativeDistributionEntry → Except CdfFault (List CumulativeDistributionEntry)
  | [] => .ok []
  | entry :: list =>
    if cumFrac + increment ≤ 1 then
      (accumulate increment (cumFrac + increment) list).map
        ({ entry with fraction := cumFrac } :: ·)
    else .error .assertion

/-- `cdf_newFromQueue` -/
def newFromQueue (doubleValues : List ℚ) : Except CdfFault CumulativeDistribution :=
  match doubleValues.foldlM addEntry [] with
  | .error fault => .error fault
  | .ok list =>
    let increment := 1 / (doubleValues.length : ℚ)
    (accumulate increment increment list).map fun entries => { entries := entries, freed := false }

/-- `cdf_generate` -/
def generate (baseCenter baseWidth tailWidth : UInt32) : CumulativeDistribution where
  entries := insertAll CumulativeDistributionEntry.value [
    { fraction := 10 / 100, value := (baseCenter - baseWidth).toNat },
    { fraction := 80 / 100, value := baseCenter.toNat },
    { fraction := 90 / 100, value := (baseCenter + baseWidth).toNat },
    { fraction := 95 / 100, value := (baseCenter + baseWidth + tailWidth).toNat }]
  freed := false

/-! ## Looking up a percentile -/

/-- The loop of `cdf_getValue` from the front. -/
def getValueForward (percentile : ℚ) : List CumulativeDistributionEntry → Except CdfFault ℚ
  | [] => .error .assertion
  | entry :: items =>
    if percentile ≤ entry.fraction then .ok entry.value else getValueForward percentile items

/-- `prev_entry->value` -/
def previousValue : Option CumulativeDistributionEntry → Except CdfFault ℚ
  | none => .error .missingEntry
  | some entry => .ok entry.value

/-- The loop of `cdf_getValue` from the back; `prevEntry` is the entry of the round before. -/
def getValueReverse (percentile : ℚ) (prevEntry : Option CumulativeDistributionEntry) :
    List CumulativeDistributionEntry → Except CdfFault ℚ
  | [] => previousValue prevEntry
  | entry :: items =>
    if entry.fraction = percentile then .ok entry.value
    else if entry.fraction < percentile then previousValue prevEntry
    else getValueReverse percentile (some entry) items

/-- `cdf_getValue` -/
def getValue (cdf : CumulativeDistribution) (percentile : ℚ) : Except CdfFault ℚ :=
  if ¬(0 ≤ percentile ∧ percentile ≤ 1) then .error .assertion
  else if cdf.freed then .error .freed
  else if percentile > 1 / 2 then getValueReverse percentile none cdf.entries.reverse
  else getValueForward percentile cdf.entries

/-! ## Distributions that can be sampled -/

/-- A distribution that can be sampled. -/
structure Sampleable (cdf : CumulativeDistribution) : Prop where
  values : cdf.entries.Pairwise fun a b => a.value ≤ b.value
  fractions : cdf.entries.Pairwise fun a b => a.fraction ≤ b.fraction
  getValue : ∀ percentile, 0 ≤ percentile → percentile ≤ 1 →
    ∃ entry ∈ cdf.entries, cdf.getValue percentile = .ok entry.value

/-- What a distribution is made from. -/
inductive Source
  | file (scans : List (Option CumulativeDistributionEntry))
  | queue (doubleValues : List ℚ)
  | numbers (baseCenter baseWidth tailWidth : UInt32)
  deriving DecidableEq

namespace Source

/-- The distribution that is built, none if the input is refused. -/
def build : Source → Except CdfFault (Option CumulativeDistribution)
  | .file scans => .ok (new scans)
  | .queue doubleValues => (newFromQueue doubleValues).map some
  | .numbers baseCenter baseWidth tailWidth => .ok (some (generate baseCenter baseWidth tailWidth))

/-- A file that is accepted, a queue that is not empty, or three numbers. -/
def Admitted : Source → Prop
  | .file scans => new scans ≠ none
  | .queue doubleValues => doubleValues ≠ []
  | .numbers _ _ _ => True

/-- The distribution that is built can be sampled. -/
def BuildsSampleable (source : Source) : Prop :=
  ∃ cdf, source.build = .ok (some cdf) ∧ cdf.Sampleable

/-- A file in which every line holds two numbers, the fractions grow with the values, later lines
for the same value do not have greater fractions, and some fraction reaches one. -/
def Sound : Source → Prop
  | .file scans =>
    ∃ lines : List CumulativeDistributionEntry, scans = lines.map some ∧
      lines.Pairwise (OrdersBy CumulativeDistributionEntry.value fun a b => a.fraction ≤
        b.fraction) ∧
      ∃ line ∈ lines, 1 ≤ line.fraction
  | .queue _ => False
  | .numbers _ _ _ => False

end Source

variable {cdf : CumulativeDistribution} {entries items : List CumulativeDistributionEntry}
  {entry : CumulativeDistributionEntry} {percentile : ℚ}

/-! ## The lookup -/

/-- From the front some entry is found if one reaches the percentile. -/
theorem exists_getValueForward (h : ∃ entry ∈ entries, percentile ≤ entry.fraction) :
    ∃ entry ∈ entries, getValueForward percentile entries = .ok entry.value := by
  induction entries with
  | nil => simp at h
  | cons first rest ih =>
    by_cases hreaches : percentile ≤ first.fraction
    · exact ⟨first, by simp, by simp [getValueForward, hreaches]⟩
    · have hrest : ∃ entry ∈ rest, percentile ≤ entry.fraction := by
        obtain ⟨entry, hmem, hentry⟩ := h
        rcases List.mem_cons.mp hmem with rfl | hmem
        · exact absurd hentry hreaches
        · exact ⟨entry, hmem, hentry⟩
      obtain ⟨entry, hmem, hentry⟩ := ih hrest
      exact ⟨entry, List.mem_cons_of_mem _ hmem, by simp [getValueForward, hreaches, hentry]⟩

/-- From the back some entry is found once one was passed. -/
theorem exists_getValueReverse (percentile : ℚ) (prevEntry : CumulativeDistributionEntry)
    (items : List CumulativeDistributionEntry) :
    ∃ entry ∈ prevEntry :: items,
      getValueReverse percentile (some prevEntry) items = .ok entry.value := by
  induction items generalizing prevEntry with
  | nil => exact ⟨prevEntry, by simp, by simp [getValueReverse, previousValue]⟩
  | cons first rest ih =>
    unfold getValueReverse
    split_ifs with hequal hless
    · exact ⟨first, by simp, by simp⟩
    · exact ⟨prevEntry, by simp, by simp [previousValue]⟩
    · obtain ⟨entry, hmem, hentry⟩ := ih first
      exact ⟨entry, List.mem_cons_of_mem _ hmem, hentry⟩

/-- From the back the last entry decides: it is found, passed, or there is none before it. -/
theorem getValueReverse_cons_eq_ok {last : CumulativeDistributionEntry} :
    (∃ value, getValueReverse percentile none (last :: items) = .ok value) ↔
      percentile ≤ last.fraction := by
  unfold getValueReverse
  constructor
  · rintro ⟨value, hvalue⟩
    split_ifs at hvalue with hequal hless
    · exact hequal.ge
    · cases hvalue
    · exact not_lt.mp hless
  · intro hreaches
    rw [if_neg (not_lt.mpr hreaches)]
    split_ifs with hequal
    · exact ⟨_, rfl⟩
    · obtain ⟨entry, -, hentry⟩ := exists_getValueReverse percentile last items
      exact ⟨_, hentry⟩

/-- In a list that is not empty, sorted and in use, every percentile is found exactly if some
fraction reaches one. -/
theorem sampleable_iff (hvalues : cdf.entries.Pairwise fun a b => a.value ≤ b.value) :
    cdf.Sampleable ↔ cdf.freed = false ∧ (cdf.entries.Pairwise fun a b => a.fraction ≤ b.fraction) ∧
      ∃ entry ∈ cdf.entries, 1 ≤ entry.fraction := by
  constructor
  · intro h
    obtain ⟨entry, hmem, hone⟩ := h.getValue 1 zero_le_one le_rfl
    unfold CumulativeDistribution.getValue at hone
    rw [if_neg (by simp)] at hone
    split_ifs at hone with hfreed hhigh
    · cases hlist : cdf.entries.reverse with
      | nil => simp [List.reverse_eq_nil_iff.mp hlist] at hmem
      | cons last items =>
        rw [hlist] at hone
        have hreaches : 1 ≤ last.fraction := getValueReverse_cons_eq_ok.mp ⟨_, hone⟩
        have hlast : last ∈ cdf.entries := by
          rw [← List.mem_reverse, hlist]
          exact List.mem_cons_self
        exact ⟨by simpa using hfreed, h.fractions, last, hlast, hreaches⟩
    · exact absurd (by norm_num) hhigh
  · rintro ⟨hfreed, hfractions, entry, hmem, hone⟩
    refine ⟨hvalues, hfractions, fun percentile hlow hhigh => ?_⟩
    unfold CumulativeDistribution.getValue
    rw [if_neg (not_not.mpr ⟨hlow, hhigh⟩), if_neg (by simp [hfreed])]
    split_ifs
    · cases hlist : cdf.entries.reverse with
      | nil => simp [List.reverse_eq_nil_iff.mp hlist] at hmem
      | cons last items =>
        -- the last entry has the greatest fraction
        have hlast : entry.fraction ≤ last.fraction := by
          have hreversed := List.pairwise_reverse.mpr hfractions
          rw [← List.mem_reverse, hlist] at hmem
          rw [hlist] at hreversed
          rcases List.mem_cons.mp hmem with rfl | hmem
          · exact le_rfl
          · exact (List.pairwise_cons.mp hreversed).1 entry hmem
        have hreaches : percentile ≤ last.fraction := hhigh.trans (hone.trans hlast)
        have hfound : ∃ e ∈ last :: items, getValueReverse percentile none (last :: items) =
            .ok e.value := by
          unfold getValueReverse
          rw [if_neg (not_lt.mpr hreaches)]
          split_ifs
          · exact ⟨last, List.mem_cons_self, by simp⟩
          · exact exists_getValueReverse percentile last items
        obtain ⟨e, he, hvalue⟩ := hfound
        refine ⟨e, ?_, hvalue⟩
        rw [← List.mem_reverse, hlist]
        exact he
    · exact exists_getValueForward ⟨entry, hmem, hhigh.trans hone⟩

/-- A list that was freed cannot be used. -/
theorem not_sampleable_of_freed (hfreed : cdf.freed = true) : ¬cdf.Sampleable := by
  intro h
  obtain ⟨entry, -, hzero⟩ := h.getValue 0 le_rfl zero_le_one
  unfold CumulativeDistribution.getValue at hzero
  rw [if_neg (by simp), if_pos hfreed] at hzero
  cases hzero

/-! ## The distributions that are built -/

/-- A file whose lines all hold two numbers is inserted line by line; any other file frees the
list. -/
theorem parse_cases (entries : List CumulativeDistributionEntry)
    (scans : List (Option CumulativeDistributionEntry)) :
    (∃ lines : List CumulativeDistributionEntry, scans = lines.map some ∧
        parse entries scans =
          { entries := lines.foldl (fun l a => insert a l) entries, freed := false }) ∨
      (¬∃ lines : List CumulativeDistributionEntry, scans = lines.map some) ∧
        (parse entries scans).freed = true := by
  induction scans generalizing entries with
  | nil => exact .inl ⟨[], by simp, by simp [parse]⟩
  | cons scan scans ih =>
    cases scan with
    | none =>
      refine .inr ⟨?_, by simp [parse]⟩
      rintro ⟨lines, hlines⟩
      cases lines with
      | nil => simp at hlines
      | cons line lines => simp at hlines
    | some line =>
      rcases ih (insert line entries) with ⟨lines, rfl, hparse⟩ | ⟨hno, hfreed⟩
      · exact .inl ⟨line :: lines, by simp, by simp [parse, hparse]⟩
      · refine .inr ⟨?_, by simpa [parse] using hfreed⟩
        rintro ⟨lines, hlines⟩
        cases lines with
        | nil => simp at hlines
        | cons first lines => exact hno ⟨lines, (List.cons.inj hlines).2⟩

/-- The distribution from a file can be sampled just if the file is sound. -/
theorem sampleable_parse_iff (scans : List (Option CumulativeDistributionEntry)) :
    (parse [] scans).Sampleable ↔ (Source.file scans).Sound := by
  rcases parse_cases [] scans with ⟨lines, rfl, hparse⟩ | ⟨hno, hfreed⟩
  · have hentries : (parse [] (lines.map some)).entries =
        insertAll CumulativeDistributionEntry.value lines := by
      rw [hparse]
      rfl
    have hopen : (parse [] (lines.map some)).freed = false := by rw [hparse]
    have hsorted : (insertAll CumulativeDistributionEntry.value lines).Pairwise
        fun a b => a.value ≤ b.value := sorted_insertAll lines
    rw [← hentries] at hsorted
    rw [sampleable_iff hsorted, hentries, pairwise_insertAll_iff]
    simp only [hopen, true_and, mem_insertAll, Source.Sound]
    constructor
    · rintro ⟨hfractions, hone⟩
      exact ⟨lines, by simp, hfractions, hone⟩
    · rintro ⟨lines', hlines, hfractions, hone⟩
      obtain rfl : lines = lines' := List.map_injective_iff.mpr (Option.some_injective _) hlines
      exact ⟨hfractions, hone⟩
  · constructor
    · intro h
      exact absurd h (not_sampleable_of_freed hfreed)
    · rintro ⟨lines, hlines, -⟩
      exact absurd ⟨lines, hlines⟩ hno

/-- The first sample is refused: the list that it is added to has to have an entry. -/
theorem newFromQueue_of_ne_nil {doubleValues : List ℚ} (h : doubleValues ≠ []) :
    newFromQueue doubleValues = .error .assertion := by
  cases doubleValues with
  | nil => exact absurd rfl h
  | cons data rest => simp [newFromQueue, List.foldlM_cons, addEntry, bind, Except.bind]

/-- No entry of a generated distribution has a fraction of one. -/
theorem not_sampleable_generate (baseCenter baseWidth tailWidth : UInt32) :
    ¬(generate baseCenter baseWidth tailWidth).Sampleable := by
  intro h
  obtain ⟨-, -, entry, hmem, hone⟩ := (sampleable_iff h.values).mp h
  simp only [generate, mem_insertAll, List.mem_cons, List.not_mem_nil, or_false] at hmem
  rcases hmem with rfl | rfl | rfl | rfl <;> norm_num at hone

/-- An admitted input builds a distribution that can be sampled just if it is a sound file. -/
theorem buildsSampleable_iff_sound {source : Source} (hadmitted : source.Admitted) :
    source.BuildsSampleable ↔ source.Sound := by
  cases source with
  | file scans =>
    have hnew : new scans = some (parse [] scans) := by
      simp only [Source.Admitted, new] at hadmitted ⊢
      split_ifs at hadmitted ⊢
      · exact absurd rfl hadmitted
      · simp
    rw [← sampleable_parse_iff]
    constructor
    · rintro ⟨cdf, hbuild, hsampleable⟩
      rw [Source.build, hnew] at hbuild
      obtain rfl : parse [] scans = cdf := Option.some.inj (Except.ok.inj hbuild)
      exact hsampleable
    · intro h
      exact ⟨_, by rw [Source.build, hnew], h⟩
  | queue doubleValues =>
    have hbuild : (Source.queue doubleValues).build = .error .assertion := by
      rw [Source.build, newFromQueue_of_ne_nil hadmitted]
      simp [Except.map]
    constructor
    · rintro ⟨cdf, hcdf, -⟩
      rw [hbuild] at hcdf
      cases hcdf
    · exact False.elim
  | numbers baseCenter baseWidth tailWidth =>
    constructor
    · rintro ⟨cdf, hcdf, hsampleable⟩
      obtain rfl := Option.some.inj (Except.ok.inj hcdf)
      exact absurd hsampleable (not_sampleable_generate baseCenter baseWidth tailWidth)
    · exact False.elim

/-- A file with two lines. -/
def twoLines :
    Source := .file [some { fraction := 1 / 2, value := 3 }, some { fraction := 1, value := 5 }]

/-- A file of two lines can be sampled. -/
theorem buildsSampleable_iff_sound_twoLines : twoLines.BuildsSampleable ↔ twoLines.Sound := by
  have hadmitted : twoLines.Admitted := by
    unfold twoLines Source.Admitted
    decide +kernel
  exact buildsSampleable_iff_sound hadmitted

/-- The percentile 0.97 of a generated distribution is looked up in an entry that is not there. -/
theorem not_buildsSampleable_numbers : ¬(Source.numbers 100 10 5).BuildsSampleable := by
  rintro ⟨cdf, hbuild, hsampleable⟩
  obtain rfl := Option.some.inj (Except.ok.inj hbuild)
  obtain ⟨entry, -, hvalue⟩ := hsampleable.getValue (97 / 100) (by norm_num) (by norm_num)
  have hmissing : (generate 100 10 5).getValue (97 / 100) = .error .missingEntry := by
    decide +kernel
  rw [hmissing] at hvalue
  cases hvalue

/-! ## The two directions -/

/-- The lookup gives the value of the first entry whose fraction is at least the percentile. -/
def FindsFirst (cdf : CumulativeDistribution) (percentile : ℚ) : Prop :=
  ∃ entry, cdf.entries.find? (fun e => percentile ≤ e.fraction) = some entry ∧
    cdf.getValue percentile = .ok entry.value

/-- The entries whose fraction is the percentile agree, if the lookup starts from the back. -/
def AgreesAt (cdf : CumulativeDistribution) (percentile : ℚ) : Prop :=
  1 / 2 < percentile → ∀ a ∈ cdf.entries, ∀ b ∈ cdf.entries,
    a.fraction = percentile → b.fraction = percentile → a.value = b.value

/-- The first entry that reaches the percentile is found. -/
theorem getValueForward_of_find?
    (h : entries.find? (fun e => percentile ≤ e.fraction) = some entry) :
    getValueForward percentile entries = .ok entry.value := by
  induction entries with
  | nil => simp at h
  | cons first rest ih =>
    by_cases hreaches : percentile ≤ first.fraction
    · rw [List.find?_cons_of_pos (by simpa using hreaches)] at h
      obtain rfl := Option.some.inj h
      simp [getValueForward, hreaches]
    · rw [List.find?_cons_of_neg (by simpa using hreaches)] at h
      simp [getValueForward, hreaches, ih h]

/-- From the back an entry with the fraction itself is found, the last one of them. -/
theorem getValueReverse_of_find? {prevEntry : Option CumulativeDistributionEntry}
    (hsorted : items.Pairwise fun a b => b.fraction ≤ a.fraction)
    (h : items.find? (fun e => e.fraction = percentile) = some entry) :
    getValueReverse percentile prevEntry items = .ok entry.value := by
  induction items generalizing prevEntry with
  | nil => simp at h
  | cons first rest ih =>
    obtain ⟨hfirst, hrest⟩ := List.pairwise_cons.mp hsorted
    by_cases hequal : first.fraction = percentile
    · rw [List.find?_cons_of_pos (by simpa using hequal)] at h
      obtain rfl := Option.some.inj h
      simp [getValueReverse, hequal]
    · rw [List.find?_cons_of_neg (by simpa using hequal)] at h
      have hnot : ¬first.fraction < percentile := by
        have hfraction : entry.fraction = percentile := by simpa using List.find?_some h
        rw [← hfraction]
        exact not_lt.mpr (hfirst entry (List.mem_of_find?_eq_some h))
      simp [getValueReverse, hequal, hnot, ih hrest h]

/-- Without such an entry the first one above is found, also from the back. -/
theorem getValueReverse_of_ne {prevEntry : CumulativeDistributionEntry}
    (hsorted : items.Pairwise fun a b => b.fraction ≤ a.fraction)
    (hne : ∀ e ∈ items, e.fraction ≠ percentile) (hprev : percentile < prevEntry.fraction) :
    ∃ entry, (items.reverse ++ [prevEntry]).find? (fun e => percentile ≤ e.fraction) = some entry ∧
      getValueReverse percentile (some prevEntry) items = .ok entry.value := by
  induction items generalizing prevEntry with
  | nil => exact ⟨prevEntry, by simp [hprev.le], by simp [getValueReverse, previousValue]⟩
  | cons first rest ih =>
    obtain ⟨hfirst, hrest⟩ := List.pairwise_cons.mp hsorted
    have hequal : first.fraction ≠ percentile := hne first List.mem_cons_self
    by_cases hless : first.fraction < percentile
    · refine ⟨prevEntry, ?_, by simp [getValueReverse, hequal, hless, previousValue]⟩
      have hbelow : ∀ e ∈ (first :: rest).reverse, ¬percentile ≤ e.fraction := by
        intro e he
        rcases List.mem_cons.mp (List.mem_reverse.mp he) with rfl | he
        · exact not_le.mpr hless
        · exact not_le.mpr ((hfirst e he).trans_lt hless)
      have hnone : (first :: rest).reverse.find? (fun e => percentile ≤ e.fraction) = none :=
        List.find?_eq_none.mpr fun e he => by simpa using hbelow e he
      rw [List.find?_append, hnone, Option.none_or,
        List.find?_cons_of_pos (by simpa using hprev.le)]
    · have hgreater : percentile < first.fraction := lt_of_le_of_ne (not_lt.mp hless) hequal.symm
      obtain ⟨entry, hfind, hvalue⟩ :=
        ih hrest (fun e he => hne e (List.mem_cons_of_mem _ he)) hgreater
      refine ⟨entry, ?_, by simp [getValueReverse, hequal, hless, hvalue]⟩
      rw [List.reverse_cons, List.find?_append, hfind, Option.some_or]

/-- Everything after the first entry with a property is related to it. -/
theorem rel_of_find? {R : CumulativeDistributionEntry → CumulativeDistributionEntry → Prop}
    {p : CumulativeDistributionEntry → Bool} {a : CumulativeDistributionEntry}
    (hrefl : R entry entry)
    (hsorted : entries.Pairwise R) (h : entries.find? p = some entry) (ha : a ∈ entries)
    (hp : p a) :
    R entry a := by
  obtain ⟨-, before, after, rfl, hbefore⟩ := List.find?_eq_some_iff_append.mp h
  rcases List.mem_append.mp ha with ha | ha
  · exact absurd hp (by simpa using hbefore a ha)
  · rcases List.mem_cons.mp ha with rfl | ha
    · exact hrefl
    · have hafter := (List.pairwise_append.mp hsorted).2.1
      exact (List.pairwise_cons.mp hafter).1 a ha

/-- The lookup finds the first entry that reaches the percentile exactly if it starts from the
front, or the entries at the percentile agree. -/
theorem findsFirst_iff_agreesAt (hopen : cdf.freed = false)
    (hvalues : cdf.entries.Pairwise fun a b => a.value ≤ b.value)
    (hfractions : cdf.entries.Pairwise fun a b => a.fraction ≤ b.fraction)
    (hlow : 0 ≤ percentile) (hhigh : percentile ≤ 1) {last : CumulativeDistributionEntry}
    (hlast : cdf.entries.getLast? = some last) (hreaches : percentile ≤ last.fraction) :
    cdf.FindsFirst percentile ↔ cdf.AgreesAt percentile := by
  obtain ⟨first, hfirst⟩ :
      ∃ first, cdf.entries.find? (fun e => percentile ≤ e.fraction) = some first := by
    rw [← Option.isSome_iff_exists, List.find?_isSome]
    exact ⟨last, List.mem_of_getLast? hlast, by simpa using hreaches⟩
  have hget : cdf.getValue percentile = if percentile > 1 / 2 then
      getValueReverse percentile none cdf.entries.reverse
        else getValueForward percentile cdf.entries := by
    unfold getValue
    rw [if_neg (not_not.mpr ⟨hlow, hhigh⟩), if_neg (by simp [hopen])]
  have hfinds : cdf.FindsFirst percentile ↔ cdf.getValue percentile = .ok first.value := by
    simp [FindsFirst, hfirst]
  rw [hfinds, hget]
  by_cases hhalf : percentile > 1 / 2
  · rw [if_pos hhalf]
    have hdescending := List.pairwise_reverse.mpr hfractions
    cases hat : cdf.entries.reverse.find? (fun e => e.fraction = percentile) with
    | some back =>
      rw [getValueReverse_of_find? hdescending hat]
      have hback : back.fraction = percentile := by simpa using List.find?_some hat
      have hmem : back ∈ cdf.entries := List.mem_reverse.mp (List.mem_of_find?_eq_some hat)
      have hexact : first.fraction = percentile := by
        apply le_antisymm
        · rw [← hback]
          exact rel_of_find? (R := fun a b => a.fraction ≤ b.fraction) le_rfl hfractions hfirst hmem
            (by simpa using hback.ge)
        · simpa using List.find?_some hfirst
      constructor
      · intro hvalue _ a ha b hb hafraction hbfraction
        -- what lies between the two entries has their value
        have hbetween : ∀ e ∈ cdf.entries, e.fraction = percentile → e.value = first.value := by
          intro e he hfraction
          apply le_antisymm
          · rw [← Except.ok.inj hvalue]
            exact rel_of_find? (R := fun a b => b.value ≤ a.value) le_rfl
              (List.pairwise_reverse.mpr hvalues) hat (List.mem_reverse.mpr he)
                (by simpa using hfraction)
          · exact rel_of_find? (R := fun a b => a.value ≤ b.value) le_rfl hvalues hfirst he
              (by simpa using hfraction.ge)
        rw [hbetween a ha hafraction, hbetween b hb hbfraction]
      · intro hagrees
        rw [hagrees hhalf back hmem first (List.mem_of_find?_eq_some hfirst) hback hexact]
    | none =>
      have hne : ∀ e ∈ cdf.entries, e.fraction ≠ percentile := by simpa using hat
      constructor
      · intro _ _ a ha _ _ hafraction
        exact absurd hafraction (hne a ha)
      · intro _
        obtain ⟨items, hitems⟩ := List.getLast?_eq_some_iff.mp hlast
        have hitemsReverse : cdf.entries.reverse = last :: items.reverse := by
          rw [hitems, List.reverse_append, List.reverse_singleton, List.singleton_append]
        have hgreater : percentile < last.fraction :=
          lt_of_le_of_ne hreaches (hne last (List.mem_of_getLast? hlast)).symm
        rw [hitemsReverse] at hdescending ⊢
        have hnotLess : ¬last.fraction < percentile := not_lt.mpr hreaches
        obtain ⟨entry, hfind, hvalue⟩ := getValueReverse_of_ne
          (List.pairwise_cons.mp hdescending).2
          (fun e he => hne e (by rw [hitems]; simp [List.mem_reverse.mp he])) hgreater
        rw [List.reverse_reverse, ← hitems, hfirst] at hfind
        obtain rfl := Option.some.inj hfind
        simp [getValueReverse, hgreater.ne', hnotLess, hvalue]
  · rw [if_neg hhalf, getValueForward_of_find? hfirst]
    constructor
    · intro _ hgreater
      exact absurd hgreater hhalf
    · intro _
      rfl

/-- Two entries that share a fraction above one half. -/
def plateau : CumulativeDistribution where
  entries := [⟨3 / 5, 1⟩, ⟨3 / 5, 2⟩, ⟨1, 3⟩]
  freed := false

/-- A plateau above a half, and a percentile on it. -/
theorem findsFirst_iff_agreesAt_plateau : plateau.FindsFirst (4 / 5) ↔
    plateau.AgreesAt (4 / 5) := by
  have hvalues : plateau.entries.Pairwise fun a b => a.value ≤ b.value := by
    unfold plateau
    decide +kernel
  have hfractions : plateau.entries.Pairwise fun a b => a.fraction ≤ b.fraction := by
    unfold plateau
    decide +kernel
  have hlast : plateau.entries.getLast? = some ⟨1, 3⟩ := by simp [plateau]
  exact findsFirst_iff_agreesAt (by simp [plateau]) hvalues hfractions (by norm_num)
    (by norm_num) hlast
    (by norm_num)

/-- The second of the two entries is found. -/
theorem not_findsFirst_plateau : ¬plateau.FindsFirst (3 / 5) := by
  rintro ⟨entry, hfind, hvalue⟩
  have hfirst : plateau.entries.find? (fun e => 3 / 5 ≤ e.fraction) = some ⟨3 / 5, 1⟩ := by
    unfold plateau
    decide +kernel
  have hsecond : plateau.getValue (3 / 5) = .ok 2 := by
    unfold plateau
    decide +kernel
  rw [hfirst] at hfind
  obtain rfl := Option.some.inj hfind
  rw [hsecond] at hvalue
  exact absurd (Except.ok.inj hvalue) (by norm_num)

end CumulativeDistribution

end ShadowExtras.FileTransfer
