import Mathlib.Algebra.BigOperators.Group.Finset.Basic
import Mathlib.Data.Prod.Lex
import MarketDataRecorder.Lib.ExternalSort
import MarketDataRecorder.Lib.Grouping
import MarketDataRecorder.Normalize.Candidate

/-!
# Deduplication

`_external_sort` and `_deduplicate_to_partitions` of `normalize/pipeline.py`: the candidates of a
build are sorted through spilled runs, grouped by semantic identity and then by logical content, and
every group of the inner kind becomes one row.

* `candidatesOf_identified` — the sort key identifies a candidate among those of a build
* `deduplicated_emitRows` — the rows of sorted candidates, one for each pair of identity and content
* `deduplication_sound` — for every run size and fan-in, and for every order of the candidates
-/

namespace MarketDataRecorder

open ExternalSort Grouping

/-! ## The sort key -/

abbrev CandidateKey := String ×ₗ String ×ₗ Nat ×ₗ String ×ₗ Nat ×ₗ Nat ×ₗ String ×ₗ String

/-- `_candidate_sort_key`. -/
def candidateSortKey (c : Candidate) : CandidateKey :=
  toLex (c.semanticKeySha256, toLex (c.logicalRecordSha256, toLex (c.provenance.receiveTimeUtcNs,
    toLex (c.provenance.sourceChunkSha256, toLex (c.provenance.sourceRecordOrdinal,
      toLex (c.provenance.sourceSubrecordOrdinal, toLex (c.provenance.collectorInstanceId,
        c.provenance.connectionId)))))))

/-- No two candidates share a sort key. -/
def Identified (candidates : List Candidate) : Prop :=
  ∀ c ∈ candidates, ∀ d ∈ candidates, candidateSortKey c = candidateSortKey d → c = d

instance (candidates : List Candidate) : Decidable (Identified candidates) :=
  inferInstanceAs (Decidable (∀ c ∈ candidates, ∀ d ∈ candidates, _ → _))

/-! ## Grouping -/

/-- Semantic identity and logical content. -/
abbrev IdentityPair := String ×ₗ String

def Candidate.pair (c : Candidate) : IdentityPair :=
  toLex (c.semanticKeySha256, c.logicalRecordSha256)

/-- `_winner`. -/
def winner (variant : List Candidate) (conflict : Bool) : Option NormalizedRow :=
  match sorted candidateSortKey variant with
  | [] => none
  | selected :: rest => some { selected.row with
      duplicateCount := (selected :: rest).length
      duplicateSourcesJson :=
        canonicalJson (.list ((selected :: rest).map fun c => c.provenance.toValue))
      identityConflict := conflict }

/-- `emit`: the rows of one semantic identity, in the order of their logical hashes. -/
def emitRows (selected : List Candidate) : List NormalizedRow :=
  let variants := (byKey Candidate.logicalRecordSha256 selected).items
  variants.filterMap fun variant => winner variant.2 (decide (1 < variants.length))

/-- The rows of the sorted candidates, in the order in which they are written. -/
def emittedRows (sortedCandidates : List Candidate) : List NormalizedRow :=
  (adjacent Candidate.semanticKeySha256 none [] sortedCandidates).flatMap emitRows

abbrev PartitionKey := String ×ₗ String ×ₗ String ×ₗ Nat

def NormalizedRow.partitionKey (row : NormalizedRow) : PartitionKey :=
  toLex (row.market, toLex (row.stream, toLex (row.receiveDate, row.receiveHour)))

/-- `_deduplicate_to_partitions`: the rows, appended to the partitions they belong to. -/
def deduplicateToPartitions (sortedCandidates : List Candidate) :
    SortedDict PartitionKey (List NormalizedRow) :=
  byKey NormalizedRow.partitionKey (emittedRows sortedCandidates)

/-! ## What the rows have to be -/

/-- The candidates of one identity and content. -/
def variantOf (candidates : List Candidate) (pair : IdentityPair) : List Candidate :=
  candidates.filter fun c => c.pair = pair

/-- More than one logical content under an identity. -/
def Conflicting (candidates : List Candidate) (semantic : String) : Prop :=
  ∃ c ∈ candidates, ∃ d ∈ candidates, c.semanticKeySha256 = semantic ∧
    d.semanticKeySha256 = semantic ∧ c.logicalRecordSha256 ≠ d.logicalRecordSha256

/-- The row that stands for all candidates of a pair: the one of the least candidate, with the count
and the sources of all and the conflict of their identity. -/
structure Represents (candidates : List Candidate) (pair : IdentityPair) (row : NormalizedRow) :
    Prop where
  least : ∃ selected ∈ variantOf candidates pair,
    (∀ c ∈ variantOf candidates pair, candidateSortKey selected ≤ candidateSortKey c) ∧
    row = { selected.row with
      duplicateCount := row.duplicateCount
      duplicateSourcesJson := row.duplicateSourcesJson
      identityConflict := row.identityConflict }
  count : row.duplicateCount = (variantOf candidates pair).length
  sources : ∃ sources : List Candidate, sources.Perm (variantOf candidates pair) ∧
    sources.Pairwise (candidateSortKey · ≤ candidateSortKey ·) ∧
    row.duplicateSourcesJson = canonicalJson (.list (sources.map fun c => c.provenance.toValue))
  conflict : row.identityConflict = true ↔ Conflicting candidates (ofLex pair).1

/-- One row for every pair that occurs, none for any other, and every candidate counted once. -/
structure Deduplicated (candidates : List Candidate) (rows : List NormalizedRow) : Prop where
  pairs : ∃ pairs : List IdentityPair, pairs.Pairwise (· < ·) ∧
    (∀ pair, pair ∈ pairs ↔ ∃ c ∈ candidates, c.pair = pair) ∧
    List.Forall₂ (Represents candidates) pairs rows
  accounted : (rows.map NormalizedRow.duplicateCount).sum = candidates.length

/-! ## One group -/

theorem winner_spec {variant : List Candidate} {conflict : Bool} (h : variant ≠ []) :
    ∃ row, winner variant conflict = some row ∧
      (∃ selected ∈ variant, (∀ c ∈ variant, candidateSortKey selected ≤ candidateSortKey c) ∧
        row = { selected.row with
          duplicateCount := row.duplicateCount
          duplicateSourcesJson := row.duplicateSourcesJson
          identityConflict := row.identityConflict }) ∧
      row.duplicateCount = variant.length ∧ row.identityConflict = conflict ∧
      row.duplicateSourcesJson = canonicalJson
        (.list ((sorted candidateSortKey variant).map fun c => c.provenance.toValue)) := by
  have hlength : (sorted candidateSortKey variant).length = variant.length := length_sorted variant
  have hpairwise : (sorted candidateSortKey variant).Pairwise
      (candidateSortKey · ≤ candidateSortKey ·) := pairwise_sorted variant
  have hmem : ∀ c, c ∈ sorted candidateSortKey variant ↔ c ∈ variant := fun c => mem_sorted
  unfold winner
  cases hordered : sorted candidateSortKey variant with
  | nil =>
    rw [hordered] at hlength
    exact absurd (List.eq_nil_of_length_eq_zero hlength.symm) h
  | cons selected rest =>
    rw [hordered] at hlength hpairwise hmem
    refine ⟨_, rfl, ⟨selected, (hmem selected).mp (by simp), ?_, rfl⟩, hlength, rfl, rfl⟩
    intro c hc
    exact head_le hpairwise ((hmem c).mpr hc)

theorem forall₂_map_filterMap {α β γ : Type} {R : β → γ → Prop} {f : α → β} {g : α → Option γ} :
    ∀ {items : List α}, (∀ a ∈ items, ∃ c, g a = some c ∧ R (f a) c) →
      List.Forall₂ R (items.map f) (items.filterMap g)
  | [], _ => .nil
  | a :: items, h => by
    obtain ⟨⟨c, hc, hR⟩, hitems⟩ := List.forall_mem_cons.mp h
    rw [List.map_cons, List.filterMap_cons_some hc]
    exact .cons hR (forall₂_map_filterMap hitems)

theorem forall₂_flatMap {α β γ : Type} {R : β → γ → Prop} {f : α → List β} {g : α → List γ} :
    ∀ {items : List α}, (∀ a ∈ items, List.Forall₂ R (f a) (g a)) →
      List.Forall₂ R (items.flatMap f) (items.flatMap g)
  | [], _ => .nil
  | a :: items, h => by
    obtain ⟨ha, hitems⟩ := List.forall_mem_cons.mp h
    rw [List.flatMap_cons, List.flatMap_cons]
    exact List.rel_append ha (forall₂_flatMap hitems)

/-- More than one variant of an identity is a conflict of it. -/
theorem conflicting_iff {candidates group : List Candidate} {s : String}
    (hgroup : ∀ c, c ∈ group ↔ c ∈ candidates ∧ c.semanticKeySha256 = s) :
    1 < (byKey Candidate.logicalRecordSha256 group).items.length ↔ Conflicting candidates s := by
  have hsorted := (byKey Candidate.logicalRecordSha256 group).sorted
  have hitem : ∀ v ∈ (byKey Candidate.logicalRecordSha256 group).items,
      ∃ c ∈ group, c.logicalRecordSha256 = v.1 := fun v hv =>
    (get?_byKey.mp (SortedDict.get?_eq_some_iff.mpr hv)).2
  constructor
  · intro hlength
    match hitems : (byKey Candidate.logicalRecordSha256 group).items with
    | [] => simp [hitems] at hlength
    | [v] => simp [hitems] at hlength
    | v :: w :: rest =>
      rw [hitems] at hsorted hitem
      obtain ⟨c, hc, hcv⟩ := hitem v (by simp)
      obtain ⟨d, hd, hdw⟩ := hitem w (by simp)
      have hlt : v.1 < w.1 := (List.pairwise_cons.mp hsorted).1 w (by simp)
      exact ⟨c, ((hgroup c).mp hc).1, d, ((hgroup d).mp hd).1, ((hgroup c).mp hc).2,
        ((hgroup d).mp hd).2, by rw [hcv, hdw]; exact hlt.ne⟩
  · rintro ⟨c, hc, d, hd, hcs, hds, hne⟩
    have hfound : ∀ e ∈ candidates, e.semanticKeySha256 = s →
        ∃ v ∈ (byKey Candidate.logicalRecordSha256 group).items, v.1 = e.logicalRecordSha256 := by
      intro e he hes
      have hget := get?_byKey.mpr (show _ ∧ ∃ a ∈ group, a.logicalRecordSha256 =
        e.logicalRecordSha256 from ⟨rfl, e, (hgroup e).mpr ⟨he, hes⟩, rfl⟩)
      exact ⟨_, SortedDict.get?_eq_some_iff.mp hget, rfl⟩
    obtain ⟨v, hv, hvc⟩ := hfound c hc hcs
    obtain ⟨w, hw, hwd⟩ := hfound d hd hds
    by_contra hlength
    match hitems : (byKey Candidate.logicalRecordSha256 group).items with
    | [] => simp [hitems] at hv
    | [u] =>
      rw [hitems, List.mem_singleton] at hv hw
      rw [hv] at hvc
      rw [hw] at hwd
      exact hne (hvc.symm.trans hwd)
    | u :: u' :: rest => simp [hitems] at hlength

/-- The rows of one semantic identity. -/
theorem emitRows_spec {candidates group : List Candidate} {s : String}
    (hgroup : group.Perm (candidates.filter fun c => c.semanticKeySha256 = s)) :
    List.Forall₂ (Represents candidates)
      ((byKey Candidate.logicalRecordSha256 group).items.map fun v => toLex (s, v.1))
      (emitRows group) := by
  have hmem : ∀ c, c ∈ group ↔ c ∈ candidates ∧ c.semanticKeySha256 = s := by
    intro c
    rw [hgroup.mem_iff]
    simp
  refine forall₂_map_filterMap fun variant hvariant => ?_
  obtain ⟨l, items⟩ := variant
  obtain ⟨hitems, c, hc, hcl⟩ := get?_byKey.mp (SortedDict.get?_eq_some_iff.mpr hvariant)
  have hperm : items.Perm (variantOf candidates (toLex (s, l))) := by
    have hfilter := hgroup.filter fun c => decide (c.logicalRecordSha256 = l)
    rw [← hitems, List.filter_filter] at hfilter
    refine hfilter.trans (List.Perm.of_eq (List.filter_congr fun c _ => ?_))
    simp [Candidate.pair, Bool.and_comm]
  have hne : items ≠ [] := by
    rw [hitems]
    exact List.ne_nil_of_mem (List.mem_filter.mpr ⟨hc, by simpa using hcl⟩)
  obtain ⟨row, hrow, ⟨selected, hselected, hleast, heq⟩, hcount, hconflict, hsources⟩ :=
    @winner_spec _ (decide (1 < (byKey Candidate.logicalRecordSha256 group).items.length)) hne
  refine ⟨row, hrow, ⟨selected, hperm.mem_iff.mp hselected, ?_, heq⟩, ?_, ?_, ?_⟩
  · intro d hd
    exact hleast d (hperm.mem_iff.mpr hd)
  · rw [hcount, hperm.length_eq]
  · exact ⟨_, (sorted_perm items).trans hperm, pairwise_sorted items, hsources⟩
  · rw [hconflict, decide_eq_true_eq, conflicting_iff hmem]
    rfl

/-! ## All groups -/

theorem semantic_le_of_sortKey_le {c d : Candidate}
    (h : candidateSortKey c ≤ candidateSortKey d) : c.semanticKeySha256 ≤ d.semanticKeySha256 := by
  rcases Prod.Lex.le_iff.mp h with hlt | ⟨heq, -⟩
  · exact hlt.le
  · exact heq.le

/-- The pairs of the rows, in the order of the rows. -/
def emittedPairs (sortedCandidates : List Candidate) : List IdentityPair :=
  (byKey Candidate.semanticKeySha256 sortedCandidates).items.flatMap fun group =>
    (byKey Candidate.logicalRecordSha256 group.2).items.map fun v => toLex (group.1, v.1)

theorem emittedRows_eq {candidates : List Candidate}
    (h : candidates.Pairwise (candidateSortKey · ≤ candidateSortKey ·)) :
    emittedRows candidates =
      (byKey Candidate.semanticKeySha256 candidates).items.flatMap fun group =>
        emitRows group.2 := by
  rw [emittedRows, adjacent_eq (h.imp semantic_le_of_sortKey_le), List.flatMap_map]

theorem represents_emittedRows (candidates : List Candidate) :
    List.Forall₂ (Represents candidates) (emittedPairs (sorted candidateSortKey candidates))
      (emittedRows (sorted candidateSortKey candidates)) := by
  rw [emittedRows_eq (pairwise_sorted candidates)]
  refine forall₂_flatMap fun group hgroup => ?_
  obtain ⟨s, items⟩ := group
  obtain ⟨hitems, -⟩ := get?_byKey.mp (SortedDict.get?_eq_some_iff.mpr hgroup)
  refine emitRows_spec ?_
  rw [hitems]
  exact (sorted_perm candidates).filter _

theorem mem_emittedPairs {candidates : List Candidate} {pair : IdentityPair} :
    pair ∈ emittedPairs candidates ↔ ∃ c ∈ candidates, c.pair = pair := by
  simp only [emittedPairs, List.mem_flatMap, List.mem_map]
  constructor
  · rintro ⟨⟨s, group⟩, hgroup, ⟨l, variant⟩, hvariant, rfl⟩
    obtain ⟨hitems, -⟩ := get?_byKey.mp (SortedDict.get?_eq_some_iff.mpr hgroup)
    obtain ⟨-, c, hc, hcl⟩ := get?_byKey.mp (SortedDict.get?_eq_some_iff.mpr hvariant)
    rw [hitems, List.mem_filter] at hc
    refine ⟨c, hc.1, ?_⟩
    rw [Candidate.pair, hcl, of_decide_eq_true hc.2]
  · rintro ⟨c, hc, rfl⟩
    have hgroup := get?_byKey.mpr (show _ ∧ ∃ a ∈ candidates, a.semanticKeySha256 =
      c.semanticKeySha256 from ⟨rfl, c, hc, rfl⟩)
    have hvariant := get?_byKey.mpr (show _ ∧ ∃ a ∈ candidates.filter fun a =>
      decide (a.semanticKeySha256 = c.semanticKeySha256), a.logicalRecordSha256 =
      c.logicalRecordSha256 from ⟨rfl, c, by simp [hc], rfl⟩)
    exact ⟨_, SortedDict.get?_eq_some_iff.mp hgroup, _, SortedDict.get?_eq_some_iff.mp hvariant,
      rfl⟩

theorem pairwise_emittedPairs (candidates : List Candidate) :
    (emittedPairs candidates).Pairwise (· < ·) := by
  rw [emittedPairs, List.pairwise_flatMap]
  constructor
  · intro group _
    refine List.pairwise_map.mpr ((byKey _ group.2).sorted.imp fun hlt => ?_)
    exact Prod.Lex.toLex_lt_toLex.mpr (Or.inr ⟨rfl, hlt⟩)
  · refine (byKey _ candidates).sorted.imp fun hlt => ?_
    intro p hp q hq
    obtain ⟨v, -, rfl⟩ := List.mem_map.mp hp
    obtain ⟨w, -, rfl⟩ := List.mem_map.mp hq
    exact Prod.Lex.toLex_lt_toLex.mpr (Or.inl hlt)

/-- The sizes of the variants add up to the number of candidates. -/
theorem sum_length_variantOf {pairs : List IdentityPair} (hnodup : pairs.Nodup) :
    ∀ {candidates : List Candidate}, (∀ c ∈ candidates, c.pair ∈ pairs) →
      (pairs.map fun pair => (variantOf candidates pair).length).sum = candidates.length
  | [], _ => by simp [variantOf]
  | c :: candidates, h => by
    obtain ⟨hc, hrest⟩ := List.forall_mem_cons.mp h
    have hlength : ∀ pair, (variantOf (c :: candidates) pair).length =
        (if c.pair = pair then 1 else 0) + (variantOf candidates pair).length := by
      intro pair
      rw [variantOf, List.filter_cons]
      by_cases hpair : c.pair = pair
      · simp [hpair, variantOf, Nat.add_comm]
      · simp [hpair, variantOf]
    have hone : (pairs.map fun pair => if c.pair = pair then 1 else 0).sum = 1 := by
      rw [← List.sum_toFinset _ hnodup, Finset.sum_ite_eq, if_pos (List.mem_toFinset.mpr hc)]
    simp only [hlength]
    rw [List.sum_map_add, hone, sum_length_variantOf hnodup hrest, List.length_cons, Nat.add_comm]

theorem sum_duplicateCount {candidates : List Candidate} {pairs : List IdentityPair}
    {rows : List NormalizedRow} (h : List.Forall₂ (Represents candidates) pairs rows) :
    (rows.map NormalizedRow.duplicateCount).sum =
      (pairs.map fun pair => (variantOf candidates pair).length).sum := by
  induction h with
  | nil => rfl
  | cons hrow _ ih => rw [List.map_cons, List.map_cons, List.sum_cons,
    List.sum_cons, hrow.count, ih]

/-- The rows written for the sorted candidates are the ones wanted. -/
theorem deduplicated_emittedRows (candidates : List Candidate) :
    Deduplicated candidates (emittedRows (sorted candidateSortKey candidates)) := by
  have hrepresents := represents_emittedRows candidates
  have hpairwise := pairwise_emittedPairs (sorted candidateSortKey candidates)
  have hmem : ∀ pair, pair ∈ emittedPairs (sorted candidateSortKey candidates) ↔
      ∃ c ∈ candidates, c.pair = pair := by
    intro pair
    simp [mem_emittedPairs]
  refine ⟨⟨_, hpairwise, hmem, hrepresents⟩, ?_⟩
  rw [sum_duplicateCount hrepresents]
  exact sum_length_variantOf (hpairwise.imp ne_of_lt) fun c hc => (hmem _).mpr ⟨c, hc, rfl⟩

/-! ## Every order, every run size -/

/-- The partitions of a build: candidates, through the external sort, to rows. -/
def buildPartitions (runSize : Nat) (fanIn : FanIn) (candidates : List Candidate) :
    SortedDict PartitionKey (List NormalizedRow) :=
  deduplicateToPartitions (externalSort candidateSortKey runSize fanIn candidates)

theorem buildPartitions_eq (runSize : Nat) (fanIn : FanIn) (candidates : List Candidate) :
    buildPartitions runSize fanIn candidates =
      byKey NormalizedRow.partitionKey (emittedRows (sorted candidateSortKey candidates)) := by
  rw [buildPartitions, externalSort_eq, deduplicateToPartitions]

/-- The hash of a source chunk's content identifies the chunk. -/
def ContentAddressed (sources : List SourceArtifact) : Prop :=
  ∀ a ∈ sources, ∀ b ∈ sources,
    a.chunk.uncompressedSha256 = b.chunk.uncompressedSha256 → a = b

section

variable {codec : Codec} {reader : Normalize.PayloadReader} {window : BuildWindow}

/-- Source hash, record ordinal and subrecord ordinal lead back to the event. -/
theorem candidatesOf_identified {sources : List SourceArtifact} {candidates : List Candidate}
    (hsources : ContentAddressed sources)
    (h : candidatesOf codec reader window sources = .ok candidates) : Identified candidates := by
  intro c hc d hd hkey
  obtain ⟨source, hsource, record, hrecord, events, hevents, parsed, hparsed, hcandidate⟩ :=
    exists_of_mem_candidatesOf h hc
  obtain ⟨source', hsource', record', hrecord', events', hevents', parsed', hparsed',
    hcandidate'⟩ :=
    exists_of_mem_candidatesOf h hd
  simp only [candidateSortKey, EmbeddingLike.apply_eq_iff_eq, Prod.mk.injEq,
    provenance_candidate hcandidate, provenance_candidate hcandidate', provenanceOf] at hkey
  obtain ⟨-, -, -, hsha, hordinal, hsubrecord, -, -⟩ := hkey
  obtain rfl := hsources source hsource source' hsource' hsha
  obtain rfl := iterSourceRecords_inj hrecord hrecord' hordinal
  obtain rfl : events = events' := Except.ok.inj (hevents.symm.trans hevents')
  have hnumbers := Normalize.parseEnvelope_numbers codec reader record.envelope events hevents
  obtain rfl := List.inj_on_of_nodup_map hnumbers hparsed hparsed' hsubrecord
  exact Except.ok.inj (hcandidate.symm.trans hcandidate')

/-- Reordered sources give the same candidates in another order. -/
theorem candidatesOf_perm {sources sources' : List SourceArtifact} (hperm : sources'.Perm sources)
    {candidates : List Candidate} (h : candidatesOf codec reader window sources = .ok candidates) :
    ∃ candidates', candidatesOf codec reader window sources' = .ok candidates' ∧
      candidates'.Perm candidates := by
  obtain ⟨found, hfound, h⟩ := except_bind_eq_ok h
  obtain rfl : found.flatten = candidates := Except.ok.inj h
  obtain ⟨found', hfound', hp⟩ := Fallible.mapM_perm hperm hfound
  refine ⟨found'.flatten, ?_, hp.flatten⟩
  rw [candidatesOf, hfound']
  rfl

end

/--
Deduplication is what it is meant to be, for every list of candidates and for every run size and
fan-in: one row for each pair of identity and content, in its partition. The partitions depend on
nothing else: not on the run size and the fan-in, not on the order of candidates that their sort
keys identify, and not on the order of the source chunks.
-/
theorem deduplication_sound (candidates : List Candidate) (runSize : Nat) (fanIn : FanIn) :
    (∃ rows, Deduplicated candidates rows ∧
      (∀ key row, row ∈ ((buildPartitions runSize fanIn candidates).get? key).getD [] ↔
        row ∈ rows ∧ row.partitionKey = key) ∧
      ((buildPartitions runSize fanIn candidates).items.flatMap Prod.snd).Perm rows) ∧
    (∀ runSize' fanIn',
      buildPartitions runSize' fanIn' candidates = buildPartitions runSize fanIn candidates) ∧
    (∀ candidates', candidates'.Perm candidates → Identified candidates → ∀ runSize' fanIn',
      buildPartitions runSize' fanIn' candidates' = buildPartitions runSize fanIn candidates) ∧
    ∀ codec reader window sources sources', ContentAddressed sources →
      candidatesOf codec reader window sources = .ok candidates → sources'.Perm sources →
      ∃ candidates', candidatesOf codec reader window sources' = .ok candidates' ∧
        ∀ runSize' fanIn', buildPartitions runSize' fanIn' candidates' =
          buildPartitions runSize fanIn candidates := by
  have hreordered : ∀ candidates', candidates'.Perm candidates → Identified candidates →
      ∀ runSize' fanIn',
      buildPartitions runSize' fanIn' candidates' = buildPartitions runSize fanIn candidates := by
    intro candidates' hperm hidentified runSize' fanIn'
    rw [buildPartitions_eq, buildPartitions_eq, sorted_eq_of_perm hperm.symm hidentified]
  refine ⟨⟨emittedRows (sorted candidateSortKey candidates), deduplicated_emittedRows candidates,
    ?_, ?_⟩, ?_, hreordered, ?_⟩
  · intro key row
    rw [buildPartitions_eq, getD_byKey]
    simp
  · rw [buildPartitions_eq]
    exact flatMap_byKey_perm _
  · intro runSize' fanIn'
    rw [buildPartitions_eq, buildPartitions_eq]
  · intro codec reader window sources sources' hsources h hperm
    obtain ⟨candidates', h', hp⟩ := candidatesOf_perm hperm h
    exact ⟨candidates', h', hreordered candidates' hp (candidatesOf_identified hsources h)⟩

/-- A candidate of one stream, in one hour. -/
def sampleCandidate (semantic logical : String) (receiveTimeUtcNs ordinal : Nat) : Candidate where
  semanticKeySha256 := semantic
  logicalRecordSha256 := logical
  provenance := ⟨"chunk", "hash", ordinal, 0, receiveTimeUtcNs, "collector", "connection"⟩
  row := ⟨"spot", "agg_trade", "2024-02-29", 12, 1, "[]", false, .dict []⟩

theorem deduplication_sound_sample :
    buildPartitions 1 ⟨2, le_rfl⟩
        [sampleCandidate "s" "m" 3 2, sampleCandidate "s" "l" 2 1, sampleCandidate "s" "l" 1 0] =
      buildPartitions 2 ⟨3, by decide⟩
        [sampleCandidate "s" "l" 1 0, sampleCandidate "s" "l" 2 1, sampleCandidate "s" "m" 3 2] :=
  (deduplication_sound
    [sampleCandidate "s" "l" 1 0, sampleCandidate "s" "l" 2 1, sampleCandidate "s" "m" 3 2]
    2 ⟨3, by decide⟩).2.2.1 _ (by decide) (by decide) 1 ⟨2, le_rfl⟩

end MarketDataRecorder
