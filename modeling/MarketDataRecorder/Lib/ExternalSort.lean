import Mathlib.Data.List.Sort
import Mathlib.Order.Defs.LinearOrder

/-!
# External sorting

Items are collected into runs of a bounded size, every run is sorted, and the runs are merged a few
at a time until few enough are left for one last merge. A merge takes the least item at the head of
a run, of equal ones the one of the earliest run.

* `mergeRuns_stable` — merging sorted runs is the stable sort of their concatenation
* `externalSort_eq` — for every run size and every fan-in, the external sort is the stable sort
-/

namespace ExternalSort

variable {α κ : Type*} [LinearOrder κ] (key : α → κ)

/-! ## Stable sorts -/

/-- `sort(key = …)`. -/
def sorted (xs : List α) : List α := xs.mergeSort fun a b => key a ≤ key b

/-- `ys` holds the items of `xs` in the order of their keys, those of one key in their old order. -/
structure StableSort (xs ys : List α) : Prop where
  pairwise : ys.Pairwise (key · ≤ key ·)
  filter : ∀ k, (ys.filter fun a => key a = k) = xs.filter fun a => key a = k

variable {key}

theorem StableSort.mem_iff {xs ys : List α} (h : StableSort key xs ys) {a : α} :
    a ∈ ys ↔ a ∈ xs := by
  have hfilter := h.filter (key a)
  constructor
  · intro ha
    have : a ∈ xs.filter fun b => key b = key a := by rw [← hfilter]; simp [ha]
    exact List.mem_of_mem_filter this
  · intro ha
    have : a ∈ ys.filter fun b => key b = key a := by rw [hfilter]; simp [ha]
    exact List.mem_of_mem_filter this

theorem head_le {a : α} {l : List α} (h : (a :: l).Pairwise (key · ≤ key ·)) {b : α}
    (hb : b ∈ a :: l) : key a ≤ key b := by
  rcases List.mem_cons.mp hb with rfl | hb
  · exact le_rfl
  · exact (List.pairwise_cons.mp h).1 b hb

/-- Sorted lists with the same items of every key are the same list. -/
theorem eq_of_filter_eq {ys zs : List α} (hys : ys.Pairwise (key · ≤ key ·))
    (hzs : zs.Pairwise (key · ≤ key ·))
    (h : ∀ k, (ys.filter fun a => key a = k) = zs.filter fun a => key a = k) : ys = zs := by
  induction ys generalizing zs with
  | nil =>
    cases zs with
    | nil => rfl
    | cons b zs => simpa using h (key b)
  | cons a ys ih =>
    cases zs with
    | nil => simpa using h (key a)
    | cons b zs =>
      have ha : a ∈ b :: zs := by
        have : a ∈ (b :: zs).filter fun c => key c = key a := by rw [← h (key a)]; simp
        exact List.mem_of_mem_filter this
      have hb : b ∈ a :: ys := by
        have : b ∈ (a :: ys).filter fun c => key c = key b := by rw [h (key b)]; simp
        exact List.mem_of_mem_filter this
      have hkey : key a = key b := le_antisymm (head_le hys hb) (head_le hzs ha)
      have hhead := h (key a)
      simp only [List.filter_cons, hkey, decide_true, if_true, List.cons.injEq] at hhead
      obtain ⟨rfl, -⟩ := hhead
      congr 1
      refine ih (List.pairwise_cons.mp hys).2 (List.pairwise_cons.mp hzs).2 fun k => ?_
      have hk := h k
      by_cases hak : key a = k <;> simp_all [List.filter_cons]

theorem pairwise_sorted (xs : List α) : (sorted key xs).Pairwise (key · ≤ key ·) := by
  have h := @List.pairwise_mergeSort α (fun a b => decide (key a ≤ key b))
    (by intro a b c hab hbc; simp at *; exact hab.trans hbc)
    (by intro a b; simp; exact le_total _ _) xs
  simpa [sorted] using h

theorem sorted_perm (xs : List α) : (sorted key xs).Perm xs := List.mergeSort_perm _ _

@[simp] theorem mem_sorted {xs : List α} {a : α} : a ∈ sorted key xs ↔ a ∈ xs :=
  (sorted_perm xs).mem_iff

@[simp] theorem length_sorted (xs : List α) : (sorted key xs).length = xs.length :=
  (sorted_perm xs).length_eq

theorem stableSort_sorted (xs : List α) : StableSort key xs (sorted key xs) where
  pairwise := pairwise_sorted xs
  filter k := by
    -- the items of one key form a sorted sublist, which a stable sort keeps
    have hsub : (xs.filter fun a => key a = k).Sublist (sorted key xs) := by
      refine List.sublist_mergeSort (by intro a b c hab hbc; simp at *; exact hab.trans hbc)
        (by intro a b; simp; exact le_total _ _) ?_ List.filter_sublist
      rw [List.pairwise_filter]
      refine List.pairwise_of_forall fun a b ha hb => ?_
      simp only [decide_eq_true_eq] at ha hb
      simp [ha, hb]
    have hfilter := hsub.filter fun a => decide (key a = k)
    rw [List.filter_filter] at hfilter
    simp only [Bool.and_self] at hfilter
    exact (hfilter.eq_of_length (((sorted_perm xs).filter _).length_eq).symm).symm

theorem StableSort.eq_sorted {xs ys : List α} (h : StableSort key xs ys) : ys = sorted key xs :=
  eq_of_filter_eq h.pairwise (pairwise_sorted xs) fun k =>
    (h.filter k).trans ((stableSort_sorted xs).filter k).symm

/-- Sorting and filtering can be exchanged. -/
theorem sorted_filter (xs : List α) (p : α → Bool) :
    sorted key (xs.filter p) = (sorted key xs).filter p := by
  refine (StableSort.eq_sorted ⟨(pairwise_sorted xs).filter p, fun k => ?_⟩).symm
  rw [List.filter_comm, (stableSort_sorted xs).filter k, List.filter_comm]

/-- Lists with the same items have the same sorted list, as soon as a key belongs to one item. -/
theorem sorted_eq_of_perm {xs ys : List α} (hperm : xs.Perm ys)
    (hkey : ∀ a ∈ xs, ∀ b ∈ xs, key a = key b → a = b) : sorted key xs = sorted key ys := by
  refine ((sorted_perm xs).trans (hperm.trans (sorted_perm ys).symm)).eq_of_pairwise ?_
    (pairwise_sorted xs) (pairwise_sorted ys)
  intro a b ha hb hab hba
  exact hkey a (mem_sorted.mp ha) b (hperm.mem_iff.mpr (mem_sorted.mp hb)) (le_antisymm hab hba)

/-! ## Merging runs -/

variable (key)

/-- The heap's least entry, by key and then by run, and the runs without it. -/
def popLeast : List (List α) → Option (α × List (List α))
  | [] => none
  | [] :: runs => (popLeast runs).map fun (b, rest) => (b, [] :: rest)
  | (a :: run) :: runs =>
    match popLeast runs with
    | none => some (a, run :: runs)
    | some (b, rest) => if key a ≤ key b then some (a, run :: runs) else
      some (b, (a :: run) :: rest)

/-- The merge's loop, with one round for each item. -/
def mergeLoop : Nat → List (List α) → List α
  | 0, _ => []
  | rounds + 1, runs =>
    match popLeast key runs with
    | none => []
    | some (a, rest) => a :: mergeLoop rounds rest

/-- `merge_runs`. -/
def mergeRuns (runs : List (List α)) : List α := mergeLoop key runs.flatten.length runs

variable {key}

theorem popLeast_eq_none {runs : List (List α)} (h : popLeast key runs = none) :
    runs.flatten = [] := by
  induction runs with
  | nil => rfl
  | cons run runs ih =>
    cases run with
    | nil => simpa using ih (by simpa [popLeast] using h)
    | cons a run =>
      simp only [popLeast] at h
      split at h
      · cases h
      · split at h <;> cases h

/-- The popped item is the head of a run; the runs before it start with greater keys. -/
theorem popLeast_eq_some {runs rest : List (List α)} {a : α}
    (h : popLeast key runs = some (a, rest)) :
    ∃ before run after, runs = before ++ (a :: run) :: after ∧ rest = before ++ run :: after ∧
      (∀ r ∈ before, ∀ b ∈ r.head?, key a < key b) ∧
      ∀ r ∈ after, ∀ b ∈ r.head?, key a ≤ key b := by
  induction runs generalizing a rest with
  | nil => cases h
  | cons first runs ih =>
    cases first with
    | nil =>
      simp only [popLeast, Option.map_eq_some_iff] at h
      obtain ⟨⟨b, tail⟩, hpop, heq⟩ := h
      obtain ⟨rfl, rfl⟩ := Prod.mk.inj heq
      obtain ⟨before, run, after, rfl, rfl, hbefore, hafter⟩ := ih hpop
      exact ⟨[] :: before, run, after, rfl, rfl, by simpa using hbefore, hafter⟩
    | cons c first =>
      have hkept {b : α} {tail : List (List α)} (hpop : popLeast key runs = some (b, tail))
          (hcb : key c ≤ key b) : ∀ r ∈ runs, ∀ d ∈ r.head?, key c ≤ key d := by
        obtain ⟨before, run, after, rfl, -, hbefore, hafter⟩ := ih hpop
        intro r hr d hd
        rcases List.mem_append.mp hr with hr | hr
        · exact hcb.trans (hbefore r hr d hd).le
        · rcases List.mem_cons.mp hr with rfl | hr
          · obtain rfl : b = d := by simpa using hd
            exact hcb
          · exact hcb.trans (hafter r hr d hd)
      simp only [popLeast] at h
      cases hpop : popLeast key runs with
      | none =>
        rw [hpop] at h
        obtain ⟨rfl, rfl⟩ := Prod.mk.inj (Option.some.inj h)
        refine ⟨[], first, runs, rfl, rfl, by simp, ?_⟩
        intro r hr d hd
        have hempty := List.flatten_eq_nil_iff.mp (popLeast_eq_none hpop) r hr
        simp [hempty] at hd
      | some popped =>
        obtain ⟨b, tail⟩ := popped
        simp only [hpop] at h
        by_cases hcb : key c ≤ key b
        · rw [if_pos hcb] at h
          obtain ⟨rfl, rfl⟩ := Prod.mk.inj (Option.some.inj h)
          exact ⟨[], first, runs, rfl, rfl, by simp, hkept hpop hcb⟩
        · rw [if_neg hcb] at h
          obtain ⟨rfl, rfl⟩ := Prod.mk.inj (Option.some.inj h)
          obtain ⟨before, run, after, rfl, rfl, hbefore, hafter⟩ := ih hpop
          refine ⟨(c :: first) :: before, run, after, rfl, rfl, ?_, hafter⟩
          intro r hr d hd
          rcases List.mem_cons.mp hr with rfl | hr
          · obtain rfl : c = d := by simpa using hd
            exact not_le.mp hcb
          · exact hbefore r hr d hd

/-- Every run is sorted. -/
abbrev AllSorted (key : α → κ) (runs : List (List α)) : Prop :=
  ∀ run ∈ runs, run.Pairwise (key · ≤ key ·)

/-- A bound on the heads of sorted runs bounds all their items. -/
theorem AllSorted.forall_mem {runs : List (List α)} (hruns : AllSorted key runs) {P : κ → Prop}
    (hP : ∀ k k', k ≤ k' → P k → P k') (h : ∀ r ∈ runs, ∀ b ∈ r.head?, P (key b)) :
    ∀ b ∈ runs.flatten, P (key b) := by
  intro b hb
  obtain ⟨run, hrun, hb⟩ := List.mem_flatten.mp hb
  cases run with
  | nil => cases hb
  | cons c run => exact hP _ _ (head_le (hruns _ hrun) hb) (h _ hrun c (by simp))

/-- What one round of the merge does to the items that are left. -/
theorem popLeast_spec {runs rest : List (List α)} {a : α} (hruns : AllSorted key runs)
    (h : popLeast key runs = some (a, rest)) :
    AllSorted key rest ∧ runs.flatten.length = rest.flatten.length + 1 ∧
      (∀ b ∈ rest.flatten, key a ≤ key b) ∧
      ∀ k, (runs.flatten.filter fun b => key b = k) =
        (a :: rest.flatten).filter fun b => key b = k := by
  obtain ⟨before, run, after, rfl, rfl, hbefore, hafter⟩ := popLeast_eq_some h
  have hrun : (a :: run).Pairwise (key · ≤ key ·) := hruns _ (by simp)
  have hless : ∀ b ∈ before.flatten, key a < key b :=
    AllSorted.forall_mem (fun r hr => hruns r (by simp [hr])) (fun _ _ hle hlt => hlt.trans_le hle)
      hbefore
  have hle : ∀ b ∈ after.flatten, key a ≤ key b :=
    AllSorted.forall_mem (fun r hr => hruns r (by simp [hr])) (fun _ _ hle hlt => hlt.trans hle)
      hafter
  refine ⟨?_, ?_, ?_, ?_⟩
  · intro r hr
    rcases List.mem_append.mp hr with hr | hr
    · exact hruns r (by simp [hr])
    · rcases List.mem_cons.mp hr with rfl | hr
      · exact (List.pairwise_cons.mp hrun).2
      · exact hruns r (by simp [hr])
  · simp; omega
  · intro b hb
    simp only [List.flatten_append, List.flatten_cons, List.mem_append] at hb
    rcases hb with hb | hb | hb
    · exact (hless b hb).le
    · exact (List.pairwise_cons.mp hrun).1 b hb
    · exact hle b hb
  · intro k
    by_cases hk : key a = k
    · have hnone : (before.flatten.filter fun b => decide (key b = k)) = [] := by
        rw [List.filter_eq_nil_iff]
        intro b hb
        simpa [← hk] using (hless b hb).ne'
      simp [hk, hnone]
    · simp [hk]

theorem mergeLoop_stable {rounds : Nat} {runs : List (List α)} (hruns : AllSorted key runs)
    (hrounds : runs.flatten.length ≤ rounds) :
    StableSort key runs.flatten (mergeLoop key rounds runs) := by
  induction rounds generalizing runs with
  | zero =>
    have hnil : runs.flatten = [] := List.eq_nil_of_length_eq_zero (Nat.le_zero.mp hrounds)
    rw [hnil]
    exact ⟨List.Pairwise.nil, fun _ => rfl⟩
  | succ rounds ih =>
    simp only [mergeLoop]
    cases hpop : popLeast key runs with
    | none =>
      rw [popLeast_eq_none hpop]
      exact ⟨List.Pairwise.nil, fun _ => rfl⟩
    | some popped =>
      obtain ⟨a, rest⟩ := popped
      obtain ⟨hrest, hlength, hleast, hfilter⟩ := popLeast_spec hruns hpop
      have hloop := ih hrest (by omega)
      constructor
      · refine List.pairwise_cons.mpr ⟨?_, hloop.pairwise⟩
        intro b hb
        exact hleast b (hloop.mem_iff.mp hb)
      · intro k
        rw [hfilter k]
        simp only [List.filter_cons, hloop.filter k]

/-- Merging sorted runs is the stable sort of their concatenation. -/
theorem mergeRuns_stable {runs : List (List α)} (hruns : AllSorted key runs) :
    StableSort key runs.flatten (mergeRuns key runs) := mergeLoop_stable hruns le_rfl

/-! ## Merging in groups -/

variable (key)

/-- The greatest number of runs one merge reads: a merge of fewer than two would not end. -/
abbrev FanIn := { n : Nat // 2 ≤ n }

/-- One generation: groups of `fanIn` runs, each merged to one. -/
def mergeGroups (fanIn : Nat) : Nat → List (List α) → List (List α)
  | 0, _ => []
  | rounds + 1, runs =>
    if runs = [] then [] else
      mergeRuns key (runs.take fanIn) :: mergeGroups fanIn rounds (runs.drop fanIn)

/-- `collapse_runs`: generations of merges until one merge can read all runs. -/
def collapseRuns (fanIn : FanIn) : Nat → List (List α) → List (List α)
  | 0, runs => runs
  | generations + 1, runs =>
    if runs.length ≤ fanIn.val then runs
    else collapseRuns fanIn generations (mergeGroups key fanIn.val runs.length runs)

/-- The batches of the reading loop: a batch is closed as soon as it has `size` items. -/
def batches (size : Nat) : List α → List α → List (List α)
  | batch, [] => if batch = [] then [] else [batch]
  | batch, a :: rest =>
    if size ≤ batch.length + 1 then (batch ++ [a]) :: batches size [] rest
    else batches size (batch ++ [a]) rest

/-- `external_sort`. -/
def externalSort (size : Nat) (fanIn : FanIn) (xs : List α) : List α :=
  let runs := (batches size [] xs).map (sorted key)
  mergeRuns key (collapseRuns key fanIn runs.length runs)

variable {key}

theorem mergeGroups_spec {fanIn rounds : Nat} (hfan : 1 ≤ fanIn) {runs : List (List α)}
    (hruns : AllSorted key runs) (hrounds : runs.length ≤ rounds) :
    AllSorted key (mergeGroups key fanIn rounds runs) ∧
      ∀ k, ((mergeGroups key fanIn rounds runs).flatten.filter fun a => key a = k) =
        runs.flatten.filter fun a => key a = k := by
  induction rounds generalizing runs with
  | zero =>
    obtain rfl : runs = [] := List.eq_nil_of_length_eq_zero (Nat.le_zero.mp hrounds)
    exact ⟨hruns, fun _ => rfl⟩
  | succ rounds ih =>
    simp only [mergeGroups]
    by_cases hnil : runs = []
    · rw [if_pos hnil, hnil]
      exact ⟨hnil ▸ hruns, fun _ => rfl⟩
    · rw [if_neg hnil]
      have hlength : 1 ≤ runs.length := List.length_pos_iff.mpr hnil
      have htake : AllSorted key (runs.take fanIn) :=
        fun r hr => hruns r (List.mem_of_mem_take hr)
      have hdrop : AllSorted key (runs.drop fanIn) :=
        fun r hr => hruns r (List.mem_of_mem_drop hr)
      have hmerge := mergeRuns_stable htake
      obtain ⟨hsorted, hfilter⟩ := ih hdrop (by simp; omega)
      refine ⟨List.forall_mem_cons.mpr ⟨hmerge.pairwise, hsorted⟩, fun k => ?_⟩
      rw [List.flatten_cons, List.filter_append, hmerge.filter k, hfilter k, ← List.filter_append,
        ← List.flatten_append, List.take_append_drop]

theorem collapseRuns_spec {fanIn : FanIn} {generations : Nat} {runs : List (List α)}
    (hruns : AllSorted key runs) :
    AllSorted key (collapseRuns key fanIn generations runs) ∧
      ∀ k, ((collapseRuns key fanIn generations runs).flatten.filter fun a => key a = k) =
        runs.flatten.filter fun a => key a = k := by
  induction generations generalizing runs with
  | zero => exact ⟨hruns, fun _ => rfl⟩
  | succ generations ih =>
    simp only [collapseRuns]
    split
    · exact ⟨hruns, fun _ => rfl⟩
    · have hfan : 1 ≤ fanIn.val := Nat.le_of_succ_le fanIn.property
      obtain ⟨hsorted, hfilter⟩ := mergeGroups_spec hfan hruns le_rfl
      obtain ⟨hsorted', hfilter'⟩ := ih hsorted
      exact ⟨hsorted', fun k => (hfilter' k).trans (hfilter k)⟩

theorem flatten_batches (size : Nat) (batch xs : List α) :
    (batches size batch xs).flatten = batch ++ xs := by
  induction xs generalizing batch with
  | nil => by_cases h : batch = [] <;> simp [batches, h]
  | cons a xs ih =>
    simp only [batches]
    split <;> simp [ih]

theorem filter_flatten_map_sorted (runs : List (List α)) (k : κ) :
    ((runs.map (sorted key)).flatten.filter fun a => key a = k) =
      runs.flatten.filter fun a => key a = k := by
  induction runs with
  | nil => rfl
  | cons run runs ih => simp [ih, (stableSort_sorted run).filter k]

/-- For every run size and every fan-in, the external sort is the stable sort. -/
theorem externalSort_eq (size : Nat) (fanIn : FanIn) (xs : List α) :
    externalSort key size fanIn xs = sorted key xs := by
  have hruns : AllSorted key ((batches size [] xs).map (sorted key)) := by
    intro run hrun
    obtain ⟨batch, -, rfl⟩ := List.mem_map.mp hrun
    exact pairwise_sorted batch
  obtain ⟨hsorted, hfilter⟩ := @collapseRuns_spec _ _ _ key fanIn
    ((batches size [] xs).map (sorted key)).length _ hruns
  have hmerge := mergeRuns_stable hsorted
  refine StableSort.eq_sorted ⟨hmerge.pairwise, fun k => ?_⟩
  rw [externalSort, hmerge.filter k, hfilter k, filter_flatten_map_sorted, flatten_batches,
    List.nil_append]

end ExternalSort
