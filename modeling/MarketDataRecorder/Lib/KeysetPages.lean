import Mathlib.Data.List.Sort

/-!
# Reading page by page

A reader asks for the rows behind the last key it has seen, in key order and so many at a time,
until a page is empty. Where no two rows have the same key, that reads every row behind the first
key, once and in key order.

* `page` — one page
* `pages` — pages to the first that is empty
* `pages_eq` — what they read
-/

namespace KeysetPages

variable {α κ : Type} [LinearOrder κ] (key : α → κ)

/-- The rows behind a key; all of them where there is none. -/
def behind : Option κ → List α → List α
  | none, rows => rows
  | some after, rows => rows.filter fun row => after < key row

def inKeyOrder (rows : List α) : List α := rows.insertionSort fun a b => key a ≤ key b

def page (limit : Nat) (rows : List α) (after : Option κ) : List α :=
  (inKeyOrder key (behind key after rows)).take limit

def pages (limit : Nat) (rows : List α) : Nat → Option κ → List α
  | 0, _ => []
  | fuel + 1, after => match (page key limit rows after).getLast? with
    | none => []
    | some last => page key limit rows after ++ pages limit rows fuel (some (key last))

/-- Pages of rows that may change from page to page. -/
def pagesOver (limit : Nat) (rowsAt : Nat → List α) : Nat → Option κ → List α
  | 0, _ => []
  | fuel + 1, after => match (page key limit (rowsAt fuel) after).getLast? with
    | none => []
    | some last => page key limit (rowsAt fuel) after ++ pagesOver limit rowsAt fuel
      (some (key last))

/-! ## Key order -/

variable {key}

variable (key) in
theorem inKeyOrder_perm (rows : List α) : (inKeyOrder key rows).Perm rows :=
  List.perm_insertionSort _ rows

theorem inKeyOrder_pairwise {rows : List α} (h : (rows.map key).Nodup) :
    (inKeyOrder key rows).Pairwise fun a b => key a < key b := by
  have hsorted : (inKeyOrder key rows).Pairwise fun a b => key a ≤ key b := by
    have htotal : Std.Total fun a b : α => key a ≤ key b := ⟨fun a b => le_total (key a) (key b)⟩
    have htrans : IsTrans α fun a b => key a ≤ key b := ⟨fun _ _ _ hab hbc => hab.trans hbc⟩
    exact List.pairwise_insertionSort _ rows
  have hnodup : ((inKeyOrder key rows).map key).Nodup :=
    (((inKeyOrder_perm key rows).map key).nodup_iff).mpr h
  rw [List.Nodup, List.pairwise_map] at hnodup
  exact (hsorted.and hnodup).imp fun hab => lt_of_le_of_ne hab.1 hab.2

/-- Rows in key order are determined by which they are. -/
theorem eq_of_perm {rows rows' : List α} (hperm : rows.Perm rows')
    (h : rows.Pairwise fun a b => key a < key b) (h' : rows'.Pairwise fun a b => key a < key b) :
    rows = rows' :=
  hperm.eq_of_pairwise (fun _ _ _ _ hab hba => absurd hab hba.asymm) h h'

/-- Any rows in key order that are those rows. -/
theorem inKeyOrder_eq {rows rows' : List α} (h : (rows.map key).Nodup) (hperm : rows'.Perm rows)
    (hsorted : rows'.Pairwise fun a b => key a < key b) : inKeyOrder key rows = rows' :=
  eq_of_perm ((inKeyOrder_perm key rows).trans hperm.symm) (inKeyOrder_pairwise h) hsorted

/-- A selection of rows in key order is the selection in key order. -/
theorem filter_inKeyOrder {rows : List α} (h : (rows.map key).Nodup) (p : α → Bool) :
    (inKeyOrder key rows).filter p = inKeyOrder key (rows.filter p) :=
  (inKeyOrder_eq (h.sublist (List.filter_sublist.map key)) ((inKeyOrder_perm key rows).filter p)
    ((inKeyOrder_pairwise h).filter p)).symm

/-! ## Pages -/

variable (key) in
theorem behind_sublist (after : Option κ) (rows : List α) :
    (behind key after rows).Sublist rows := by
  cases after with
  | none => exact List.Sublist.refl rows
  | some after => exact List.filter_sublist

theorem behind_behind {after : Option κ} {rows : List α} {row : α}
    (h : row ∈ behind key after rows) :
    behind key (some (key row)) (behind key after rows) = behind key (some (key row)) rows := by
  cases after with
  | none => rfl
  | some after =>
    have hrow : after < key row := by simpa using (List.mem_filter.mp h).2
    rw [behind, behind, behind, List.filter_filter]
    refine List.filter_congr fun other _ => ?_
    rw [Bool.eq_iff_iff]
    simp only [Bool.and_eq_true, decide_eq_true_eq, and_iff_left_iff_imp]
    exact hrow.trans

/-- In key order, the rows behind the last of a page are those that follow the page. -/
theorem filter_eq_drop {rows : List α} (hsorted : rows.Pairwise fun a b => key a < key b)
    {limit : Nat} {last : α} (hlast : (rows.take limit).getLast? = some last) :
    rows.filter (fun row => key last < key row) = rows.drop limit := by
  have hmem : last ∈ rows.take limit := List.mem_of_getLast? hlast
  have hparts := hsorted
  rw [← List.take_append_drop limit rows, List.pairwise_append] at hparts
  obtain ⟨htake, -, hcross⟩ := hparts
  have hbefore : ∀ row ∈ rows.take limit, ¬ key last < key row := by
    obtain ⟨front, hfront⟩ := List.getLast?_eq_some_iff.mp hlast
    intro row hrow
    rw [hfront] at htake hrow
    rcases List.mem_append.mp hrow with hrow | hrow
    · exact ((List.pairwise_append.mp htake).2.2 row hrow last List.mem_cons_self).asymm
    · rw [List.mem_singleton.mp hrow]
      exact lt_irrefl _
  conv_lhs => rw [← List.take_append_drop limit rows]
  rw [List.filter_append, List.filter_eq_nil_iff.mpr (by simpa using hbefore), List.nil_append,
    List.filter_eq_self]
  intro row hrow
  simpa using hcross last hmem row hrow

/-- **The pages read every row behind the key, in key order.** -/
theorem pages_eq {limit : Nat} (hlimit : 0 < limit) {rows : List α} (h : (rows.map key).Nodup) :
    ∀ {fuel : Nat} {after : Option κ}, (behind key after rows).length < fuel →
      pages key limit rows fuel after = inKeyOrder key (behind key after rows)
  | 0, after, hfuel => absurd hfuel (Nat.not_lt_zero _)
  | fuel + 1, after, hfuel => by
    have hbehind : ((behind key after rows).map key).Nodup :=
      h.sublist ((behind_sublist key after rows).map key)
    have hsorted := inKeyOrder_pairwise hbehind
    rw [pages]
    cases hlast : (page key limit rows after).getLast? with
    | none =>
      rw [List.getLast?_eq_none_iff, page, List.take_eq_nil_iff] at hlast
      rcases hlast with hzero | hnil
      · omega
      · exact hnil.symm
    | some last =>
      have hdrop := filter_eq_drop hsorted hlast
      have hmem : last ∈ behind key after rows :=
        (inKeyOrder_perm key _).subset (List.mem_of_mem_take (List.mem_of_getLast? hlast))
      have hrest : inKeyOrder key (behind key (some (key last)) rows) =
          (inKeyOrder key (behind key after rows)).drop limit := by
        rw [← behind_behind hmem, behind, ← filter_inKeyOrder hbehind, hdrop]
      have hshorter : (behind key (some (key last)) rows).length < fuel := by
        have hlength := congrArg List.length hrest
        have hall := (inKeyOrder_perm key (behind key after rows)).length_eq
        have hall' := (inKeyOrder_perm key (behind key (some (key last)) rows)).length_eq
        have hpos := List.length_pos_of_mem hmem
        rw [List.length_drop] at hlength
        omega
      simp only
      rw [pages_eq hlimit h hshorter, hrest, page, List.take_append_drop]

theorem pagesOver_of_constant {limit : Nat} {rowsAt : Nat → List α} {rows : List α}
    (h : ∀ n, rowsAt n = rows) :
    ∀ (fuel : Nat) (after : Option κ),
      pagesOver key limit rowsAt fuel after = pages key limit rows fuel after
  | 0, _ => rfl
  | fuel + 1, after => by
    rw [pagesOver, pages, h fuel]
    cases (page key limit rows after).getLast? with
    | none => rfl
    | some last =>
      simp only
      rw [pagesOver_of_constant h fuel]

end KeysetPages
