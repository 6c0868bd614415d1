import Mathlib.Data.List.Basic

/-!
# Relative paths

Paths below a root directory, as texts with slashes. Resolving a path takes its empty parts and dots
away and lets two dots take the part before them; a path that leaves the root has no location.

* `locate_locate` — a location is its own location
* `locate_ne_empty` — a path that ends with a plain name is located somewhere below the root
-/

namespace RelativePath

/-- The parts between the slashes. -/
def split : List Char → List (List Char)
  | [] => [[]]
  | c :: rest =>
    if c = '/' then [] :: split rest
    else match split rest with
      | [] => [[c]]
      | part :: parts => (c :: part) :: parts

def join : List (List Char) → List Char
  | [] => []
  | [part] => part
  | part :: parts => part ++ '/' :: join parts

/-- The parts walked from a directory, given by its parts from the innermost one on. -/
def walk : List (List Char) → List (List Char) → Option (List (List Char))
  | stack, [] => some stack.reverse
  | stack, part :: parts =>
    if part = [] ∨ part = ['.'] then walk stack parts
    else if part = ['.', '.'] then
      match stack with
      | [] => none
      | _ :: stack => walk stack parts
    else walk (part :: stack) parts

/-- `(root / text).resolve().relative_to(root)`. -/
def locate (text : String) : Option String :=
  if text.toList.head? = some '/' then none
  else (walk [] (split text.toList)).map fun parts => String.ofList (join parts)

/-- A name of a file or a directory. -/
structure IsName (part : List Char) : Prop where
  ne_nil : part ≠ []
  ne_dot : part ≠ ['.']
  ne_dots : part ≠ ['.', '.']
  noSlash : '/' ∉ part

/-! ## Parts -/

/-- A path always has at least one part, possibly empty. -/
theorem split_ne_nil : ∀ text, split text ≠ []
  | [] => by simp [split]
  | c :: rest => by
    rw [split]
    split
    · simp
    · split <;> simp

/-- No part of a split path holds a slash. -/
theorem noSlash_of_mem_split : ∀ {text part : List Char}, part ∈ split text → '/' ∉ part
  | [], part, h => by
    obtain rfl : part = [] := by simpa [split] using h
    simp
  | c :: rest, part, h => by
    rw [split] at h
    split at h
    · rcases List.mem_cons.mp h with rfl | h
      · simp
      · exact noSlash_of_mem_split h
    · next hc =>
      split at h
      · next hnil => exact absurd hnil (split_ne_nil rest)
      · next first parts hsplit =>
        have hfirst : '/' ∉ first := noSlash_of_mem_split (hsplit ▸ List.mem_cons_self)
        rcases List.mem_cons.mp h with rfl | h
        · simp [Ne.symm hc, hfirst]
        · exact noSlash_of_mem_split (hsplit ▸ List.mem_cons_of_mem first h)

/-- A text without a slash is its own only part. -/
theorem split_of_noSlash : ∀ {text : List Char}, '/' ∉ text → split text = [text]
  | [], _ => rfl
  | c :: rest, h => by
    rw [List.mem_cons, not_or] at h
    rw [split, if_neg (Ne.symm h.1), split_of_noSlash h.2]

/-- Splitting goes through a slash: the parts before it, then those after it. -/
theorem split_append_slash (b : List Char) : ∀ a, split (a ++ '/' :: b) = split a ++ split b
  | [] => by simp [split]
  | c :: rest => by
    rw [List.cons_append, split, split, split_append_slash b rest]
    split
    · rfl
    · cases hsplit : split rest with
      | nil => exact absurd hsplit (split_ne_nil rest)
      | cons part parts => rfl

/-- Joining undoes splitting where no part holds a slash. -/
theorem split_join : ∀ {parts : List (List Char)}, parts ≠ [] → (∀ part ∈ parts, '/' ∉ part) →
    split (join parts) = parts
  | [], h, _ => absurd rfl h
  | [part], _, h => split_of_noSlash (h part (by simp))
  | part :: second :: parts, _, h => by
    obtain ⟨hpart, hrest⟩ := List.forall_mem_cons.mp h
    rw [join, split_append_slash, split_of_noSlash hpart, split_join (by simp) hrest]
    · rfl
    · simp

/-! ## Walks -/

/-- What a walk arrives at is made of names: `.`, `..` and empty parts are gone. -/
theorem walk_isName : ∀ {parts stack result : List (List Char)},
    (∀ part ∈ stack, IsName part) → (∀ part ∈ parts, '/' ∉ part) →
    walk stack parts = some result → ∀ part ∈ result, IsName part
  | [], stack, result, hstack, _, h => by
    obtain rfl := Option.some.inj h
    simpa using hstack
  | part :: parts, stack, result, hstack, hparts, h => by
    obtain ⟨hpart, hrest⟩ := List.forall_mem_cons.mp hparts
    unfold walk at h
    split at h
    · exact walk_isName hstack hrest h
    next hplain =>
    rw [not_or] at hplain
    split at h
    · cases stack with
      | nil => cases h
      | cons top stack => exact walk_isName (List.forall_mem_cons.mp hstack).2 hrest h
    · next hdots =>
      refine walk_isName (List.forall_mem_cons.mpr ⟨?_, hstack⟩) hrest h
      exact ⟨hplain.1, hplain.2, hdots, hpart⟩

/-- A walk over names alone steps down each of them. -/
theorem walk_of_isName : ∀ {parts stack : List (List Char)}, (∀ part ∈ parts, IsName part) →
    walk stack parts = some (stack.reverse ++ parts)
  | [], stack, _ => by simp [walk]
  | part :: parts, stack, h => by
    obtain ⟨hpart, hrest⟩ := List.forall_mem_cons.mp h
    unfold walk
    rw [if_neg (by simp [hpart.ne_nil, hpart.ne_dot]), if_neg hpart.ne_dots, walk_of_isName hrest]
    simp

/-- A walk whose last part is a name does not end at the root. -/
theorem walk_append_name {name : List Char} (hname : IsName name) :
    ∀ {parts stack result : List (List Char)}, walk stack (parts ++ [name]) = some result →
      result ≠ []
  | [], stack, result, h => by
    rw [List.nil_append, walk_of_isName (by simpa using hname)] at h
    obtain rfl := Option.some.inj h
    simp
  | part :: parts, stack, result, h => by
    rw [List.cons_append] at h
    unfold walk at h
    split at h
    · exact walk_append_name hname h
    split at h
    · cases stack with
      | nil => cases h
      | cons top stack => exact walk_append_name hname h
    · exact walk_append_name hname h

/-! ## Locations -/

/-- A location is the joined parts of a walk from the root. -/
theorem exists_parts_of_locate {text location : String} (h : locate text = some location) :
    ∃ parts, walk [] (split text.toList) = some parts ∧ location = String.ofList (join parts) ∧
      ∀ part ∈ parts, IsName part := by
  rw [locate] at h
  split at h
  · cases h
  · obtain ⟨parts, hparts, rfl⟩ := Option.map_eq_some_iff.mp h
    exact ⟨parts, hparts, rfl, walk_isName (by simp) (fun _ => noSlash_of_mem_split) hparts⟩

/-- A path that begins with a name is not absolute. -/
theorem head?_join {part : List Char} {parts : List (List Char)} (h : IsName part) :
    (join (part :: parts)).head? ≠ some '/' := by
  cases part with
  | nil => exact absurd rfl h.ne_nil
  | cons c part =>
    have hc : c ≠ '/' := by
      rintro rfl
      exact h.noSlash List.mem_cons_self
    cases parts <;> simp [join, hc]

/-- **Locating is idempotent**: a location that is not the root is its own location. -/
theorem locate_locate {text location : String} (h : locate text = some location)
    (hne : location ≠ "") : locate location = some location := by
  obtain ⟨parts, -, rfl, hnames⟩ := exists_parts_of_locate h
  cases parts with
  | nil => exact absurd rfl hne
  | cons part parts =>
    rw [locate, String.toList_ofList, if_neg (head?_join (hnames part (by simp))),
      split_join (by simp) fun p hp => (hnames p hp).noSlash, walk_of_isName hnames]
    rfl

/-- A file under a directory is not located at the root. -/
theorem locate_ne_empty {directory name text location : String}
    (htext : text.toList = directory.toList ++ '/' :: name.toList) (hname : IsName name.toList)
    (h : locate text = some location) : location ≠ "" := by
  obtain ⟨parts, hwalk, rfl, hnames⟩ := exists_parts_of_locate h
  rw [htext, split_append_slash, split_of_noSlash hname.noSlash] at hwalk
  have hparts := walk_append_name hname hwalk
  intro hempty
  have hjoin : join parts = [] := by simpa using congrArg String.toList hempty
  match parts with
  | [] => exact hparts rfl
  | [part] => exact (hnames part (by simp)).ne_nil hjoin
  | part :: second :: parts => simp [join] at hjoin

end RelativePath
