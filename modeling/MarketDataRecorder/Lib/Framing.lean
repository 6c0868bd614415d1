import Mathlib.Data.List.Basic
import Mathlib.Tactic.ByContra

/-!
# Framed streams

A framed stream is a concatenation of self-delimiting frames. A `Reader` says what stands at the
front of the remaining input: its end, a torn frame (the input ends inside it), a bad one, or a
frame of some size. `scan` reads frames until it has to stop.

The laws of a `Reader` are what makes truncation safe: a frame depends on its own bytes only, and
an input cut inside a frame shows a torn one.

* `scan_append` — a clean input can be scanned piece by piece
* `scan_take_consumed` — what was consumed is a clean input with the same frames
* `scan_cut` — a cut of a clean input stops at the last frame boundary before the cut
-/

namespace Framing

/-- What stands at the front of the remaining input. -/
inductive Head (φ ε : Type) where
  | done
  | torn (e : ε)
  | bad (e : ε)
  | frame (f : φ) (size : Nat)
  deriving DecidableEq, Repr

/-- Why a scan stopped. -/
inductive Stop (ε : Type) where
  | done
  | torn (e : ε)
  | bad (e : ε)
  deriving DecidableEq, Repr

/-- The frames read with their sizes, the number of bytes they take, and why no more were read. -/
structure Scan (φ ε : Type) where
  frames : List (φ × Nat)
  consumed : Nat
  stop : Stop ε
  deriving DecidableEq, Repr

/-- A frame format. -/
structure Reader (α φ ε : Type) where
  head : List α → Head φ ε
  head_nil : head [] = .done
  nil_of_done : ∀ {b}, head b = .done → b = []
  size_pos : ∀ {b f n}, head b = .frame f n → 0 < n
  size_le : ∀ {b f n}, head b = .frame f n → n ≤ b.length
  /-- A frame is decided by its own bytes. -/
  head_local : ∀ {b f n} (c : List α), head b = .frame f n → head (b.take n ++ c) = .frame f n
  /-- An input that ends inside a frame is torn. -/
  head_cut : ∀ {b f n k}, head b = .frame f n → 0 < k → k < n → ∃ e, head (b.take k) = .torn e

namespace Scan

variable {φ ε : Type}

/-- Put a frame in front of a scan. -/
def cons (f : φ) (n : Nat) (s : Scan φ ε) : Scan φ ε :=
  { frames := (f, n) :: s.frames, consumed := n + s.consumed, stop := s.stop }

/-- Put the frames of a clean scan in front of another. -/
def append (s t : Scan φ ε) : Scan φ ε :=
  { frames := s.frames ++ t.frames, consumed := s.consumed + t.consumed, stop := t.stop }

/-- The scan that reads no frame. -/
def stopped (stop : Stop ε) : Scan φ ε := { frames := [], consumed := 0, stop := stop }

@[simp] theorem cons_frames (f : φ) (n : Nat) (s : Scan φ ε) :
    (cons f n s).frames = (f, n) :: s.frames := rfl
@[simp] theorem cons_consumed (f : φ) (n : Nat) (s : Scan φ ε) :
    (cons f n s).consumed = n + s.consumed := rfl
@[simp] theorem cons_stop (f : φ) (n : Nat) (s : Scan φ ε) : (cons f n s).stop = s.stop := rfl
@[simp] theorem append_frames (s t : Scan φ ε) : (s.append t).frames = s.frames ++ t.frames := rfl
@[simp] theorem append_consumed (s t : Scan φ ε) :
    (s.append t).consumed = s.consumed + t.consumed := rfl
@[simp] theorem append_stop (s t : Scan φ ε) : (s.append t).stop = t.stop := rfl
@[simp] theorem stopped_frames (stop : Stop ε) : (stopped stop : Scan φ ε).frames = [] := rfl
@[simp] theorem stopped_consumed (stop : Stop ε) : (stopped stop : Scan φ ε).consumed = 0 := rfl
@[simp] theorem stopped_stop (stop : Stop ε) : (stopped stop : Scan φ ε).stop = stop := rfl

theorem cons_append (f : φ) (n : Nat) (s t : Scan φ ε) :
    (cons f n s).append t = cons f n (s.append t) := by
  simp [cons, append, Nat.add_assoc]

/-- The offsets at which a frame ends, from `0` on. -/
def boundaries : List (φ × Nat) → List Nat
  | [] => [0]
  | (_, n) :: rest => 0 :: (boundaries rest).map (n + ·)

end Scan

namespace Reader

variable {α φ ε : Type} (r : Reader α φ ε)

/-- Read at most `fuel` frames. -/
def scanFuel : Nat → List α → Scan φ ε
  | 0, _ => .stopped .done
  | fuel + 1, b =>
    match r.head b with
    | .done => .stopped .done
    | .torn e => .stopped (.torn e)
    | .bad e => .stopped (.bad e)
    | .frame f n => .cons f n (scanFuel fuel (b.drop n))

/-- Read frames until the input ends or cannot be read on. -/
def scan (b : List α) : Scan φ ε := scanFuel r b.length b

/-- Induction along the frames of an input. -/
theorem frame_induction {P : List α → Prop}
    (step : ∀ b, (∀ f n, r.head b = .frame f n → P (b.drop n)) → P b) (b : List α) : P b := by
  induction hlen : b.length using Nat.strongRecOn generalizing b with
  | _ len ih =>
    refine step b fun f n hf => ih (b.drop n).length ?_ (b.drop n) rfl
    have hpos := r.size_pos hf
    have hle := r.size_le hf
    rw [List.length_drop]
    omega

/-- Fuel beyond the length of the input changes nothing. -/
theorem scanFuel_eq_scan (b : List α) :
    ∀ fuel, b.length ≤ fuel → r.scanFuel fuel b = r.scan b := by
  induction b using r.frame_induction with
  | step b ih =>
    intro fuel hfuel
    unfold scan
    cases b with
    | nil =>
      cases fuel with
      | zero => rfl
      | succ fuel => simp only [scanFuel, r.head_nil]; rfl
    | cons c rest =>
      obtain ⟨fuel, rfl⟩ : ∃ k, fuel = k + 1 := ⟨fuel - 1, by simp at hfuel; omega⟩
      simp only [List.length_cons, scanFuel]
      cases hh : r.head (c :: rest) with
      | done => rfl
      | torn e => rfl
      | bad e => rfl
      | frame f n =>
        have hpos := r.size_pos hh
        have hlen : ((c :: rest).drop n).length ≤ rest.length := by
          rw [List.length_drop, List.length_cons]
          omega
        simp only [List.length_cons] at hfuel
        simp only
        rw [ih f n hh fuel (by omega), ih f n hh rest.length hlen]

/-- One step of a scan. -/
theorem scan_eq (b : List α) :
    r.scan b = match r.head b with
      | .done => .stopped .done
      | .torn e => .stopped (.torn e)
      | .bad e => .stopped (.bad e)
      | .frame f n => .cons f n (r.scan (b.drop n)) := by
  rw [← r.scanFuel_eq_scan b (b.length + 1) (Nat.le_succ _), scanFuel]
  cases hh : r.head b with
  | done => rfl
  | torn e => rfl
  | bad e => rfl
  | frame f n =>
    simp only
    rw [r.scanFuel_eq_scan]
    rw [List.length_drop]
    omega

theorem scan_of_frame {b : List α} {f : φ} {n : Nat} (h : r.head b = .frame f n) :
    r.scan b = .cons f n (r.scan (b.drop n)) := by
  rw [scan_eq, h]

theorem scan_of_done {b : List α} (h : r.head b = .done) : r.scan b = .stopped .done := by
  rw [scan_eq, h]

theorem scan_of_torn {b : List α} {e : ε} (h : r.head b = .torn e) :
    r.scan b = .stopped (.torn e) := by
  rw [scan_eq, h]

theorem scan_of_bad {b : List α} {e : ε} (h : r.head b = .bad e) :
    r.scan b = .stopped (.bad e) := by
  rw [scan_eq, h]

@[simp] theorem scan_nil : r.scan [] = .stopped .done := r.scan_of_done r.head_nil

/-- A clean input: frames from end to end. -/
def Clean (b : List α) : Prop := (r.scan b).stop = .done

theorem scan_consumed_le (b : List α) : (r.scan b).consumed ≤ b.length := by
  induction b using r.frame_induction with
  | step b ih =>
    cases hh : r.head b with
    | done => rw [r.scan_of_done hh]; exact Nat.zero_le _
    | torn e => rw [r.scan_of_torn hh]; exact Nat.zero_le _
    | bad e => rw [r.scan_of_bad hh]; exact Nat.zero_le _
    | frame f n =>
      rw [r.scan_of_frame hh]
      have hle := r.size_le hh
      have := ih f n hh
      rw [List.length_drop] at this
      simp only [Scan.cons_consumed]
      omega

/-- A clean input is consumed whole. -/
theorem Clean.consumed {r : Reader α φ ε} {b : List α} (h : r.Clean b) :
    (r.scan b).consumed = b.length := by
  induction b using r.frame_induction with
  | step b ih =>
    unfold Clean at h
    cases hh : r.head b with
    | done => rw [r.nil_of_done hh, scan_nil]; rfl
    | torn e => rw [r.scan_of_torn hh] at h; cases h
    | bad e => rw [r.scan_of_bad hh] at h; cases h
    | frame f n =>
      rw [r.scan_of_frame hh] at h ⊢
      have hle := r.size_le hh
      have hrest := ih f n hh h
      rw [List.length_drop] at hrest
      simp only [Scan.cons_consumed]
      omega

/-- **A clean input can be scanned piece by piece.** -/
theorem scan_append {b : List α} (h : r.Clean b) (c : List α) :
    r.scan (b ++ c) = (r.scan b).append (r.scan c) := by
  induction b using r.frame_induction with
  | step b ih =>
    unfold Clean at h
    cases hh : r.head b with
    | done =>
      rw [r.nil_of_done hh, List.nil_append, scan_nil]
      simp [Scan.append]
    | torn e => rw [r.scan_of_torn hh] at h; cases h
    | bad e => rw [r.scan_of_bad hh] at h; cases h
    | frame f n =>
      have hle := r.size_le hh
      have hsplit : b ++ c = b.take n ++ (b.drop n ++ c) := by
        rw [← List.append_assoc, List.take_append_drop]
      have hhead : r.head (b ++ c) = .frame f n := by
        rw [hsplit]
        exact r.head_local _ hh
      have hdrop : (b ++ c).drop n = b.drop n ++ c := List.drop_append_of_le_length hle
      rw [r.scan_of_frame hh] at h
      rw [r.scan_of_frame hhead, r.scan_of_frame hh, hdrop, ih f n hh h, Scan.cons_append]

/-- An input that is exactly one frame. -/
theorem scan_single {b : List α} {f : φ} (h : r.head b = .frame f b.length) :
    r.scan b = .cons f b.length (.stopped .done) := by
  rw [r.scan_of_frame h, List.drop_length, scan_nil]

/-- Concatenated frames scan to the list of the frames. -/
theorem scan_flatten :
    ∀ {l : List (φ × List α)}, (∀ p ∈ l, r.head p.2 = .frame p.1 p.2.length) →
      r.scan (l.map Prod.snd).flatten =
        { frames := l.map fun p => (p.1, p.2.length)
          consumed := (l.map Prod.snd).flatten.length
          stop := .done }
  | [], _ => by simp [Scan.stopped]
  | p :: rest, h => by
    have hp := r.scan_single (h p List.mem_cons_self)
    have hclean : r.Clean p.2 := by rw [Clean, hp]; rfl
    rw [List.map_cons, List.flatten_cons, r.scan_append hclean, hp,
      scan_flatten fun q hq => h q (List.mem_cons_of_mem _ hq)]
    simp [Scan.append, Scan.cons, Scan.stopped]

/-! ## Truncation -/

/-- **What a scan consumed is a clean input with the same frames.** -/
theorem scan_take_consumed (b : List α) :
    r.scan (b.take (r.scan b).consumed) = { r.scan b with stop := .done } := by
  induction b using r.frame_induction with
  | step b ih =>
    cases hh : r.head b with
    | done => rw [r.scan_of_done hh]; simp [Scan.stopped]
    | torn e => rw [r.scan_of_torn hh]; simp [Scan.stopped]
    | bad e => rw [r.scan_of_bad hh]; simp [Scan.stopped]
    | frame f n =>
      have hle := r.size_le hh
      have htake : b.take (n + (r.scan (b.drop n)).consumed) =
          b.take n ++ (b.drop n).take (r.scan (b.drop n)).consumed := List.take_add
      have hhead := r.head_local ((b.drop n).take (r.scan (b.drop n)).consumed) hh
      rw [r.scan_of_frame hh, Scan.cons_consumed, htake, r.scan_of_frame hhead]
      have hdrop : (b.take n ++ (b.drop n).take (r.scan (b.drop n)).consumed).drop n =
          (b.drop n).take (r.scan (b.drop n)).consumed := by
        rw [List.drop_append_of_le_length (by rw [List.length_take]; omega),
          List.drop_take, Nat.sub_self, List.take_zero, List.nil_append]
      rw [hdrop, ih f n hh]
      rfl

/--
**A cut of a clean input stops at the last frame boundary before the cut**, and shows at worst a
torn frame.
-/
theorem scan_cut {b : List α} (h : r.Clean b) {k : Nat} (hk : k ≤ b.length) :
    ((r.scan (b.take k)).stop = .done ∨ ∃ e, (r.scan (b.take k)).stop = .torn e) ∧
      (r.scan (b.take k)).consumed ∈ Scan.boundaries (r.scan b).frames ∧
      (r.scan (b.take k)).consumed ≤ k ∧
      ∀ x ∈ Scan.boundaries (r.scan b).frames, x ≤ k → x ≤ (r.scan (b.take k)).consumed := by
  induction b using r.frame_induction generalizing k with
  | step b ih =>
    have hclean := h
    unfold Clean at h
    cases hh : r.head b with
    | done =>
      obtain rfl := r.nil_of_done hh
      obtain rfl : k = 0 := by simpa using hk
      simp [Scan.boundaries]
    | torn e => rw [r.scan_of_torn hh] at h; cases h
    | bad e => rw [r.scan_of_bad hh] at h; cases h
    | frame f n =>
      have hle := r.size_le hh
      have hpos := r.size_pos hh
      rw [r.scan_of_frame hh] at h ⊢
      simp only [Scan.cons_frames, Scan.boundaries]
      by_cases hkn : k < n
      · -- the cut is inside the first frame, or before it
        have hstop : r.scan (b.take k) = .stopped .done ∨
            ∃ e, r.scan (b.take k) = .stopped (.torn e) := by
          rcases Nat.eq_zero_or_pos k with rfl | hk0
          · exact Or.inl (by rw [List.take_zero, scan_nil])
          · obtain ⟨e, he⟩ := r.head_cut hh hk0 hkn
            exact Or.inr ⟨e, r.scan_of_torn he⟩
        have hzero : ∀ x ∈ 0 :: (Scan.boundaries (r.scan (b.drop n)).frames).map (n + ·),
            x ≤ k → x ≤ 0 := by
          intro x hx hxk
          rcases List.mem_cons.mp hx with rfl | hx
          · exact Nat.le_refl 0
          · obtain ⟨y, -, rfl⟩ := List.mem_map.mp hx
            omega
        rcases hstop with hs | ⟨e, hs⟩ <;> rw [hs]
        · exact ⟨Or.inl rfl, List.mem_cons_self, Nat.zero_le _, hzero⟩
        · exact ⟨Or.inr ⟨e, rfl⟩, List.mem_cons_self, Nat.zero_le _, hzero⟩
      · -- the first frame is whole
        obtain ⟨j, rfl⟩ : ∃ j, k = n + j := ⟨k - n, by omega⟩
        have hj : j ≤ (b.drop n).length := by
          rw [List.length_drop]
          omega
        obtain ⟨hstop, hmem, hlej, hmax⟩ := ih f n hh h hj
        have htake : b.take (n + j) = b.take n ++ (b.drop n).take j := List.take_add
        have hhead := r.head_local ((b.drop n).take j) hh
        have hdrop : (b.take n ++ (b.drop n).take j).drop n = (b.drop n).take j := by
          rw [List.drop_append_of_le_length (by rw [List.length_take]; omega),
            List.drop_take, Nat.sub_self, List.take_zero, List.nil_append]
        rw [htake, r.scan_of_frame hhead, hdrop]
        refine ⟨hstop, ?_, ?_, ?_⟩
        · exact List.mem_cons_of_mem _ (List.mem_map.mpr ⟨_, hmem, rfl⟩)
        · simp only [Scan.cons_consumed]
          omega
        · intro x hx hxk
          simp only [Scan.cons_consumed]
          rcases List.mem_cons.mp hx with rfl | hx
          · exact Nat.zero_le _
          · obtain ⟨y, hy, rfl⟩ := List.mem_map.mp hx
            have := hmax y hy (by omega)
            omega

end Reader

end Framing
