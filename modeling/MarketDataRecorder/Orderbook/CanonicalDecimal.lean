import Mathlib.Data.Nat.Factorization.Basic
import Mathlib.Data.Rat.Lemmas
import Mathlib.Tactic.FieldSimp
import MarketDataRecorder.Orderbook.Checkpoint

/-!
# Canonical decimals

`canonical_decimal` writes a number with as few digits as it takes, and `Decimal` reads the number
back from them. The numbers of a book have such digits: each was read from a text.

* `isDecimal_of_decimalValue` — a number that was read has finitely many digits, within the limits
* `ofText?_canonicalDecimal` — what is written is read back
-/

namespace MarketDataRecorder

/-- A number that digits and a point spell. -/
def IsDecimal (number : ℚ) : Prop := ∃ digits places : Nat, number = (digits : ℚ) / 10 ^ places ∧
  Decimal.fits digits (-(places : Int)) = true

theorem IsDecimal.nonneg {number : ℚ} (h : IsDecimal number) : 0 ≤ number := by
  obtain ⟨digits, places, rfl, -⟩ := h
  positivity

theorem isDecimal_zero : IsDecimal 0 := ⟨0, 0, by simp, rfl⟩

/-! ## Lengths -/

theorem length_toDigits_pow_mul {digits : Nat} (hdigits : digits ≠ 0) (k : Nat) :
    (Nat.toDigits 10 (digits * 10 ^ k)).length = (Nat.toDigits 10 digits).length + k := by
  have hiff : ∀ n length, 0 < length → ((Nat.toDigits 10 n).length ≤ length ↔ n < 10 ^ length) :=
    fun n length => Nat.length_toDigits_le_iff (by decide)
  have hpos : 0 < (Nat.toDigits 10 digits).length := List.length_pos_of_ne_nil Nat.toDigits_ne_nil
  refine le_antisymm ?_ ?_
  · rw [hiff _ _ (by omega), pow_add]
    exact Nat.mul_lt_mul_of_pos_right ((hiff _ _ hpos).mp le_rfl) (by positivity)
  · by_contra hlt
    -- one place less would hold the digits, too
    have hle : (Nat.toDigits 10 (digits * 10 ^ k)).length ≤
      (Nat.toDigits 10 digits).length - 1 + k := by
      omega
    have hlow : 0 < (Nat.toDigits 10 (digits * 10 ^ k)).length :=
      List.length_pos_of_ne_nil Nat.toDigits_ne_nil
    rw [hiff _ _ (by omega), pow_add] at hle
    have hless : digits < 10 ^ ((Nat.toDigits 10 digits).length - 1) :=
      Nat.lt_of_mul_lt_mul_right hle
    by_cases hone : (Nat.toDigits 10 digits).length = 1
    · rw [hone] at hless
      simp at hless
      exact hdigits hless
    · have hshort := (hiff digits ((Nat.toDigits 10 digits).length - 1) (by omega)).mpr hless
      omega

/-- Zeros behind the digits do not change whether a number fits, as long as it has whole places. -/
theorem fits_mul_pow {digits k : Nat} {places : Int}
    (h : Decimal.fits (digits * 10 ^ k) (places - k) = true) (hle : places ≤ 0) :
    Decimal.fits digits places = true := by
  unfold Decimal.fits at h ⊢
  rw [Bool.and_eq_true, decide_eq_true_eq, decide_eq_true_eq] at h ⊢
  refine ⟨?_, by omega⟩
  by_cases hzero : digits = 0
  · subst hzero
    have hmax : Decimal.maxEmax = 999999999999999999 := rfl
    simp only [Nat.toDigits_zero, List.length_singleton]
    omega
  · have hlength := length_toDigits_pow_mul hzero k
    omega

theorem fits_shift {digits power : Nat} (h : Decimal.fits digits power = true) :
    Decimal.fits (digits * 10 ^ power) 0 = true := by
  unfold Decimal.fits at h ⊢
  rw [Bool.and_eq_true, decide_eq_true_eq, decide_eq_true_eq] at h ⊢
  refine ⟨?_, by decide⟩
  by_cases hzero : digits = 0
  · subst hzero
    rw [Nat.zero_mul]
    decide
  · have hlength := length_toDigits_pow_mul hzero power
    omega

/-! ## Reading -/

theorem isDecimal_of_fits {coefficient : Nat} {places : Int}
    (h : Decimal.fits coefficient places = true) :
    IsDecimal (((coefficient * 10 ^ places.toNat : Nat) : ℚ) /
      ((10 ^ (-places).toNat : Nat) : ℚ)) := by
  rcases le_total 0 places with hle | hle
  · obtain ⟨power, rfl⟩ := Int.eq_ofNat_of_zero_le hle
    refine ⟨coefficient * 10 ^ power, 0, ?_, fits_shift h⟩
    simp
  · obtain ⟨power, hpower⟩ := Int.eq_ofNat_of_zero_le (Int.neg_nonneg_of_nonpos hle)
    obtain rfl : places = -(power : Int) := by omega
    refine ⟨coefficient, power, ?_, h⟩
    simp

theorem isDecimal_magnitude {text : List Char} {value : ℚ}
    (h : Decimal.magnitude text = some value) : IsDecimal value := by
  have hparts : ∀ (whole fraction rest : List Char), (if whole = [] ∧ fraction = [] then none
      else (Decimal.exponent rest).bind fun power =>
        let coefficient := Nat.ofDigitChars 10 (whole ++ fraction) 0
        let places : Int := power - fraction.length
        if Decimal.fits coefficient places then
          some (((coefficient * 10 ^ places.toNat : Nat) : ℚ) /
            ((10 ^ (-places).toNat : Nat) : ℚ))
        else none) = some value → IsDecimal value := by
    intro whole fraction rest hparts
    by_cases hempty : whole = [] ∧ fraction = []
    · rw [if_pos hempty] at hparts
      cases hparts
    · rw [if_neg hempty] at hparts
      obtain ⟨power, -, hvalue⟩ := Option.bind_eq_some_iff.mp hparts
      dsimp only at hvalue
      split at hvalue
      · next hfits =>
        rw [← Option.some.inj hvalue]
        exact isDecimal_of_fits hfits
      · cases hvalue
  unfold Decimal.magnitude at h
  dsimp only at h
  split at h
  · exact hparts _ _ _ h
  · exact hparts _ _ _ h

theorem decimalValue_eq_ok {value : String} {positive : Bool} {number : ℚ} :
    decimalValue value positive = .ok number ↔ Decimal.ofText? value = some (some number) ∧
      ¬ if positive = true then number ≤ 0 else number < 0 := by
  unfold decimalValue
  cases hread : Decimal.ofText? value with
  | none => simp
  | some parsed =>
    cases parsed with
    | none => simp
    | some decimal =>
      dsimp only
      by_cases hsign : if positive = true then decimal ≤ 0 else decimal < 0
      · rw [if_pos hsign]
        constructor
        · rintro ⟨⟩
        · rintro ⟨heq, hnot⟩
          rw [← Option.some.inj (Option.some.inj heq)] at hnot
          exact absurd hsign hnot
      · rw [if_neg hsign]
        constructor
        · rintro heq
          rw [← Except.ok.inj heq]
          exact ⟨rfl, hsign⟩
        · rintro ⟨heq, -⟩
          rw [Option.some.inj (Option.some.inj heq)]

theorem decimalValue_pos {value : String} {number : ℚ} (h : decimalValue value true = .ok number) :
    0 < number := by
  have hsign := (decimalValue_eq_ok.mp h).2
  rw [if_pos rfl] at hsign
  exact not_le.mp hsign

theorem isDecimal_of_decimalValue {value : String} {positive : Bool} {number : ℚ}
    (h : decimalValue value positive = .ok number) : IsDecimal number := by
  obtain ⟨hread, hsign⟩ := decimalValue_eq_ok.mp h
  have hnonneg : 0 ≤ number := by
    cases positive with
    | true => exact (not_le.mp (by simpa using hsign)).le
    | false => exact not_lt.mp (by simpa using hsign)
  unfold Decimal.ofText? at hread
  obtain ⟨ascii, -, hread⟩ := Option.bind_eq_some_iff.mp hread
  dsimp only at hread
  split at hread
  · cases hread
  · obtain ⟨size, hsize, heq⟩ := Option.map_eq_some_iff.mp hread
    have hdecimal := isDecimal_magnitude hsize
    have hvalue := Option.some.inj heq
    split at hvalue
    · have hzero : number = 0 := by
        have := hdecimal.nonneg
        linarith
      rw [hzero]
      exact isDecimal_zero
    · rw [← hvalue]
      exact hdecimal

/-! ## Writing -/

/-- A divisor of a power of a number divides the power that it is itself the exponent of. -/
theorem dvd_pow_self_of_dvd_pow {n b m : Nat} (hb : b ≠ 0) (h : n ∣ b ^ m) : n ∣ b ^ n := by
  have hn : n ≠ 0 := by
    rintro rfl
    exact pow_ne_zero m hb (Nat.eq_zero_of_zero_dvd h)
  refine (Nat.factorization_prime_le_iff_dvd hn (pow_ne_zero n hb)).mp fun p hp => ?_
  rw [Nat.factorization_pow]
  by_cases hdvd : p ∣ b
  · have hone : 1 ≤ b.factorization p := (hp.dvd_iff_one_le_factorization hb).mp hdvd
    calc n.factorization p ≤ n := (Nat.factorization_lt p hn).le
      _ = n * 1 := (Nat.mul_one n).symm
      _ ≤ n * b.factorization p := Nat.mul_le_mul_left n hone
  · have hnot : ¬ p ∣ n := fun hpn => hdvd (hp.dvd_of_dvd_pow (hpn.trans h))
    rw [Nat.factorization_eq_zero_of_not_dvd hnot]
    exact Nat.zero_le _

theorem decimalPlaces_spec {number : ℚ} : ∀ {fuel places : Nat},
    (∃ k, places ≤ k ∧ k ≤ places + fuel ∧ (number * 10 ^ k).den = 1) →
      (number * 10 ^ decimalPlaces number fuel places).den = 1
  | 0, places, ⟨k, hle, hge, hk⟩ => by
    obtain rfl : k = places := by omega
    exact hk
  | fuel + 1, places, ⟨k, hle, hge, hk⟩ => by
    rw [decimalPlaces]
    split
    · next hplaces => exact hplaces
    · next hplaces =>
      have hne : k ≠ places := by
        rintro rfl
        exact hplaces hk
      exact decimalPlaces_spec ⟨k, by omega, by omega, hk⟩

theorem decimalPlaces_le {number : ℚ} {k : Nat} (hk : (number * 10 ^ k).den = 1) :
    ∀ {fuel places : Nat}, places ≤ k → decimalPlaces number fuel places ≤ k
  | 0, _, hle => hle
  | fuel + 1, places, hle => by
    rw [decimalPlaces]
    split
    · exact hle
    · next hplaces =>
      have hne : places ≠ k := by
        rintro rfl
        exact hplaces hk
      exact decimalPlaces_le hk (by omega)

/-- The digits that a number is written with, behind the point and before it. -/
theorem IsDecimal.digits {number : ℚ} (h : IsDecimal number) :
    number * 10 ^ decimalPlaces number number.den 0 =
      ((number * 10 ^ decimalPlaces number number.den 0).num.natAbs : ℚ) := by
  have hden : (number * 10 ^ decimalPlaces number number.den 0).den = 1 := by
    refine decimalPlaces_spec ⟨number.den, Nat.zero_le _, (Nat.zero_add _).ge, ?_⟩
    obtain ⟨digits, places, hnumber, -⟩ := h
    have hdvd : number.den ∣ 10 ^ places := by
      have hquotient : number = ((digits : ℤ) : ℚ) / (((10 ^ places : ℕ) : ℤ) : ℚ) := by
        rw [hnumber]
        push_cast
        rfl
      have hint := Rat.den_dvd (digits : ℤ) ((10 ^ places : ℕ) : ℤ)
      rw [Rat.divInt_eq_div, ← hquotient] at hint
      exact Int.natCast_dvd_natCast.mp hint
    obtain ⟨c, hc⟩ := dvd_pow_self_of_dvd_pow (by decide) hdvd
    have hpow : (10 : ℚ) ^ number.den = number.den * c := by exact_mod_cast hc
    have hwhole : number * 10 ^ number.den = ((number.num * c : ℤ) : ℚ) := by
      have hself : number * number.den = number.num := Rat.mul_den_eq_num number
      rw [hpow, ← mul_assoc, hself]
      push_cast
      rfl
    rw [hwhole]
    exact Rat.den_intCast _
  have hnonneg : 0 ≤ (number * 10 ^ decimalPlaces number number.den 0).num :=
    Rat.num_nonneg.mpr (mul_nonneg h.nonneg (by positivity))
  have hnum := Rat.coe_int_num_of_den_eq_one hden
  rw [← hnum]
  simp [abs_of_nonneg hnonneg]

/-- The digits that a number is written with are within the limits. -/
theorem IsDecimal.fits {number : ℚ} (h : IsDecimal number) :
    Decimal.fits (number * 10 ^ decimalPlaces number number.den 0).num.natAbs
      (-(decimalPlaces number number.den 0 : Int)) = true := by
  have hdigits := h.digits
  obtain ⟨digits, places, hnumber, hfits⟩ := h
  have hwhole : number * 10 ^ places = digits := by
    rw [hnumber]
    field_simp
  have hle : decimalPlaces number number.den 0 ≤ places := by
    refine decimalPlaces_le ?_ (Nat.zero_le _)
    rw [hwhole]
    exact Rat.den_natCast _
  generalize decimalPlaces number number.den 0 = least at hdigits hle ⊢
  generalize (number * 10 ^ least).num.natAbs = shortest at hdigits ⊢
  obtain ⟨more, rfl⟩ := Nat.exists_eq_add_of_le hle
  have hshift : digits = shortest * 10 ^ more := by
    rw [pow_add, ← mul_assoc, hdigits] at hwhole
    exact_mod_cast hwhole.symm
  rw [hshift] at hfits
  have hplaces : (-((least + more : Nat) : Int)) = -(least : Int) - more := by
    push_cast
    ring
  rw [hplaces] at hfits
  exact fits_mul_pow hfits (by omega)

/-! ## Writing and reading back -/

/-- What `canonical_decimal` writes a number with. -/
def isDecimalChar (c : Char) : Prop := c.isDigit = true ∨ c = '.'

theorem digit_cases {c : Char} (h : c.isDigit = true) : ∃ d, d < 10 ∧ c = Char.ofNat (48 + d) := by
  rw [Char.isDigit, Bool.and_eq_true, decide_eq_true_eq, decide_eq_true_eq] at h
  refine ⟨c.toNat - 48, ?_, ?_⟩
  · have hle : c.toNat ≤ 57 := h.2
    omega
  · have hge : 48 ≤ c.toNat := h.1
    rw [Nat.add_sub_cancel' hge, Char.ofNat_toNat]

theorem isDecimalChar_plain {c : Char} (h : isDecimalChar c) :
    UnicodeText.isSpace c = false ∧ c.toNat < 128 ∧ c ≠ '_' ∧ c ≠ '+' ∧ c ≠ '-' ∧
      c.toLower ≠ 'i' ∧ c.toLower ≠ 'n' ∧ c.toLower ≠ 's' := by
  rcases h with h | rfl
  · obtain ⟨d, hd, rfl⟩ := digit_cases h
    have hall : ∀ d, d < 10 → UnicodeText.isSpace (Char.ofNat (48 + d)) = false ∧
        (Char.ofNat (48 + d)).toNat < 128 ∧ Char.ofNat (48 + d) ≠ '_' ∧
        Char.ofNat (48 + d) ≠ '+' ∧ Char.ofNat (48 + d) ≠ '-' ∧
        (Char.ofNat (48 + d)).toLower ≠ 'i' ∧ (Char.ofNat (48 + d)).toLower ≠ 'n' ∧
        (Char.ofNat (48 + d)).toLower ≠ 's' := by decide
    exact hall d hd
  · decide

theorem numericAsAscii_decimal {text : List Char} (h : ∀ c ∈ text, isDecimalChar c) :
    Decimal.numericAsAscii (String.ofList text) = some text := by
  have hstrip : UnicodeText.strip UnicodeText.isSpace text = text :=
    UnicodeText.strip_eq_self fun c hc => (isDecimalChar_plain (h c hc)).1
  have hplain : text.filter (· ≠ '_') = text := by
    rw [List.filter_eq_self]
    intro c hc
    simpa using (isDecimalChar_plain (h c hc)).2.2.1
  rw [Decimal.numericAsAscii, String.toList_ofList, hstrip, hplain]
  exact UnicodeText.mapM_ascii?_eq_self fun c hc => (isDecimalChar_plain (h c hc)).2.1

/-- A text of digits and points is read as it is. -/
theorem ofText?_decimal {text : List Char} (h : ∀ c ∈ text, isDecimalChar c) {value : ℚ}
    (hvalue : Decimal.magnitude text = some value) :
    Decimal.ofText? (String.ofList text) = some (some value) := by
  have hsign : Json.takeSign text = ([], text) := by
    unfold Json.takeSign
    split
    · exact absurd rfl (isDecimalChar_plain (h '+' List.mem_cons_self)).2.2.2.1
    · exact absurd rfl (isDecimalChar_plain (h '-' List.mem_cons_self)).2.2.2.2.1
    · rfl
  have hspecial : Decimal.isSpecial text = false := by
    cases text with
    | nil => rfl
    | cons c text =>
      obtain ⟨-, -, -, -, -, hi, hn, hs⟩ := isDecimalChar_plain (h c List.mem_cons_self)
      simp [Decimal.isSpecial, hi, Ne.symm hn, Ne.symm hs]
  rw [Decimal.ofText?, numericAsAscii_decimal h, Option.bind_some]
  dsimp only
  rw [hsign]
  dsimp only
  rw [hspecial, hvalue]
  rfl

/-- Digits, and digits behind a point. -/
theorem magnitude_digits {whole fraction : List Char} (hwhole : ∀ c ∈ whole, c.isDigit = true)
    (hne : whole ≠ []) (hfraction : ∀ c ∈ fraction, c.isDigit = true)
    (hfits : Decimal.fits (Nat.ofDigitChars 10 (whole ++ fraction) 0) (-(fraction.length : Int)) =
      true) :
    Decimal.magnitude (whole ++ '.' :: fraction) =
      some ((Nat.ofDigitChars 10 (whole ++ fraction) 0 : ℚ) / 10 ^ fraction.length) := by
  have htake : Json.takeDigits (whole ++ '.' :: fraction) = (whole, '.' :: fraction) := by
    rw [Json.takeDigits, List.takeWhile_append_of_pos hwhole, List.dropWhile_append_of_pos hwhole]
    simp
  have hrest : Json.takeDigits fraction = (fraction, []) := by
    have hall := Json.takeDigits_append hfraction Json.ends_nil
    rwa [List.append_nil] at hall
  unfold Decimal.magnitude
  rw [htake]
  simp [hrest, hne, Decimal.exponent, hfits]

theorem magnitude_whole {whole : List Char} (hwhole : ∀ c ∈ whole, c.isDigit = true)
    (hne : whole ≠ []) (hfits : Decimal.fits (Nat.ofDigitChars 10 whole 0) 0 = true) :
    Decimal.magnitude whole = some (Nat.ofDigitChars 10 whole 0 : ℚ) := by
  have htake : Json.takeDigits whole = (whole, []) := by
    have hall := Json.takeDigits_append hwhole Json.ends_nil
    rwa [List.append_nil] at hall
  unfold Decimal.magnitude
  rw [htake]
  simp [hne, Decimal.exponent, hfits]

/-- **What is written is read back.** -/
theorem ofText?_canonicalDecimal {number : ℚ} (h : IsDecimal number) :
    Decimal.ofText? (canonicalDecimal number) = some (some number) := by
  have hdigits := h.digits
  have hfits := h.fits
  unfold canonicalDecimal
  dsimp only
  generalize decimalPlaces number number.den 0 = places at hdigits hfits ⊢
  generalize (number * 10 ^ places).num.natAbs = digits at hdigits hfits ⊢
  have hwhole := Json.isDigit_toDigits (digits / 10 ^ places)
  have hchars : ∀ c ∈ Nat.toDigits 10 (digits / 10 ^ places), isDecimalChar c :=
    fun c hc => Or.inl (hwhole c hc)
  split
  · next hplaces =>
    subst hplaces
    refine ofText?_decimal hchars ?_
    rw [magnitude_whole hwhole Nat.toDigits_ne_nil (by
      rw [Nat.ofDigitChars_ten_toDigits]
      simpa using hfits), Nat.ofDigitChars_ten_toDigits]
    simpa using hdigits.symm
  · next hplaces =>
    set fraction := List.replicate (places - (Nat.toDigits 10 (digits % 10 ^ places)).length) '0' ++
      Nat.toDigits 10 (digits % 10 ^ places) with hfraction
    have hlength : (Nat.toDigits 10 (digits % 10 ^ places)).length ≤ places :=
      (Nat.length_toDigits_le_iff (by decide) (Nat.pos_of_ne_zero hplaces)).mpr
        (Nat.mod_lt _ (by positivity))
    have hplacesEq : fraction.length = places := by
      rw [hfraction, List.length_append, List.length_replicate]
      omega
    have hfractionDigits : ∀ c ∈ fraction, c.isDigit = true := by
      intro c hc
      rcases List.mem_append.mp hc with hc | hc
      · rw [List.eq_of_mem_replicate hc]
        decide
      · exact Json.isDigit_toDigits _ c hc
    have hread : Nat.ofDigitChars 10 (Nat.toDigits 10 (digits / 10 ^ places) ++ fraction) 0 =
        digits := by
      have hpad : 10 ^ (Nat.toDigits 10 (digits % 10 ^ places)).length *
          10 ^ (places - (Nat.toDigits 10 (digits % 10 ^ places)).length) = 10 ^ places := by
        rw [← pow_add, Nat.add_sub_cancel' hlength]
      rw [Nat.ofDigitChars_append, Nat.ofDigitChars_ten_toDigits, hfraction,
        Nat.ofDigitChars_append, Nat.ofDigitChars_replicate_zero,
        Nat.ofDigitChars_eq_ofDigitChars_zero, Nat.ofDigitChars_ten_toDigits, ← mul_assoc, hpad]
      exact Nat.div_add_mod digits (10 ^ places)
    refine ofText?_decimal ?_ ?_
    · intro c hc
      rcases List.mem_append.mp hc with hc | hc
      · exact hchars c hc
      · rcases List.mem_cons.mp hc with rfl | hc
        · exact Or.inr rfl
        · exact Or.inl (hfractionDigits c hc)
    · rw [magnitude_digits hwhole Nat.toDigits_ne_nil hfractionDigits (by rwa [hread, hplacesEq]),
        hread, hplacesEq, ← hdigits]
      congr 1
      field_simp

theorem decimalValue_canonicalDecimal {number : ℚ} (h : IsDecimal number) {positive : Bool}
    (hpositive : positive = true → 0 < number) :
    decimalValue (canonicalDecimal number) positive = .ok number := by
  refine decimalValue_eq_ok.mpr ⟨ofText?_canonicalDecimal h, ?_⟩
  cases positive with
  | true =>
    rw [if_pos rfl]
    exact not_le.mpr (hpositive rfl)
  | false =>
    rw [if_neg Bool.false_ne_true]
    exact not_lt.mpr h.nonneg

end MarketDataRecorder
