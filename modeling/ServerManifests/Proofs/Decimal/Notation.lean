import Mathlib.Data.List.Basic
import ServerManifests.Decimal.Notation

/-!
When two notations write a number alike. A positional text with decimals tells the
digits and the exponent it was written from, and no positional text looks like one
with an exponent or one that keeps a `.0`; so two notations of different habits
agree on the numbers that are written positionally, with decimals, from digits on
which the notations agree.
-/
namespace ServerManifests.Decimal

namespace Shortest

/-- How a tie is settled does not decide which grid has a neighbour. -/
theorem exponent_onGrid? (tie tie' : Tie) (x : Finite64) (power : Int) :
    (onGrid? tie x power).map (·.exponent) = (onGrid? tie' x power).map (·.exponent) := by
  unfold onGrid?
  dsimp only
  split <;> rfl

theorem exponent_search (tie tie' : Tie) (x : Finite64) (leading : Int) (fuel count : Nat) :
    (search tie x leading fuel count).map (·.exponent) =
      (search tie' x leading fuel count).map (·.exponent) := by
  induction fuel generalizing count with
  | zero => rfl
  | succ fuel ih =>
    unfold search
    rw [Option.map_or, Option.map_or, exponent_onGrid? tie tie', ih]

end Shortest

/-- The digits of a number are on one grid however ties are settled, unless a
trailing zero is left out. -/
theorem Finite64.shortest_cases (x : Finite64) :
    (∀ tie, x.shortest tie = ⟨0, 0⟩) ∨
      ∃ power, ∀ tie,
        ((x.shortest tie).exponent = power ∧ (x.shortest tie).digits % 10 ≠ 0) ∨
          (x.shortest tie).exponent = power + 1 := by
  unfold Finite64.shortest
  dsimp only
  by_cases hzero : x.quotient.1 = 0
  · exact .inl fun tie => if_pos hzero
  · simp only [if_neg hzero]
    have hsame := fun tie => Shortest.exponent_search tie .up x
      (Shortest.leadingPower x.quotient.1 x.quotient.2) 17 1
    cases hup : Shortest.search .up x
        (Shortest.leadingPower x.quotient.1 x.quotient.2) 17 1 with
    | none =>
      refine .inl fun tie => ?_
      have hnone := hsame tie
      rw [hup, Option.map_none, Option.map_eq_none_iff] at hnone
      rw [hnone]
    | some d =>
      refine .inr ⟨d.exponent, fun tie => ?_⟩
      have hsome := hsame tie
      rw [hup] at hsome
      obtain ⟨d', hd', hexponent⟩ := Option.map_eq_some_iff.1 hsome
      rw [hd']
      by_cases hdigit : d'.digits % 10 = 0
      · simp only [if_pos hdigit]
        right
        rw [hexponent]
      · simp only [if_neg hdigit]
        exact .inl ⟨hexponent, hdigit⟩

namespace Notation64

theorem isDigit_of_mem_digitChars {n : Nat} {c : Char} (h : c ∈ digitChars n) :
    c.isDigit = true :=
  Nat.isDigit_of_mem_toDigits (by decide) (by decide) h

theorem isDigit_of_mem_zeros {n : Nat} {c : Char} (h : c ∈ zeros n) : c.isDigit = true := by
  obtain ⟨-, rfl⟩ := List.mem_replicate.1 h
  rfl

/-- The number that padded digits stand for. -/
theorem ofDigitChars_padded (n digits : Nat) :
    Nat.ofDigitChars 10 (zeros n ++ digitChars digits) 0 = digits := by
  unfold zeros digitChars
  rw [Nat.ofDigitChars_append, Nat.ofDigitChars_replicate_zero, Nat.mul_zero,
    Nat.ofDigitChars_ten_toDigits]

/-- Digits with decimals: a whole part, a point and as many decimals as the
exponent says. -/
theorem positionalText_fraction (form : Notation64) {d : Digits} (h : d.exponent < 0) :
    ∃ whole fraction n, form.positionalText d = whole ++ '.' :: fraction ∧
      whole ++ fraction = zeros n ++ digitChars d.digits ∧
      (fraction.length : Int) = -d.exponent := by
  unfold positionalText
  dsimp only
  rw [if_neg (by omega)]
  by_cases hpoint : 0 < ((digitChars d.digits).length : Int) + d.exponent
  · rw [if_pos hpoint]
    refine ⟨_, _, 0, rfl, List.take_append_drop .., ?_⟩
    rw [List.length_drop]
    omega
  · rw [if_neg hpoint]
    refine ⟨['0'], _, (-((digitChars d.digits).length + d.exponent)).toNat + 1, rfl, ?_, ?_⟩
    · unfold zeros
      rw [List.replicate_succ]
      rfl
    · unfold zeros
      rw [List.length_append, List.length_replicate]
      omega

theorem positionalText_whole (form : Notation64) {d : Digits} (h : 0 ≤ d.exponent) :
    ∃ whole, (∀ c ∈ whole, c.isDigit = true) ∧
      form.positionalText d = whole ++ if form.keepsPoint then ['.', '0'] else [] := by
  refine ⟨digitChars d.digits ++ zeros d.exponent.toNat, fun c hc => ?_, ?_⟩
  · rcases List.mem_append.1 hc with hc | hc
    · exact isDigit_of_mem_digitChars hc
    · exact isDigit_of_mem_zeros hc
  · unfold positionalText
    exact if_pos h

theorem isDigit_of_padded {whole fraction : List Char} {n digits : Nat}
    (h : whole ++ fraction = zeros n ++ digitChars digits) {c : Char}
    (hc : c ∈ whole ∨ c ∈ fraction) : c.isDigit = true := by
  have hmem : c ∈ zeros n ++ digitChars digits := h ▸ List.mem_append.2 hc
  rcases List.mem_append.1 hmem with hmem | hmem
  · exact isDigit_of_mem_zeros hmem
  · exact isDigit_of_mem_digitChars hmem

/-- Positional texts consist of digits and points. -/
theorem isDigit_of_mem_positionalText (form : Notation64) (d : Digits) {c : Char}
    (h : c ∈ form.positionalText d) : c = '.' ∨ c.isDigit = true := by
  by_cases hexponent : 0 ≤ d.exponent
  · obtain ⟨whole, hwhole, htext⟩ := form.positionalText_whole hexponent
    rw [htext] at h
    rcases List.mem_append.1 h with h | h
    · exact .inr (hwhole c h)
    · split at h
      · rcases List.mem_cons.1 h with rfl | h
        · exact .inl rfl
        · obtain rfl := List.mem_singleton.1 h
          exact .inr rfl
      · cases h
  · obtain ⟨whole, fraction, n, htext, hpadded, -⟩ :=
      form.positionalText_fraction (Int.not_le.1 hexponent)
    rw [htext] at h
    rcases List.mem_append.1 h with h | h
    · exact .inr (isDigit_of_padded hpadded (.inl h))
    · rcases List.mem_cons.1 h with rfl | h
      · exact .inl rfl
      · exact .inr (isDigit_of_padded hpadded (.inr h))

theorem positionalText_ne_nil (form : Notation64) (d : Digits) : form.positionalText d ≠ [] := by
  have hdigits : digitChars d.digits ≠ [] := Nat.toDigits_ne_nil
  unfold positionalText
  dsimp only
  split
  · simp [hdigits]
  · split <;> simp

/-- Exponent texts consist of digits, points, signs and the letter of the exponent. -/
theorem isDigit_of_mem_exponentText (form : Notation64) (d : Digits) {c : Char}
    (h : c ∈ form.exponentText d) : c ∈ ['-', '+', '.', 'e'] ∨ c.isDigit = true := by
  unfold exponentText at h
  dsimp only at h
  rcases List.mem_append.1 h with hmantissa | h
  · split at hmantissa
    · next lead next rest hdigits =>
      have hdigit : ∀ c ∈ lead :: next :: rest, c.isDigit = true := fun c hc =>
        isDigit_of_mem_digitChars (hdigits ▸ hc)
      rcases List.mem_cons.1 hmantissa with rfl | hmantissa
      · exact .inr (hdigit _ List.mem_cons_self)
      · rcases List.mem_cons.1 hmantissa with rfl | hmantissa
        · exact .inl (by decide)
        · exact .inr (hdigit c (List.mem_cons_of_mem _ hmantissa))
    · exact .inr (isDigit_of_mem_digitChars hmantissa)
  · rcases List.mem_cons.1 h with rfl | h
    · exact .inl (by decide)
    · rcases List.mem_append.1 h with hsign | hexponent
      · have hsigns : c = '-' ∨ c = '+' := by
          split at hsign
          · exact .inl (List.mem_singleton.1 hsign)
          · split at hsign
            · exact .inr (List.mem_singleton.1 hsign)
            · cases hsign
        rcases hsigns with rfl | rfl <;> exact .inl (by decide)
      · exact .inr (isDigit_of_mem_digitChars hexponent)

/-- The text of a number has a sign in front at most, which is not all of it. -/
theorem isDigit_of_mem_finiteText (form : Notation64) (x : Finite64) :
    (∀ c ∈ form.finiteText x, c ∈ ['-', '+', '.', 'e'] ∨ c.isDigit = true) ∧
      ∃ c ∈ form.finiteText x, c ≠ '-' := by
  unfold finiteText
  extract_lets d leading isPositional
  have hbody : ∀ c ∈ if isPositional then form.positionalText d else form.exponentText d,
      c ∈ ['-', '+', '.', 'e'] ∨ c.isDigit = true := by
    intro c hc
    split at hc
    · rcases isDigit_of_mem_positionalText form d hc with rfl | hdigit
      · exact .inl (by decide)
      · exact .inr hdigit
    · exact isDigit_of_mem_exponentText form d hc
  have hsome : ∃ c ∈ if isPositional then form.positionalText d else form.exponentText d,
      c ≠ '-' := by
    split
    · obtain ⟨c, rest, hcons⟩ := List.exists_cons_of_ne_nil (form.positionalText_ne_nil d)
      have hmem : c ∈ form.positionalText d := hcons ▸ List.mem_cons_self
      refine ⟨c, hmem, ?_⟩
      rintro rfl
      rcases isDigit_of_mem_positionalText form d hmem with h | h <;> cases h
    · refine ⟨'e', ?_, by decide⟩
      unfold exponentText
      exact List.mem_append_right _ List.mem_cons_self
  constructor
  · intro c hc
    rcases List.mem_append.1 hc with hsign | hc
    · split at hsign
      · obtain rfl := List.mem_singleton.1 hsign
        exact .inl (by decide)
      · cases hsign
    · exact hbody c hc
  · obtain ⟨c, hc, hne⟩ := hsome
    exact ⟨c, List.mem_append_right _ hc, hne⟩

theorem exponentText_ne_positionalText (form form' : Notation64) (d d' : Digits) :
    form.exponentText d ≠ form'.positionalText d' := by
  intro h
  have hmem : 'e' ∈ form.exponentText d := by
    unfold exponentText
    exact List.mem_append_right _ List.mem_cons_self
  rw [h] at hmem
  rcases isDigit_of_mem_positionalText form' d' hmem with hc | hc
  · cases hc
  · cases hc

theorem point_not_mem_padded {whole fraction : List Char} {n digits : Nat}
    (h : whole ++ fraction = zeros n ++ digitChars digits) : '.' ∉ whole ∧ '.' ∉ fraction := by
  constructor
  · intro hmem
    cases isDigit_of_padded h (.inl hmem)
  · intro hmem
    cases isDigit_of_padded h (.inr hmem)

/-- A text with decimals determines the digits and the exponent. -/
theorem positionalText_injective {form form' : Notation64} {d d' : Digits}
    (hd : d.exponent < 0) (hd' : d'.exponent < 0)
    (h : form.positionalText d = form'.positionalText d') : d = d' := by
  obtain ⟨whole, fraction, n, htext, hpadded, hlength⟩ := form.positionalText_fraction hd
  obtain ⟨whole', fraction', n', htext', hpadded', hlength'⟩ := form'.positionalText_fraction hd'
  obtain ⟨hwhole, hfraction⟩ := point_not_mem_padded hpadded
  rw [htext, htext'] at h
  obtain ⟨rfl, -, rfl⟩ := (List.append_cons_inj_of_notMem hwhole hfraction).1 h
  have hdigits : d.digits = d'.digits :=
    calc
      d.digits = Nat.ofDigitChars 10 (whole ++ fraction) 0 := by rw [hpadded, ofDigitChars_padded]
      _ = d'.digits := by rw [hpadded', ofDigitChars_padded]
  have hexponent : d.exponent = d'.exponent := by omega
  cases d
  cases d'
  subst hdigits hexponent
  rfl

/-- Decimals look the same in all notations. -/
theorem positionalText_congr (form form' : Notation64) {d : Digits} (h : d.exponent < 0) :
    form.positionalText d = form'.positionalText d := by
  have hneg : ¬0 ≤ d.exponent := Int.not_le.2 h
  unfold positionalText
  simp only [if_neg hneg]

theorem exponent_neg_of_point_mem {form : Notation64} (hkeeps : form.keepsPoint = false)
    {d : Digits} (h : '.' ∈ form.positionalText d) : d.exponent < 0 := by
  by_contra hnonneg
  obtain ⟨whole, hwhole, htext⟩ := form.positionalText_whole (d := d) (by omega)
  rw [htext, hkeeps] at h
  have hmem : '.' ∈ whole := by simpa using h
  cases hwhole '.' hmem

/-- An integral number that keeps its `.0` is written like one decimal, a zero. -/
theorem digits_of_kept_point {form form' : Notation64} {d d' : Digits}
    (hkeeps : form.keepsPoint = true) (hkeeps' : form'.keepsPoint = false)
    (hd : 0 ≤ d.exponent) (h : form.positionalText d = form'.positionalText d') :
    d'.exponent = -1 ∧ d'.digits % 10 = 0 := by
  obtain ⟨whole, hwhole, htext⟩ := form.positionalText_whole hd
  rw [htext, if_pos hkeeps] at h
  have hmem : '.' ∈ form'.positionalText d' := h ▸ List.mem_append_right whole List.mem_cons_self
  obtain ⟨whole', fraction, n, htext', hpadded, hlength⟩ :=
    form'.positionalText_fraction (exponent_neg_of_point_mem hkeeps' hmem)
  obtain ⟨hpoint, hpoint'⟩ := point_not_mem_padded hpadded
  rw [htext'] at h
  obtain ⟨rfl, -, rfl⟩ := (List.append_cons_inj_of_notMem hpoint hpoint').1 h.symm
  have hdigits : d'.digits = 10 * Nat.ofDigitChars 10 whole' 0 := by
    rw [← ofDigitChars_padded n d'.digits, ← hpadded, Nat.ofDigitChars_append]
    rfl
  have hone : (['0'].length : Int) = 1 := rfl
  constructor
  · omega
  · omega

/-- The decimal exponent of the leading digit. -/
def leading (d : Digits) : Int := (digitChars d.digits).length + d.exponent - 1

variable {form form' : Notation64} {low high : Int}

theorem finiteText_of_bounds (hpositional : form.positional = some (low, high)) (x : Finite64) :
    form.finiteText x = (if x.negative then ['-'] else []) ++
      if low ≤ leading (x.shortest form.tie) ∧ leading (x.shortest form.tie) ≤ high then
        form.positionalText (x.shortest form.tie)
      else form.exponentText (x.shortest form.tie) := by
  unfold finiteText leading
  simp only [hpositional, decide_eq_true_eq]

/-- A notation with bounds that keeps a `.0` and one that writes all digits and
nothing else agree on the numbers with decimals within the bounds, if they agree on
the digits. -/
theorem finiteText_eq_iff (hpositional : form.positional = some (low, high))
    (hkeeps : form.keepsPoint = true) (hpositional' : form'.positional = none)
    (hkeeps' : form'.keepsPoint = false) (x : Finite64) :
    form.finiteText x = form'.finiteText x ↔
      x.shortest form'.tie = x.shortest form.tie ∧ (x.shortest form.tie).exponent < 0 ∧
        low ≤ leading (x.shortest form.tie) ∧ leading (x.shortest form.tie) ≤ high := by
  have hright : form'.finiteText x = (if x.negative then ['-'] else []) ++
      form'.positionalText (x.shortest form'.tie) := by
    unfold finiteText
    simp only [hpositional', if_true]
  rw [finiteText_of_bounds hpositional, hright, List.append_cancel_left_eq]
  by_cases hbounds : low ≤ leading (x.shortest form.tie) ∧ leading (x.shortest form.tie) ≤ high
  · rw [if_pos hbounds]
    constructor
    · intro h
      have hexponent : (x.shortest form.tie).exponent < 0 := by
        by_contra hnonneg
        obtain ⟨hone, hzero⟩ := digits_of_kept_point hkeeps hkeeps' (by omega) h
        rcases x.shortest_cases with hboth | ⟨power, hpower⟩
        · rw [hboth form'.tie] at hone
          cases hone
        · have hform := hpower form.tie
          have hform' := hpower form'.tie
          omega
      have hexponent' : (x.shortest form'.tie).exponent < 0 := by
        obtain ⟨whole, fraction, -, htext, -⟩ := form.positionalText_fraction hexponent
        apply exponent_neg_of_point_mem hkeeps'
        rw [← h, htext]
        exact List.mem_append_right whole List.mem_cons_self
      exact ⟨(positionalText_injective hexponent hexponent' h).symm, hexponent, hbounds⟩
    · intro h
      obtain ⟨hsame, hexponent, -⟩ := h
      rw [hsame]
      exact positionalText_congr form form' hexponent
  · rw [if_neg hbounds]
    constructor
    · intro h
      exact (exponentText_ne_positionalText form form' _ _ h).elim
    · intro h
      obtain ⟨-, -, hin⟩ := h
      exact absurd hin hbounds

/-- A negative exponent has its sign in all notations. -/
theorem exponentText_congr (form form' : Notation64) {d : Digits} (h : leading d < 0) :
    form.exponentText d = form'.exponentText d := by
  unfold leading at h
  unfold exponentText
  simp only [if_pos h]

theorem exponentText_plus (hplus : form.plusExponent = false) (hplus' : form'.plusExponent = true)
    {d : Digits} (h : 0 ≤ leading d) :
    ∃ mantissa exponent, form.exponentText d = mantissa ++ 'e' :: exponent ∧
      form'.exponentText d = mantissa ++ 'e' :: '+' :: exponent := by
  have hsign : ¬((digitChars d.digits).length : Int) + d.exponent - 1 < 0 := Int.not_lt.2 h
  unfold exponentText
  simp only [if_neg hsign, hplus, hplus', if_true, Bool.false_eq_true, if_false]
  exact ⟨_, _, rfl, rfl⟩

/-- Two notations that differ in the sign of positive exponents agree up to the largest
numbers that are positional; beyond them one has a plus sign where the other has none. -/
theorem finiteText_plus (hpositional : form.positional = some (low, high))
    (hpositional' : form'.positional = some (low, high)) (htie : form'.tie = form.tie)
    (hkeeps : form'.keepsPoint = form.keepsPoint) (hplus : form.plusExponent = false)
    (hplus' : form'.plusExponent = true) (hlow : low ≤ 0) (hhigh : 0 ≤ high) (x : Finite64) :
    (leading (x.shortest form.tie) ≤ high → form'.finiteText x = form.finiteText x) ∧
      (high < leading (x.shortest form.tie) →
        ∃ mantissa exponent, form.finiteText x = mantissa ++ 'e' :: exponent ∧
          form'.finiteText x = mantissa ++ 'e' :: '+' :: exponent) := by
  rw [finiteText_of_bounds hpositional, finiteText_of_bounds hpositional', htie]
  constructor
  · intro hbound
    by_cases hbounds : low ≤ leading (x.shortest form.tie) ∧ leading (x.shortest form.tie) ≤ high
    · have hsame : form'.positionalText (x.shortest form.tie) =
          form.positionalText (x.shortest form.tie) := by
        unfold positionalText
        rw [hkeeps]
      rw [if_pos hbounds, if_pos hbounds, hsame]
    · have hneg : leading (x.shortest form.tie) < 0 := by omega
      rw [if_neg hbounds, if_neg hbounds, exponentText_congr form' form hneg]
  · intro hbeyond
    have hbounds : ¬(low ≤ leading (x.shortest form.tie) ∧
        leading (x.shortest form.tie) ≤ high) := by omega
    obtain ⟨mantissa, exponent, htext, htext'⟩ :=
      exponentText_plus hplus hplus' (d := x.shortest form.tie) (by omega)
    rw [if_neg hbounds, if_neg hbounds, htext, htext']
    exact ⟨_, exponent, (List.append_assoc ..).symm, (List.append_assoc ..).symm⟩

end Notation64

end ServerManifests.Decimal
