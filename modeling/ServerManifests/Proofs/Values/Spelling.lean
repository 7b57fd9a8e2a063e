import ServerManifests.Codec.Basic
import ServerManifests.Proofs.Decimal.Notation
import ServerManifests.Values.Override

/-!
What a text field makes of the value of an override. Numbers are kept as numbers if
the tree's notation prints them back as typed, but the field prints them once more
in a notation of its own, and a boolean has one spelling there. So some scalars
arrive with another text than the one that was typed.
-/
namespace ServerManifests.Values

open Codec Decimal Yaml

theorem scalarOf_cases (raw : String) :
    scalarOf raw = .null ∨ (∃ b, scalarOf raw = .bool b) ∨
      (∃ n : Int, scalarOf raw = .int n ∧ toString n = raw) ∨
      (∃ x, scalarOf raw = .float x ∧ Value.numberNotation.text x = raw) ∨
      scalarOf raw = .text raw := by
  unfold scalarOf
  split
  · next hempty =>
    have hraw : raw = "" := by simpa using hempty
    subst hraw
    simp
  · split
    · exact .inl rfl
    · next b _ => exact .inr (.inl ⟨b, rfl⟩)
    · next n _ =>
      split
      · next hn => exact .inr (.inr (.inl ⟨n, rfl, hn⟩))
      · simp
    · next x _ =>
      split
      · next hx => exact .inr (.inr (.inr (.inl ⟨x, rfl, hx⟩)))
      · simp
    · simp

/-- Numbers that a tree and a text field print alike: with decimals, not too small
or too large to be positional, and with the same shortest digits in both. -/
def PrintedAlike : Binary64 → Prop
  | .finite x =>
    let d := x.shortest .toEven
    x.shortest .up = d ∧ d.exponent < 0 ∧
      -5 ≤ Notation64.leading d ∧ Notation64.leading d ≤ 15
  | _ => False

theorem text_textNotation_eq_iff (x : Binary64) :
    textNotation.text x = Value.numberNotation.text x ↔ PrintedAlike x := by
  cases x with
  | nan =>
    refine iff_of_false ?_ id
    decide
  | infinite negative =>
    refine iff_of_false ?_ id
    cases negative <;> decide
  | finite x =>
    have hiff : Value.numberNotation.finiteText x = textNotation.finiteText x ↔
        PrintedAlike (.finite x) := Notation64.finiteText_eq_iff rfl rfl rfl rfl x
    rw [← hiff]
    unfold Notation64.text
    rw [String.ofList_inj, eq_comm]

/-- Texts that read as a boolean or a number and arrive with another spelling. -/
inductive Respelled (raw : String) : Prop
  | bool {b : Bool} (h : scalarOf raw = .bool b) (hne : raw ≠ if b then "true" else "false")
  | float {x : Binary64} (h : scalarOf raw = .float x) (hne : ¬PrintedAlike x)

/-- The text that a field has for an override is the typed one unless it is respelled. -/
theorem readScalar_scalarOf {raw : String} (hnull : scalarOf raw ≠ .null) :
    ∃ text, readScalar (scalarOf raw) = .ok text ∧ (text = raw ↔ ¬Respelled raw) := by
  rcases scalarOf_cases raw with h | ⟨b, h⟩ | ⟨n, h, hn⟩ | ⟨x, h, hx⟩ | h
  · exact absurd h hnull
  · refine ⟨if b then "true" else "false", by rw [h]; rfl, ?_⟩
    constructor
    · intro htext hrespelled
      rcases hrespelled with ⟨h', hne⟩ | ⟨h', -⟩
      · obtain rfl := Value.bool.inj (h.symm.trans h')
        exact hne htext.symm
      · cases h.symm.trans h'
    · intro hnot
      by_contra hne
      exact hnot (.bool h (Ne.symm hne))
  · refine ⟨toString n, by rw [h]; rfl, ?_⟩
    refine iff_of_true hn ?_
    intro hrespelled
    rcases hrespelled with ⟨h', -⟩ | ⟨h', -⟩
    · cases h.symm.trans h'
    · cases h.symm.trans h'
  · refine ⟨textNotation.text x, by rw [h]; rfl, ?_⟩
    rw [← hx, text_textNotation_eq_iff, hx]
    constructor
    · intro halike hrespelled
      rcases hrespelled with ⟨h', -⟩ | ⟨h', hne⟩
      · cases h.symm.trans h'
      · obtain rfl := Value.float.inj (h.symm.trans h')
        exact hne halike
    · intro hnot
      by_contra hne
      exact hnot (.float h hne)
  · refine ⟨raw, by rw [h]; rfl, ?_⟩
    refine iff_of_true rfl ?_
    intro hrespelled
    rcases hrespelled with ⟨h', -⟩ | ⟨h', -⟩
    · cases h.symm.trans h'
    · cases h.symm.trans h'

end ServerManifests.Values
