/-!
White space: the characters with the Unicode property of that name, and texts
with none of it at their ends.
-/
namespace ServerManifests.Text

def blankRanges : List (Nat × Nat) :=
  [(0x9, 0xD), (0x20, 0x20), (0x85, 0x85), (0xA0, 0xA0), (0x1680, 0x1680), (0x2000, 0x200A),
    (0x2028, 0x2029), (0x202F, 0x202F), (0x205F, 0x205F), (0x3000, 0x3000)]

def isBlankChar (c : Char) : Bool :=
  blankRanges.any fun (low, high) => low ≤ c.toNat && c.toNat ≤ high

def dropEndWhile (p : Char → Bool) (cs : List Char) : List Char :=
  (cs.reverse.dropWhile p).reverse

def trim (s : String) : String :=
  String.ofList (dropEndWhile isBlankChar (s.toList.dropWhile isBlankChar))

/-- A blank text is empty or white space throughout. -/
def isBlank (s : String) : Bool := s.toList.all isBlankChar

theorem dropWhile_eq_nil_iff_all (p : Char → Bool) (cs : List Char) :
    cs.dropWhile p = [] ↔ cs.all p = true := by
  induction cs with
  | nil => simp
  | cons c rest ih => by_cases hc : p c = true <;> simp [hc, ih]

theorem dropEndWhile_eq_nil_iff (p : Char → Bool) (cs : List Char) :
    dropEndWhile p cs = [] ↔ cs.all p = true := by
  rw [dropEndWhile, List.reverse_eq_nil_iff, dropWhile_eq_nil_iff_all, List.all_reverse]

theorem all_dropWhile (p : Char → Bool) (cs : List Char) :
    (cs.dropWhile p).all p = cs.all p := by
  induction cs with
  | nil => rfl
  | cons c rest ih => by_cases hc : p c = true <;> simp [hc, ih]

theorem trim_eq_empty_iff (s : String) : trim s = "" ↔ isBlank s = true := by
  rw [trim, isBlank, ← all_dropWhile, ← dropEndWhile_eq_nil_iff, ← String.toList_inj]
  simp

end ServerManifests.Text
