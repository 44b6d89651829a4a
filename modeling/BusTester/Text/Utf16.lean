import Mathlib.Data.List.DropRight
import Mathlib.Tactic.Tauto

/-!
# UTF-16 strings and their white space

Both runtimes hold a string as a sequence of UTF-16 code units in which a surrogate need not be
paired, so a string is that sequence. The two runtimes do not agree on what white space is: U+0085
is white space for .NET only, U+FEFF for JavaScript only. Trimming is therefore stated once for an
arbitrary predicate and instantiated twice.
-/

/-- A string as .NET and JavaScript hold it. -/
abbrev Utf16 := List UInt16

namespace Utf16

/-- The code units of one Unicode scalar value. -/
def unitsOfChar (c : Char) : Utf16 :=
  if c.toNat < 0x10000 then [UInt16.ofNat c.toNat]
  else
    [UInt16.ofNat (0xD800 + (c.toNat - 0x10000) / 0x400),
      UInt16.ofNat (0xDC00 + (c.toNat - 0x10000) % 0x400)]

def ofString (s : String) : Utf16 := s.toList.flatMap unitsOfChar

/-! ## White space -/

/-- The code units that are white space for both runtimes. -/
def commonWhiteSpace : List UInt16 :=
  [0x09, 0x0A, 0x0B, 0x0C, 0x0D, 0x20, 0xA0, 0x1680, 0x2000, 0x2001, 0x2002, 0x2003, 0x2004,
    0x2005, 0x2006, 0x2007, 0x2008, 0x2009, 0x200A, 0x2028, 0x2029, 0x202F, 0x205F, 0x3000]

/-- `char.IsWhiteSpace`. -/
def isWhiteSpace (c : UInt16) : Bool := c == 0x85 || commonWhiteSpace.contains c

/-- The `WhiteSpace` and `LineTerminator` code units of ECMA-262. -/
def isJsWhiteSpace (c : UInt16) : Bool := c == 0xFEFF || commonWhiteSpace.contains c

/-! ## Trimming -/

/-- Drop the code units satisfying `p` from both ends. -/
def trimWith (p : UInt16 → Bool) (s : Utf16) : Utf16 := (s.dropWhile p).rdropWhile p

/-- `string.Trim()`. -/
def trim (s : Utf16) : Utf16 := s.trimWith isWhiteSpace

/-- `String.prototype.trim`. -/
def jsTrim (s : Utf16) : Utf16 := s.trimWith isJsWhiteSpace

/-- `string.IsNullOrWhiteSpace`, with `none` for `null`. -/
def isNullOrWhiteSpace : Option Utf16 → Bool
  | none => true
  | some s => s.all isWhiteSpace

theorem trimWith_eq_self {p : UInt16 → Bool} {s : Utf16} (h : ∀ c ∈ s, p c = false) :
    s.trimWith p = s := by
  have hdrop : s.dropWhile p = s := by
    cases s with
    | nil => rfl
    | cons c s => exact List.dropWhile_cons_of_neg (by simp [h c])
  rw [trimWith, hdrop, List.rdropWhile_eq_self_iff]
  exact fun hne ↦ by simp [h _ (List.getLast_mem hne)]

theorem trimWith_eq_nil_iff {p : UInt16 → Bool} {s : Utf16} :
    s.trimWith p = [] ↔ ∀ c ∈ s, p c = true := by
  rw [trimWith, List.rdropWhile_eq_nil_iff]
  refine ⟨fun h ↦ ?_, fun h c hc ↦ h c ((List.dropWhile_sublist p).subset hc)⟩
  by_contra hsome
  have hne : s.dropWhile p ≠ [] := fun hnil ↦ hsome (List.dropWhile_eq_nil_iff.mp hnil)
  exact absurd (h _ (List.head_mem hne)) (by simpa using List.head_dropWhile_not p hne)

@[simp] theorem isNullOrWhiteSpace_cons {c : UInt16} {s : Utf16} :
    isNullOrWhiteSpace (some (c :: s)) = (isWhiteSpace c && isNullOrWhiteSpace (some s)) := rfl

theorem isWhiteSpace_eq_false {c : UInt16} (h : 0x3000 < c.toNat) :
    isWhiteSpace c = false := by
  have hmax : ∀ d ∈ 0x85 :: commonWhiteSpace, d.toNat ≤ 0x3000 := by
    simp [commonWhiteSpace]
  by_contra hspace
  rw [Bool.not_eq_false, isWhiteSpace, Bool.or_eq_true, beq_iff_eq, List.contains_iff_mem,
    ← List.mem_cons] at hspace
  exact absurd (hmax c hspace) (by omega)

end Utf16
