import Bindery.Text.Ranges

/-!
# Blank characters

The characters with the Unicode property `White_Space`: 25 code points in ten ranges.
-/

namespace Bindery.Text

/-- The ranges of the blank characters. -/
def blankRanges : List (Nat × Nat) :=
  [(0x09, 0x0D), (0x20, 0x20), (0x85, 0x85), (0xA0, 0xA0), (0x1680, 0x1680), (0x2000, 0x200A),
    (0x2028, 0x2029), (0x202F, 0x202F), (0x205F, 0x205F), (0x3000, 0x3000)]

/-- The character is blank. -/
def isBlank (c : Char) : Bool := inRanges blankRanges c.toNat

/-- The text without its blank characters. -/
def removeBlanks (s : String) : String := String.ofList (s.toList.filter fun c => !isBlank c)

@[simp]
theorem toList_removeBlanks (s : String) :
    (removeBlanks s).toList = s.toList.filter fun c => !isBlank c := by
  simp [removeBlanks]

theorem isBlank_of_mem_removeBlanks {s : String} {c : Char} (h : c ∈ (removeBlanks s).toList) :
    isBlank c = false := by
  simp only [toList_removeBlanks, List.mem_filter] at h
  simpa using h.2

theorem removeBlanks_of_solid {s : String} (h : ∀ c ∈ s.toList, isBlank c = false) :
    removeBlanks s = s := by
  have : s.toList.filter (fun c => !isBlank c) = s.toList :=
    List.filter_eq_self.2 fun c hc => by simp [h c hc]
  simp [removeBlanks, this]

end Bindery.Text
