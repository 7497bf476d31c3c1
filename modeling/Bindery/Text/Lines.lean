/-!
# Lines

Texts that are made of lines, each with its line end.
-/

namespace Bindery.Text

/-- Each line with its line end. -/
def joinLines (lines : List String) : String := String.join (lines.map (· ++ "\n"))

/-- The text, with a line end after it unless it has one. -/
def endLine (s : String) : String := if s.toList.getLast? = some '\n' then s else s ++ "\n"

@[simp]
theorem joinLines_nil : joinLines [] = "" := rfl

@[simp]
theorem joinLines_cons (line : String) (lines : List String) :
    joinLines (line :: lines) = line ++ "\n" ++ joinLines lines := by
  simp [joinLines]

/-- Two blocks of lines, one under the other. -/
theorem joinLines_append (above below : List String) :
    joinLines (above ++ below) = joinLines above ++ joinLines below := by
  simp [joinLines]

end Bindery.Text
