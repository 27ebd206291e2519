import TimingNode.Shell.Blank
import TimingNode.Shell.Error

namespace TimingNode.Shell

/-- The longest runs of characters that are not blank, in order. -/
def words : List Char → List (List Char)
  | [] => []
  | c :: cs =>
      if isBlank c then words cs
      else (c :: cs.takeWhile (! isBlank ·)) :: words (cs.dropWhile (! isBlank ·))
termination_by cs => cs.length
decreasing_by
  · simp
  · have h := (List.dropWhile_suffix (! isBlank ·) (l := cs)).length_le
    simp only [List.length_cons]
    omega

structure Command where
  name : String
  arguments : List String
deriving DecidableEq

namespace Command

def maxArguments : Nat := 4

def ofLine (line : String) : Except Error (Option Command) :=
  match (words line.toList).map String.ofList with
  | [] => .ok none
  | name :: arguments =>
      if arguments.length ≤ maxArguments then .ok (some ⟨name, arguments⟩)
      else .error .tooManyArguments

end Command

/-- Whether a word is `keyword`, which is in lower case, in any mixture of ASCII cases. -/
def isKeyword (keyword word : String) : Bool :=
  word.toList.map Char.toLower == keyword.toList

end TimingNode.Shell
