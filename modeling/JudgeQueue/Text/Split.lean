/-!
# Splitting text

The parts of a text between occurrences of a separator.
-/

namespace JudgeQueue

namespace Split

/-- The parts between separators; a text without any is its only part. -/
def parts (separator : Char) : List Char → List (List Char)
  | [] => [[]]
  | c :: cs =>
    match parts separator cs with
    | [] => [[c]]
    | part :: rest => if c = separator then [] :: part :: rest else (c :: part) :: rest

/-- The parts of a text. -/
def text (separator : Char) (s : String) : List String :=
  (parts separator s.toList).map String.ofList

/-- What stands before the first separator, and after it if there is one. -/
def atFirst (separator : Char) (cs : List Char) : List Char × Option (List Char) :=
  (cs.takeWhile (· ≠ separator),
    match cs.dropWhile (· ≠ separator) with
    | [] => none
    | _ :: rest => some rest)

end Split

end JudgeQueue
