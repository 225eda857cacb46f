import BeanCatalog.Text.Blank

namespace BeanCatalog.Text

def splitAny (ds : List Char) : List Char → List (List Char)
  | [] => [[]]
  | c :: cs =>
    if c ∈ ds then [] :: splitAny ds cs
    else
      match splitAny ds cs with
      | [] => [[c]]
      | run :: runs => (c :: run) :: runs

def tokensOf (ds cs : List Char) : List (List Char) :=
  ((splitAny ds cs).map stripChars).filter (· ≠ [])

def multiValueDelimiters : String := ",; "

def tokenize (s : String) (delimiters : String := multiValueDelimiters) : List String :=
  (tokensOf delimiters.toList s.toList).map String.ofList

theorem splitAny_ne_nil (ds cs : List Char) : splitAny ds cs ≠ [] := by
  cases cs with
  | nil => simp [splitAny]
  | cons c cs =>
    unfold splitAny
    split
    · simp
    · split <;> simp

end BeanCatalog.Text
