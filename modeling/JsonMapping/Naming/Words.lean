import JsonMapping.Text.Case

/-! A name as words. A word starts at every upper case letter and after every underscore, and
underscores belong to no word. -/

namespace JsonMapping.Words

/-- The word read so far, if there is one. -/
def finish : List Char → List (List Char)
  | [] => []
  | word => [word]

/-- Words of `word` followed by the given characters, where `word` is the one being read. -/
def splitFrom (word : List Char) : List Char → List (List Char)
  | [] => finish word
  | c :: rest =>
    if c = '_' then finish word ++ splitFrom [] rest
    else if Text.isUppercase c then finish word ++ splitFrom [c] rest
    else splitFrom (word ++ [c]) rest

def split (cs : List Char) : List (List Char) := splitFrom [] cs

/-- The words with underscores between them. -/
def join (words : List (List Char)) : List Char := List.intercalate ['_'] words

def snakeCase (words : List (List Char)) : List Char := Text.lower (join words)

/-- `CASE_INSENSITIVE_SERIALIZER`, the form of a constant's name. -/
def screamingCase (words : List (List Char)) : List Char := Text.upper (join words)

end JsonMapping.Words
