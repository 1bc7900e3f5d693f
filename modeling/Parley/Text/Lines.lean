namespace Parley.Text

/--
The lines of a text, each with the newline that ends it. Only the last one may lack a newline.
-/
def lines (text : List Char) : List (List Char) :=
  go [] text
where
  /-- The characters of the line that is being read are in `line`, last first. -/
  go (line : List Char) : List Char → List (List Char)
    | [] => if line.isEmpty then [] else [line.reverse]
    | c :: rest =>
      if c = '\n' then (c :: line).reverse :: go [] rest else go (c :: line) rest

def parts (separator : Char) (text : String) : List String :=
  (text.toList.splitOn separator).map String.ofList

end Parley.Text
