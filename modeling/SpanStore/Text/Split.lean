namespace SpanStore.Text

/-- The text before the first character that satisfies the test, and the text after it if there
is one. -/
def cut (p : Char → Bool) : List Char → List Char × Option (List Char)
  | [] => ([], none)
  | c :: rest =>
      if p c then ([], some rest)
      else
        let (before, after) := cut p rest
        (c :: before, after)

/-- The text after the last character that satisfies the test, or all of it. -/
def afterLast (p : Char → Bool) (s : List Char) : List Char :=
  (s.reverse.takeWhile fun c => !p c).reverse

end SpanStore.Text
