/-!
# Splitting text

`tokens` gives the longest runs of characters that are no separators; what stands between them
is dropped. `lines` ends a line at each line feed, together with a carriage return right before
it; text after the last line feed is one more line, and keeps a carriage return at its end.
-/

namespace WebSocket.Text

theorem length_dropWhile_le {α : Type} (p : α → Bool) (xs : List α) :
    (xs.dropWhile p).length ≤ xs.length :=
  (List.dropWhile_suffix p).length_le

def tokens (isSeparator : Char → Bool) : List Char → List (List Char)
  | [] => []
  | c :: rest =>
    if isSeparator c then tokens isSeparator rest
    else
      (c :: rest.takeWhile (!isSeparator ·)) ::
        tokens isSeparator (rest.dropWhile (!isSeparator ·))
termination_by text => text.length
decreasing_by
  · simp
  · exact Nat.lt_succ_of_le (length_dropWhile_le _ _)

/-- Puts a character in front of the first line. -/
def consFirst (c : Char) : List (List Char) → List (List Char)
  | [] => [[c]]
  | line :: lines => (c :: line) :: lines

def lines : List Char → List (List Char)
  | [] => []
  | '\n' :: rest => [] :: lines rest
  | '\r' :: '\n' :: rest => [] :: lines rest
  | c :: rest => consFirst c (lines rest)

/-- The text before and after the first `mark`. -/
def splitFirst? (mark : Char) (text : List Char) : Option (List Char × List Char) :=
  match text.dropWhile (· != mark) with
  | [] => none
  | _ :: rest => some (text.takeWhile (· != mark), rest)

end WebSocket.Text
