/-!
# Text

What the library does with text: trimming, words, lines, replacement and search. Each
operation is a function on lists of characters with a wrapper on `String`, and recurs on
the list.
-/

namespace Formulary.Text

/-! ## Blank characters -/

/-- The white-space characters of Unicode. -/
def isBlank (c : Char) : Bool :=
  let n := c.toNat
  (9 ≤ n && n ≤ 13) || n == 0x20 || n == 0x85 || n == 0xA0 || n == 0x1680 ||
    (0x2000 ≤ n && n ≤ 0x200A) || n == 0x2028 || n == 0x2029 || n == 0x202F ||
    n == 0x205F || n == 0x3000

/-- The characters without the blank ones at either end. -/
def trimChars (cs : List Char) : List Char :=
  ((cs.dropWhile isBlank).reverse.dropWhile isBlank).reverse

/-- The text without the blank characters at either end. -/
def trim (s : String) : String := String.ofList (trimChars s.toList)

/-- No character of the text is other than blank. -/
def isBlankText (s : String) : Bool := s.toList.all isBlank

/-! ## Splitting -/

/-- The pieces between the characters that satisfy `sep` : one more than there are
separators. -/
def split (sep : Char → Bool) : List Char → List (List Char)
  | [] => [[]]
  | c :: cs =>
    if sep c then [] :: split sep cs
    else match split sep cs with
      | [] => [[c]]
      | piece :: pieces => (c :: piece) :: pieces

theorem split_ne_nil (sep : Char → Bool) (cs : List Char) : split sep cs ≠ [] := by
  cases cs with
  | nil => simp [split]
  | cons c cs =>
    simp only [split]
    split
    · simp
    · split <;> simp

/-- No separator is in a piece. -/
theorem not_mem_of_mem_split {sep : Char → Bool} {cs piece : List Char} {c : Char}
    (h : piece ∈ split sep cs) (hc : c ∈ piece) : sep c = false := by
  induction cs generalizing piece with
  | nil => simp [split] at h; simp [h] at hc
  | cons d ds ih =>
    simp only [split] at h
    split at h
    · rcases List.mem_cons.1 h with rfl | h
      · simp at hc
      · exact ih h hc
    · rename_i hd
      split at h
      · simp only [List.mem_singleton] at h
        subst h
        obtain rfl := List.mem_singleton.1 hc
        simpa using hd
      · rename_i p ps hps
        rcases List.mem_cons.1 h with rfl | h
        · rcases List.mem_cons.1 hc with rfl | hc
          · simpa using hd
          · exact ih (hps ▸ List.mem_cons_self) hc
        · exact ih (hps ▸ List.mem_cons_of_mem _ h) hc

/-- The text cut at every `sep`. -/
def pieces (sep : Char) (s : String) : List String :=
  (split (· == sep) s.toList).map String.ofList

/-- The two parts around the first `sep`. -/
def splitOnce (sep : Char) (s : String) : Option (String × String) :=
  let head := s.toList.takeWhile (· != sep)
  match s.toList.dropWhile (· != sep) with
  | [] => none
  | _ :: tail => some (String.ofList head, String.ofList tail)

/-- The maximal runs of characters that are not blank. -/
def words (cs : List Char) : List (List Char) :=
  (split isBlank cs).filter (· ≠ [])

/-- A line without the carriage return that ends it. -/
def dropReturn (cs : List Char) : List Char :=
  match cs.reverse with
  | '\r' :: rest => rest.reverse
  | _ => cs

/-- Lines of a list of pieces cut at line feeds : all but the last piece had a line
feed behind it, and an empty last piece is no line. -/
def linesOf : List (List Char) → List (List Char)
  | [] => []
  | [last] => if last = [] then [] else [last]
  | piece :: rest => dropReturn piece :: linesOf rest

/-- The lines of a text, without their line feeds. -/
def lines (cs : List Char) : List (List Char) := linesOf (split (· == '\n') cs)

/-! ## Search and replacement -/

/-- Replacement from the left, with `skip` characters of a found pattern still to pass. -/
def replaceFrom (pat new : List Char) : Nat → List Char → List Char
  | _, [] => []
  | skip + 1, _ :: cs => replaceFrom pat new skip cs
  | 0, c :: cs =>
    if pat.isPrefixOf (c :: cs) then new ++ replaceFrom pat new (pat.length - 1) cs
    else c :: replaceFrom pat new 0 cs

/-- Every occurrence of `pat`, found from the left and not overlapping, becomes `new`.
The pattern is not empty. -/
def replaceChars (pat new cs : List Char) : List Char := replaceFrom pat new 0 cs

/-- Every occurrence of the pattern becomes `new`. -/
def replace (s pat new : String) : String :=
  String.ofList (replaceChars pat.toList new.toList s.toList)

/-- The pattern occurs somewhere in the characters. -/
def occursIn (pat : List Char) : List Char → Bool
  | [] => pat.isEmpty
  | c :: cs => pat.isPrefixOf (c :: cs) || occursIn pat cs

/-- The pattern is part of the text. -/
def contains (s pat : String) : Bool := occursIn pat.toList s.toList

/-- What is left of the characters behind `pat`, when they start with it. -/
def after? : List Char → List Char → Option (List Char)
  | [], cs => some cs
  | _ :: _, [] => none
  | p :: pat, c :: cs => if p = c then after? pat cs else none

/-- What is left of the characters before `pat`, when they end with it. -/
def before? (pat cs : List Char) : Option (List Char) :=
  (after? pat.reverse cs.reverse).map List.reverse

/-- The text starts with the pattern. -/
def startsWith (s pat : String) : Bool := (after? pat.toList s.toList).isSome

/-- The text ends with the pattern. -/
def endsWith (s pat : String) : Bool := (before? pat.toList s.toList).isSome

/-! ## Joining and writing -/

/-- The texts in order, `sep` between each two. -/
def join (sep : String) : List String → String
  | [] => ""
  | [s] => s
  | s :: rest => s ++ sep ++ join sep rest

/-- An ASCII digit. -/
def isDigit (c : Char) : Bool := '0' ≤ c && c ≤ '9'

/-- The characters of a number in the given base, at least one. -/
def digits (base n : Nat) : List Char := Nat.toDigits base n

/-- A number in decimal. -/
def decimal (n : Nat) : String := String.ofList (Nat.toDigits 10 n)

/-- A number in octal. -/
def octal (n : Nat) : String := String.ofList (Nat.toDigits 8 n)

/-- The digits padded with zeros on the left to the given width. -/
def padLeft (width : Nat) (cs : List Char) : List Char :=
  List.replicate (width - cs.length) '0' ++ cs

/-- A whole number in decimal, with a minus sign when it is negative. -/
def integer : Int → String
  | .ofNat n => decimal n
  | .negSucc n => "-" ++ decimal (n + 1)

/-- The value of an ASCII digit in a base up to sixteen. -/
def digitValue? (base : Nat) (c : Char) : Option Nat :=
  let v :=
    if '0' ≤ c && c ≤ '9' then c.toNat - 48
    else if 'a' ≤ c && c ≤ 'f' then c.toNat - 87
    else if 'A' ≤ c && c ≤ 'F' then c.toNat - 55
    else base
  if v < base then some v else none

/-- The number that a non-empty list of digits writes. -/
def number? (base : Nat) (cs : List Char) : Option Nat :=
  if cs.isEmpty then none
  else cs.foldlM (fun n c => (digitValue? base c).map (n * base + ·)) 0

end Formulary.Text
