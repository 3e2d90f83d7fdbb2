import RecordSearch.Text.CaseTable

/-!
# Lower case

Lower-casing a text character by character. Two capitals are special: I with a dot above has two small
characters, and the Greek sigma has a form of its own at the end of a word.
-/

namespace RecordSearch.Text

def capitalSigma : Char := Char.ofNat 0x3A3

def smallSigma : Char := Char.ofNat 0x3C3

/-- The small sigma that ends a word. -/
def finalSigma : Char := Char.ofNat 0x3C2

/-- The small form of a character regardless of its neighbours. -/
def lowerChar (c : Char) : List Char :=
  let n := c.toNat
  if n == 0x130 then [Char.ofNat 0x69, Char.ofNat 0x307]
  else match lowercaseRuns.find? (·.covers n) with
    | some run => [Char.ofNat (n + run.offset).toNat]
    | none => [c]

def isCased (c : Char) : Bool := inRanges casedRanges c.toNat

def isCaseIgnorable (c : Char) : Bool := inRanges caseIgnorableRanges c.toNat

/-- Whether the first character that counts, reading on from here, is a letter with case. -/
def meetsLetter (s : List Char) : Bool :=
  match s.dropWhile isCaseIgnorable with
  | [] => false
  | c :: _ => isCased c

/-- Lower-cases the text that follows the characters `before`, the nearest first. -/
def lowercaseAfter (before : List Char) : List Char → List Char
  | [] => []
  | c :: rest =>
      (if c = capitalSigma then
        [if meetsLetter before && !meetsLetter rest then finalSigma else smallSigma]
      else lowerChar c) ++ lowercaseAfter (c :: before) rest

def lowercase (s : List Char) : List Char := lowercaseAfter [] s

end RecordSearch.Text
