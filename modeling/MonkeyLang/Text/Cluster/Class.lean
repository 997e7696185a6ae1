import MonkeyLang.Text.Cluster.Ranges
import MonkeyLang.Text.GraphemeExtend

namespace MonkeyLang.Text

/-- What matters of a character for whether a cluster goes on with it or behind it. -/
inductive ClusterClass
  | carriageReturn | lineFeed | control
  | extend
  /-- A mark that joins two consonants. -/
  | linker
  /-- The mark that keeps two consonants apart. -/
  | nonJoiner
  | joiner
  | spacingMark | prepended | regional
  | leadingJamo | vowelJamo | trailingJamo
  /-- A syllable without a consonant at its end, and one with it. -/
  | openSyllable | closedSyllable
  | consonant | pictograph
  | other
deriving DecidableEq

namespace ClusterClass

/-- The class of a Hangul syllable: they stand in groups of 28, the open one first. -/
def ofSyllable (c : Char) : ClusterClass :=
  if (c.toNat - 0xac00) % 28 = 0 then openSyllable else closedSyllable

def of (c : Char) : ClusterClass :=
  if ' ' ≤ c && c ≤ '~' then other
  else if c = '\r' then carriageReturn
  else if c = '\n' then lineFeed
  else if c.toNat = 0x200c then nonJoiner
  else if c.toNat = 0x200d then joiner
  else if inRanges controls c then control
  else if inRanges conjunctLinkers c then linker
  else if inRanges graphemeExtend c || inRanges emojiModifiers c then extend
  else if inRanges spacingMarks c then spacingMark
  else if inRanges prependedSigns c then prepended
  else if inRanges regionalIndicators c then regional
  else if inRanges leadingJamos c then leadingJamo
  else if inRanges vowelJamos c then vowelJamo
  else if inRanges trailingJamos c then trailingJamo
  else if inRanges hangulSyllables c then ofSyllable c
  else if inRanges conjunctConsonants c then consonant
  else if inRanges pictographs c then pictograph
  else other

def isControl : ClusterClass → Bool
  | carriageReturn | lineFeed | control => true
  | _ => false

def isExtender : ClusterClass → Bool
  | extend | linker | nonJoiner => true
  | _ => false

def isConjunctMark : ClusterClass → Bool
  | extend | linker | joiner => true
  | _ => false

def isAttached : ClusterClass → Bool
  | extend | linker | nonJoiner | joiner | spacingMark => true
  | _ => false

def continuesSyllable : ClusterClass → ClusterClass → Bool
  | leadingJamo, leadingJamo | leadingJamo, vowelJamo
  | leadingJamo, openSyllable | leadingJamo, closedSyllable
  | openSyllable, vowelJamo | vowelJamo, vowelJamo
  | openSyllable, trailingJamo | vowelJamo, trailingJamo
  | closedSyllable, trailingJamo | trailingJamo, trailingJamo => true
  | _, _ => false

end ClusterClass

end MonkeyLang.Text
