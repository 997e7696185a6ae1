import MonkeyLang.Text.GraphemeExtend
import MonkeyLang.Text.Unprintable

/-!
Strings in quotes, as values are shown inside arrays: quote, backslash and the common control
characters have an escape of their own, and a character that could not be seen, or that would
join the one before it, is written by its code point.
-/

namespace MonkeyLang.Text

/-- The halfwidth sound marks of kana: they extend the character before them, but have a place of
    their own. -/
def soundMarks : List CodeRange := [⟨0xff9e, 0xff9f⟩]

/-- The Hangul fillers: letters that are never seen. -/
def fillers : List CodeRange :=
  [⟨0x115f, 0x1160⟩, ⟨0x3164, 0x3164⟩, ⟨0xffa0, 0xffa0⟩]

def isJoined (c : Char) : Bool := inRanges graphemeExtend c && !inRanges soundMarks c

def isHidden (c : Char) : Bool :=
  isJoined c || inRanges unprintable c || inRanges fillers c

def codePoint (c : Char) : List Char :=
  ['\\', 'u', Char.ofNat 0x7b] ++ Nat.toDigits 16 c.toNat ++ [Char.ofNat 0x7d]

def quotedChar (c : Char) : List Char :=
  if c = '"' then ['\\', '"']
  else if c = '\\' then ['\\', '\\']
  else if c = '\n' then ['\\', 'n']
  else if c = '\r' then ['\\', 'r']
  else if c = '\t' then ['\\', 't']
  else if c = Char.ofNat 0 then ['\\', '0']
  else if ' ' ≤ c && c ≤ '~' then [c]
  else if isHidden c then codePoint c
  else [c]

def quoted (cs : List Char) : List Char :=
  '"' :: cs.flatMap quotedChar ++ ['"']

end MonkeyLang.Text
