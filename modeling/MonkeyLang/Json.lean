import MonkeyLang.Number.Layout

namespace MonkeyLang

inductive Json
  | null
  | bool (value : Bool)
  | int (value : Int)
  | float (value : Float)
  | str (value : String)
  | list (items : List Json)
  | object (members : List (String × Json))
deriving Inhabited

namespace Json

def hex4 (n : Nat) : List Char :=
  let digits := Nat.toDigits 16 n
  List.replicate (4 - digits.length) '0' ++ digits

def quotedChar (c : Char) : List Char :=
  if c = '"' then ['\\', '"']
  else if c = '\\' then ['\\', '\\']
  else if c = '\n' then ['\\', 'n']
  else if c = '\r' then ['\\', 'r']
  else if c = '\t' then ['\\', 't']
  else if c.toNat = 8 then ['\\', 'b']
  else if c.toNat = 12 then ['\\', 'f']
  else if c < ' ' then '\\' :: 'u' :: hex4 c.toNat
  else [c]

def quoted (s : String) : List Char :=
  '"' :: s.toList.flatMap quotedChar ++ ['"']

def scalarText : Json → List Char
  | bool true => "true".toList
  | bool false => "false".toList
  | int n => (toString n).toList
  | float x => if x.isFinite then Layout.json.text x else "null".toList
  | str s => quoted s
  | null | list _ | object _ => "null".toList

mutual

/-- The text without blanks, before the rest of what is written. -/
def textThen : Json → List Char → List Char
  | list items, rest => '[' :: itemsThen items (']' :: rest)
  | object members, rest =>
    Char.ofNat 0x7b :: membersThen members (Char.ofNat 0x7d :: rest)
  | null, rest => scalarText null ++ rest
  | bool b, rest => scalarText (bool b) ++ rest
  | int n, rest => scalarText (int n) ++ rest
  | float x, rest => scalarText (float x) ++ rest
  | str s, rest => scalarText (str s) ++ rest

def itemsThen : List Json → List Char → List Char
  | [], rest => rest
  | [item], rest => item.textThen rest
  | item :: next :: items, rest => item.textThen (',' :: itemsThen (next :: items) rest)

def membersThen : List (String × Json) → List Char → List Char
  | [], rest => rest
  | [(name, value)], rest => quoted name ++ ':' :: value.textThen rest
  | (name, value) :: next :: members, rest =>
    quoted name ++ ':' :: value.textThen (',' :: membersThen (next :: members) rest)

end

def text (json : Json) : List Char := json.textThen []

mutual

theorem textThen_append (json : Json) (a b : List Char) :
    json.textThen (a ++ b) = json.textThen a ++ b := by
  cases json with
  | list items => simp [textThen, ← itemsThen_append]
  | object members => simp [textThen, ← membersThen_append]
  | null | bool _ | int _ | float _ | str _ => simp [textThen]

theorem itemsThen_append (items : List Json) (a b : List Char) :
    itemsThen items (a ++ b) = itemsThen items a ++ b :=
  match items with
  | [] => by simp [itemsThen]
  | [item] => by simp [itemsThen, textThen_append item]
  | item :: next :: items => by
    simp [itemsThen, itemsThen_append (next :: items), ← textThen_append item]

theorem membersThen_append (members : List (String × Json)) (a b : List Char) :
    membersThen members (a ++ b) = membersThen members a ++ b :=
  match members with
  | [] => by simp [membersThen]
  | [(name, value)] => by simp [membersThen, textThen_append value]
  | (name, value) :: next :: members => by
    simp [membersThen, membersThen_append (next :: members), ← textThen_append value]

end

theorem textThen_eq_text_append (json : Json) (rest : List Char) :
    json.textThen rest = json.text ++ rest :=
  json.textThen_append [] rest

def lineBreak (level : Nat) : List Char :=
  '\n' :: List.replicate (2 * level) ' '

mutual

def prettyThen (level : Nat) : Json → List Char → List Char
  | list [], rest => '[' :: ']' :: rest
  | list (item :: items), rest =>
    '[' :: lineBreak (level + 1) ++
      item.prettyThen (level + 1) (prettyItems (level + 1) items (lineBreak level ++ ']' :: rest))
  | object [], rest => Char.ofNat 0x7b :: Char.ofNat 0x7d :: rest
  | object ((name, value) :: members), rest =>
    Char.ofNat 0x7b :: lineBreak (level + 1) ++ quoted name ++ ':' :: ' ' ::
      value.prettyThen (level + 1)
        (prettyMembers (level + 1) members (lineBreak level ++ Char.ofNat 0x7d :: rest))
  | null, rest => scalarText null ++ rest
  | bool b, rest => scalarText (bool b) ++ rest
  | int n, rest => scalarText (int n) ++ rest
  | float x, rest => scalarText (float x) ++ rest
  | str s, rest => scalarText (str s) ++ rest

def prettyItems (level : Nat) : List Json → List Char → List Char
  | [], rest => rest
  | item :: items, rest =>
    ',' :: lineBreak level ++ item.prettyThen level (prettyItems level items rest)

def prettyMembers (level : Nat) : List (String × Json) → List Char → List Char
  | [], rest => rest
  | (name, value) :: members, rest =>
    ',' :: lineBreak level ++ quoted name ++ ':' :: ' ' ::
      value.prettyThen level (prettyMembers level members rest)

end

def pretty (json : Json) : List Char := json.prettyThen 0 []

end Json

end MonkeyLang
