import MonkeyLang.Number.Layout
import MonkeyLang.Text.Quoted
import MonkeyLang.Value.Unfolding

/-!
The text of a value, as `puts` and the command line show it. Strings stand in quotes inside
arrays only, and an array inside itself is shown as `[...]`.
-/

namespace MonkeyLang

def commaSeparated : List (List Char) → List Char
  | [] => []
  | [text] => text
  | text :: rest => text ++ ',' :: ' ' :: commaSeparated rest

namespace Unfolding

mutual

def text : Unfolding → List Char
  | int n => (toString n.toInt).toList
  | uint n => (toString n.toNat).toList
  | float x => Layout.display.text x
  | str s => s.toList
  | bool b => (toString b).toList
  | nil => "nil".toList
  | array members => '[' :: commaSeparated (memberTexts members) ++ [']']
  | again => "[...]".toList
  | closure params => "fn(".toList ++ commaSeparated (params.map String.toList) ++ [')']
  | returned value => value.text

def memberTexts : List Unfolding → List (List Char)
  | [] => []
  | str s :: rest => Text.quoted s.toList :: memberTexts rest
  | member :: rest => member.text :: memberTexts rest

end

end Unfolding

def Store.text (s : Store) (value : Value) : List Char := (s.unfold value).text

end MonkeyLang
