import FragmentBuild.Toml.Text
import FragmentBuild.Toml.Value

/-! TOML values as text, each on as few lines as its strings allow. -/
namespace FragmentBuild.Toml

def writeInlineKey (key : List Char) : List Char :=
  if isBareKey key then key else (TextForm.chooseForKey key).write key

def writeInteger (number : Int) : List Char :=
  if number < 0 then '-' :: digits 10 number.natAbs else digits 10 number.natAbs

mutual

def Value.write : Value → List Char
  | .string text => writeText text.toList
  | .integer number => writeInteger number.toInt
  | .float number => number.render
  | .boolean true => ['t', 'r', 'u', 'e']
  | .boolean false => ['f', 'a', 'l', 's', 'e']
  | .moment text => text.toList
  | .array items => '[' :: writeItems items ++ [']']
  | .table [] => ['{', '}']
  | .table entries => ['{', ' '] ++ writeEntries entries ++ [' ', '}']

def writeItems : List Value → List Char
  | [] => []
  | [item] => item.write
  | item :: rest => item.write ++ [',', ' '] ++ writeItems rest

def writeEntries : List (String × Value) → List Char
  | [] => []
  | [(key, value)] => writeInlineKey key.toList ++ [' ', '=', ' '] ++ value.write
  | (key, value) :: rest =>
    writeInlineKey key.toList ++ [' ', '=', ' '] ++ value.write ++ [',', ' '] ++ writeEntries rest

end

def Value.render (value : Value) : String := String.ofList value.write

end FragmentBuild.Toml
