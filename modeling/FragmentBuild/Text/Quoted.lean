import FragmentBuild.Number.Digits
import FragmentBuild.Text.Printable

/-! Characters in quotes for a reader of messages: double quotes, backslashes and characters that
cannot be shown are escaped. -/
namespace FragmentBuild

def quotedChar (c : Char) : List Char :=
  match c with
  | '\x00' => ['\\', '0']
  | '\t' => ['\\', 't']
  | '\n' => ['\\', 'n']
  | '\r' => ['\\', 'r']
  | '"' | '\\' => ['\\', c]
  | _ =>
    if isUnprintable c then
      ['\\', 'u', '{'] ++ (digits 16 c.toNat).map Char.toLower ++ ['}']
    else [c]

end FragmentBuild
