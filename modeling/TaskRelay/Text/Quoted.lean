import TaskRelay.Text.Hidden
import TaskRelay.Text.Digits

/-!
# Quoted text

A text in double quotes, for reports: the usual escapes, and the code point in braces for a
character that would not show.
-/

namespace TaskRelay.Text

def quotedChar (c : Char) : List Char :=
  if c == '\x00' then ['\\', '0']
  else if c == '\t' then ['\\', 't']
  else if c == '\r' then ['\\', 'r']
  else if c == '\n' then ['\\', 'n']
  else if c == '"' || c == '\\' then ['\\', c]
  else if isHidden c then ['\\', 'u', '\x7b'] ++ hex c.toNat ++ ['\x7d']
  else [c]

def quoted (s : String) : String :=
  String.ofList ('"' :: s.toList.flatMap quotedChar ++ ['"'])

end TaskRelay.Text
