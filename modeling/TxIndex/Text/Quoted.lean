import TxIndex.Text.Combining
import TxIndex.Text.Unprintable

/-! # Quoted text

Texts that come from outside are quoted in messages so that every character can be told: the
quotation mark, the backslash and the common control characters get a short escape, and whatever
else does not show by itself is written by its number. -/
namespace TxIndex
namespace Text

/-- A character by its number: `\u`, then the lowercase hexadecimal digits in braces. -/
def numbered (c : Char) : List Char :=
  '\\' :: 'u' :: '\x7b' :: Nat.toDigits 16 c.toNat ++ ['\x7d']

/-- A character as it stands between quotation marks. -/
def quotedChar (c : Char) : List Char :=
  if c = '"' then ['\\', '"']
  else if c = '\\' then ['\\', '\\']
  else if c = '\x00' then ['\\', '0']
  else if c = '\t' then ['\\', 't']
  else if c = '\n' then ['\\', 'n']
  else if c = '\r' then ['\\', 'r']
  else if isCombining c || isUnprintable c then numbered c
  else [c]

/-- A text between quotation marks. -/
def quoted (s : String) : String :=
  String.ofList ('"' :: s.toList.flatMap quotedChar ++ ['"'])

end Text
end TxIndex
