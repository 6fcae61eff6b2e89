import ObliviousStorage.Text.Combining
import ObliviousStorage.Text.Unprintable

/-!
Contract: a name as it is shown inside a message.

Owns: which characters of a name are escaped and how. Everything visible that
stands on its own is shown as it is, so two different names never look alike.

Does not own: the messages, or what a name refers to.
-/

namespace ObliviousStorage.Text

/-- The escape that spells the code point of `character` in lowercase hexadecimal,
without leading zeros. -/
def codePointEscape (character : Char) : List Char :=
  ['\\', 'u', '\x7b'] ++ Nat.toDigits 16 character.toNat ++ ['\x7d']

def quotedCharacter (character : Char) : List Char :=
  match character with
  | '\x00' => ['\\', '0']
  | '\t' => ['\\', 't']
  | '\r' => ['\\', 'r']
  | '\n' => ['\\', 'n']
  | '\\' => ['\\', '\\']
  | '"' => ['\\', '"']
  | _ =>
      if combining.contains character || unprintable.contains character then
        codePointEscape character
      else
        [character]

/-- The name between double quotes, with what could mislead a reader escaped. -/
def quoted (name : String) : String :=
  String.ofList ('"' :: name.toList.flatMap quotedCharacter ++ ['"'])

end ObliviousStorage.Text
