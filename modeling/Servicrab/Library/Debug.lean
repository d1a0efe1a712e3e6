import Mathlib.Data.Nat.Notation

/-!
# Texts rendered for debugging

A character or a string as `{:?}` renders it: between quotes, with escapes for the quote itself, the
backslash and the control characters. All other characters are taken for ones that print.

## Main definitions

* `Debug.char`, `Debug.str`.
-/

namespace Debug

/-- Whether a character does not print: the control characters and the soft hyphen. -/
def isControl (c : Char) : Bool :=
  c.toNat < 32 || 127 ≤ c.toNat && c.toNat < 160 || c.toNat == 173

/-- How a character reads between quotes of some kind. -/
def escape (quote c : Char) : List Char :=
  if c = Char.ofNat 0 then ['\\', '0']
  else if c = '\t' then ['\\', 't']
  else if c = '\r' then ['\\', 'r']
  else if c = '\n' then ['\\', 'n']
  else if c = quote ∨ c = '\\' then ['\\', c]
  else if isControl c then "\\u\x7b".toList ++ Nat.toDigits 16 c.toNat ++ ['\x7d']
  else [c]

def quoted (quote : Char) (text : List Char) : String :=
  String.ofList (quote :: (text.flatMap (escape quote) ++ [quote]))

def char (c : Char) : String := quoted (Char.ofNat 39) [c]

def str (s : String) : String := quoted '"' s.toList

example : str (String.ofList [Char.ofNat 0, 'a', Char.ofNat 39, '"', Char.ofNat 7]) =
    "\"\\0a'\\\"\\u\x7b7\x7d\"" := by decide +kernel

end Debug
