import Servicrab.Config.Host
import Servicrab.Config.Text

/-!
# Environment files

The parser of dotenv-style files (`envfile.rs`).

## Main definitions

* `EnvFile.parse`, `EnvFile.load`.
-/

open Std (ExtTreeMap)

namespace Servicrab

/-- Why an environment file could not be turned into key/value pairs. -/
inductive EnvFileError
  | read (reason : String)
  | malformed (line : ℕ) (reason : String)
  deriving DecidableEq, Repr

instance : ToString EnvFileError where
  toString
    | .read reason => reason
    | .malformed line reason => s!"line {line}: {reason}"

namespace EnvFile

def singleQuote : Char := Char.ofNat 39

/-- What an escape in a quoted value stands for. -/
def unescape (c : Char) : List Char :=
  if c = 'n' then ['\n']
  else if c = 'r' then ['\r']
  else if c = 't' then ['\t']
  else if c = '\\' ∨ c = '"' ∨ c = '$' then [c]
  else ['\\', c]

/-- A quoted value behind its opening quote, and what follows the closing one. -/
def scanQuoted (quote : Char) (escapes : Bool) (out : List Char) :
    List Char → Except String (List Char × List Char)
  | [] => .error s!"unterminated {quote} quote"
  | c :: text =>
    if c = quote then .ok (out, text)
    else if escapes ∧ c = '\\' then
      match text with
      | [] => .error "value ends with a dangling backslash"
      | escaped :: text => scanQuoted quote escapes (out ++ unescape escaped) text
    else scanQuoted quote escapes (out ++ [c]) text

/-- Parse a quoted value, which begins with its quote. -/
def unquote (raw : List Char) (quote : Char) (escapes : Bool) : Except String (List Char) := do
  let (out, text) ← scanQuoted quote escapes [] (raw.drop 1)
  let trailing := Text.trim text
  if trailing ≠ [] ∧ trailing.head? ≠ some '#' then
    .error s!"unexpected text after the closing quote: {Debug.str (String.ofList trailing)}"
  else return out

/-- `u8::is_ascii_whitespace`. -/
def isAsciiWhitespace (c : Char) : Bool :=
  c == ' ' || c == '\t' || c == '\n' || c == '\x0C' || c == '\r'

/-- Strip a comment from an unquoted value, after a blank. -/
def stripTrailingComment (afterBlank : Bool) : List Char → List Char
  | [] => []
  | c :: text =>
    if c = '#' ∧ afterBlank then [] else c :: stripTrailingComment (isAsciiWhitespace c) text

def parseValue (raw : List Char) : Except String (List Char) :=
  if raw.head? = some '"' then unquote raw '"' true
  else if raw.head? = some singleQuote then unquote raw singleQuote false
  else .ok (Text.trimEnd (stripTrailingComment true raw))

/-- One line: nothing, or a key and its value. -/
def parseLine (rawLine : List Char) : Except String (Option (String × String)) :=
  let line := Text.trim rawLine
  if line = [] ∨ line.head? = some '#' then .ok none
  else
    let line := match Text.stripPrefix "export ".toList line with
      | some line => Text.trimStart line
      | none => line
    match Text.splitOnce ['='] line with
    | none => .error s!"expected KEY=VALUE, got {Debug.str (String.ofList line)}"
    | some (key, value) =>
      let key := Text.trim key
      if key = [] ∨ key.any Text.isWhitespace ∨ '\x00' ∈ key then
        .error s!"invalid key {Debug.str (String.ofList key)}"
      else do
        let value ← parseValue (Text.trimStart value)
        return some (String.ofList key, String.ofList value)

/-- The lines from a number on, with the pairs of those before it. A later assignment to the same
key wins. -/
def parseLines (out : ExtTreeMap String String) :
    ℕ → List (List Char) → Except EnvFileError (ExtTreeMap String String)
  | _, [] => .ok out
  | number, line :: lines =>
    match parseLine line with
    | .error reason => .error (.malformed number reason)
    | .ok none => parseLines out (number + 1) lines
    | .ok (some (key, value)) => parseLines (out.insert key value) (number + 1) lines

/-- Parse the contents of a dotenv-style file. -/
def parse (text : String) : Except EnvFileError (ExtTreeMap String String) :=
  let text := (Text.stripPrefix ['\uFEFF'] text.toList).getD text.toList
  parseLines ∅ 1 (Text.lines text)

/-- Read a dotenv-style file. -/
def load (host : Host) (path : String) : Except EnvFileError (ExtTreeMap String String) :=
  match host.readToString path with
  | .error reason => .error (.read reason)
  | .ok text => parse text

end EnvFile

end Servicrab
