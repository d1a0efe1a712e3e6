import Servicrab.Config.Fields

/-!
# The settings of logs and watches

The tables `[project.logs]` and `[services.<name>.watch]`, and the shutdown signal
(`validation.rs`). A size is read as the source reads it, as a floating-point number of 64 bits that
is multiplied by its unit.

## Main definitions

* `LogSettings`, `parseSize`, `validateLogs`.
* `validateWatch`, `parseShutdownSignal`.

## Main results

* `inRange_of_validateLogs`, `inRange_of_validateWatch`: what is accepted is in range.
-/

namespace Servicrab

open Checked (report reject)

/-! ### Sizes -/

/-- The integer nearest to a fraction, or the even one of two. -/
def roundHalfEven (numerator denominator : ℕ) : ℕ :=
  let quotient := numerator / denominator
  let remainder := numerator % denominator
  if 2 * remainder < denominator ∨ (2 * remainder = denominator ∧ quotient % 2 = 0) then quotient
  else quotient + 1

/-- The mantissa and the exponent of the double nearest to a fraction. A mantissa has 53 bits, and
an exponent is not less than that of the smallest double. -/
def nearestDouble (numerator denominator : ℕ) : ℕ × ℤ :=
  let guess : ℤ := (numerator.log2 : ℤ) - denominator.log2
  let magnitude : ℤ :=
    if numerator * 2 ^ (-guess).toNat < denominator * 2 ^ guess.toNat then guess - 1 else guess
  let exponent : ℤ := max (magnitude - 52) (-1074)
  (roundHalfEven (numerator * 2 ^ (-exponent).toNat) (denominator * 2 ^ exponent.toNat), exponent)

/-- A decimal number without sign and exponent: its digits as a number, and how many of them stand
behind the point. -/
def parseDecimal (text : List Char) : Option (ℕ × ℕ) :=
  let (whole, fraction) := (Text.splitOnce ['.'] text).getD (text, [])
  if whole ++ fraction = [] ∨ '.' ∈ fraction then none
  else some (Text.natOfDigits (whole ++ fraction), fraction.length)

/-- How many bytes a unit has. -/
def sizeMultiplier (suffix : String) : Except String ℕ :=
  match suffix with
  | "" | "b" => .ok 1
  | "k" | "kb" | "kib" => .ok 1024
  | "m" | "mb" | "mib" => .ok (1024 ^ 2)
  | "g" | "gb" | "gib" => .ok (1024 ^ 3)
  | "t" | "tb" | "tib" => .ok (1024 ^ 4)
  | other => .error s!"unknown unit {Debug.str other}; use B, KB, MB, GB or TB"

/-- Parse a byte size such as `"512"`, `"64KB"`, `"10 MB"` or `"1GiB"`. A product that is not finite
is too large for 64 bits as well. -/
def parseSize (value : String) : Except String ℕ :=
  let trimmed := Text.trim value.toList
  if trimmed = [] then .error "the size must not be empty"
  else
    let (number, suffix) := trimmed.span fun c => c.isDigit || c == '.'
    match parseDecimal number with
    | none => .error s!"{Debug.str (String.ofList number)} is not a number"
    | some (digits, places) => do
      let multiplier ← sizeMultiplier (String.ofList ((Text.trim suffix).map Char.toLower))
      let (mantissa, exponent) := nearestDouble digits (10 ^ places)
      let bytes := mantissa * multiplier * 2 ^ exponent.toNat
      let unit := 2 ^ (-exponent).toNat
      if 2 ^ 64 * unit < bytes then .error "the size is too large"
      else return min (bytes / unit) (2 ^ 64 - 1)

example : parseSize " 1.5mb" = .ok (1024 * 1024 * 3 / 2) := by decide +kernel

/-! ### Logs -/

/-- Validated file-logging settings. -/
structure LogSettings where
  dir : String
  maxSize : ℕ
  maxFiles : ℕ
  deriving DecidableEq, Repr

/-- Default log directory, relative to the configuration file. -/
def defaultLogDir : String := ".servicrab/logs"

/-- Default rotation threshold. -/
def defaultMaxSize : ℕ := 10 * 1024 * 1024

/-- Smallest rotation threshold that still makes sense. -/
def minMaxSize : ℕ := 1024

/-- Largest accepted rotation threshold. -/
def maxMaxSize : ℕ := 1024 * 1024 * 1024 * 1024

/-- The rotation threshold of a table, or the default with an error. -/
def validateMaxSize (raw : Option String) : Validation ℕ :=
  match raw with
  | none => pure defaultMaxSize
  | some value =>
    match parseSize value with
    | .ok size =>
      if minMaxSize ≤ size ∧ size ≤ maxMaxSize then pure size
      else do
        report (.invalidSize "max_size" value
          s!"{size} bytes is outside the supported range ({minMaxSize} bytes to 1TB)")
        return defaultMaxSize
    | .error reason => do
      report (.invalidSize "max_size" value reason)
      return defaultMaxSize

/-- Validate a `[project.logs]` table. -/
def validateLogs (host : Host) (raw : RawLogs) (sourceDir : String) :
    Validation (Option LogSettings) :=
  let dir := Path.join sourceDir (raw.dir.getD defaultLogDir)
  if host.pathExists dir ∧ !host.isDir dir then
    Checked.skip (.invalidLogDir dir "exists but is not a directory")
  else do
    let maxSize ← validateMaxSize raw.maxSize
    let maxFiles := raw.maxFiles.getD 3
    if 100 < maxFiles then
      report (.invalidMaxFiles maxFiles)
      return none
    else return some { dir, maxSize, maxFiles }

/-- The settings are in the ranges that are accepted. -/
structure LogSettings.InRange (logs : LogSettings) : Prop where
  maxSize : logs.maxSize ∈ Set.Icc minMaxSize maxMaxSize
  maxFiles : logs.maxFiles ≤ 100

variable {host : Host}

theorem validateMaxSize_mem (raw : Option String) :
    (validateMaxSize raw).value ∈ Set.Icc minMaxSize maxMaxSize := by
  have hdefault : defaultMaxSize ∈ Set.Icc minMaxSize maxMaxSize := ⟨by decide, by decide⟩
  unfold validateMaxSize
  split
  · exact hdefault
  · split
    · split_ifs with hsize
      · exact hsize
      · exact hdefault
    · exact hdefault

/-- The settings of a table are in range, if there are any. -/
theorem inRange_of_validateLogs {raw : RawLogs} {sourceDir : String} {logs : LogSettings}
    (h : (validateLogs host raw sourceDir).value = some logs) : logs.InRange := by
  simp only [validateLogs] at h
  split_ifs at h with hdir hfiles
  · cases h
  · obtain rfl := Option.some.inj h
    exact ⟨validateMaxSize_mem raw.maxSize, not_lt.mp hfiles⟩

/-! ### Watches -/

/-- Ignore entries that are always applied. -/
def alwaysIgnored : List String := [".git", ".servicrab"]

/-- Resolve the paths to watch, without those that cannot be watched. -/
def watchPaths (host : Host) (cwd service : String) (entries : List String) :
    Validation (List String) :=
  entries.foldlM
    (fun paths entry => do
      if entry = "" then
        report (.invalidWatch service "paths must not contain an empty entry")
        return paths
      else
        let resolved := Path.join cwd entry
        match host.canonicalize resolved with
        | .ok path => return paths ++ [path]
        | .error e =>
          report (.invalidWatch service s!"path {resolved} cannot be watched: {e}")
          return paths)
    []

/-- The entries to ignore, without those that are there already. -/
def watchIgnore (service : String) (entries : List String) : Validation (List String) :=
  entries.foldlM
    (fun ignore entry => do
      if entry = "" then
        report (.invalidWatch service "ignore must not contain an empty entry")
        return ignore
      else if entry ∈ ignore then return ignore
      else return ignore ++ [entry])
    alwaysIgnored

/-- Validate a `[services.<name>.watch]` table. -/
def validateWatch (host : Host) (raw : RawWatch) (cwd service : String) :
    Validation (Option WatchSettings) := do
  reject (raw.paths = []) (.invalidWatch service "paths must list at least one file or directory")
  let paths ← watchPaths host cwd service raw.paths
  let interval ← parseDurationField host raw.interval "watch.interval" (.ofSecs 1) service
    dur100ms dur1h
  let debounce ← parseDurationField host raw.debounce "watch.debounce" (.ofMillis 300) service
    (.ofMillis 50) dur1h
  let ignore ← watchIgnore service raw.ignore
  if paths = [] then return none
  else return some { paths, ignore, interval, debounce }

/-- The durations are in the ranges that are accepted. -/
structure WatchSettings.InRange (watch : WatchSettings) : Prop where
  interval : watch.interval ∈ Set.Icc dur100ms dur1h
  debounce : watch.debounce ∈ Set.Icc (Duration.ofMillis 50) dur1h

/-- The durations of a table are in range, if it is one to watch by. -/
theorem inRange_of_validateWatch {raw : RawWatch} {cwd service : String} {watch : WatchSettings}
    (h : (validateWatch host raw cwd service).value = some watch) : watch.InRange := by
  have hinterval : Duration.ofSecs 1 ∈ Set.Icc dur100ms dur1h := ⟨by decide, by decide⟩
  have hdebounce : Duration.ofMillis 300 ∈ Set.Icc (Duration.ofMillis 50) dur1h :=
    ⟨by decide, by decide⟩
  simp only [validateWatch, Checked.value_bind] at h
  split at h
  · cases h
  · obtain rfl := Option.some.inj h
    exact ⟨parseDurationField_mem hinterval, parseDurationField_mem hdebounce⟩

/-! ### The shutdown signal -/

def parseShutdownSignal (raw : Option String) (service : String) : Validation ShutdownSignal :=
  match raw.getD "term" with
  | "term" => pure .term
  | "int" => pure .int
  | "quit" => pure .quit
  | "hup" => pure .hup
  | other => do
    report (.invalidShutdownSignal service other)
    return .term

end Servicrab
